/-
# OpenClaw.Process.GatewayRootWork -- references to admitted root work

A root is active while someone holds a release closure of it that was not called, and until a reset
retires it.  `RootsCounted` ties the three records of that together: the active set, the `released` flag
and the reference count.  The count is the number of unreleased handles, by `Table.total_upsert`.
-/
import OpenClaw.Process.GatewayAdmissionInvariant

namespace OpenClaw.Process.GatewayAdmission

open OpenClaw.Logic OpenClaw.Data

def holds (root : Nat) (handle : ReleaseHandle) : Nat :=
  if handle.root = root ∧ handle.leaseReleased = false then 1 else 0

/-- The number of handles on `root` that were not released. -/
def unreleased (w : RootWorkSet) (root : Nat) : Nat := w.handles.total (holds root)

variable {w : RootWorkSet}

theorem unreleased_pos {root : Nat} : 0 < unreleased w root ↔ ∃ release handle, w.handles.find release = some handle ∧
      handle.root = root ∧ handle.leaseReleased = false := by
  unfold unreleased
  rw [Table.total_pos]
  refine exists_congr fun release => exists_congr fun handle => and_congr_right fun _ => ?_
  unfold holds
  split
  · rename_i hholds
    exact ⟨fun _ => hholds, fun _ => Nat.one_pos⟩
  · rename_i hholds
    exact ⟨fun hpos => absurd hpos (Nat.lt_irrefl 0), fun hboth => absurd hboth hholds⟩

structure RootsCounted (w : RootWorkSet) : Prop where
  rootKnown : ∀ root admission, w.roots.find root = some admission → root < w.nextRoot
  handleKnown : ∀ release handle, w.handles.find release = some handle →
    release < w.nextHandle ∧ ∃ admission, w.roots.find handle.root = some admission
  active : ∀ root, root ∈ w.activeRootWork ↔
    ∃ admission, w.roots.find root = some admission ∧ admission.released = false
  counted : ∀ root admission, w.roots.find root = some admission → admission.retired = false →
    admission.references = unreleased w root ∧ (admission.released = false ↔ 0 < unreleased w root)
  retired : ∀ root admission, w.roots.find root = some admission → admission.retired = true → admission.released = true

namespace RootsCounted

variable {w : RootWorkSet}

theorem freshHandle (h : RootsCounted w) : w.handles.find w.nextHandle = none := by
  by_contra hne
  obtain ⟨handle, hfind⟩ := Option.ne_none_iff_exists'.mp hne
  exact absurd (h.handleKnown _ handle hfind).1 (Nat.lt_irrefl _)

theorem freshRoot (h : RootsCounted w) : w.roots.find w.nextRoot = none := by
  by_contra hne
  obtain ⟨admission, hfind⟩ := Option.ne_none_iff_exists'.mp hne
  exact absurd (h.rootKnown _ admission hfind) (Nat.lt_irrefl _)

/-- Nobody holds a root that is not there yet. -/
theorem unreleased_freshRoot (h : RootsCounted w) : unreleased w w.nextRoot = 0 := by
  by_contra hne
  obtain ⟨release, handle, hfind, hroot, -⟩ := unreleased_pos.mp (Nat.pos_of_ne_zero hne)
  obtain ⟨admission, hknown⟩ := (h.handleKnown release handle hfind).2
  rw [hroot, h.freshRoot] at hknown
  cases hknown

end RootsCounted

/-- A new handle counts for its own root. -/
theorem unreleased_create {w : RootWorkSet} (h : w.handles.find w.nextHandle = none) (root other : Nat) :
    unreleased (createGatewayRootWorkRelease w root).1 other
      = unreleased w other + if root = other then 1 else 0 := by
  have htotal := Table.total_upsert_new (r := { root, leaseReleased := false }) (holds other) h
  refine htotal.trans ?_
  simp [unreleased, holds]

/-- Releasing a handle takes one off the count of its root. -/
theorem unreleased_release {w : RootWorkSet} {release : Nat} {handle : ReleaseHandle}
    (hfind : w.handles.find release = some handle) (hheld : handle.leaseReleased = false)
    (other : Nat) :
    (w.handles.upsert release { handle with leaseReleased := true }).total (holds other)
        + (if handle.root = other then 1 else 0)
      = unreleased w other := by
  have htotal := Table.total_upsert w.handles release { handle with leaseReleased := true } (holds other)
  rw [hfind] at htotal
  simpa [holds, hheld, unreleased] using htotal

/-- **A new root** starts with the one reference of its lease. -/
theorem createGatewayRootWorkAdmission_counted (h : RootsCounted w) :
    RootsCounted (createGatewayRootWorkAdmission w).1 := by
  have hcount : ∀ root, unreleased (createGatewayRootWorkAdmission w).1 root
      = unreleased w root + if w.nextRoot = root then 1 else 0 :=
    unreleased_create h.freshHandle w.nextRoot
  refine ⟨fun root admission hfind => ?_, fun release handle hfind => ?_, fun root => ?_,
    fun root admission hfind hretired => ?_, fun root admission hfind hretired => ?_⟩
  · show root < w.nextRoot + 1
    by_cases hroot : root = w.nextRoot
    · omega
    · have hold := h.rootKnown root admission ((Table.find_upsert_ne _ hroot _).symm.trans hfind)
      omega
  · show release < w.nextHandle + 1 ∧ ∃ admission,
      (w.roots.upsert w.nextRoot _).find handle.root = some admission
    by_cases hrelease : release = w.nextHandle
    · subst hrelease
      cases (Table.find_upsert_self _ _ _).symm.trans hfind
      exact ⟨Nat.lt_succ_self _, _, Table.find_upsert_self _ _ _⟩
    · obtain ⟨hlt, admission, hknown⟩ :=
        h.handleKnown release handle ((Table.find_upsert_ne _ hrelease _).symm.trans hfind)
      have hne : handle.root ≠ w.nextRoot := Nat.ne_of_lt (h.rootKnown _ admission hknown)
      exact ⟨by omega, admission, (Table.find_upsert_ne _ hne _).trans hknown⟩
  · show root ∈ w.activeRootWork ++ [w.nextRoot] ↔ ∃ admission,
      (w.roots.upsert w.nextRoot _).find root = some admission ∧ admission.released = false
    rw [List.mem_append, List.mem_singleton, Table.find_upsert]
    split
    · rename_i hroot
      exact ⟨fun _ => ⟨_, rfl, rfl⟩, fun _ => .inr hroot⟩
    · rename_i hroot
      rw [← h.active root]
      exact ⟨fun hmem => hmem.resolve_right hroot, .inl⟩
  · rw [hcount root]
    have hnew : (w.roots.upsert w.nextRoot _).find root = some admission := hfind
    rw [Table.find_upsert] at hnew
    split at hnew
    · rename_i hroot
      cases hnew
      rw [hroot, h.unreleased_freshRoot]
      simp
    · rename_i hroot
      have hother : ¬ w.nextRoot = root := fun heq => hroot heq.symm
      simpa [hother] using h.counted root admission hnew hretired
  · have hnew : (w.roots.upsert w.nextRoot _).find root = some admission := hfind
    rw [Table.find_upsert] at hnew
    split at hnew
    · cases hnew
      cases hretired
    · exact h.retired root admission hnew hretired

theorem liveRoot_eq_some {current : Option Nat} {root : Nat} {admission : RootWork}
    (h : liveRoot w current = some (root, admission)) : w.roots.find root = some admission ∧
      admission.released = false := by
  unfold liveRoot at h
  split at h
  · cases h
  · split at h
    · cases h
    · rename_i hfind
      split at h
      · cases h
      · rename_i hreleased
        cases h
        exact ⟨hfind, by simpa using hreleased⟩

/-- **A continuation** adds a handle and a reference to a root that is active anyway. -/
theorem retain_counted (h : RootsCounted w) (current : Option Nat) :
    RootsCounted (retainGatewayRootWorkAdmissionContinuation w current).1 := by
  unfold retainGatewayRootWorkAdmissionContinuation
  split
  · exact h
  · rename_i root admission hlive
    obtain ⟨hfind, hreleased⟩ := liveRoot_eq_some hlive
    let retained : RootWorkSet := { w with
      roots := w.roots.upsert root { admission with references := admission.references + 1 } }
    have hcount : ∀ other, unreleased (createGatewayRootWorkRelease retained root).1 other
        = unreleased w other + if root = other then 1 else 0 :=
      unreleased_create h.freshHandle root
    show RootsCounted (createGatewayRootWorkRelease retained root).1
    refine ⟨fun other row hrow => ?_, fun release handle hhandle => ?_, fun other => ?_,
      fun other row hrow hretired => ?_, fun other row hrow hretired => ?_⟩
    · show other < w.nextRoot
      by_cases hroot : other = root
      · exact hroot ▸ h.rootKnown root admission hfind
      · exact h.rootKnown other row ((Table.find_upsert_ne _ hroot _).symm.trans hrow)
    · show release < w.nextHandle + 1 ∧ ∃ row, (w.roots.upsert root _).find handle.root = some row
      by_cases hrelease : release = w.nextHandle
      · subst hrelease
        cases (Table.find_upsert_self _ _ _).symm.trans hhandle
        exact ⟨Nat.lt_succ_self _, _, Table.find_upsert_self _ _ _⟩
      · obtain ⟨hlt, row, hknown⟩ :=
          h.handleKnown release handle ((Table.find_upsert_ne _ hrelease _).symm.trans hhandle)
        refine ⟨by omega, ?_⟩
        rw [Table.find_upsert]
        split
        · exact ⟨_, rfl⟩
        · exact ⟨row, hknown⟩
    · show other ∈ w.activeRootWork ↔ ∃ row,
        (w.roots.upsert root _).find other = some row ∧ row.released = false
      rw [h.active other, Table.find_upsert]
      split
      · rename_i hroot
        exact ⟨fun _ => ⟨_, rfl, hreleased⟩, fun _ => ⟨admission, hroot ▸ hfind, hreleased⟩⟩
      · exact Iff.rfl
    · rw [hcount other]
      have hnew : (w.roots.upsert root _).find other = some row := hrow
      rw [Table.find_upsert] at hnew
      split at hnew
      · rename_i hroot
        cases hnew
        have hold := (h.counted root admission hfind hretired).1
        rw [hroot, if_pos rfl]
        refine ⟨?_, fun _ => Nat.succ_pos _, fun _ => hreleased⟩
        show admission.references + 1 = _
        omega
      · rename_i hroot
        have hother : ¬ root = other := fun heq => hroot heq.symm
        simpa [hother] using h.counted other row hnew hretired
    · have hnew : (w.roots.upsert root _).find other = some row := hrow
      rw [Table.find_upsert] at hnew
      split at hnew
      · cases hnew
        exact h.retired root admission hfind hretired
      · exact h.retired other row hnew hretired

/-- Releasing `handle` leaves `after` on its root: with one reference less, and active exactly while
there is another. -/
theorem dropReference_counted {w : RootWorkSet} {release : Nat} {handle : ReleaseHandle}
    {admission after : RootWork} {active : List Nat} (h : RootsCounted w) (waiters : List Nat)
    (hhandle : w.handles.find release = some handle) (hheld : handle.leaseReleased = false)
    (hfind : w.roots.find handle.root = some admission) (hreleased : admission.released = false)
    (hlive : admission.retired = false) (hafter : after.retired = false)
    (hreferences : after.references = admission.references - 1)
    (hlast : after.released = false ↔ 0 < after.references)
    (hactive : ∀ root, root ∈ active ↔
      root ∈ w.activeRootWork ∧ (root = handle.root → after.released = false)) :
    RootsCounted { w with
      handles := w.handles.upsert release { handle with leaseReleased := true }
      roots := w.roots.upsert handle.root after
      activeRootWork := active
      rootDrainWaiters := waiters } := by
  have hcount := unreleased_release hhandle hheld
  refine ⟨fun root row hrow => ?_, fun other row hrow => ?_, fun root => ?_,
    fun root row hrow hretired => ?_, fun root row hrow hretired => ?_⟩
  · show root < w.nextRoot
    by_cases hroot : root = handle.root
    · exact hroot ▸ h.rootKnown _ admission hfind
    · exact h.rootKnown root row ((Table.find_upsert_ne _ hroot _).symm.trans hrow)
  · show other < w.nextHandle ∧ ∃ row', (w.roots.upsert handle.root after).find row.root = some row'
    have hknown : other < w.nextHandle ∧ ∃ row', w.roots.find row.root = some row' := by
      by_cases hother : other = release
      · subst hother
        cases (Table.find_upsert_self _ _ _).symm.trans hrow
        exact h.handleKnown other handle hhandle
      · exact h.handleKnown other row ((Table.find_upsert_ne _ hother _).symm.trans hrow)
    refine ⟨hknown.1, ?_⟩
    rw [Table.find_upsert]
    split
    · exact ⟨_, rfl⟩
    · exact hknown.2
  · show root ∈ active ↔ ∃ row,
      (w.roots.upsert handle.root after).find root = some row ∧ row.released = false
    rw [hactive root, h.active root, Table.find_upsert]
    split
    · rename_i hroot
      constructor
      · rintro ⟨-, hopen⟩
        exact ⟨after, rfl, hopen hroot⟩
      · rintro ⟨row, hrow, hopen⟩
        cases hrow
        exact ⟨⟨admission, hroot ▸ hfind, hreleased⟩, fun _ => hopen⟩
    · rename_i hroot
      exact ⟨fun hboth => hboth.1, fun hopen => ⟨hopen, fun heq => absurd heq hroot⟩⟩
  · have hself := hcount root
    show row.references = ((w.handles.upsert release _).total (holds root) : Nat) ∧
      (row.released = false ↔ 0 < (w.handles.upsert release _).total (holds root))
    have hnew : (w.roots.upsert handle.root after).find root = some row := hrow
    rw [Table.find_upsert] at hnew
    split at hnew
    · rename_i hroot
      cases hnew
      rw [if_pos hroot.symm] at hself
      have hold := (h.counted handle.root admission hfind hlive).1
      rw [← hroot] at hold
      refine ⟨by omega, hlast.trans ?_⟩
      constructor
      · intro hpos
        omega
      · intro hpos
        omega
    · rename_i hroot
      have hother : ¬ handle.root = root := fun heq => hroot heq.symm
      rw [if_neg hother, Nat.add_zero] at hself
      rw [hself]
      exact h.counted root row hnew hretired
  · have hnew : (w.roots.upsert handle.root after).find root = some row := hrow
    rw [Table.find_upsert] at hnew
    split at hnew
    · cases hnew
      rw [hafter] at hretired
      cases hretired
    · exact h.retired root row hnew hretired

/-- **Releasing** takes one reference off the root of the handle, and the root out of the active set with
the last one. -/
theorem releaseRootWork_counted (h : RootsCounted w) (release : Nat) : RootsCounted (releaseRootWork w release) := by
  unfold releaseRootWork
  split
  · exact h
  · rename_i handle hhandle
    split
    · exact h
    · rename_i admission hfind
      split
      · exact h
      · rename_i hopen
        obtain ⟨hheld, hreleased⟩ : handle.leaseReleased = false ∧ admission.released = false := by
          simpa using hopen
        -- A retired root is released, so this one counts.
        have hlive : admission.retired = false := by
          by_contra hretired
          have hgone := h.retired _ admission hfind (by simpa using hretired)
          rw [hreleased] at hgone
          cases hgone
        dsimp only
        split
        · rename_i hmore
          refine dropReference_counted h w.rootDrainWaiters hhandle hheld hfind hreleased hlive hlive
            rfl ?_ fun root => ?_
          · exact ⟨fun _ => hmore, fun _ => hreleased⟩
          · exact ⟨fun hmem => ⟨hmem, fun _ => hreleased⟩, fun hboth => hboth.1⟩
        · rename_i hnone
          have hleft : ∀ waiters, RootsCounted { w with
              handles := w.handles.upsert release { handle with leaseReleased := true }
              roots := w.roots.upsert handle.root
                { admission with references := admission.references - 1, released := true }
              activeRootWork := w.activeRootWork.filter (· ≠ handle.root)
              rootDrainWaiters := waiters } := by
            intro waiters
            refine dropReference_counted h waiters hhandle hheld hfind hreleased hlive hlive
              rfl ?_ fun root => ?_
            · exact ⟨fun hfalse => Bool.noConfusion hfalse, fun hmore => absurd hmore hnone⟩
            · rw [List.mem_filter]
              simp
          unfold leaveRootWork
          dsimp only
          split
          · exact hleft []
          · exact hleft w.rootDrainWaiters

/-- The loop retires the roots it is given, and no other. -/
theorem find_retireRoots (active : List Nat) (roots : Table Nat RootWork) (root : Nat) :
    (active.foldl retireRoot roots).find root =
      if root ∈ active then
        (roots.find root).map fun _ => { references := 0, released := true, retired := true }
      else roots.find root := by
  induction active generalizing roots with
  | nil => simp
  | cons head tail ih =>
    have hhead : (retireRoot roots head).find root =
        if root = head then
          (roots.find root).map fun _ => { references := 0, released := true, retired := true }
        else roots.find root := by
      unfold retireRoot
      split
      · rename_i hnone
        split
        · rename_i hroot
          rw [hroot, hnone]
          rfl
        · rfl
      · rename_i admission hfind
        rw [Table.find_upsert]
        split
        · rename_i hroot
          rw [hroot, hfind]
          rfl
        · rfl
    rw [List.foldl_cons, ih, hhead]
    by_cases hroot : root = head
    · simp [hroot, Function.comp_def]
    · simp [hroot]

/-- **A reset** retires exactly the active roots; the handles it abandons stay as they are. -/
theorem retireRootWork_counted (h : RootsCounted w) : RootsCounted (retireRootWork w) := by
  have hroots : ∀ root admission, (retireRootWork w).roots.find root = some admission →
      ∃ before, w.roots.find root = some before ∧
        ((root ∈ w.activeRootWork ∧ admission.released = true ∧ admission.retired = true) ∨
          (root ∉ w.activeRootWork ∧ admission = before)) := by
    intro root admission hfind
    have hnew : (w.activeRootWork.foldl retireRoot w.roots).find root = some admission := hfind
    rw [find_retireRoots] at hnew
    split at hnew
    · rename_i hmem
      obtain ⟨before, hbefore, rfl⟩ := Option.map_eq_some_iff.mp hnew
      exact ⟨before, hbefore, .inl ⟨hmem, rfl, rfl⟩⟩
    · rename_i hmem
      exact ⟨admission, hnew, .inr ⟨hmem, rfl⟩⟩
  refine ⟨fun root admission hfind => ?_, fun release handle hfind => ?_, fun root => ?_,
    fun root admission hfind hretired => ?_, fun root admission hfind hretired => ?_⟩
  · obtain ⟨before, hbefore, -⟩ := hroots root admission hfind
    exact h.rootKnown root before hbefore
  · obtain ⟨hlt, admission, hknown⟩ := h.handleKnown release handle hfind
    refine ⟨hlt, ?_⟩
    show ∃ admission, (w.activeRootWork.foldl retireRoot w.roots).find handle.root = some admission
    rw [find_retireRoots, hknown]
    split
    · exact ⟨_, rfl⟩
    · exact ⟨_, rfl⟩
  · constructor
    · intro hmem
      cases hmem
    · rintro ⟨admission, hfind, hopen⟩
      obtain ⟨before, hbefore, hretired | hkept⟩ := hroots root admission hfind
      · rw [hretired.2.1] at hopen
        cases hopen
      · exact absurd ((h.active root).mpr ⟨before, hbefore, hkept.2 ▸ hopen⟩) hkept.1
  · obtain ⟨before, hbefore, hgone | hkept⟩ := hroots root admission hfind
    · rw [hgone.2.2] at hretired
      cases hretired
    · exact h.counted root admission (hkept.2 ▸ hbefore) hretired
  · obtain ⟨before, hbefore, hgone | hkept⟩ := hroots root admission hfind
    · exact hgone.2.1
    · exact h.retired root admission (hkept.2 ▸ hbefore) hretired

theorem waitForActive_counted (h : RootsCounted w) (timeoutMs : Option Int) (waiter : Nat) :
    RootsCounted (waitForActiveGatewayRootWork w timeoutMs waiter).1 := by
  unfold waitForActiveGatewayRootWork
  split
  · exact h
  · split
    · exact h
    · exact ⟨h.rootKnown, h.handleKnown, h.active, h.counted, h.retired⟩

/-- A round at the gate changes the work as `tryBegin` does. -/
theorem beginWhenOpen_counted {s : Gateway} (h : RootsCounted s.work) (kind : WaiterKind)
    (current : Option Nat) : RootsCounted (beginWhenOpen s kind current).1.work := by
  have hbegin : RootsCounted (tryBegin s kind current).1.work := by
    rcases (tryBegin_spec s kind current).2.1 with hwork | hwork
    · exact hwork ▸ h
    · exact hwork ▸ createGatewayRootWorkAdmission_counted h
  unfold beginWhenOpen
  split
  · exact h
  · split
    · rename_i hs'
      rw [hs'] at hbegin
      exact hbegin
    · rename_i hs'
      rw [hs'] at hbegin
      exact hbegin

theorem stepGateway?_counted {s s' : Gateway} {event : AdmissionEvent}
    (hstep : stepGateway? s event = some s') (h : RootsCounted s.work) : RootsCounted s'.work := by
  cases event with
  | tryBegin kind current =>
    cases hstep
    rcases (tryBegin_spec s kind current).2.1 with hwork | hwork
    · exact hwork ▸ h
    · exact hwork ▸ createGatewayRootWorkAdmission_counted h
  | beginWhenOpen kind current =>
    cases hstep
    exact beginWhenOpen_counted h kind current
  | beginContinuation current =>
    cases hstep
    show RootsCounted (beginContinuation s current).1.work
    unfold beginContinuation
    split
    · exact beginWhenOpen_counted h _ current
    · exact createGatewayRootWorkAdmission_counted h
  | wakes position =>
    obtain ⟨waiter, -, rfl⟩ := Option.map_eq_some_iff.mp hstep
    have hwoken : RootsCounted { s with
        gate := { s.gate with woken := s.gate.woken.eraseIdx position } }.work := h
    exact beginWhenOpen_counted hwoken waiter.kind waiter.current
  | retain current =>
    cases hstep
    exact retain_counted h current
  | release handle =>
    cases hstep
    exact releaseRootWork_counted h handle
  | waitForActive timeoutMs =>
    cases hstep
    exact waitForActive_counted h timeoutMs _
  | drainWaiterReturns waiter =>
    cases hstep
    exact ⟨h.rootKnown, h.handleKnown, h.active, h.counted, h.retired⟩
  | beginSuspend | beginRestartSignal | markRestartDraining =>
    cases hstep
    exact h
  | suspendLease _ _ | rollbackRestartSignal _ =>
    obtain ⟨lease, -, rfl⟩ := Option.map_eq_some_iff.mp hstep
    exact h
  | reset =>
    cases hstep
    show RootsCounted (resetGatewayWorkAdmission s).work
    unfold resetGatewayWorkAdmission
    dsimp only
    split
    · exact retireRootWork_counted h
    · exact retireRootWork_counted h
  | resetTail =>
    simp only [stepGateway?] at hstep
    split at hstep
    · cases hstep
    · cases hstep
      exact h

/-! ## Every run -/

/-- A reset took `root` out. -/
def Retired (w : RootWorkSet) (root : Nat) : Prop :=
  ∃ admission, w.roots.find root = some admission ∧ admission.retired = true

/-- What the invariants say of a gateway, in the words of its callers: `leases` and `signals` of the
operations a lease offers, `roots` of the work that is in, `parked` and `draining` of those who wait. -/
structure AdmissionSound (s : Gateway) : Prop where
  leases : ∀ i lease operation, s.gate.suspendLeases[i]? = some lease →
    ((suspendLeaseOperation s.gate lease operation).2 = true ↔
      LatestSuspend s.gate i lease ∧ s.gate.suspendPhase = operation.expected) ∧
    ((suspendLeaseOperation s.gate lease operation).2 = false →
      (suspendLeaseOperation s.gate lease operation).1 = s.gate)
  signals : ∀ i lease, s.gate.signalLeases[i]? = some lease →
    ((rollbackRestartSignal s.gate lease).2 = true ↔
      lease.generation.isSome = true ∧ LatestSignal s.gate i lease ∧
        s.gate.restartSignalPending = true) ∧
    ((rollbackRestartSignal s.gate lease).2 = false → (rollbackRestartSignal s.gate lease).1 = s.gate)
  roots : ∀ root, root ∈ s.work.activeRootWork ↔
    (∃ release handle, s.work.handles.find release = some handle ∧ handle.root = root ∧
      handle.leaseReleased = false) ∧ ¬ Retired s.work root
  parked : isGatewayWorkAdmissionClosed s.gate = false ∨ s.gate.restartDraining = true → s.gate.suspendOpenWaiters = []
  draining : s.work.activeRootWork = [] → s.work.rootDrainWaiters = []

/-- The three invariants together. -/
structure GatewayInvariant (s : Gateway) : Prop where
  waits : NoneStranded s
  fenced : LeasesFenced s.gate
  counted : RootsCounted s.work

theorem stepGateway?_invariant (s : Gateway) (event : AdmissionEvent) (s' : Gateway)
    (hstep : stepGateway? s event = some s') (h : GatewayInvariant s) : GatewayInvariant s' :=
  ⟨stepGateway?_waits hstep h.waits, stepGateway?_fenced hstep h.fenced, stepGateway?_counted hstep h.counted⟩

/-- **Active roots** are those with an unreleased reference that no reset retired. -/
theorem mem_activeRootWork (h : RootsCounted w) (root : Nat) : root ∈ w.activeRootWork ↔
      (∃ release handle, w.handles.find release = some handle ∧ handle.root = root ∧ handle.leaseReleased = false) ∧
      ¬ Retired w root := by
  rw [h.active root, ← unreleased_pos]
  constructor
  · rintro ⟨admission, hfind, hopen⟩
    have hlive : admission.retired = false := by
      by_contra hretired
      have hgone := h.retired root admission hfind (by simpa using hretired)
      rw [hopen] at hgone
      cases hgone
    refine ⟨((h.counted root admission hfind hlive).2).mp hopen, ?_⟩
    rintro ⟨other, hother, hretired⟩
    cases hfind.symm.trans hother
    rw [hlive] at hretired
    cases hretired
  · rintro ⟨hpos, hlive⟩
    obtain ⟨release, handle, hhandle, hroot, -⟩ := unreleased_pos.mp hpos
    obtain ⟨admission, hfind⟩ := (h.handleKnown release handle hhandle).2
    rw [hroot] at hfind
    have hretired : admission.retired = false := by
      by_contra hretired
      exact hlive ⟨admission, hfind, by simpa using hretired⟩
    exact ⟨admission, hfind, ((h.counted root admission hfind hretired).2).mpr hpos⟩

theorem GatewayInvariant.sound {s : Gateway} (h : GatewayInvariant s) : AdmissionSound s := by
  refine ⟨fun i lease operation hlease => ?_, fun i lease hlease => ?_,
    mem_activeRootWork h.counted, fun hopen => ?_, fun hnone => ?_⟩
  · exact ⟨suspendLeaseOperation_true h.fenced hlease operation, suspendLeaseOperation_false⟩
  · exact ⟨rollbackRestartSignal_true h.fenced hlease, rollbackRestartSignal_false⟩
  · by_contra hparked
    obtain ⟨hdraining, hclosed⟩ := h.waits.gate hparked
    rw [hdraining, hclosed] at hopen
    simp at hopen
  · by_contra hwaiting
    exact h.waits.work hwaiting hnone

theorem freshGateway_invariant : GatewayInvariant freshGateway := by
  refine ⟨⟨fun h => absurd rfl h, fun h => absurd rfl h⟩, ⟨?_, ?_⟩, ⟨?_, ?_, ?_, ?_, ?_⟩⟩
  · intro i lease hlease
    cases hlease
  · intro i lease generation hlease
    cases hlease
  · intro root admission hfind
    cases hfind
  · intro release handle hfind
    cases hfind
  · intro root
    constructor
    · intro hmem
      cases hmem
    · rintro ⟨admission, hfind, -⟩
      cases hfind
  · intro root admission hfind
    cases hfind
  · intro root admission hfind
    cases hfind

theorem stepGateway_invariant (s : Gateway) (event : AdmissionEvent) (h : GatewayInvariant s) :
    GatewayInvariant (stepGateway s event) :=
  skipDisabled_keeps h fun s' hstep => stepGateway?_invariant s event s' hstep h

/-- **Admission is sound in every run**, whatever the order of its events. -/
theorem gateway_admission_sound (script : List AdmissionEvent) : AdmissionSound (run stepGateway freshGateway script) :=
  (run_invariant stepGateway_invariant script freshGateway_invariant).sound

/-- A signal lease that is begun while another is pending does not end that one: the older lease still
rolls back, and the younger does not. -/
theorem pending_signal_lease_survives :
    let gate := (run stepGateway freshGateway [.beginRestartSignal, .beginRestartSignal]).gate
    ∃ older younger, gate.signalLeases = [older, younger] ∧
      (rollbackRestartSignal gate older).2 = true ∧ (rollbackRestartSignal gate younger).2 = false :=
  ⟨_, _, rfl, rfl, rfl⟩

end OpenClaw.Process.GatewayAdmission
