/-
# OpenClaw.Infra.GatewaySuspendEnds -- every run of suspensions ends in an open gate

The operations of a lease first, then what resuming, rolling back and preparing keep, function by
function, and from these the invariant over whole runs.
-/
import OpenClaw.Infra.GatewaySuspendInvariant

namespace OpenClaw.Infra.GatewaySuspend

open OpenClaw.Logic OpenClaw.Process.GatewayAdmission

/-! ## Operations of a lease -/

/-- A lease that is held does the operation its phase expects. -/
theorem leaseOperation_held {s : SuspendCoordinator} {owner : Nat} (operation : SuspendOperation)
    (h : LeaseHeld s.gate owner operation.expected) :
    ∃ lease, s.gate.suspendLeases[owner]? = some lease ∧
      leaseOperation s owner operation =
        ({ s with gate := (suspendLeaseOperation s.gate lease operation).1 }, true) ∧
      (suspendLeaseOperation s.gate lease operation).1 =
        if operation.next = .accepting then
          resolveSuspendOpenWaiters
            { s.gate with suspendPhase := operation.next, suspendInvalidated := none }
        else { s.gate with suspendPhase := operation.next } := by
  obtain ⟨lease, hlease, -, hgeneration⟩ := h.lease
  have hdone : ¬ (s.gate.suspendGeneration ≠ lease.generation ∨
      s.gate.suspendPhase ≠ operation.expected) := by
    simp [hgeneration, h.inPhase]
  refine ⟨lease, hlease, ?_, ?_⟩
  · unfold leaseOperation
    rw [hlease]
    simp only [suspendLeaseOperation, suspendTransition]
    rw [if_neg (by simpa using hdone)]
    split <;> rfl
  · simp only [suspendLeaseOperation, suspendTransition]
    rw [if_neg (by simpa using hdone)]
    split <;> rfl

variable {s : SuspendCoordinator} {entry : SuspendEntry} {owner : Nat}

/-- A lease that was lost does nothing. -/
theorem leaseOperation_lost (operation : SuspendOperation) (h : LeaseLost s.gate owner) :
    leaseOperation s owner operation = (s, false) := by
  unfold leaseOperation
  split
  · rfl
  · have hphase : s.gate.suspendPhase ≠ operation.expected := by
      rw [h.accepting]
      cases operation <;> exact fun h => by cases h
    simp [suspendLeaseOperation, suspendTransition, hphase]

/-- Releasing or rolling back a held lease opens the gate; nothing else of the fence changes. -/
theorem leaseOperation_opens {operation : SuspendOperation} (h : LeaseHeld s.gate owner operation.expected)
    (hnext : operation.next = .accepting) : ∃ gate, leaseOperation s owner operation = ({ s with gate }, true) ∧
      gate.suspendPhase = .accepting ∧ gate.suspendInvalidated = none ∧ gate.suspendLeases = s.gate.suspendLeases ∧
      gate.invalidations = s.gate.invalidations := by
  obtain ⟨lease, -, hdone, hgate⟩ := leaseOperation_held operation h
  rw [if_pos hnext, hnext] at hgate
  refine ⟨_, hdone, ?_⟩
  rw [hgate]
  exact ⟨rfl, rfl, rfl, rfl⟩

/-- After a release or rollback, with no schedulers left paused for the owner, all is open. -/
theorem reopened_owned (operation : SuspendOperation) (hknown : LeasesKnown s.gate s.paused)
    (hheld : LeaseHeld s.gate owner operation.expected) (hnext : operation.next = .accepting)
    (hpaused : ∀ p ∈ s.paused, ¬ LeaseValid s.gate p) : ∃ gate, leaseOperation s owner operation =
      ({ s with gate }, true) ∧ SuspensionOwned { s with gate, current := none } := by
  obtain ⟨gate, hdone, hphase, hcallback, hleases, hinvalidations⟩ := leaseOperation_opens hheld hnext
  refine ⟨gate, hdone, ⟨⟨fun i hi => ?_, fun i hi => ?_, fun i hi => ?_⟩, hphase,
    fun p hp hvalid => ?_⟩, ?_⟩
  · rw [hleases]
    exact hknown.called i (hinvalidations ▸ hi)
  · rw [hcallback] at hi
    cases hi
  · rw [hleases]
    exact hknown.paused i hi
  · obtain ⟨lease, hlease, hvalid⟩ := hvalid
    exact absurd ⟨lease, hleases ▸ hlease, hvalid⟩ (hpaused p hp)
  · intro entry hentry
    cases hentry

/-! ## Resuming -/

/-- `entry` is the value of the current object whenever it is that object at all. -/
def Tracks (s : SuspendCoordinator) (entry : SuspendEntry) : Prop := s.current = some entry ∨ s.current = none

theorem Tracks.current_of (h : Tracks s entry) (hcurrent : isCurrent s entry = true) : s.current = some entry := by
  rcases h with hsome | hnone
  · exact hsome
  · simp [isCurrent, hnone] at hcurrent

theorem Tracks.none_of (h : Tracks s entry) (hcurrent : isCurrent s entry = false) : s.current = none := by
  rcases h with hsome | hnone
  · simp [isCurrent, hsome] at hcurrent
  · exact hnone

theorem Tracks.arrive (h : Tracks s entry) (restarts : List GateChange) : Tracks (arrive s restarts) entry := by
  rcases arrive_current restarts s with hsame | hnone
  · unfold Tracks
    rw [hsame]
    exact h
  · exact .inr hnone

theorem owned_of_none (h : LeaseOwned s) (hnone : s.current = none) : SuspensionOwned s := by
  refine ⟨h, fun entry hentry => ?_⟩
  rw [hnone] at hentry
  cases hentry

/-- An entry for the same lease, with a timer, may take the place of the current one. -/
theorem replaced_owned {entry entry' : SuspendEntry} (nextObject : Nat) (h : LeaseOwned s)
    (hcurrent : s.current = some entry) (howner : entry'.owner = entry.owner)
    (hreopen : entry'.reopenAdmission = entry.reopenAdmission) (htimer : entry'.timer ≠ none) :
    SuspensionOwned { s with current := some entry', nextObject } := by
  have hentry := h.entry
  rw [hcurrent] at hentry
  refine ⟨⟨h.known, ?_, fun owner hpaused hvalid => ?_⟩, fun e he => ?_⟩
  · show LeaseHeld s.gate entry'.owner entry'.reopenAdmission.expected ∧ _
    rw [howner, hreopen]
    exact hentry
  · obtain ⟨e, he, heowner⟩ := h.paused owner hpaused hvalid
    rw [hcurrent] at he
    cases he
    exact ⟨entry', rfl, howner.trans heowner⟩
  · cases he
    exact htimer

theorem enterSchedulerRecovery_owned (h : LeaseOwned s) (htracks : Tracks s entry) :
    SuspensionOwned (enterSchedulerRecovery s entry) := by
  unfold enterSchedulerRecovery
  split
  · rename_i hother
    exact owned_of_none h (htracks.none_of (by simpa using hother))
  · rename_i hsame
    have hcurrent := htracks.current_of (by simpa using hsame)
    split
    · exact replaced_owned _ h hcurrent rfl rfl (fun h => by cases h)
    · exact replaced_owned _ h hcurrent rfl rfl (fun h => by cases h)

@[simp] theorem isCurrent_schedulingResumed (s : SuspendCoordinator) (owner : Nat)
    (entry : SuspendEntry) : isCurrent (schedulingResumed s owner) entry = isCurrent s entry := rfl

theorem schedulingResumed_known (h : LeasesKnown s.gate s.paused) (owner : Nat) :
    LeasesKnown s.gate (schedulingResumed s owner).paused :=
  ⟨h.called, h.callback, fun i hi => h.paused i (List.mem_of_mem_filter hi)⟩

theorem schedulingResumed_owned (h : LeaseOwned s) (owner : Nat) : LeaseOwned (schedulingResumed s owner) :=
  ⟨schedulingResumed_known h.known owner, h.entry, fun p hp => h.paused p (List.mem_of_mem_filter hp)⟩

/-- **Resuming** keeps the invariant, and a hook that returns opens the gate and clears the entry. -/
theorem resumeAndReopen_owned (h : LeaseOwned s) (htracks : Tracks s entry) (resumeScheduling : Call Unit) :
    SuspensionOwned (resumeAndReopen s entry resumeScheduling).1 ∧ (resumeScheduling.result = .ok () →
      (resumeAndReopen s entry resumeScheduling).1.current = none) := by
  have harrived := arrive_owned resumeScheduling.restarts h
  have htracks' := htracks.arrive resumeScheduling.restarts
  unfold resumeAndReopen
  dsimp only
  cases hresult : resumeScheduling.result with
  | error err =>
    refine ⟨enterSchedulerRecovery_owned harrived htracks', fun hok => ?_⟩
    cases hok
  | ok =>
    dsimp only
    have hresumed := schedulingResumed_owned harrived entry.owner
    split
    · rename_i hother
      have hnone := htracks'.none_of (by simpa using hother)
      exact ⟨owned_of_none hresumed hnone, fun _ => hnone⟩
    · rename_i hsame
      have hcurrent := htracks'.current_of (by simpa using hsame)
      have hentry := harrived.entry
      rw [hcurrent] at hentry
      -- The schedulers of any other owner were paused under a lease that is gone.
      have hpaused : ∀ p ∈ (schedulingResumed (arrive s resumeScheduling.restarts) entry.owner).paused,
          ¬ LeaseValid (arrive s resumeScheduling.restarts).gate p := by
        intro p hp hvalid
        obtain ⟨hmem, hother⟩ := List.mem_filter.mp hp
        obtain ⟨e, he, howner⟩ := harrived.paused p hmem hvalid
        rw [hcurrent] at he
        cases he
        simp [howner] at hother
      obtain ⟨gate, hdone, howned⟩ := reopened_owned _ hresumed.known hentry.1 hentry.2 hpaused
      rw [hdone]
      exact ⟨howned, fun _ => rfl⟩

theorem normalizeExpired_owned (held : HeldSuspension) (h : SuspensionOwned s) (hcurrent : s.current = some entry)
    (nowMs : Call Int) (resumeScheduling : Call Unit) :
    SuspensionOwned (normalizeExpiredHeldSuspension s entry held nowMs resumeScheduling).1 ∧
      ∀ found, (normalizeExpiredHeldSuspension s entry held nowMs resumeScheduling).2 = .ok found →
      (found = none → (normalizeExpiredHeldSuspension s entry held nowMs resumeScheduling).1.current = none) ∧
      ∀ e, found = some e → Tracks (normalizeExpiredHeldSuspension s entry held nowMs resumeScheduling).1 e := by
  have harrived := arrive_suspensionOwned nowMs.restarts h
  have htracks : Tracks (arrive s nowMs.restarts) entry := Tracks.arrive (.inl hcurrent) nowMs.restarts
  unfold normalizeExpiredHeldSuspension
  dsimp only
  split
  · exact ⟨harrived, fun found hfound => by cases hfound⟩
  · split
    · refine ⟨harrived, fun found hfound => ?_⟩
      cases hfound
      exact ⟨fun h => by (cases h), fun e he => by (cases he; exact htracks)⟩
    · obtain ⟨howned, -⟩ := resumeAndReopen_owned harrived.toLeaseOwned htracks resumeScheduling
      refine ⟨howned, fun found hfound => ?_⟩
      cases hfound
      exact ⟨id, fun e he => .inl he⟩

theorem renewHeldSuspension_owned (h : SuspensionOwned s) (htracks : Tracks s entry) (held : HeldSuspension)
    (nowMs : Int) : SuspensionOwned (renewHeldSuspension s entry held nowMs) := by
  unfold renewHeldSuspension
  dsimp only
  split
  · exact h
  · rename_i hsame
    have hcurrent := htracks.current_of (by simpa using hsame)
    exact replaced_owned _ h.toLeaseOwned hcurrent rfl rfl (fun h => by cases h)

theorem timerFires_owned (h : SuspensionOwned s) (object : Nat) (resumeScheduling : Call Unit) :
    SuspensionOwned (timerFires s object resumeScheduling) := by
  unfold timerFires
  split
  · exact h
  · rename_i entry hcurrent
    split
    · exact h
    · have hentry := h.entry
      rw [hcurrent] at hentry
      have hfired : LeaseOwned { s with current := some { entry with timer := none } } := by
        refine ⟨h.known, hentry, fun p hp hvalid => ?_⟩
        obtain ⟨e, he, howner⟩ := h.paused p hp hvalid
        rw [hcurrent] at he
        cases he
        exact ⟨_, rfl, howner⟩
      exact (resumeAndReopen_owned hfired (.inl rfl) resumeScheduling).1

theorem getGatewaySuspendStatus_owned (h : SuspensionOwned s) (suspensionId : String) (nowMs : Call Int)
    (resumeScheduling : Call Unit) :
    SuspensionOwned (getGatewaySuspendStatus s suspensionId nowMs resumeScheduling).1 := by
  unfold getGatewaySuspendStatus
  dsimp only
  split
  · exact h
  · rename_i current hcurrent
    split
    · exact h
    · rename_i held hkind
      have hnormal := (normalizeExpired_owned held h hcurrent nowMs resumeScheduling).1
      split
      · rename_i hfound
        rw [hfound] at hnormal
        exact hnormal
      · rename_i hfound
        rw [hfound] at hnormal
        exact hnormal
      · rename_i hfound
        rw [hfound] at hnormal
        split
        · exact hnormal
        · split <;> exact hnormal

theorem resumeGatewaySuspend_owned (h : SuspensionOwned s) (suspensionId : String) (nowMs : Call Int)
    (resumeScheduling : Call Unit) :
    SuspensionOwned (resumeGatewaySuspend s suspensionId nowMs resumeScheduling).1 := by
  unfold resumeGatewaySuspend
  dsimp only
  split
  · exact h
  · rename_i current hcurrent
    split
    · exact h
    · rename_i held hkind
      obtain ⟨hnormal, hfind⟩ := normalizeExpired_owned held h hcurrent nowMs resumeScheduling
      split
      · rename_i hfound
        rw [hfound] at hnormal
        exact hnormal
      · rename_i hfound
        rw [hfound] at hnormal
        exact hnormal
      · rename_i s' existing hfound
        rw [hfound] at hnormal hfind
        have htracks := (hfind _ rfl).2 existing rfl
        split
        · exact hnormal
        · split
          · exact hnormal
          · have hresumed := (resumeAndReopen_owned hnormal.toLeaseOwned htracks resumeScheduling).1
            split
            · rename_i hdone
              rw [hdone] at hresumed
              exact hresumed
            · rename_i hdone
              rw [hdone] at hresumed
              exact hresumed

/-! ## Preparing -/

/-- The rollback hook returns, or at least lets no restart in that takes the lease away. -/
def rollbackSafe (resumeScheduling : Call Unit) : Bool :=
  match resumeScheduling.result with
  | .ok () => true
  | .error _ => !resumeScheduling.invalidates

/-- An entry for a lease that is still held, made current with a timer. -/
theorem setCurrent_owned {phase : SuspendPhase} (h : Preparing s owner phase) (howner : entry.owner = owner)
    (hheld : LeaseHeld s.gate owner entry.reopenAdmission.expected) (hnext : entry.reopenAdmission.next = .accepting)
    (htimer : entry.timer ≠ none) : SuspensionOwned (setCurrent s entry) := by
  refine ⟨⟨h.known, ⟨?_, hnext⟩, fun p hp hvalid => ?_⟩, fun e he => ?_⟩
  · show LeaseHeld s.gate entry.owner entry.reopenAdmission.expected
    rw [howner]
    exact hheld
  · exact ⟨_, rfl, howner.trans (h.paused p hp hvalid).symm⟩
  · cases he
    exact htimer

/-- An entry for a lost lease, made current, breaks the invariant. -/
theorem setCurrent_lost (hlost : LeaseLost s.gate entry.owner) : ¬ SuspensionOwned (setCurrent s entry) := by
  intro howned
  have hentry : LeaseHeld s.gate entry.owner _ ∧ _ := howned.entry
  exact hlost.invalid hentry.1.valid

theorem schedulingResumed_preparing {phase : SuspendPhase} (h : Preparing s owner phase) :
    Preparing (schedulingResumed s owner) owner phase :=
  ⟨schedulingResumed_known h.known owner, h.noEntry, h.lease,
    fun p hp => h.paused p (List.mem_of_mem_filter hp)⟩

/-- **A rollback** keeps the invariant unless its hook throws and lets a restart in. -/
theorem resumeSchedulingBeforeReopen_owned (operation : SuspendOperation) (h : Preparing s owner operation.expected)
    (hnext : operation.next = .accepting) (resumeScheduling : Call Unit) :
    SuspensionOwned (resumeSchedulingBeforeReopen s owner operation resumeScheduling).1 ↔
      isInvalidated s owner = true ∨ rollbackSafe resumeScheduling = true := by
  unfold resumeSchedulingBeforeReopen
  split
  · rename_i hinvalidated
    exact iff_of_true (h.owned_of_lost (h.lost_iff.mp hinvalidated)) (.inl hinvalidated)
  · rename_i hkept
    have hheld := h.held_of (by simpa using hkept)
    obtain ⟨harrived, hloses, hkeeps⟩ := arrive_preparing resumeScheduling.restarts h
    unfold rollbackSafe
    dsimp only
    cases hresult : resumeScheduling.result with
    | error err =>
      dsimp only
      cases hany : resumeScheduling.invalidates with
      | false =>
        have hstill := hkeeps hheld hany
        exact iff_of_true (setCurrent_owned harrived rfl hstill hnext (fun h => by cases h)) (.inr rfl)
      | true =>
        have hlost := hloses (.inr hany)
        refine iff_of_false (setCurrent_lost hlost) ?_
        rintro (hinvalidated | hsafe)
        · exact hkept hinvalidated
        · cases hsafe
    | ok =>
      dsimp only
      refine iff_of_true ?_ (.inr rfl)
      have hresumed := schedulingResumed_preparing harrived
      split
      · rename_i hinvalidated
        exact hresumed.owned_of_lost (hresumed.lost_iff.mp hinvalidated)
      · rename_i hstill
        have hpaused : ∀ p ∈ (schedulingResumed (arrive s resumeScheduling.restarts) owner).paused,
            ¬ LeaseValid (arrive s resumeScheduling.restarts).gate p := by
          intro p hp hvalid
          obtain ⟨hmem, hother⟩ := List.mem_filter.mp hp
          simp [harrived.paused p hmem hvalid] at hother
        obtain ⟨gate, hdone, howned⟩ := reopened_owned operation hresumed.known
          (hresumed.held_of (by simpa using hstill)) hnext hpaused
        have hnone : (schedulingResumed (arrive s resumeScheduling.restarts) owner).current = none := hresumed.noEntry
        rw [hdone]
        rw [← hnone] at howned
        exact howned

theorem abandonPreparation_fst (s : SuspendCoordinator) (owner : Nat) (operation : SuspendOperation)
    (resumeScheduling : Call Unit) (err : String) : (abandonPreparation s owner operation resumeScheduling err).1 =
      (resumeSchedulingBeforeReopen s owner operation resumeScheduling).1 := by
  unfold abandonPreparation
  split
  · rename_i hrolled
    rw [hrolled]
  · rename_i hrolled
    rw [hrolled]

theorem refusePreparation_fst (s : SuspendCoordinator) (owner : Nat) (params : PrepareParams)
    (snapshot : GatewayActiveWorkSnapshot) : (refusePreparation s owner params snapshot).1 =
      (resumeSchedulingBeforeReopen s owner .rollback params.resumeScheduling).1 := by
  unfold refusePreparation
  split
  · rename_i hrolled
    rw [hrolled]
  · rename_i hrolled
    rw [hrolled]

/-- Nothing takes the lease away while the suspension gets its id; or the id is not given, and the
rollback is safe. -/
def idSafe (params : PrepareParams) : Bool :=
  match params.createSuspensionId.result with
  | .ok _ => !params.createSuspensionId.invalidates
  | .error _ => params.createSuspensionId.invalidates || rollbackSafe params.resumeScheduling

/-- A held lease commits. -/
theorem leaseOperation_commits (h : Preparing s owner .preparing) (hheld : LeaseHeld s.gate owner .preparing) :
    ∃ gate, leaseOperation s owner .commit = ({ s with gate }, true) ∧ Preparing { s with gate } owner .prepared ∧
      LeaseHeld gate owner .prepared := by
  obtain ⟨lease, -, hdone, hgate⟩ := leaseOperation_held .commit hheld
  rw [if_neg (by simp [SuspendOperation.next])] at hgate
  have hprepared : LeaseHeld { s.gate with suspendPhase := .prepared } owner .prepared :=
    ⟨hheld.lease, hheld.callback, hheld.uncalled, rfl, fun h => by cases h⟩
  refine ⟨_, hdone, ?_⟩
  rw [hgate]
  exact ⟨⟨⟨h.known.called, h.known.callback, h.known.paused⟩, h.noEntry, .inl hprepared, h.paused⟩, hprepared⟩

/-- A lease held before some restarts is lost after them exactly if one of them invalidates. -/
theorem Preparing.arrive_lost_iff {phase : SuspendPhase} (h : Preparing s owner phase)
    (hheld : LeaseHeld s.gate owner phase) (restarts : List GateChange) :
    isInvalidated (GatewaySuspend.arrive s restarts) owner = true ↔ restarts.any (·.invalidates) = true := by
  obtain ⟨harrived, hloses, hkeeps⟩ := arrive_preparing restarts h
  rw [harrived.lost_iff]
  constructor
  · intro hlost
    by_contra hnot
    have hstill := hkeeps hheld (by simpa using hnot)
    exact hlost.invalid hstill.valid
  · exact fun hany => hloses (.inr hany)

theorem commitPreparation_owned (h : Preparing s owner .preparing) (params : PrepareParams) (nowMs : Int)
    (snapshot : GatewayActiveWorkSnapshot) : SuspensionOwned (commitPreparation s owner params nowMs snapshot).1 ↔
      isInvalidated s owner = true ∨ idSafe params = true := by
  unfold commitPreparation
  rcases h.lease with hheld | hlost
  · have hkept : isInvalidated s owner = false := decide_eq_false hheld.uncalled
    obtain ⟨gate, hdone, hcommitted, hprepared⟩ := leaseOperation_commits h hheld
    rw [hdone, hkept]
    dsimp only
    obtain ⟨harrived, hloses, hkeeps⟩ := arrive_preparing params.createSuspensionId.restarts hcommitted
    have hlost := hcommitted.arrive_lost_iff hprepared params.createSuspensionId.restarts
    unfold idSafe
    cases params.createSuspensionId.result with
    | error err =>
      dsimp only
      rw [abandonPreparation_fst, resumeSchedulingBeforeReopen_owned .release harrived
        rfl, hlost, Bool.or_eq_true]
      simp [Call.invalidates]
    | ok suspensionId =>
      dsimp only
      cases hany : params.createSuspensionId.invalidates with
      | false =>
        refine iff_of_true ?_ (.inr rfl)
        exact setCurrent_owned harrived rfl (hkeeps hprepared hany) rfl (fun h => by cases h)
      | true =>
        refine iff_of_false (setCurrent_lost (hloses (.inr hany))) ?_
        simp
  · rw [leaseOperation_lost .commit hlost]
    dsimp only
    have hinvalidated := h.lost_iff.mpr hlost
    rw [abandonPreparation_fst, resumeSchedulingBeforeReopen_owned .rollback h rfl]
    simp [hinvalidated]

/-- **The lease is kept** through a preparation, or lost in time: between the last look at it and the
entry that is made current no restart arrives. -/
def leaseKept (params : PrepareParams) : Bool :=
  match params.pauseScheduling.result with
  | .error _ => true
  | .ok () =>
    params.pauseScheduling.invalidates || params.inspect.invalidates ||
      match params.inspect.result with
      | .error _ => rollbackSafe params.resumeScheduling
      | .ok snapshot =>
        if !snapshot.idle then rollbackSafe params.resumeScheduling else idSafe params

/-- Restarts make no lease valid. -/
theorem arrive_leaseValid (restarts : List GateChange) (h : LeaseValid (arrive s restarts).gate owner) :
    LeaseValid s.gate owner := by
  induction restarts generalizing s with
  | nil => exact h
  | cons change rest ih =>
    have hvalid : LeaseValid (changeGate s change).gate owner := ih h
    rw [changeGate_gate] at hvalid
    rcases applied_cases s.gate change with ⟨hsame, -⟩ | ⟨hcleared, -⟩
    · obtain ⟨lease, hlease, hkept⟩ := hvalid
      exact ⟨lease, hsame.leases ▸ hlease, hkept⟩
    · exact absurd hvalid (not_leaseValid_cleared hcleared owner)

@[simp] theorem arrive_paused (restarts : List GateChange) (s : SuspendCoordinator) :
    (arrive s restarts).paused = s.paused := by
  induction restarts generalizing s with
  | nil => rfl
  | cons change rest ih => exact (ih (changeGate s change)).trans (changeGate_paused s change)

/-- The pause hook threw: nothing is paused, and the lease goes back. -/
theorem rollback_owned (h : Preparing s owner .preparing) (hpaused : ∀ p ∈ s.paused, ¬ LeaseValid s.gate p) :
    SuspensionOwned (leaseOperation s owner .rollback).1 := by
  rcases h.lease with hheld | hlost
  · obtain ⟨gate, hdone, howned⟩ := reopened_owned .rollback h.known hheld rfl hpaused
    rw [hdone]
    rw [← h.noEntry] at howned
    exact howned
  · rw [leaseOperation_lost .rollback hlost]
    exact h.owned_of_lost hlost

/-- **A preparation** keeps the invariant exactly if it keeps its lease. -/
theorem runPreparation_owned (h : Preparing s owner .preparing) (hheld : LeaseHeld s.gate owner .preparing)
    (hpaused : ∀ p ∈ s.paused, ¬ LeaseValid s.gate p) (params : PrepareParams) (nowMs : Int) :
    SuspensionOwned (runPreparation s owner params nowMs).1 ↔ leaseKept params = true := by
  obtain ⟨hpause, hpauseLoses, hpauseKeeps⟩ := arrive_preparing params.pauseScheduling.restarts h
  unfold runPreparation leaseKept
  dsimp only
  cases params.pauseScheduling.result with
  | error err =>
    refine iff_of_true (rollback_owned hpause fun p hp hvalid => ?_) rfl
    rw [arrive_paused] at hp
    exact hpaused p hp (arrive_leaseValid _ hvalid)
  | ok =>
    have hpausing : Preparing
        (schedulingPaused (arrive s params.pauseScheduling.restarts) owner) owner .preparing := by
      refine ⟨⟨hpause.known.called, hpause.known.callback, fun p hp => ?_⟩, hpause.noEntry,
        hpause.lease, fun p hp hvalid => ?_⟩
      · rcases List.mem_cons.mp hp with rfl | hold
        · exact hpause.handedOut
        · exact hpause.known.paused p hold
      · rcases List.mem_cons.mp hp with hnew | hold
        · exact hnew
        · exact hpause.paused p hold hvalid
    obtain ⟨hinspect, hinspectLoses, -⟩ := arrive_preparing params.inspect.restarts hpausing
    -- The lease is lost by the end of the inspection exactly if one of the two hooks lost it.
    have hlost : isInvalidated (arrive
        (schedulingPaused (arrive s params.pauseScheduling.restarts) owner) params.inspect.restarts)
        owner = true ↔
        params.pauseScheduling.invalidates = true ∨ params.inspect.invalidates = true := by
      cases hany : params.pauseScheduling.invalidates with
      | true =>
        have hpauseLost := hpauseLoses (.inr hany)
        exact iff_of_true (hinspect.lost_iff.mpr (hinspectLoses (.inl hpauseLost))) (.inl rfl)
      | false =>
        rw [hpausing.arrive_lost_iff (hpauseKeeps hheld hany)]
        simp [Call.invalidates]
    rw [Bool.or_eq_true, Bool.or_eq_true, ← hlost]
    cases params.inspect.result with
    | error err =>
      dsimp only
      rw [abandonPreparation_fst, resumeSchedulingBeforeReopen_owned .rollback
        hinspect rfl]
    | ok snapshot =>
      dsimp only
      split
      · rw [refusePreparation_fst, resumeSchedulingBeforeReopen_owned .rollback
          hinspect rfl]
      · exact commitPreparation_owned hinspect params nowMs snapshot

/-- An open gate gives a prepare a lease of its own. -/
theorem tryBegin_preparing (h : SuspensionOwned s) (hnone : s.current = none) {gate : Gate}
    (hbegun : tryBeginGatewaySuspendAdmission s.gate = (gate, some owner)) :
    isGatewayWorkAdmissionClosed s.gate = false ∧ Preparing { s with gate } owner .preparing ∧
      LeaseHeld gate owner .preparing ∧ ∀ p ∈ s.paused, ¬ LeaseValid gate p := by
  unfold tryBeginGatewaySuspendAdmission at hbegun
  split at hbegun
  · cases hbegun
  · rename_i hopen
    cases hbegun
    have hheld : LeaseHeld
        { s.gate with
          suspendPhase := .preparing
          suspendGeneration := s.gate.suspendGeneration + 1
          suspendInvalidated := some s.gate.suspendLeases.length
          suspendLeases := s.gate.suspendLeases ++ [{ generation := s.gate.suspendGeneration + 1 }] }
        s.gate.suspendLeases.length .preparing := by
      refine ⟨⟨_, List.getElem?_concat_length, rfl, rfl⟩, rfl, fun hcalled => ?_, rfl,
        fun h => by cases h⟩
      exact absurd (h.known.called _ hcalled) (Nat.lt_irrefl _)
    -- A lease that is valid now is the new one, for no older one was.
    have hpaused : ∀ p ∈ s.paused, ¬ LeaseValid
        { s.gate with
          suspendPhase := .preparing
          suspendGeneration := s.gate.suspendGeneration + 1
          suspendInvalidated := some s.gate.suspendLeases.length
          suspendLeases :=
            s.gate.suspendLeases ++ [{ generation := s.gate.suspendGeneration + 1 }] } p := by
      rintro p hp ⟨lease, hlease, hvalid⟩
      rcases lease_of_append hlease with hold | ⟨hnew, -⟩
      · obtain ⟨entry, hentry, -⟩ := h.paused p hp ⟨lease, hold, hvalid⟩
        rw [hnone] at hentry
        cases hentry
      · exact absurd (h.known.paused p hp) (by omega)
    have hgrown : ∀ i, i < s.gate.suspendLeases.length →
        i < (s.gate.suspendLeases ++
          [({ generation := s.gate.suspendGeneration + 1 } : SuspendLease)]).length := by
      intro i hi
      rw [List.length_append]
      omega
    refine ⟨by simpa using hopen, ⟨⟨fun i hi => ?_, fun i hi => ?_, fun i hi => ?_⟩, hnone, .inl hheld,
      fun p hp hvalid => absurd hvalid (hpaused p hp)⟩, hheld, hpaused⟩
    · exact hgrown i (h.known.called i hi)
    · cases hi
      exact hheld.handedOut
    · exact hgrown i (h.known.paused i hi)

/-- **A prepare that is not stopped by an entry** keeps the invariant exactly if the gate refuses it or
it keeps its lease. -/
theorem beginPreparation_owned (h : SuspensionOwned s) (hnone : s.current = none) (params : PrepareParams)
    (nowMs : Int) : SuspensionOwned (beginPreparation s params nowMs).1 ↔
      (isGatewayWorkAdmissionClosed s.gate = false → leaseKept params = true) := by
  unfold beginPreparation
  split
  · rename_i gate hrefused
    refine iff_of_true (arrive_suspensionOwned _ h) fun hopen => ?_
    simp [tryBeginGatewaySuspendAdmission, hopen] at hrefused
  · rename_i gate owner hbegun
    obtain ⟨hopen, hpreparing, hheld, hpaused⟩ := tryBegin_preparing h hnone hbegun
    rw [runPreparation_owned hpreparing hheld hpaused params nowMs, hopen]
    simp

/-- The first half of a prepare keeps the invariant; a prepare it lets through finds no entry. -/
theorem settleCurrent_owned (h : SuspensionOwned s) (params : PrepareParams) :
    SuspensionOwned (settleCurrent s params).1 ∧ ∀ nowMs, (settleCurrent s params).2 = .free nowMs →
      (settleCurrent s params).1.current = none := by
  have harrived := arrive_suspensionOwned params.nowMs.restarts h
  unfold settleCurrent
  dsimp only
  split
  · exact ⟨harrived, fun _ hfree => by cases hfree⟩
  · split
    · rename_i hnone
      exact ⟨harrived, fun _ _ => hnone⟩
    · rename_i current hcurrent
      split
      · exact ⟨harrived, fun _ hfree => by cases hfree⟩
      · rename_i held hkind
        obtain ⟨hnormal, hfind⟩ := normalizeExpired_owned held harrived hcurrent params.heldNowMs
          params.heldResumeScheduling
        split
        · rename_i hfound
          rw [hfound] at hnormal
          exact ⟨hnormal, fun _ hfree => by cases hfree⟩
        · rename_i hfound
          rw [hfound] at hnormal hfind
          exact ⟨hnormal, fun _ _ => (hfind _ rfl).1 rfl⟩
        · rename_i s' existing hfound
          rw [hfound] at hnormal hfind
          have htracks := (hfind _ rfl).2 existing rfl
          split
          · exact ⟨hnormal, fun _ hfree => by cases hfree⟩
          · split
            · exact ⟨hnormal, fun _ hfree => by cases hfree⟩
            · exact ⟨renewHeldSuspension_owned hnormal htracks _ _, fun _ hfree => by cases hfree⟩

/-- Where a prepare takes a lease, it keeps it. -/
def PrepareKeepsLease (s : SuspendCoordinator) (params : PrepareParams) : Prop :=
  ∀ nowMs, (settleCurrent s params).2 = .free nowMs →
    isGatewayWorkAdmissionClosed (settleCurrent s params).1.gate = false → leaseKept params = true

/-- **A prepare** keeps the invariant exactly if, where it takes a lease, it keeps it. -/
theorem prepareGatewaySuspend_owned (h : SuspensionOwned s) (params : PrepareParams) :
    SuspensionOwned (prepareGatewaySuspend s params).1 ↔ PrepareKeepsLease s params := by
  obtain ⟨hsettled, hnone⟩ := settleCurrent_owned h params
  unfold prepareGatewaySuspend PrepareKeepsLease
  split
  · rename_i s' answer hanswer
    rw [hanswer] at hsettled ⊢
    refine iff_of_true hsettled fun _ hfree => ?_
    cases hfree
  · rename_i s' nowMs hfree
    rw [hfree] at hsettled hnone ⊢
    rw [beginPreparation_owned hsettled (hnone nowMs rfl) params nowMs]
    constructor
    · intro hkept _ _
      exact hkept
    · intro hkept
      exact hkept nowMs rfl

/-! ## Runs -/

/-- The guard of a step: a prepare that takes a lease keeps it. -/
def StepKeepsLease (s : SuspendCoordinator) : SuspendEvent → Prop
  | .prepare params => PrepareKeepsLease s params
  | _ => True

theorem stepSuspend_owned {event : SuspendEvent} (hkept : StepKeepsLease s event) (h : SuspensionOwned s) :
    SuspensionOwned (stepSuspend s event) := by
  cases event with
  | prepare params => exact (prepareGatewaySuspend_owned h params).mpr hkept
  | status suspensionId nowMs resumeScheduling =>
    exact getGatewaySuspendStatus_owned h suspensionId nowMs resumeScheduling
  | resume suspensionId nowMs resumeScheduling =>
    exact resumeGatewaySuspend_owned h suspensionId nowMs resumeScheduling
  | timerFires object resumeScheduling => exact timerFires_owned h object resumeScheduling
  | gateChanges change => exact arrive_suspensionOwned [change] h

theorem fresh_owned : SuspensionOwned {} := by
  refine ⟨⟨⟨fun i hi => ?_, fun i hi => ?_, fun i hi => ?_⟩, rfl, fun p hp => ?_⟩, fun e he => ?_⟩
  · cases hi
  · cases hi
  · cases hi
  · cases hp
  · cases he

/-- The entry is off, and no suspend lease holds new work back. -/
def Reopened (s : SuspendCoordinator) : Prop := s.current = none ∧ s.gate.suspendPhase = .accepting

/-- **A suspension always ends**, seen in one state.  `expires` and `resumes` are the two steps that
call the current entry's resume hook; its timer fires for a held and for a recovering entry. -/
structure SuspensionEnds (s : SuspendCoordinator) : Prop where
  heldBack : s.gate.suspendPhase ≠ .accepting → ∃ entry lease, s.current = some entry ∧
    entry.timer.isSome = true ∧ s.gate.suspendLeases[entry.owner]? = some lease ∧
    lease.generation = s.gate.suspendGeneration
  valid : ∀ entry, s.current = some entry → LeaseValid s.gate entry.owner
  expires : ∀ entry (resumeScheduling : Call Unit), s.current = some entry →
    resumeScheduling.result = .ok () → Reopened (timerFires s entry.object resumeScheduling)
  resumes : ∀ entry held now (nowMs : Call Int) (resumeScheduling : Call Unit),
    s.current = some entry → entry.kind = .held held → nowMs.result = .ok now →
    resumeScheduling.result = .ok () →
    Reopened (resumeGatewaySuspend s held.suspensionId nowMs resumeScheduling).1
  paused : ∀ owner ∈ s.paused, LeaseValid s.gate owner → ∃ entry, s.current = some entry ∧ entry.owner = owner

theorem SuspensionOwned.reopened (h : SuspensionOwned s) (hnone : s.current = none) : Reopened s := by
  have hentry := h.entry
  rw [hnone] at hentry
  exact ⟨hnone, hentry⟩

theorem timerFires_reopens (h : SuspensionOwned s) (hcurrent : s.current = some entry) {resumeScheduling : Call Unit}
    (hresumes : resumeScheduling.result = .ok ()) : Reopened (timerFires s entry.object resumeScheduling) := by
  refine (timerFires_owned h entry.object resumeScheduling).reopened ?_
  have hentry := h.entry
  rw [hcurrent] at hentry
  have hfired : LeaseOwned { s with current := some { entry with timer := none } } := by
    refine ⟨h.known, hentry, fun p hp hvalid => ?_⟩
    obtain ⟨e, he, howner⟩ := h.paused p hp hvalid
    rw [hcurrent] at he
    cases he
    exact ⟨_, rfl, howner⟩
  unfold timerFires
  rw [hcurrent]
  dsimp only
  rw [if_neg (by simp [h.armed entry hcurrent])]
  exact (resumeAndReopen_owned hfired (.inl rfl) resumeScheduling).2 hresumes

theorem resumeGatewaySuspend_reopens (h : SuspensionOwned s) (hcurrent : s.current = some entry)
    {held : HeldSuspension} (hkind : entry.kind = .held held) {now : Int} {nowMs : Call Int}
    (hnow : nowMs.result = .ok now) {resumeScheduling : Call Unit} (hresumes : resumeScheduling.result = .ok ()) :
    Reopened (resumeGatewaySuspend s held.suspensionId nowMs resumeScheduling).1 := by
  refine (resumeGatewaySuspend_owned h held.suspensionId nowMs resumeScheduling).reopened ?_
  have harrived := arrive_suspensionOwned nowMs.restarts h
  have htracks : Tracks (arrive s nowMs.restarts) entry := Tracks.arrive (.inl hcurrent) nowMs.restarts
  have hcleared := (resumeAndReopen_owned harrived.toLeaseOwned htracks resumeScheduling).2 hresumes
  unfold resumeGatewaySuspend normalizeExpiredHeldSuspension
  rw [hcurrent]
  dsimp only
  rw [hkind]
  dsimp only
  rw [hnow]
  dsimp only
  by_cases hlive : now < held.expiresAtMs
  · rw [if_pos hlive]
    dsimp only
    rw [hkind]
    dsimp only
    rw [if_neg (fun h => h rfl)]
    split
    · rename_i hdone
      rw [hdone] at hcleared
      exact hcleared
    · rename_i hdone
      rw [hdone] at hcleared
      exact hcleared
  · rw [if_neg hlive, hcleared]
    exact hcleared

theorem SuspensionOwned.ends (h : SuspensionOwned s) : SuspensionEnds s where
  heldBack := by
    intro hclosed
    have hentry := h.entry
    cases hcurrent : s.current with
    | none =>
      rw [hcurrent] at hentry
      exact absurd hentry hclosed
    | some entry =>
      rw [hcurrent] at hentry
      obtain ⟨lease, hlease, -, hgeneration⟩ := hentry.1.lease
      exact ⟨entry, lease, rfl, Option.isSome_iff_ne_none.mpr (h.armed entry hcurrent), hlease, hgeneration⟩
  valid := by
    intro entry hcurrent
    have hentry := h.entry
    rw [hcurrent] at hentry
    exact hentry.1.valid
  expires := fun _ _ hcurrent hresumes => timerFires_reopens h hcurrent hresumes
  resumes := fun _ _ _ _ _ hcurrent hkind hnow hresumes =>
    resumeGatewaySuspend_reopens h hcurrent hkind hnow hresumes
  paused := h.paused

/-- **Gateway suspension always ends**: in every run whose prepares keep the leases they take, every
state has the four properties of `SuspensionEnds`. -/
theorem suspension_always_ends (script : List SuspendEvent) (hkept : Guarded stepSuspend StepKeepsLease {} script) :
    SuspensionEnds (run stepSuspend {} script) := by
  have howned : SuspensionOwned (run stepSuspend {} script) :=
    run_invariant_guarded (fun _ _ hkept h => stepSuspend_owned hkept h) script hkept fresh_owned
  exact howned.ends

/-- An idle gateway, prepared for at time 0, with the restarts that arrive while the id is made. -/
def idlePrepare (restarts : List GateChange) : PrepareParams where
  requestId := "request-1"
  nowMs := { result := .ok 0 }
  heldNowMs := { result := .ok 0 }
  heldResumeScheduling := { result := .ok () }
  pauseScheduling := { result := .ok () }
  inspect := { result := .ok { idle := true, totalActive := 0, blockers := [] } }
  createSuspensionId := { restarts, result := .ok "suspension-1" }
  resumeScheduling := { result := .ok () }

/-- A suspension whose expiry cannot resume the schedulers at first; the recovery timer ends it. -/
theorem suspension_always_ends_expiry :
    SuspensionEnds (run stepSuspend {}
      [.prepare (idlePrepare []), .timerFires 0 { result := .error "scheduler" }]) ∧
      Reopened (run stepSuspend {}
        [.prepare (idlePrepare []), .timerFires 0 { result := .error "scheduler" },
          .timerFires 1 { result := .ok () }]) :=
  ⟨suspension_always_ends _ ⟨fun _ _ _ => rfl, trivial, trivial⟩, rfl, rfl⟩

/-- **A restart while the suspension gets its id**: the entry is made current after its lease was taken
away, and timers whose resume hook returns do not clear it. -/
theorem restart_during_id_never_ends :
    ¬ SuspensionEnds (run stepSuspend {} [.prepare (idlePrepare [.reset])]) ∧
      ((run stepSuspend {}
        [.prepare (idlePrepare [.reset]), .timerFires 0 { result := .ok () },
          .timerFires 1 { result := .ok () }]).current.map (·.kind)) = some .recovering := by
  refine ⟨fun hends => ?_, rfl⟩
  obtain ⟨lease, hlease, hvalid⟩ := hends.valid _ rfl
  cases hlease
  cases hvalid

end OpenClaw.Infra.GatewaySuspend
