/-
# OpenClaw.Infra.GatewaySuspendInvariant -- a suspension always ends

The invariant ties four things together: the lease the gate is closed by, the entry that holds it, the
timer of that entry and the schedulers paused for it.  It is kept by every step, except where a restart
takes the lease away between the last look at it and the entry that is then made current; the condition
that this does not happen is `StepKeepsLease`.
-/
import OpenClaw.Infra.GatewaySuspendCoordinator
import OpenClaw.Process.GatewayAdmissionInvariant

namespace OpenClaw.Infra.GatewaySuspend

open OpenClaw.Logic OpenClaw.Process.GatewayAdmission

/-! ## The suspend part of the gate -/

/-- A lease handed out, and not invalidated since. -/
def LeaseValid (g : Gate) (owner : Nat) : Prop :=
  ∃ lease, g.suspendLeases[owner]? = some lease ∧ lease.invalidated = false

/-- The gate is closed, in `phase`, by the lease `owner`. -/
structure LeaseHeld (g : Gate) (owner : Nat) (phase : SuspendPhase) : Prop where
  lease : ∃ lease, g.suspendLeases[owner]? = some lease ∧ lease.invalidated = false ∧
    lease.generation = g.suspendGeneration
  callback : g.suspendInvalidated = some owner
  uncalled : owner ∉ g.invalidations
  inPhase : g.suspendPhase = phase
  closed : phase ≠ .accepting

/-- A restart took the lease `owner` away. -/
structure LeaseLost (g : Gate) (owner : Nat) : Prop where
  invalid : ¬ LeaseValid g owner
  called : owner ∈ g.invalidations
  accepting : g.suspendPhase = .accepting

variable {s : SuspendCoordinator} {phase : SuspendPhase} {owner : Nat}

theorem LeaseHeld.valid {g : Gate} (h : LeaseHeld g owner phase) : LeaseValid g owner := by
  obtain ⟨lease, hlease, hvalid, -⟩ := h.lease
  exact ⟨lease, hlease, hvalid⟩

/-- Every lease named anywhere was handed out. -/
structure LeasesKnown (g : Gate) (paused : List Nat) : Prop where
  called : ∀ i ∈ g.invalidations, i < g.suspendLeases.length
  callback : ∀ i, g.suspendInvalidated = some i → i < g.suspendLeases.length
  paused : ∀ i ∈ paused, i < g.suspendLeases.length

/-- The suspend fence is the same in both. -/
structure SameFence (g g' : Gate) : Prop where
  phase : g'.suspendPhase = g.suspendPhase
  generation : g'.suspendGeneration = g.suspendGeneration
  callback : g'.suspendInvalidated = g.suspendInvalidated
  leases : g'.suspendLeases = g.suspendLeases
  invalidations : g'.invalidations = g.invalidations

/-- The suspend fence is open in `g'`, with every lease of `g` invalidated. -/
structure FenceCleared (g g' : Gate) : Prop where
  phase : g'.suspendPhase = .accepting
  callback : g'.suspendInvalidated = none
  leases : g'.suspendLeases = g.suspendLeases.map fun lease => { lease with invalidated := true }
  invalidations : g'.invalidations =
    g.invalidations ++ if g.suspendPhase = .accepting then [] else g.suspendInvalidated.toList

theorem LeaseHeld.same {g g' : Gate} (h : LeaseHeld g owner phase) (hsame : SameFence g g') :
    LeaseHeld g' owner phase := by
  refine ⟨?_, ?_, ?_, ?_, h.closed⟩
  · rw [hsame.leases, hsame.generation]
    exact h.lease
  · rw [hsame.callback]
    exact h.callback
  · rw [hsame.invalidations]
    exact h.uncalled
  · rw [hsame.phase]
    exact h.inPhase

theorem LeasesKnown.same {g g' : Gate} {paused : List Nat} (h : LeasesKnown g paused)
    (hsame : SameFence g g') : LeasesKnown g' paused := by
  refine ⟨fun i hi => ?_, fun i hi => ?_, fun i hi => ?_⟩
  · rw [hsame.leases]
    exact h.called i (hsame.invalidations ▸ hi)
  · rw [hsame.leases]
    exact h.callback i (hsame.callback ▸ hi)
  · rw [hsame.leases]
    exact h.paused i hi

theorem not_leaseValid_cleared {g g' : Gate} (h : FenceCleared g g') (owner : Nat) : ¬ LeaseValid g' owner := by
  rintro ⟨lease, hlease, hvalid⟩
  rw [h.leases, List.getElem?_map, Option.map_eq_some_iff] at hlease
  obtain ⟨before, -, rfl⟩ := hlease
  cases hvalid

theorem LeasesKnown.cleared {g g' : Gate} {paused : List Nat} (h : LeasesKnown g paused)
    (hcleared : FenceCleared g g') : LeasesKnown g' paused := by
  have hlength : g'.suspendLeases.length = g.suspendLeases.length := by
    rw [hcleared.leases, List.length_map]
  refine ⟨fun i hi => ?_, fun i hi => ?_, fun i hi => ?_⟩
  · rw [hlength]
    rw [hcleared.invalidations, List.mem_append] at hi
    rcases hi with hi | hi
    · exact h.called i hi
    · split at hi
      · cases hi
      · exact h.callback i (by simpa using hi)
  · rw [hcleared.callback] at hi
    cases hi
  · rw [hlength]
    exact h.paused i hi

/-- A restart that drains or resets takes every lease away. -/
def GateChange.invalidates : GateChange → Bool
  | .markRestartDraining | .reset => true
  | .beginRestartSignal | .rollbackRestartSignal _ => false

/-- **What a restart does to the suspend fence.** -/
theorem applied_cases (g : Gate) (change : GateChange) :
    (SameFence g (change.applied g) ∧ (change.invalidates = true → g.suspendPhase = .accepting)) ∨
      (FenceCleared g (change.applied g) ∧ change.invalidates = true) := by
  cases change with
  | markRestartDraining =>
    simp only [GateChange.applied, markGatewayRestartDraining]
    split
    · rename_i hphase
      have hclosed : g.suspendPhase ≠ .accepting := hphase
      refine .inr ⟨⟨rfl, rfl, rfl, ?_⟩, rfl⟩
      rw [if_neg hclosed]
      rfl
    · rename_i hphase
      have hopen : g.suspendPhase = .accepting := Decidable.not_not.mp hphase
      exact .inl ⟨⟨rfl, rfl, rfl, rfl, rfl⟩, fun _ => hopen⟩
  | reset =>
    simp only [GateChange.applied, reopenGate]
    split
    · rename_i hphase
      have hclosed : g.suspendPhase ≠ .accepting := hphase
      refine .inr ⟨⟨rfl, rfl, rfl, ?_⟩, rfl⟩
      rw [if_neg hclosed]
      rfl
    · rename_i hphase
      have hopen : g.suspendPhase = .accepting := Decidable.not_not.mp hphase
      refine .inr ⟨⟨hopen, rfl, rfl, ?_⟩, rfl⟩
      rw [if_pos hopen, List.append_nil]
      rfl
  | beginRestartSignal =>
    refine .inl ⟨?_, fun h => absurd h Bool.false_ne_true⟩
    simp only [GateChange.applied, beginGatewayRestartSignalAdmission]
    split
    · exact ⟨rfl, rfl, rfl, rfl, rfl⟩
    · exact ⟨rfl, rfl, rfl, rfl, rfl⟩
  | rollbackRestartSignal lease =>
    refine .inl ⟨?_, fun h => absurd h Bool.false_ne_true⟩
    simp only [GateChange.applied]
    split
    · exact ⟨rfl, rfl, rfl, rfl, rfl⟩
    · unfold Process.GatewayAdmission.rollbackRestartSignal
      split
      · exact ⟨rfl, rfl, rfl, rfl, rfl⟩
      · split
        · exact ⟨rfl, rfl, rfl, rfl, rfl⟩
        · exact ⟨rfl, rfl, rfl, rfl, rfl⟩

/-! ## Restarts in the coordinator -/

@[simp] theorem onInvalidated_gate (s : SuspendCoordinator) (owner : Nat) : (onInvalidated s owner).gate = s.gate := by
  unfold onInvalidated
  split
  · rfl
  · split <;> rfl

@[simp] theorem onInvalidated_paused (s : SuspendCoordinator) (owner : Nat) :
    (onInvalidated s owner).paused = s.paused := by
  unfold onInvalidated
  split
  · rfl
  · split <;> rfl

/-- The callback of the current entry's owner takes the entry off. -/
theorem onInvalidated_owner {entry : SuspendEntry} (h : s.current = some entry) :
    (onInvalidated s entry.owner).current = none := by
  simp [onInvalidated, h]

/-- A callback puts no entry in. -/
theorem onInvalidated_current (s : SuspendCoordinator) (owner : Nat) :
    (onInvalidated s owner).current = s.current ∨ (onInvalidated s owner).current = none := by
  unfold onInvalidated
  split
  · exact .inl rfl
  · split
    · exact .inr rfl
    · exact .inl rfl

theorem changeGate_same {change : GateChange} (h : SameFence s.gate (change.applied s.gate)) :
    changeGate s change = { s with gate := change.applied s.gate } := by
  unfold changeGate
  dsimp only
  rw [h.invalidations, List.drop_length]
  rfl

/-- A restart that clears the fence calls the registered callback, if the fence was closed. -/
theorem changeGate_cleared {s : SuspendCoordinator} {change : GateChange}
    (h : FenceCleared s.gate (change.applied s.gate)) :
    changeGate s change =
      (if s.gate.suspendPhase = .accepting then [] else s.gate.suspendInvalidated.toList).foldl
        onInvalidated { s with gate := change.applied s.gate } := by
  unfold changeGate
  dsimp only
  rw [h.invalidations, List.drop_left]

/-! ## The invariant -/

/-- The entry that is current owns the lease the gate is closed by; without one the gate is open. -/
def EntryOwns (g : Gate) : Option SuspendEntry → Prop
  | none => g.suspendPhase = .accepting
  | some entry => LeaseHeld g entry.owner entry.reopenAdmission.expected ∧ entry.reopenAdmission.next = .accepting

/-- The invariant without the timer, as it holds while a step is under way. -/
structure LeaseOwned (s : SuspendCoordinator) : Prop where
  known : LeasesKnown s.gate s.paused
  entry : EntryOwns s.gate s.current
  paused : ∀ owner ∈ s.paused, LeaseValid s.gate owner → ∃ entry, s.current = some entry ∧ entry.owner = owner

/-- **The invariant** between steps. -/
structure SuspensionOwned (s : SuspendCoordinator) : Prop extends LeaseOwned s where
  armed : ∀ entry, s.current = some entry → entry.timer ≠ none

/-- A prepare is under way with the lease `owner`, which it still holds in `phase` or has lost. -/
structure Preparing (s : SuspendCoordinator) (owner : Nat) (phase : SuspendPhase) : Prop where
  known : LeasesKnown s.gate s.paused
  noEntry : s.current = none
  lease : LeaseHeld s.gate owner phase ∨ LeaseLost s.gate owner
  paused : ∀ p ∈ s.paused, LeaseValid s.gate p → p = owner

theorem Preparing.lost_iff (h : Preparing s owner phase) : isInvalidated s owner = true ↔ LeaseLost s.gate owner := by
  constructor
  · intro hinvalidated
    rcases h.lease with hheld | hlost
    · exact absurd (of_decide_eq_true hinvalidated) hheld.uncalled
    · exact hlost
  · intro hlost
    exact decide_eq_true hlost.called

theorem LeaseHeld.handedOut {g : Gate} (h : LeaseHeld g owner phase) : owner < g.suspendLeases.length := by
  obtain ⟨lease, hlease, -⟩ := h.lease
  exact lease_lt hlease

theorem Preparing.handedOut (h : Preparing s owner phase) : owner < s.gate.suspendLeases.length := by
  rcases h.lease with hheld | hlost
  · exact hheld.handedOut
  · exact h.known.called owner hlost.called

theorem Preparing.held_of (h : Preparing s owner phase) (hkept : isInvalidated s owner = false) :
    LeaseHeld s.gate owner phase := by
  rcases h.lease with hheld | hlost
  · exact hheld
  · rw [h.lost_iff.mpr hlost] at hkept
    cases hkept

/-- A prepare that lost its lease leaves nothing behind. -/
theorem Preparing.owned_of_lost (h : Preparing s owner phase) (hlost : LeaseLost s.gate owner) : SuspensionOwned s := by
  refine ⟨⟨h.known, ?_, fun p hp hvalid => ?_⟩, fun entry hentry => ?_⟩
  · rw [h.noEntry]
    exact hlost.accepting
  · cases h.paused p hp hvalid
    exact absurd hvalid hlost.invalid
  · rw [h.noEntry] at hentry
    cases hentry

/-! ## Restarts keep it -/

theorem not_leaseValid_of_cleared {change : GateChange} (h : FenceCleared s.gate (change.applied s.gate))
    (owner : Nat) (hgate : (changeGate s change).gate = change.applied s.gate) :
    ¬ LeaseValid (changeGate s change).gate owner := by
  rw [hgate]
  exact not_leaseValid_cleared h owner

theorem foldl_onInvalidated_gate (owners : List Nat) (s : SuspendCoordinator) :
    (owners.foldl onInvalidated s).gate = s.gate := by
  induction owners generalizing s with
  | nil => rfl
  | cons owner rest ih =>
    rw [List.foldl_cons, ih]
    exact onInvalidated_gate s owner

theorem foldl_onInvalidated_paused (owners : List Nat) (s : SuspendCoordinator) :
    (owners.foldl onInvalidated s).paused = s.paused := by
  induction owners generalizing s with
  | nil => rfl
  | cons owner rest ih =>
    rw [List.foldl_cons, ih]
    exact onInvalidated_paused s owner

@[simp] theorem changeGate_gate (s : SuspendCoordinator) (change : GateChange) :
    (changeGate s change).gate = change.applied s.gate := foldl_onInvalidated_gate _ _

@[simp] theorem changeGate_paused (s : SuspendCoordinator) (change : GateChange) :
    (changeGate s change).paused = s.paused := foldl_onInvalidated_paused _ _

/-- Callbacks take entries off; they put none in. -/
theorem foldl_onInvalidated_current (owners : List Nat) (s : SuspendCoordinator) :
    (owners.foldl onInvalidated s).current = s.current ∨ (owners.foldl onInvalidated s).current = none := by
  induction owners generalizing s with
  | nil => exact .inl rfl
  | cons owner rest ih =>
    rw [List.foldl_cons]
    rcases ih (onInvalidated s owner) with hsame | hnone
    · rw [hsame]
      exact onInvalidated_current s owner
    · exact .inr hnone

theorem changeGate_current (s : SuspendCoordinator) (change : GateChange) :
    (changeGate s change).current = s.current ∨ (changeGate s change).current = none :=
  foldl_onInvalidated_current _ _

/-- A restart that clears the fence takes the entry off. -/
theorem changeGate_clears (h : LeaseOwned s) {change : GateChange} (hcleared :
    FenceCleared s.gate (change.applied s.gate)) : (changeGate s change).current = none := by
  have hentry := h.entry
  cases hcurrent : s.current with
  | none =>
    rcases changeGate_current s change with hsame | hnone
    · rw [hsame, hcurrent]
    · exact hnone
  | some entry =>
    rw [hcurrent] at hentry
    have hclosed : s.gate.suspendPhase ≠ .accepting := by
      rw [hentry.1.inPhase]
      exact hentry.1.closed
    rw [changeGate_cleared hcleared, if_neg hclosed, hentry.1.callback, Option.toList_some,
      List.foldl_cons, List.foldl_nil]
    exact onInvalidated_owner hcurrent

/-- **A restart keeps the invariant**: it leaves the entry, or takes it off with the lease. -/
theorem changeGate_owned (h : LeaseOwned s) (change : GateChange) : LeaseOwned (changeGate s change) := by
  rcases applied_cases s.gate change with ⟨hsame, -⟩ | ⟨hcleared, -⟩
  · rw [changeGate_same hsame]
    refine ⟨h.known.same hsame, ?_, fun owner howner hvalid => h.paused owner howner ?_⟩
    · show EntryOwns (change.applied s.gate) s.current
      have hentry := h.entry
      cases hcurrent : s.current with
      | none =>
        rw [hcurrent] at hentry
        exact hsame.phase.trans hentry
      | some entry =>
        rw [hcurrent] at hentry
        exact ⟨hentry.1.same hsame, hentry.2⟩
    · obtain ⟨lease, hlease, hkept⟩ := hvalid
      exact ⟨lease, hsame.leases ▸ hlease, hkept⟩
  · have hnone := changeGate_clears h hcleared
    refine ⟨?_, ?_, fun owner _ hvalid => ?_⟩
    · rw [changeGate_gate, changeGate_paused]
      exact h.known.cleared hcleared
    · rw [hnone, changeGate_gate]
      exact hcleared.phase
    · exact absurd hvalid (not_leaseValid_of_cleared hcleared owner (changeGate_gate s change))

theorem arrive_current (restarts : List GateChange) (s : SuspendCoordinator) :
    (arrive s restarts).current = s.current ∨ (arrive s restarts).current = none := by
  induction restarts generalizing s with
  | nil => exact .inl rfl
  | cons change rest ih =>
    show (arrive (changeGate s change) rest).current = s.current ∨ (arrive (changeGate s change) rest).current = none
    rcases ih (changeGate s change) with hsame | hnone
    · rw [hsame]
      exact changeGate_current s change
    · exact .inr hnone

theorem arrive_owned (restarts : List GateChange) (h : LeaseOwned s) : LeaseOwned (arrive s restarts) := by
  induction restarts generalizing s with
  | nil => exact h
  | cons change rest ih => exact ih (changeGate_owned h change)

theorem arrive_suspensionOwned (restarts : List GateChange) (h : SuspensionOwned s) :
    SuspensionOwned (arrive s restarts) := by
  refine ⟨arrive_owned restarts h.toLeaseOwned, fun entry hentry => ?_⟩
  rcases arrive_current restarts s with hsame | hnone
  · exact h.armed entry (hsame ▸ hentry)
  · rw [hnone] at hentry
    cases hentry

/-- A call takes the current lease away. -/
def Call.invalidates {α : Type} (call : Call α) : Bool := call.restarts.any (·.invalidates)

theorem changeGate_preparing (h : Preparing s owner phase) (change : GateChange) :
    Preparing (changeGate s change) owner phase ∧ (LeaseLost s.gate owner ∨ change.invalidates = true →
      LeaseLost (changeGate s change).gate owner) ∧ (LeaseHeld s.gate owner phase → change.invalidates = false →
      LeaseHeld (changeGate s change).gate owner phase) := by
  have hnone : (changeGate s change).current = none := by
    rcases changeGate_current s change with hsame | hnone
    · rw [hsame]
      exact h.noEntry
    · exact hnone
  rcases applied_cases s.gate change with ⟨hsame, hopen⟩ | ⟨hcleared, hinvalidates⟩
  · have hvalid : ∀ p, LeaseValid (change.applied s.gate) p → LeaseValid s.gate p := by
      rintro p ⟨lease, hlease, hkept⟩
      exact ⟨lease, hsame.leases ▸ hlease, hkept⟩
    have hlost : LeaseLost s.gate owner → LeaseLost (change.applied s.gate) owner := fun hlost =>
      ⟨fun hv => hlost.invalid (hvalid owner hv), hsame.invalidations.symm ▸ hlost.called,
        hsame.phase.trans hlost.accepting⟩
    rw [changeGate_gate]
    refine ⟨⟨?_, hnone, ?_, ?_⟩, ?_, ?_⟩
    · rw [changeGate_gate, changeGate_paused]
      exact h.known.same hsame
    · rw [changeGate_gate]
      exact h.lease.imp (·.same hsame) hlost
    · intro p hp hv
      rw [changeGate_paused] at hp
      rw [changeGate_gate] at hv
      exact h.paused p hp (hvalid p hv)
    · rintro (hbefore | hinvalidates)
      · exact hlost hbefore
      · rcases h.lease with hheld | hbefore
        · exact absurd (hopen hinvalidates) (hheld.inPhase ▸ hheld.closed)
        · exact hlost hbefore
    · exact fun hheld _ => hheld.same hsame
  · have hinvalid := fun p => not_leaseValid_cleared hcleared p
    have hlost : LeaseLost (change.applied s.gate) owner := by
      refine ⟨hinvalid owner, ?_, hcleared.phase⟩
      rw [hcleared.invalidations, List.mem_append]
      rcases h.lease with hheld | hbefore
      · have hclosed : s.gate.suspendPhase ≠ .accepting := by
          rw [hheld.inPhase]
          exact hheld.closed
        rw [if_neg hclosed, hheld.callback]
        exact .inr (List.mem_singleton.mpr rfl)
      · exact .inl hbefore.called
    rw [changeGate_gate]
    refine ⟨⟨?_, hnone, ?_, ?_⟩, ?_, ?_⟩
    · rw [changeGate_gate, changeGate_paused]
      exact h.known.cleared hcleared
    · rw [changeGate_gate]
      exact .inr hlost
    · intro p _ hv
      rw [changeGate_gate] at hv
      exact absurd hv (hinvalid p)
    · exact fun _ => hlost
    · intro _ hkept
      rw [hinvalidates] at hkept
      cases hkept

/-- **Restarts during a prepare**: the lease is lost by the first one that invalidates it. -/
theorem arrive_preparing (restarts : List GateChange) (h : Preparing s owner phase) :
    Preparing (arrive s restarts) owner phase ∧ (LeaseLost s.gate owner ∨ restarts.any (·.invalidates) = true →
      LeaseLost (arrive s restarts).gate owner) ∧ (LeaseHeld s.gate owner phase →
      restarts.any (·.invalidates) = false → LeaseHeld (arrive s restarts).gate owner phase) := by
  induction restarts generalizing s with
  | nil =>
    refine ⟨h, ?_, fun hheld _ => hheld⟩
    rintro (hlost | hany)
    · exact hlost
    · cases hany
  | cons change rest ih =>
    obtain ⟨hstep, hloses, hkeeps⟩ := changeGate_preparing h change
    obtain ⟨hrest, hloses', hkeeps'⟩ := ih hstep
    refine ⟨hrest, fun hany => hloses' ?_, fun hheld hnone => ?_⟩
    · rw [List.any_cons, Bool.or_eq_true] at hany
      rcases hany with hlost | hchange | hlater
      · exact .inl (hloses (.inl hlost))
      · exact .inl (hloses (.inr hchange))
      · exact .inr hlater
    · rw [List.any_cons, Bool.or_eq_false_iff] at hnone
      exact hkeeps' (hkeeps hheld hnone.1) hnone.2

end OpenClaw.Infra.GatewaySuspend
