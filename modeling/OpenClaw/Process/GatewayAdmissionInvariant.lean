/-
# OpenClaw.Process.GatewayAdmissionInvariant -- leases, references and wakeups at the gateway

Three invariants.  `LeasesFenced`: a lease still carries the gate's generation only if it is the last
one handed out and was not invalidated.  `RootsCounted`: a root is active exactly while it has a
reference, and its reference count is the number of its unreleased handles.  `NoneStranded`: callers
are parked only at a closed gate, and only while there is work to wait for.
-/
import OpenClaw.Process.GatewayAdmission

namespace OpenClaw.Process.GatewayAdmission

open OpenClaw.Logic OpenClaw.Data

/-! ## Parked callers -/

/-- Callers are parked at the gate only while it is closed for another reason than a restart drain. -/
def GateWaits (g : Gate) : Prop :=
  g.suspendOpenWaiters ≠ [] → g.restartDraining = false ∧ isGatewayWorkAdmissionClosed g = true

/-- Callers wait for the work that is in only while there is some. -/
def WorkWaits (w : RootWorkSet) : Prop := w.rootDrainWaiters ≠ [] → w.activeRootWork ≠ []

@[simp] theorem resolveSuspendOpenWaiters_waits (g : Gate) : GateWaits (resolveSuspendOpenWaiters g) :=
  fun h => absurd rfl h

@[simp] theorem resolveRootDrainWaiters_waits (w : RootWorkSet) :
    WorkWaits (resolveRootDrainWaiters w) := fun h => absurd rfl h

theorem createGatewayRootWorkAdmission_waits (w : RootWorkSet) :
    WorkWaits (createGatewayRootWorkAdmission w).1 := fun _ => by
  show w.activeRootWork ++ [w.nextRoot] ≠ []
  simp

theorem releaseRootWork_waits {w : RootWorkSet} (h : WorkWaits w) (release : Nat) :
    WorkWaits (releaseRootWork w release) := by
  unfold releaseRootWork
  split
  · exact h
  · split
    · exact h
    · split
      · exact h
      · dsimp only
        split
        · exact h
        · unfold leaveRootWork
          dsimp only
          split
          · exact resolveRootDrainWaiters_waits _
          · rename_i hactive
            exact fun _ => hactive

theorem retain_waits {w : RootWorkSet} (h : WorkWaits w) (current : Option Nat) :
    WorkWaits (retainGatewayRootWorkAdmissionContinuation w current).1 := by
  unfold retainGatewayRootWorkAdmissionContinuation
  split
  · exact h
  · exact h

theorem waitForActive_waits {w : RootWorkSet} (h : WorkWaits w) (timeoutMs : Option Int)
    (waiter : Nat) : WorkWaits (waitForActiveGatewayRootWork w timeoutMs waiter).1 := by
  unfold waitForActiveGatewayRootWork
  split
  · exact h
  · rename_i hactive
    split
    · exact h
    · exact fun _ => hactive

theorem drainWaiterReturns_waits {w : RootWorkSet} (h : WorkWaits w) (waiter : Nat) :
    WorkWaits (drainWaiterReturns w waiter).1 := by
  intro hwaiters
  refine h fun hnone => hwaiters ?_
  show w.rootDrainWaiters.filter (· ≠ waiter) = []
  rw [hnone]
  rfl

theorem invalidateSuspendAdmission_waits (g : Gate) : GateWaits (invalidateSuspendAdmission g) :=
  resolveSuspendOpenWaiters_waits _

theorem markGatewayRestartDraining_waits (g : Gate) : GateWaits (markGatewayRestartDraining g) := by
  unfold markGatewayRestartDraining
  dsimp only
  split
  · exact invalidateSuspendAdmission_waits _
  · exact resolveSuspendOpenWaiters_waits _

variable {g : Gate}

theorem beginRestartSignal_waits (h : GateWaits g) : GateWaits (beginGatewayRestartSignalAdmission g) := by
  unfold beginGatewayRestartSignalAdmission
  split
  · exact h
  · intro hwaiters
    refine ⟨(h hwaiters).1, ?_⟩
    simp [isGatewayWorkAdmissionClosed]

theorem rollbackRestartSignal_waits (h : GateWaits g) (lease : RestartSignalLease) :
    GateWaits (rollbackRestartSignal g lease).1 := by
  unfold rollbackRestartSignal
  split
  · exact h
  · split
    · exact h
    · exact resolveSuspendOpenWaiters_waits _

theorem tryBeginSuspend_waits (h : GateWaits g) : GateWaits (tryBeginGatewaySuspendAdmission g).1 := by
  unfold tryBeginGatewaySuspendAdmission
  split
  · exact h
  · intro hwaiters
    refine ⟨(h hwaiters).1, ?_⟩
    simp [isGatewayWorkAdmissionClosed]

theorem suspendLeaseOperation_waits (h : GateWaits g) (lease : SuspendLease) (operation : SuspendOperation) :
    GateWaits (suspendLeaseOperation g lease operation).1 := by
  unfold suspendLeaseOperation suspendTransition
  split
  · exact h
  · dsimp only
    split
    · exact resolveSuspendOpenWaiters_waits _
    · rename_i hnext
      intro hwaiters
      refine ⟨(h hwaiters).1, ?_⟩
      simp [isGatewayWorkAdmissionClosed, hnext]

theorem resetGatewayWorkAdmission_waits (s : Gateway) :
    GateWaits (resetGatewayWorkAdmission s).gate ∧ WorkWaits (resetGatewayWorkAdmission s).work := by
  unfold resetGatewayWorkAdmission
  dsimp only
  split
  · rename_i hphase
    refine ⟨?_, resolveRootDrainWaiters_waits _⟩
    show GateWaits (reopenGate s.gate)
    unfold reopenGate
    dsimp only
    rw [if_pos (by exact hphase)]
    exact invalidateSuspendAdmission_waits _
  · exact ⟨resolveSuspendOpenWaiters_waits _, resolveRootDrainWaiters_waits _⟩

/-- **Nobody is stranded**: the two halves together. -/
structure NoneStranded (s : Gateway) : Prop where
  gate : GateWaits s.gate
  work : WorkWaits s.work

/-- Beginning leaves the gate as it is; it only adds work. -/
theorem tryBegin_spec (s : Gateway) (kind : WaiterKind) (current : Option Nat) :
    (tryBegin s kind current).1.gate = s.gate ∧ ((tryBegin s kind current).1.work = s.work ∨
        (tryBegin s kind current).1.work = (createGatewayRootWorkAdmission s.work).1) ∧
      ((tryBegin s kind current).2 = none → isGatewayWorkAdmissionClosed s.gate = true) := by
  have hindependent : ∀ s : Gateway,
      (tryBeginGatewayIndependentRootWorkAdmission s).1.gate = s.gate ∧
        ((tryBeginGatewayIndependentRootWorkAdmission s).1.work = s.work ∨
          (tryBeginGatewayIndependentRootWorkAdmission s).1.work
            = (createGatewayRootWorkAdmission s.work).1) ∧
        ((tryBeginGatewayIndependentRootWorkAdmission s).2 = none →
          isGatewayWorkAdmissionClosed s.gate = true) := by
    intro s
    unfold tryBeginGatewayIndependentRootWorkAdmission
    split
    · rename_i hclosed
      exact ⟨rfl, .inl rfl, fun _ => hclosed⟩
    · exact ⟨rfl, .inr rfl, fun h => by cases h⟩
  cases kind with
  | rootWork =>
    unfold tryBegin tryBeginGatewayRootWorkAdmission
    dsimp only
    split
    · exact ⟨rfl, .inl rfl, fun h => by cases h⟩
    · exact hindependent s
  | independentRootWork => exact hindependent s

theorem tryBegin_waits {s : Gateway} (h : NoneStranded s) (kind : WaiterKind) (current : Option Nat) :
    NoneStranded (tryBegin s kind current).1 := by
  obtain ⟨hgate, hwork, -⟩ := tryBegin_spec s kind current
  refine ⟨hgate ▸ h.gate, ?_⟩
  rcases hwork with hwork | hwork
  · exact hwork ▸ h.work
  · exact hwork ▸ createGatewayRootWorkAdmission_waits s.work

/-- **A caller parks only at a closed gate.** -/
theorem beginWhenOpen_waits {s : Gateway} (h : NoneStranded s) (kind : WaiterKind)
    (current : Option Nat) : NoneStranded (beginWhenOpen s kind current).1 := by
  have hbegin := tryBegin_waits h kind current
  obtain ⟨hgate, -, hclosed⟩ := tryBegin_spec s kind current
  unfold beginWhenOpen
  split
  · exact h
  · rename_i hdraining
    split
    · rename_i s' lease hs'
      rw [hs'] at hbegin
      exact hbegin
    · rename_i s' hs'
      rw [hs'] at hbegin hgate hclosed
      have hsame : s'.gate = s.gate := hgate
      refine ⟨fun _ => ?_, hbegin.work⟩
      show s'.gate.restartDraining = false ∧ isGatewayWorkAdmissionClosed s'.gate = true
      rw [hsame]
      exact ⟨by simpa using hdraining, hclosed rfl⟩

theorem beginContinuation_waits {s : Gateway} (h : NoneStranded s) (current : Option Nat) :
    NoneStranded (beginContinuation s current).1 := by
  unfold beginContinuation
  split
  · exact beginWhenOpen_waits h _ current
  · exact ⟨h.gate, createGatewayRootWorkAdmission_waits s.work⟩

theorem stepGateway?_waits {s s' : Gateway} {event : AdmissionEvent}
    (hstep : stepGateway? s event = some s') (h : NoneStranded s) : NoneStranded s' := by
  cases event with
  | tryBegin kind current =>
    cases hstep
    exact tryBegin_waits h kind current
  | beginWhenOpen kind current =>
    cases hstep
    exact beginWhenOpen_waits h kind current
  | beginContinuation current =>
    cases hstep
    exact beginContinuation_waits h current
  | wakes position =>
    obtain ⟨waiter, -, rfl⟩ := Option.map_eq_some_iff.mp hstep
    have hwoken : NoneStranded
        { s with gate := { s.gate with woken := s.gate.woken.eraseIdx position } } :=
      ⟨h.gate, h.work⟩
    exact beginWhenOpen_waits hwoken waiter.kind waiter.current
  | retain current =>
    cases hstep
    exact ⟨h.gate, retain_waits h.work current⟩
  | release handle =>
    cases hstep
    exact ⟨h.gate, releaseRootWork_waits h.work handle⟩
  | waitForActive timeoutMs =>
    cases hstep
    exact ⟨h.gate, waitForActive_waits h.work timeoutMs _⟩
  | drainWaiterReturns waiter =>
    cases hstep
    exact ⟨h.gate, drainWaiterReturns_waits h.work waiter⟩
  | beginSuspend =>
    cases hstep
    exact ⟨tryBeginSuspend_waits h.gate, h.work⟩
  | suspendLease lease operation =>
    obtain ⟨lease, -, rfl⟩ := Option.map_eq_some_iff.mp hstep
    exact ⟨suspendLeaseOperation_waits h.gate lease operation, h.work⟩
  | beginRestartSignal =>
    cases hstep
    exact ⟨beginRestartSignal_waits h.gate, h.work⟩
  | rollbackRestartSignal lease =>
    obtain ⟨lease, -, rfl⟩ := Option.map_eq_some_iff.mp hstep
    exact ⟨rollbackRestartSignal_waits h.gate lease, h.work⟩
  | markRestartDraining =>
    cases hstep
    exact ⟨markGatewayRestartDraining_waits s.gate, h.work⟩
  | reset =>
    cases hstep
    obtain ⟨hgate, hwork⟩ := resetGatewayWorkAdmission_waits s
    exact ⟨hgate, hwork⟩
  | resetTail =>
    simp only [stepGateway?] at hstep
    split at hstep
    · cases hstep
    · cases hstep
      exact ⟨resolveSuspendOpenWaiters_waits _, h.work⟩

/-! ## Leases -/

/-- The last suspend lease handed out, and not invalidated. -/
def LatestSuspend (g : Gate) (i : Nat) (lease : SuspendLease) : Prop :=
  i + 1 = g.suspendLeases.length ∧ lease.invalidated = false

/-- The last restart-signal lease granted, and not invalidated.  A lease made while another was pending
grants nothing. -/
def LatestSignal (g : Gate) (i : Nat) (lease : RestartSignalLease) : Prop :=
  lease.invalidated = false ∧ ∀ j later, i < j → g.signalLeases[j]? = some later → later.generation = none

structure LeasesFenced (g : Gate) : Prop where
  suspend : ∀ i lease, g.suspendLeases[i]? = some lease →
    lease.generation ≤ g.suspendGeneration ∧ (lease.generation = g.suspendGeneration ↔ LatestSuspend g i lease)
  signal : ∀ i lease generation, g.signalLeases[i]? = some lease →
    lease.generation = some generation → generation ≤ g.restartSignalGeneration ∧
      (g.restartSignalPending = true →
        (generation = g.restartSignalGeneration ↔ LatestSignal g i lease))

theorem resolveSuspendOpenWaiters_fenced (h : LeasesFenced g) : LeasesFenced (resolveSuspendOpenWaiters g) := ⟨h.suspend, h.signal⟩

/-- Raising the generation invalidates every suspend lease. -/
theorem invalidateSuspendLeases_fenced (h : LeasesFenced g) : LeasesFenced (invalidateSuspendLeases g) := by
  refine ⟨fun i lease hlease => ?_, h.signal⟩
  have hmap : (g.suspendLeases.map fun lease => { lease with invalidated := true })[i]? = some lease := hlease
  rw [List.getElem?_map, Option.map_eq_some_iff] at hmap
  obtain ⟨before, hbefore, rfl⟩ := hmap
  have hle := (h.suspend i before hbefore).1
  refine ⟨Nat.le_succ_of_le hle, fun heq => ?_, fun hlatest => ?_⟩
  · have hnext : before.generation = g.suspendGeneration + 1 := heq
    omega
  · cases hlatest.2

/-- Clearing the pending signal, with or without invalidating the leases, leaves no lease current. -/
theorem invalidateSignalLeases_fenced (h : LeasesFenced g) : LeasesFenced (invalidateSignalLeases g) := by
  refine ⟨h.suspend, fun i lease generation hlease hgeneration => ?_⟩
  have hmap : (g.signalLeases.map fun lease => { lease with invalidated := true })[i]? = some lease := hlease
  rw [List.getElem?_map, Option.map_eq_some_iff] at hmap
  obtain ⟨before, hbefore, rfl⟩ := hmap
  have hle := (h.signal i before generation hbefore hgeneration).1
  exact ⟨Nat.le_succ_of_le hle, fun hpending => by cases hpending⟩

theorem invalidateSuspendAdmission_fenced (h : LeasesFenced g) : LeasesFenced (invalidateSuspendAdmission g) := by
  have hleases := invalidateSuspendLeases_fenced h
  exact ⟨hleases.suspend, hleases.signal⟩

theorem markGatewayRestartDraining_fenced (h : LeasesFenced g) : LeasesFenced (markGatewayRestartDraining g) := by
  have hsignal := invalidateSignalLeases_fenced h
  have hdraining : LeasesFenced
      (resolveSuspendOpenWaiters { invalidateSignalLeases g with restartDraining := true }) :=
    ⟨hsignal.suspend, hsignal.signal⟩
  unfold markGatewayRestartDraining
  dsimp only
  split
  · exact invalidateSuspendAdmission_fenced hdraining
  · exact hdraining

theorem reopenGate_fenced (h : LeasesFenced g) : LeasesFenced (reopenGate g) := by
  have hsignal := invalidateSignalLeases_fenced h
  have hopen : LeasesFenced { invalidateSignalLeases g with restartDraining := false } :=
    ⟨hsignal.suspend, hsignal.signal⟩
  unfold reopenGate
  dsimp only
  split
  · exact invalidateSuspendAdmission_fenced hopen
  · exact invalidateSuspendLeases_fenced hopen

/-- A lease in the list with a new one at its end is an old one or the new one. -/
theorem lease_of_append {α : Type} {leases : List α} {new lease : α} {i : Nat}
    (h : (leases ++ [new])[i]? = some lease) : leases[i]? = some lease ∨ (i = leases.length ∧ lease = new) := by
  rw [List.getElem?_append] at h
  split at h
  · exact .inl h
  · rename_i hi
    rw [List.getElem?_singleton] at h
    split at h
    · exact .inr ⟨by omega, (Option.some.inj h).symm⟩
    · cases h

theorem lease_lt {α : Type} {leases : List α} {lease : α} {i : Nat} (h : leases[i]? = some lease) :
    i < leases.length := (List.getElem?_eq_some_iff.mp h).1

theorem tryBeginSuspend_fenced (h : LeasesFenced g) : LeasesFenced (tryBeginGatewaySuspendAdmission g).1 := by
  unfold tryBeginGatewaySuspendAdmission
  split
  · exact h
  · refine ⟨fun i lease hlease => ?_, h.signal⟩
    show lease.generation ≤ g.suspendGeneration + 1 ∧
      (lease.generation = g.suspendGeneration + 1 ↔
        i + 1 = (g.suspendLeases ++ [_]).length ∧ lease.invalidated = false)
    rw [List.length_append, List.length_singleton]
    rcases lease_of_append hlease with hold | ⟨rfl, rfl⟩
    · have hle := (h.suspend i lease hold).1
      have hi := lease_lt hold
      exact ⟨by omega, by omega, by omega⟩
    · exact ⟨Nat.le_refl _, fun _ => ⟨rfl, rfl⟩, fun _ => rfl⟩

theorem suspendLeaseOperation_fenced (h : LeasesFenced g) (lease : SuspendLease) (operation : SuspendOperation) :
    LeasesFenced (suspendLeaseOperation g lease operation).1 := by
  unfold suspendLeaseOperation suspendTransition
  split
  · exact h
  · dsimp only
    split
    · exact ⟨h.suspend, h.signal⟩
    · exact ⟨h.suspend, h.signal⟩

theorem rollbackRestartSignal_fenced (h : LeasesFenced g) (lease : RestartSignalLease) :
    LeasesFenced (rollbackRestartSignal g lease).1 := by
  unfold rollbackRestartSignal
  split
  · exact h
  · split
    · exact h
    · refine ⟨h.suspend, fun i lease generation hlease hgeneration => ?_⟩
      have hle := (h.signal i lease generation hlease hgeneration).1
      exact ⟨Nat.le_succ_of_le hle, fun hpending => by cases hpending⟩

/-- **A new restart-signal lease** is the latest one if no other is pending; else it is not one at all,
and the pending one stays the latest. -/
theorem beginRestartSignal_fenced (h : LeasesFenced g) : LeasesFenced (beginGatewayRestartSignalAdmission g) := by
  unfold beginGatewayRestartSignalAdmission
  split
  · refine ⟨h.suspend, fun i lease generation hlease hgeneration => ?_⟩
    rcases lease_of_append hlease with hold | ⟨-, rfl⟩
    · obtain ⟨hle, hlatest⟩ := h.signal i lease generation hold hgeneration
      refine ⟨hle, fun hpending => (hlatest hpending).trans ?_⟩
      -- What is later than `lease` is so before and after, the new lease apart, and that one is inert.
      constructor
      · rintro ⟨hvalid, hlater⟩
        refine ⟨hvalid, fun j later hj hget => ?_⟩
        rcases lease_of_append hget with hget | ⟨-, rfl⟩
        · exact hlater j later hj hget
        · rfl
      · rintro ⟨hvalid, hlater⟩
        refine ⟨hvalid, fun j later hj hget => hlater j later hj ?_⟩
        show (g.signalLeases ++ [_])[j]? = some later
        rw [List.getElem?_append_left (lease_lt hget), hget]
    · cases hgeneration
  · refine ⟨h.suspend, fun i lease generation hlease hgeneration => ?_⟩
    show generation ≤ g.restartSignalGeneration + 1 ∧ (true = true →
      (generation = g.restartSignalGeneration + 1 ↔ LatestSignal _ i lease))
    rcases lease_of_append hlease with hold | ⟨rfl, rfl⟩
    · have hle := (h.signal i lease generation hold hgeneration).1
      refine ⟨by omega, fun _ => ⟨by omega, fun hlatest => ?_⟩⟩
      -- The new lease is later and granted.
      have hnone := hlatest.2 _ _ (lease_lt hold) List.getElem?_concat_length
      cases hnone
    · cases hgeneration
      refine ⟨Nat.le_refl _, fun _ => ⟨fun _ => ⟨rfl, fun j later hj hget => ?_⟩, fun _ => rfl⟩⟩
      have hj' := lease_lt hget
      rw [List.length_append, List.length_singleton] at hj'
      omega

/-- The gate of `tryBegin` is the gate before, so what holds of the one holds of the other. -/
theorem stepGateway?_fenced {s s' : Gateway} {event : AdmissionEvent}
    (hstep : stepGateway? s event = some s') (h : LeasesFenced s.gate) : LeasesFenced s'.gate := by
  have hbegin : ∀ (s : Gateway) kind current, LeasesFenced s.gate →
      LeasesFenced (beginWhenOpen s kind current).1.gate := by
    intro s kind current h
    obtain ⟨hgate, -, -⟩ := tryBegin_spec s kind current
    unfold beginWhenOpen
    split
    · exact h
    · split
      · rename_i s' lease hs'
        rw [hs'] at hgate
        have hsame : s'.gate = s.gate := hgate
        exact hsame ▸ h
      · rename_i s' hs'
        rw [hs'] at hgate
        have hsame : s'.gate = s.gate := hgate
        exact ⟨(hsame ▸ h).suspend, (hsame ▸ h).signal⟩
  cases event with
  | tryBegin kind current =>
    cases hstep
    exact (tryBegin_spec s kind current).1 ▸ h
  | beginWhenOpen kind current =>
    cases hstep
    exact hbegin s kind current h
  | beginContinuation current =>
    cases hstep
    show LeasesFenced (beginContinuation s current).1.gate
    unfold beginContinuation
    split
    · exact hbegin s _ current h
    · exact h
  | wakes position =>
    obtain ⟨waiter, -, rfl⟩ := Option.map_eq_some_iff.mp hstep
    exact hbegin _ _ _ ⟨h.suspend, h.signal⟩
  | retain _ | release _ | waitForActive _ | drainWaiterReturns _ =>
    cases hstep
    exact h
  | beginSuspend =>
    cases hstep
    exact tryBeginSuspend_fenced h
  | suspendLease lease operation =>
    obtain ⟨lease, -, rfl⟩ := Option.map_eq_some_iff.mp hstep
    exact suspendLeaseOperation_fenced h lease operation
  | beginRestartSignal =>
    cases hstep
    exact beginRestartSignal_fenced h
  | rollbackRestartSignal lease =>
    obtain ⟨lease, -, rfl⟩ := Option.map_eq_some_iff.mp hstep
    exact rollbackRestartSignal_fenced h lease
  | markRestartDraining =>
    cases hstep
    exact markGatewayRestartDraining_fenced h
  | reset =>
    cases hstep
    have hopen := reopenGate_fenced h
    show LeasesFenced (resetGatewayWorkAdmission s).gate
    unfold resetGatewayWorkAdmission
    dsimp only
    split
    · exact hopen
    · exact resolveSuspendOpenWaiters_fenced hopen
  | resetTail =>
    simp only [stepGateway?] at hstep
    split at hstep
    · cases hstep
    · cases hstep
      exact resolveSuspendOpenWaiters_fenced h

/-- **A suspend lease operates** exactly while it is the latest, valid lease and the gate is in the
phase the operation expects. -/
theorem suspendLeaseOperation_true {i : Nat} {lease : SuspendLease} (h : LeasesFenced g)
    (hlease : g.suspendLeases[i]? = some lease) (operation : SuspendOperation) :
    (suspendLeaseOperation g lease operation).2 = true ↔ LatestSuspend g i lease ∧
      g.suspendPhase = operation.expected := by
  rw [← (h.suspend i lease hlease).2]
  unfold suspendLeaseOperation suspendTransition
  split
  · rename_i hrefused
    constructor
    · intro hfalse
      cases hfalse
    · rintro ⟨hgeneration, hphase⟩
      simp [hgeneration, hphase] at hrefused
  · rename_i hallowed
    have hboth : g.suspendGeneration = lease.generation ∧ g.suspendPhase = operation.expected := by
      simpa using hallowed
    dsimp only
    split
    · exact ⟨fun _ => ⟨hboth.1.symm, hboth.2⟩, fun _ => rfl⟩
    · exact ⟨fun _ => ⟨hboth.1.symm, hboth.2⟩, fun _ => rfl⟩

theorem suspendLeaseOperation_false {lease : SuspendLease} {operation : SuspendOperation}
    (h : (suspendLeaseOperation g lease operation).2 = false) : (suspendLeaseOperation g lease operation).1 = g := by
  unfold suspendLeaseOperation suspendTransition at h ⊢
  split at h
  · rename_i hrefused
    rw [if_pos hrefused]
  · dsimp only at h
    split at h <;> cases h

/-- **A restart-signal lease rolls back** exactly while a signal is pending and the lease is the latest,
valid one granted. -/
theorem rollbackRestartSignal_true {i : Nat} {lease : RestartSignalLease} (h : LeasesFenced g)
    (hlease : g.signalLeases[i]? = some lease) : (rollbackRestartSignal g lease).2 = true ↔
      lease.generation.isSome = true ∧ LatestSignal g i lease ∧ g.restartSignalPending = true := by
  unfold rollbackRestartSignal
  cases hgeneration : lease.generation with
  | none => simp
  | some generation =>
    have hlatest := (h.signal i lease generation hlease hgeneration).2
    dsimp only
    split
    · rename_i hrefused
      constructor
      · intro hfalse
        cases hfalse
      · rintro ⟨-, hlast, hpending⟩
        have hcurrent := (hlatest hpending).mpr hlast
        simp [hcurrent, hpending] at hrefused
    · rename_i hallowed
      have hboth : g.restartSignalPending = true ∧ g.restartSignalGeneration = generation := by
        simpa using hallowed
      exact ⟨fun _ => ⟨rfl, (hlatest hboth.1).mp hboth.2.symm, hboth.1⟩, fun _ => rfl⟩

theorem rollbackRestartSignal_false {lease : RestartSignalLease} (h : (rollbackRestartSignal g lease).2 = false) :
    (rollbackRestartSignal g lease).1 = g := by
  unfold rollbackRestartSignal at h ⊢
  cases hgeneration : lease.generation with
  | none => rfl
  | some generation =>
    rw [hgeneration] at h
    dsimp only at h ⊢
    split at h
    · rename_i hrefused
      rw [if_pos hrefused]
    · cases h

end OpenClaw.Process.GatewayAdmission
