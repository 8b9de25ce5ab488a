/-
# OpenClaw.Process.GatewayAdmission -- admission of root work to the gateway

New root work is admitted unless the gateway drains for a restart, a restart signal is pending, or a
host suspension is under way.  Admitted work is counted by reference, so that a restart can wait for it;
callers that find the gate closed may park until it opens.  This module follows
`gateway-work-admission.ts`, its global state in two parts: the `Gate` with its three fences and the
callers parked at it, and the `RootWorkSet` with the work that is in.

The closures the source hands out are objects here: release handles, suspend leases and restart-signal
leases, each under a number.  `currentRootWork.getStore()` is an argument, any root ever created.
-/
import OpenClaw.Data.Table
import OpenClaw.Logic.Run

namespace OpenClaw.Process.GatewayAdmission

open OpenClaw.Logic OpenClaw.Data

/-! ## Root work -/

/-- `GatewayRootWorkAdmission`.  `retired` is bookkeeping of this model: a reset took the root out. -/
structure RootWork where
  references : Int
  released : Bool
  retired : Bool := false

/-- A closure made by `createGatewayRootWorkRelease`. -/
structure ReleaseHandle where
  root : Nat
  leaseReleased : Bool

structure RootWorkSet where
  roots : Table Nat RootWork
  handles : Table Nat ReleaseHandle
  activeRootWork : List Nat
  rootDrainWaiters : List Nat
  nextRoot : Nat
  nextHandle : Nat

/-- What an admitted caller holds: a place inside the current root, or a root of its own. -/
inductive RootWorkLease where
  | nested
  | owned (root release : Nat)

def resolveRootDrainWaiters (w : RootWorkSet) : RootWorkSet := { w with rootDrainWaiters := [] }

def createGatewayRootWorkRelease (w : RootWorkSet) (root : Nat) : RootWorkSet × Nat :=
  ({ w with
      handles := w.handles.upsert w.nextHandle { root, leaseReleased := false }
      nextHandle := w.nextHandle + 1 },
    w.nextHandle)

def createGatewayRootWorkAdmission (w : RootWorkSet) : RootWorkSet × RootWorkLease :=
  let root := w.nextRoot
  let (w, release) := createGatewayRootWorkRelease
    { w with
      roots := w.roots.upsert root { references := 1, released := false }
      activeRootWork := w.activeRootWork ++ [root]
      nextRoot := root + 1 } root
  (w, .owned root release)

/-- The last reference of `root` is gone. -/
def leaveRootWork (w : RootWorkSet) (root : Nat) : RootWorkSet :=
  let w := { w with activeRootWork := w.activeRootWork.filter (· ≠ root) }
  if w.activeRootWork = [] then resolveRootDrainWaiters w else w

/-- A call of the closure `release`. -/
def releaseRootWork (w : RootWorkSet) (release : Nat) : RootWorkSet :=
  match w.handles.find release with
  | none => w
  | some handle =>
    match w.roots.find handle.root with
    | none => w
    | some admission =>
      if handle.leaseReleased || admission.released then w
      else
        let references := admission.references - 1
        let w := { w with
          handles := w.handles.upsert release { handle with leaseReleased := true } }
        if references > 0 then
          { w with roots := w.roots.upsert handle.root { admission with references } }
        else
          leaveRootWork
            { w with
              roots := w.roots.upsert handle.root { admission with references, released := true } }
            handle.root

/-- `current && !current.released` -/
def liveRoot (w : RootWorkSet) (current : Option Nat) : Option (Nat × RootWork) :=
  match current with
  | none => none
  | some root =>
    match w.roots.find root with
    | none => none
    | some admission => if admission.released then none else some (root, admission)

def retainGatewayRootWorkAdmissionContinuation (w : RootWorkSet) (current : Option Nat) : RootWorkSet × Option Nat :=
  match liveRoot w current with
  | none => (w, none)
  | some (root, admission) =>
    let (w, release) := createGatewayRootWorkRelease
      { w with
        roots := w.roots.upsert root { admission with references := admission.references + 1 } } root
    (w, some release)

/-- The first loop of `resetGatewayWorkAdmission`, for one root. -/
def retireRoot (roots : Table Nat RootWork) (root : Nat) : Table Nat RootWork :=
  match roots.find root with
  | none => roots
  | some _ => roots.upsert root { references := 0, released := true, retired := true }

/-- What `resetGatewayWorkAdmission` does to the work that is in. -/
def retireRootWork (w : RootWorkSet) : RootWorkSet :=
  resolveRootDrainWaiters
    { w with roots := w.activeRootWork.foldl retireRoot w.roots, activeRootWork := [] }

inductive DrainWait where
  | returned (drained : Bool) (active : Nat)
  | parked (waiter : Nat)

/-- `waitForActiveGatewayRootWork`, up to its await; `none` is no finite timeout. -/
def waitForActiveGatewayRootWork (w : RootWorkSet) (timeoutMs : Option Int) (waiter : Nat) : RootWorkSet × DrainWait :=
  if w.activeRootWork = [] then (w, .returned true 0)
  else if timeoutMs.map (max 0) = some 0 then (w, .returned false w.activeRootWork.length)
  else ({ w with rootDrainWaiters := w.rootDrainWaiters ++ [waiter] }, .parked waiter)

/-- The rest of it, once its promise was resolved or its timer fired. -/
def drainWaiterReturns (w : RootWorkSet) (waiter : Nat) : RootWorkSet × DrainWait :=
  ({ w with rootDrainWaiters := w.rootDrainWaiters.filter (· ≠ waiter) },
    .returned (decide (w.activeRootWork = [])) w.activeRootWork.length)

/-! ## The gate -/

inductive SuspendPhase where
  | accepting
  | preparing
  | prepared
  deriving DecidableEq

/-- A suspend lease.  `invalidated` is bookkeeping of this model. -/
structure SuspendLease where
  generation : Nat
  invalidated : Bool := false

/-- A restart-signal lease; one without a generation was made while another was pending, and its
`rollback` is `() => false`.  `invalidated` is bookkeeping of this model. -/
structure RestartSignalLease where
  generation : Option Nat
  invalidated : Bool := false

inductive WaiterKind where
  | rootWork
  | independentRootWork

/-- A caller parked at the gate, with the root of its own async chain. -/
structure Waiter where
  id : Nat
  kind : WaiterKind
  current : Option Nat

/-- The gate.  `suspendInvalidated` names the lease whose callback is registered, `invalidations` the
leases whose callbacks were called; `woken` are callers whose promise is resolved. -/
structure Gate where
  restartDraining : Bool := false
  restartSignalPending : Bool := false
  restartSignalGeneration : Nat := 0
  suspendPhase : SuspendPhase := .accepting
  suspendGeneration : Nat := 0
  suspendInvalidated : Option Nat := none
  suspendOpenWaiters : List Waiter := []
  suspendLeases : List SuspendLease := []
  signalLeases : List RestartSignalLease := []
  invalidations : List Nat := []
  woken : List Waiter := []

def isGatewayWorkAdmissionClosed (g : Gate) : Bool :=
  g.restartDraining || g.restartSignalPending || g.suspendPhase ≠ .accepting

def resolveSuspendOpenWaiters (g : Gate) : Gate :=
  { g with suspendOpenWaiters := [], woken := g.woken ++ g.suspendOpenWaiters }

/-- Every suspend lease handed out so far is invalidated. -/
def invalidateSuspendLeases (g : Gate) : Gate :=
  { g with
    suspendGeneration := g.suspendGeneration + 1
    suspendInvalidated := none
    suspendLeases := g.suspendLeases.map fun lease => { lease with invalidated := true } }

/-- Every restart-signal lease handed out so far is invalidated. -/
def invalidateSignalLeases (g : Gate) : Gate :=
  { g with
    restartSignalPending := false
    restartSignalGeneration := g.restartSignalGeneration + 1
    signalLeases := g.signalLeases.map fun lease => { lease with invalidated := true } }

/-- `invalidateSuspendAdmission`.  What the callback does then are further events. -/
def invalidateSuspendAdmission (g : Gate) : Gate :=
  let invalidations := g.invalidations ++ g.suspendInvalidated.toList
  resolveSuspendOpenWaiters { invalidateSuspendLeases g with suspendPhase := .accepting, invalidations }

def markGatewayRestartDraining (g : Gate) : Gate :=
  let g := resolveSuspendOpenWaiters { invalidateSignalLeases g with restartDraining := true }
  if g.suspendPhase ≠ .accepting then invalidateSuspendAdmission g else g

def beginGatewayRestartSignalAdmission (g : Gate) : Gate :=
  if g.restartSignalPending then { g with signalLeases := g.signalLeases ++ [{ generation := none }] }
  else
    { g with
      restartSignalPending := true
      restartSignalGeneration := g.restartSignalGeneration + 1
      signalLeases := g.signalLeases ++ [{ generation := some (g.restartSignalGeneration + 1) }] }

/-- `rollback` of a restart-signal lease. -/
def rollbackRestartSignal (g : Gate) (lease : RestartSignalLease) : Gate × Bool :=
  match lease.generation with
  | none => (g, false)
  | some generation =>
    if !g.restartSignalPending || g.restartSignalGeneration ≠ generation then (g, false)
    else
      (resolveSuspendOpenWaiters { g with
          restartSignalPending := false
          restartSignalGeneration := g.restartSignalGeneration + 1 },
        true)

def tryBeginGatewaySuspendAdmission (g : Gate) : Gate × Option Nat :=
  if isGatewayWorkAdmissionClosed g then (g, none)
  else
    let lease := g.suspendLeases.length
    ({ g with
        suspendPhase := .preparing
        suspendGeneration := g.suspendGeneration + 1
        suspendInvalidated := some lease
        suspendLeases := g.suspendLeases ++ [{ generation := g.suspendGeneration + 1 }] },
      some lease)

/-- `transition` of a suspend lease. -/
def suspendTransition (g : Gate) (lease : SuspendLease) (expected next : SuspendPhase) : Gate × Bool :=
  if g.suspendGeneration ≠ lease.generation || g.suspendPhase ≠ expected then (g, false)
  else
    let g := { g with suspendPhase := next }
    if next = .accepting then
      (resolveSuspendOpenWaiters { g with suspendInvalidated := none }, true)
    else (g, true)

inductive SuspendOperation where
  | commit
  | rollback
  | release

def SuspendOperation.expected : SuspendOperation → SuspendPhase
  | .commit | .rollback => .preparing
  | .release => .prepared

def SuspendOperation.next : SuspendOperation → SuspendPhase
  | .commit => .prepared
  | .rollback | .release => .accepting

def suspendLeaseOperation (g : Gate) (lease : SuspendLease) (operation : SuspendOperation) : Gate × Bool :=
  suspendTransition g lease operation.expected operation.next

/-- What `resetGatewayWorkAdmission` does to the gate before its last statement. -/
def reopenGate (g : Gate) : Gate :=
  let g := { invalidateSignalLeases g with restartDraining := false }
  if g.suspendPhase ≠ .accepting then invalidateSuspendAdmission g else invalidateSuspendLeases g

/-! ## The gateway -/

/-- `resetTails` counts resets whose invalidation callback is still running: their last statement,
which wakes the parked callers once more, is to come. -/
structure Gateway where
  gate : Gate
  work : RootWorkSet
  nextWaiter : Nat
  resetTails : Nat

def freshGateway : Gateway where
  gate := {}
  work :=
    { roots := .empty
      handles := .empty
      activeRootWork := []
      rootDrainWaiters := []
      nextRoot := 0
      nextHandle := 0 }
  nextWaiter := 0
  resetTails := 0

def Gateway.admit (s : Gateway) : Gateway × Option RootWorkLease :=
  let (work, lease) := createGatewayRootWorkAdmission s.work
  ({ s with work }, some lease)

def tryBeginGatewayIndependentRootWorkAdmission (s : Gateway) : Gateway × Option RootWorkLease :=
  if isGatewayWorkAdmissionClosed s.gate then (s, none) else s.admit

def tryBeginGatewayRootWorkAdmission (s : Gateway) (current : Option Nat) : Gateway × Option RootWorkLease :=
  if (liveRoot s.work current).isSome then (s, some .nested)
  else tryBeginGatewayIndependentRootWorkAdmission s

def tryBegin (s : Gateway) (kind : WaiterKind) (current : Option Nat) : Gateway × Option RootWorkLease :=
  match kind with
  | .rootWork => tryBeginGatewayRootWorkAdmission s current
  | .independentRootWork => tryBeginGatewayIndependentRootWorkAdmission s

inductive BeginOutcome where
  | draining
  | admitted (lease : RootWorkLease)
  | parked (waiter : Nat)

/-- One round of the loop in `beginGatewayRootWorkAdmissionWhenOpen` and in
`runWithGatewayIndependentRootWorkAdmission`. -/
def beginWhenOpen (s : Gateway) (kind : WaiterKind) (current : Option Nat) : Gateway × BeginOutcome :=
  if s.gate.restartDraining then (s, .draining)
  else
    match tryBegin s kind current with
    | (s, some lease) => (s, .admitted lease)
    | (s, none) =>
      let waiter : Waiter := { id := s.nextWaiter, kind, current }
      ({ s with
          gate := { s.gate with suspendOpenWaiters := s.gate.suspendOpenWaiters ++ [waiter] }
          nextWaiter := s.nextWaiter + 1 },
        .parked waiter.id)

/-- `runWithGatewayIndependentRootWorkContinuation`: a live parent reserves a root, gate or no gate. -/
def beginContinuation (s : Gateway) (current : Option Nat) : Gateway × BeginOutcome :=
  match liveRoot s.work current with
  | none => beginWhenOpen s .independentRootWork current
  | some _ =>
    let (work, lease) := createGatewayRootWorkAdmission s.work
    ({ s with work }, .admitted lease)

/-- `resetGatewayWorkAdmission`, up to the invalidation callback if there is one to call. -/
def resetGatewayWorkAdmission (s : Gateway) : Gateway :=
  let work := retireRootWork s.work
  if s.gate.suspendPhase ≠ .accepting then
    { s with work, gate := reopenGate s.gate, resetTails := s.resetTails + 1 }
  else { s with work, gate := resolveSuspendOpenWaiters (reopenGate s.gate) }

/-! ## Runs -/

inductive AdmissionEvent where
  | tryBegin (kind : WaiterKind) (current : Option Nat)
  | beginWhenOpen (kind : WaiterKind) (current : Option Nat)
  | beginContinuation (current : Option Nat)
  | wakes (position : Nat)
  | retain (current : Option Nat)
  | release (handle : Nat)
  | waitForActive (timeoutMs : Option Int)
  | drainWaiterReturns (waiter : Nat)
  | beginSuspend
  | suspendLease (lease : Nat) (operation : SuspendOperation)
  | beginRestartSignal
  | rollbackRestartSignal (lease : Nat)
  | markRestartDraining
  | reset
  | resetTail

/-- One event.  `wakes` is a woken caller's next round.  A lease that was never handed out, a caller
that is not woken and a tail without its reset are disabled. -/
def stepGateway? (s : Gateway) : AdmissionEvent → Option Gateway
  | .tryBegin kind current => some (tryBegin s kind current).1
  | .beginWhenOpen kind current => some (beginWhenOpen s kind current).1
  | .beginContinuation current => some (beginContinuation s current).1
  | .wakes position =>
    s.gate.woken[position]?.map fun waiter =>
      let gate := { s.gate with woken := s.gate.woken.eraseIdx position }
      (beginWhenOpen { s with gate } waiter.kind waiter.current).1
  | .retain current => some { s with work := (retainGatewayRootWorkAdmissionContinuation s.work current).1 }
  | .release handle => some { s with work := releaseRootWork s.work handle }
  | .waitForActive timeoutMs =>
    some { s with
      work := (waitForActiveGatewayRootWork s.work timeoutMs s.nextWaiter).1
      nextWaiter := s.nextWaiter + 1 }
  | .drainWaiterReturns waiter => some { s with work := (drainWaiterReturns s.work waiter).1 }
  | .beginSuspend => some { s with gate := (tryBeginGatewaySuspendAdmission s.gate).1 }
  | .suspendLease lease operation =>
    s.gate.suspendLeases[lease]?.map fun lease =>
      { s with gate := (suspendLeaseOperation s.gate lease operation).1 }
  | .beginRestartSignal => some { s with gate := beginGatewayRestartSignalAdmission s.gate }
  | .rollbackRestartSignal lease =>
    s.gate.signalLeases[lease]?.map fun lease =>
      { s with gate := (rollbackRestartSignal s.gate lease).1 }
  | .markRestartDraining => some { s with gate := markGatewayRestartDraining s.gate }
  | .reset => some (resetGatewayWorkAdmission s)
  | .resetTail =>
    if s.resetTails = 0 then none
    else some { s with gate := resolveSuspendOpenWaiters s.gate, resetTails := s.resetTails - 1 }

def stepGateway : Gateway → AdmissionEvent → Gateway := skipDisabled stepGateway?

end OpenClaw.Process.GatewayAdmission
