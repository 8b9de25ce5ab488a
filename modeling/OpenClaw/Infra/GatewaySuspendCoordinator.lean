/-
# OpenClaw.Infra.GatewaySuspendCoordinator -- preparing the gateway for a host suspension

`prepareGatewaySuspend` takes a suspend lease from the gate, pauses the schedulers, looks whether the
gateway is idle and then holds the lease under a timer; until the timer fires, the caller resumes, or a
restart takes the lease away, no new work is admitted.  This module follows
`gateway-suspend-coordinator.ts` over the gate of `gateway-work-admission.ts`.

Everything the coordinator calls and does not define (scheduler hooks, inspectors, id generator, clock)
is a `Call`: the restarts that arrive while it runs, and what it returns or throws.  The `owner` object
a prepare makes is known by the number of the lease it takes, in the same statement.
-/
import OpenClaw.Process.GatewayAdmission

namespace OpenClaw.Infra.GatewaySuspend

open OpenClaw.Logic OpenClaw.Process.GatewayAdmission

def gatewaySuspendTtlMs : Nat := 2 * 60000
def gatewaySuspendRetryAfterMs : Nat := 20000
def gatewaySchedulerRecoveryRetryMs : Nat := 1000

/-! ## What arrives from outside -/

inductive GatewayActiveWorkBlockerKind where
  | queue
  | reply
  | embeddedRun
  | backgroundExec
  | cronRun
  | task
  | rootRequest
  | sessionAdmission
  | sessionMutation
  | chatRun
  | queuedTurn
  | terminalPersistence
  | terminalSession

structure GatewayActiveWorkBlocker where
  kind : GatewayActiveWorkBlockerKind
  count : Nat
  message : String

structure GatewayActiveWorkSnapshot where
  idle : Bool
  totalActive : Nat
  blockers : List GatewayActiveWorkBlocker

/-- What a restart does to the gate: it drains, resets, or is announced and called off again. -/
inductive GateChange where
  | markRestartDraining
  | reset
  | beginRestartSignal
  | rollbackRestartSignal (lease : Nat)

def GateChange.applied (g : Gate) : GateChange → Gate
  | .markRestartDraining => markGatewayRestartDraining g
  | .reset => resolveSuspendOpenWaiters (reopenGate g)
  | .beginRestartSignal => beginGatewayRestartSignalAdmission g
  | .rollbackRestartSignal lease =>
    match g.signalLeases[lease]? with
    | none => g
    | some lease => (Process.GatewayAdmission.rollbackRestartSignal g lease).1

/-- One call of a function from outside. -/
structure Call (α : Type) where
  restarts : List GateChange := []
  result : Except String α

/-! ## The coordinator's state -/

structure HeldSuspension where
  requestId : String
  suspensionId : String
  expiresAtMs : Int
  snapshot : GatewayActiveWorkSnapshot

inductive EntryKind where
  | held (held : HeldSuspension)
  | recovering

/-- `GatewaySuspendCoordinatorEntry`.  `object` is its identity, `reopenAdmission` the operation of the
lease it calls, `timer` the delay its armed timer was given. -/
structure SuspendEntry where
  object : Nat
  owner : Nat
  kind : EntryKind
  reopenAdmission : SuspendOperation
  timer : Option Nat

/-- `paused` is bookkeeping of this model: the owners whose pause hook returned, and whose resume hook
has not returned since. -/
structure SuspendCoordinator where
  gate : Gate := {}
  current : Option SuspendEntry := none
  nextObject : Nat := 0
  paused : List Nat := []

/-- The callback a prepare registers with its lease. -/
def onInvalidated (s : SuspendCoordinator) (owner : Nat) : SuspendCoordinator :=
  match s.current with
  | none => s
  | some entry => if entry.owner = owner then { s with current := none } else s

/-- One change of the gate, with the callbacks it calls. -/
def changeGate (s : SuspendCoordinator) (change : GateChange) : SuspendCoordinator :=
  let gate := change.applied s.gate
  (gate.invalidations.drop s.gate.invalidations.length).foldl onInvalidated { s with gate }

def arrive (s : SuspendCoordinator) (restarts : List GateChange) : SuspendCoordinator := restarts.foldl changeGate s

/-- The flag `suspensionInvalidated` of the prepare that made `owner`. -/
def isInvalidated (s : SuspendCoordinator) (owner : Nat) : Bool := owner ∈ s.gate.invalidations

/-- A call of `commit`, `rollback` or `release` of a prepare's admission. -/
def leaseOperation (s : SuspendCoordinator) (owner : Nat) (operation : SuspendOperation) : SuspendCoordinator × Bool :=
  match s.gate.suspendLeases[owner]? with
  | none => (s, false)
  | some lease =>
    let (gate, done) := suspendLeaseOperation s.gate lease operation
    ({ s with gate }, done)

def schedulingPaused (s : SuspendCoordinator) (owner : Nat) : SuspendCoordinator :=
  { s with paused := owner :: s.paused }

def schedulingResumed (s : SuspendCoordinator) (owner : Nat) : SuspendCoordinator :=
  { s with paused := s.paused.filter (· ≠ owner) }

/-! ## Timers and recovery -/

def scheduleEntry (entry : SuspendEntry) (delayMs : Nat) : SuspendEntry := { entry with timer := some delayMs }

def scheduleRecoveryRetry (entry : SuspendEntry) : SuspendEntry := scheduleEntry entry gatewaySchedulerRecoveryRetryMs

/-- `COORDINATOR_STATE.current === entry` -/
def isCurrent (s : SuspendCoordinator) (entry : SuspendEntry) : Bool := s.current.map (·.object) = some entry.object

/-- Makes `entry` current as a new object. -/
def setCurrent (s : SuspendCoordinator) (entry : SuspendEntry) : SuspendCoordinator :=
  { s with
    current := some { entry with object := s.nextObject }
    nextObject := s.nextObject + 1 }

def enterSchedulerRecovery (s : SuspendCoordinator) (entry : SuspendEntry) : SuspendCoordinator :=
  if !isCurrent s entry then s
  else
    match entry.kind with
    | .recovering => { s with current := some (scheduleRecoveryRetry entry) }
    | .held _ => setCurrent s (scheduleRecoveryRetry { entry with kind := .recovering })

def resumeAndReopen (s : SuspendCoordinator) (entry : SuspendEntry) (resumeScheduling : Call Unit) :
    SuspendCoordinator × Bool :=
  let s := arrive s resumeScheduling.restarts
  match resumeScheduling.result with
  | .error _ => (enterSchedulerRecovery s entry, false)
  | .ok () =>
    let s := schedulingResumed s entry.owner
    if !isCurrent s entry then (s, true)
    else
      match leaseOperation s entry.owner entry.reopenAdmission with
      | (s, false) => (enterSchedulerRecovery s entry, false)
      | (s, true) => ({ s with current := none }, true)

/-- Answers with the entry the caller goes on with; one the clock's restarts took off still answers. -/
def normalizeExpiredHeldSuspension (s : SuspendCoordinator) (entry : SuspendEntry)
    (held : HeldSuspension) (nowMs : Call Int) (resumeScheduling : Call Unit) :
    SuspendCoordinator × Except String (Option SuspendEntry) :=
  let s := arrive s nowMs.restarts
  match nowMs.result with
  | .error err => (s, .error err)
  | .ok now =>
    if now < held.expiresAtMs then (s, .ok (some entry))
    else
      let s := (resumeAndReopen s entry resumeScheduling).1
      (s, .ok s.current)

/-- Rollback of a prepare; what is armed when the hook throws is current whatever was before. -/
def resumeSchedulingBeforeReopen (s : SuspendCoordinator) (owner : Nat)
    (reopenAdmission : SuspendOperation) (resumeScheduling : Call Unit) : SuspendCoordinator × Bool :=
  if isInvalidated s owner then (s, true)
  else
    let s := arrive s resumeScheduling.restarts
    match resumeScheduling.result with
    | .error _ =>
      (setCurrent s (scheduleRecoveryRetry
        { object := 0, owner, kind := .recovering, reopenAdmission, timer := none }), false)
    | .ok () =>
      let s := schedulingResumed s owner
      if isInvalidated s owner then (s, true) else ((leaseOperation s owner reopenAdmission).1, true)

def renewHeldSuspension (s : SuspendCoordinator) (entry : SuspendEntry) (held : HeldSuspension)
    (nowMs : Int) : SuspendCoordinator :=
  let kind := .held { held with expiresAtMs := nowMs + gatewaySuspendTtlMs }
  if !isCurrent s entry then s
  else { s with current := some (scheduleEntry { entry with kind } gatewaySuspendTtlMs) }

/-! ## Requests -/

inductive BusyReason where
  | gatewayDraining
  | activeWork

inductive GatewaySuspendPrepareResult where
  | ready (suspensionId : String) (expiresAtMs : Int) (activeCount : Nat)
      (blockers : List GatewayActiveWorkBlocker)
  | busy (reason : BusyReason) (retryAfterMs activeCount : Nat)
      (blockers : List GatewayActiveWorkBlocker)
  | conflict (expiresAtMs : Int)
  | recovering (retryAfterMs : Nat)

/-- `params` of `prepareGatewaySuspend`, each function with the call that is made of it.
`heldNowMs` and `heldResumeScheduling` are calls of the functions of the suspension then held. -/
structure PrepareParams where
  requestId : String
  nowMs : Call Int
  heldNowMs : Call Int
  heldResumeScheduling : Call Unit
  pauseScheduling : Call Unit
  inspect : Call GatewayActiveWorkSnapshot
  createSuspensionId : Call String
  resumeScheduling : Call Unit

/-- A prepare's answer, or the error it throws. -/
abbrev PrepareAnswer := Except String GatewaySuspendPrepareResult

def readyResult (held : HeldSuspension) : GatewaySuspendPrepareResult :=
  .ready held.suspensionId held.expiresAtMs held.snapshot.totalActive held.snapshot.blockers

def schedulerRecoveryResult : GatewaySuspendPrepareResult := .recovering gatewaySchedulerRecoveryRetryMs

def busyResult (reason : BusyReason) (snapshot : GatewayActiveWorkSnapshot) : GatewaySuspendPrepareResult :=
  .busy reason gatewaySuspendRetryAfterMs snapshot.totalActive snapshot.blockers

/-- The `catch` of a prepare that had paused the schedulers. -/
def abandonPreparation (s : SuspendCoordinator) (owner : Nat) (reopenAdmission : SuspendOperation)
    (resumeScheduling : Call Unit) (err : String) : SuspendCoordinator × PrepareAnswer :=
  match resumeSchedulingBeforeReopen s owner reopenAdmission resumeScheduling with
  | (s, false) => (s, .ok schedulerRecoveryResult)
  | (s, true) => (s, .error err)

/-- The gateway is not idle: back at once. -/
def refusePreparation (s : SuspendCoordinator) (owner : Nat) (params : PrepareParams)
    (snapshot : GatewayActiveWorkSnapshot) : SuspendCoordinator × PrepareAnswer :=
  match resumeSchedulingBeforeReopen s owner .rollback params.resumeScheduling with
  | (s, false) => (s, .ok schedulerRecoveryResult)
  | (s, true) => (s, .ok (busyResult .activeWork snapshot))

/-- The gateway is idle: commit, name the suspension and hold it. -/
def commitPreparation (s : SuspendCoordinator) (owner : Nat) (params : PrepareParams) (nowMs : Int)
    (snapshot : GatewayActiveWorkSnapshot) : SuspendCoordinator × PrepareAnswer :=
  match leaseOperation s owner .commit with
  | (s, false) =>
    abandonPreparation s owner .rollback params.resumeScheduling
      "gateway suspension admission changed during preparation"
  | (s, true) =>
    let s := arrive s params.createSuspensionId.restarts
    match params.createSuspensionId.result with
    | .error err => abandonPreparation s owner .release params.resumeScheduling err
    | .ok suspensionId =>
      let held : HeldSuspension :=
        { requestId := params.requestId
          suspensionId
          expiresAtMs := nowMs + gatewaySuspendTtlMs
          snapshot }
      (setCurrent s (scheduleEntry
        { object := 0, owner, kind := .held held, reopenAdmission := .release, timer := none }
        gatewaySuspendTtlMs), .ok (readyResult held))

/-- The `try` of a prepare, with its `catch`. -/
def runPreparation (s : SuspendCoordinator) (owner : Nat) (params : PrepareParams) (nowMs : Int) :
    SuspendCoordinator × PrepareAnswer :=
  let s := arrive s params.pauseScheduling.restarts
  match params.pauseScheduling.result with
  | .error err => ((leaseOperation s owner .rollback).1, .error err)
  | .ok () =>
    let s := arrive (schedulingPaused s owner) params.inspect.restarts
    match params.inspect.result with
    | .error err => abandonPreparation s owner .rollback params.resumeScheduling err
    | .ok snapshot =>
      if !snapshot.idle then refusePreparation s owner params snapshot
      else commitPreparation s owner params nowMs snapshot

/-- A prepare that found no entry in its way. -/
def beginPreparation (s : SuspendCoordinator) (params : PrepareParams) (nowMs : Int) :
    SuspendCoordinator × PrepareAnswer :=
  match tryBeginGatewaySuspendAdmission s.gate with
  | (_, none) =>
    let s := arrive s params.inspect.restarts
    (s, params.inspect.result.map (busyResult .gatewayDraining))
  | (gate, some owner) => runPreparation { s with gate } owner params nowMs

/-- How a prepare goes on after it looked at the current entry. -/
inductive Settled where
  | answered (answer : PrepareAnswer)
  | free (nowMs : Int)

/-- `prepareGatewaySuspend`, up to the admission. -/
def settleCurrent (s : SuspendCoordinator) (params : PrepareParams) : SuspendCoordinator × Settled :=
  let s := arrive s params.nowMs.restarts
  match params.nowMs.result with
  | .error err => (s, .answered (.error err))
  | .ok nowMs =>
    match s.current with
    | none => (s, .free nowMs)
    | some current =>
      match current.kind with
      | .recovering => (s, .answered (.ok schedulerRecoveryResult))
      | .held held =>
        match normalizeExpiredHeldSuspension s current held params.heldNowMs
            params.heldResumeScheduling with
        | (s, .error err) => (s, .answered (.error err))
        | (s, .ok none) => (s, .free nowMs)
        | (s, .ok (some existing)) =>
          match existing.kind with
          | .recovering => (s, .answered (.ok schedulerRecoveryResult))
          | .held held =>
            if held.requestId ≠ params.requestId then
              (s, .answered (.ok (.conflict held.expiresAtMs)))
            else
              (renewHeldSuspension s existing held nowMs,
                .answered (.ok (readyResult
                  { held with expiresAtMs := nowMs + gatewaySuspendTtlMs })))

def prepareGatewaySuspend (s : SuspendCoordinator) (params : PrepareParams) : SuspendCoordinator × PrepareAnswer :=
  match settleCurrent s params with
  | (s, .answered answer) => (s, answer)
  | (s, .free nowMs) => beginPreparation s params nowMs

inductive GatewaySuspendStatusResult where
  | running
  | ready (expiresAtMs : Int)
  | conflict (expiresAtMs : Int)
  | recovering (retryAfterMs : Nat)

def getGatewaySuspendStatus (s : SuspendCoordinator) (suspensionId : String) (nowMs : Call Int)
    (resumeScheduling : Call Unit) : SuspendCoordinator × Except String GatewaySuspendStatusResult :=
  let recovering := .ok (.recovering gatewaySchedulerRecoveryRetryMs)
  match s.current with
  | none => (s, .ok .running)
  | some current =>
    match current.kind with
    | .recovering => (s, recovering)
    | .held held =>
      match normalizeExpiredHeldSuspension s current held nowMs resumeScheduling with
      | (s, .error err) => (s, .error err)
      | (s, .ok none) => (s, .ok .running)
      | (s, .ok (some existing)) =>
        match existing.kind with
        | .recovering => (s, recovering)
        | .held held =>
          if held.suspensionId ≠ suspensionId then (s, .ok (.conflict held.expiresAtMs))
          else (s, .ok (.ready held.expiresAtMs))

inductive GatewaySuspendResumeResult where
  | running (resumed : Bool)
  | suspensionMismatch
  | schedulerResumeFailed (retryAfterMs : Nat)

/-- The hook is called at most once: an entry that comes out of `normalizeExpiredHeldSuspension` held
was not expired. -/
def resumeGatewaySuspend (s : SuspendCoordinator) (suspensionId : String) (nowMs : Call Int)
    (resumeScheduling : Call Unit) : SuspendCoordinator × Except String GatewaySuspendResumeResult :=
  let failed := .ok (.schedulerResumeFailed gatewaySchedulerRecoveryRetryMs)
  match s.current with
  | none => (s, .ok (.running false))
  | some current =>
    match current.kind with
    | .recovering => (s, failed)
    | .held held =>
      match normalizeExpiredHeldSuspension s current held nowMs resumeScheduling with
      | (s, .error err) => (s, .error err)
      | (s, .ok none) => (s, .ok (.running false))
      | (s, .ok (some existing)) =>
        match existing.kind with
        | .recovering => (s, failed)
        | .held held =>
          if held.suspensionId ≠ suspensionId then (s, .ok .suspensionMismatch)
          else
            match resumeAndReopen s existing resumeScheduling with
            | (s, false) => (s, failed)
            | (s, true) => (s, .ok (.running true))

/-! ## Runs -/

/-- The timer of the object `object` fires.  The timer of an entry that is not current does nothing. -/
def timerFires (s : SuspendCoordinator) (object : Nat) (resumeScheduling : Call Unit) : SuspendCoordinator :=
  match s.current with
  | none => s
  | some entry =>
    if entry.object ≠ object ∨ entry.timer = none then s
    else
      let entry := { entry with timer := none }
      (resumeAndReopen { s with current := some entry } entry resumeScheduling).1

inductive SuspendEvent where
  | prepare (params : PrepareParams)
  | status (suspensionId : String) (nowMs : Call Int) (resumeScheduling : Call Unit)
  | resume (suspensionId : String) (nowMs : Call Int) (resumeScheduling : Call Unit)
  | timerFires (object : Nat) (resumeScheduling : Call Unit)
  | gateChanges (change : GateChange)

def stepSuspend (s : SuspendCoordinator) : SuspendEvent → SuspendCoordinator
  | .prepare params => (prepareGatewaySuspend s params).1
  | .status suspensionId nowMs resumeScheduling => (getGatewaySuspendStatus s suspensionId nowMs resumeScheduling).1
  | .resume suspensionId nowMs resumeScheduling => (resumeGatewaySuspend s suspensionId nowMs resumeScheduling).1
  | .timerFires object resumeScheduling => timerFires s object resumeScheduling
  | .gateChanges change => changeGate s change

end OpenClaw.Infra.GatewaySuspend
