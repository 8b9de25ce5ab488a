/-
# OpenClaw.Outbound.DeliveryQueueRecovery -- recoveries, drains and crashes around one entry

A startup recovery and a reconnect drain visit every pending entry.  A visit claims the entry in the set
`entriesInProgress` of its process, reads the row again, and refuses a blind replay: an entry whose row
says that the platform may have been called is delivered only after its adapter answered `not_sent`.
This module follows `delivery-queue-recovery.ts`, and runs any number of visits next to the live send,
each suspended at its own request, in a process that may crash between any two steps.

The loops over the other entries are left out: a visit begins when its loop reaches the entry.
-/
import OpenClaw.Logic.Run
import OpenClaw.Outbound.DeliverySend

namespace OpenClaw.Outbound

open OpenClaw.Logic

/-! ## Retry eligibility -/

def maxRetries : Nat := 5

def recoveryBackoffMs : List Int := [5000, 25000, 120000, 600000]

/-- `computeBackoffSchedule`. -/
def computeBackoffSchedule (scheduleMs : List Int) (attempt : Nat) : Int :=
  if attempt = 0 then 0 else scheduleMs.getD (min (attempt - 1) (scheduleMs.length - 1)) 0

def computeBackoffMs (retryCount : Nat) : Int := computeBackoffSchedule recoveryBackoffMs retryCount

def isEntryEligibleForRecoveryRetry (entry : QueuedDelivery) (now : Int) : Bool :=
  let backoff := computeBackoffMs (entry.retryCount + 1)
  if backoff ≤ 0 then true
  else if entry.retryCount = 0 && entry.lastAttemptAt = none then true
  else
    let baseAttemptAt :=
      match entry.lastAttemptAt with
      | some at' => if at' > 0 then at' else entry.enqueuedAt
      | none => entry.enqueuedAt
    now ≥ baseAttemptAt + backoff

/-! ## One entry -/

/-- The call of `deliver`. -/
def callDeliver (owner : DeliveryOwner) (entry : QueuedDelivery)
    (reconciliation : Option Reconciliation) : QueueProgram Phase :=
  .call (.deliver reconciliation) fun _ => .done (.delivering { owner, entry })

def reconcileUnknownQueuedDelivery (entry : QueuedDelivery) : QueueProgram (Option Reconciliation) :=
  .call (.reconcileUnknownSend entry) fun answer =>
    match answer with
    | .unsupported => .done none
    | .answered reconciliation => .done (some reconciliation)
    | .threw error => .done (some (.unresolved (some error) true))

def RecoveryState.text : RecoveryState → String
  | .sendAttemptStarted => "send_attempt_started"
  | .unknownAfterSend => "unknown_after_send"

/-- The adapter says that the message was sent. -/
def ackReconciledSent : QueueProgram Phase := do
  match ← writeQueue .ackDelivery with
  | .ok _ => return .finished .recovered
  | .error ackErr =>
    if ackErr.code = some "ENOENT" then return .finished .alreadyGone
    else
      let error := "failed to ack reconciled sent delivery: " ++ ackErr.message
      match ← writeQueue (.failDelivery error) with
      | .ok _ => return .finished .failed
      | .error failErr => return .finished (if failErr.code = some "ENOENT" then .alreadyGone else .failed)

def refusalMessage (state : RecoveryState) : Option Reconciliation → String
  | some .notSent => "delivery state is " ++ state.text ++ "; refusing full replay after post-send evidence"
  | some (.unresolved (some error) _) =>
    if error = "" then
      "delivery state is " ++ state.text ++ "; refusing blind replay without adapter reconciliation"
    else "delivery state is " ++ state.text ++ " and reconciliation is unresolved: " ++ error
  | _ => "delivery state is " ++ state.text ++ "; refusing blind replay without adapter reconciliation"

/-- The entry may have been sent, and nothing proves that it was not. -/
def refuseBlindReplay (state : RecoveryState) (reconciliation : Option Reconciliation) : QueueProgram Phase :=
  let retryable :=
    match reconciliation with
    | some (.unresolved _ retryable) => retryable
    | _ => false
  if retryable then do
    match ← writeQueue (.failDelivery (refusalMessage state reconciliation)) with
    | .ok _ => return .finished .failed
    | .error failErr => return .finished (if failErr.code = some "ENOENT" then .alreadyGone else .failed)
  else do
    match ← writeQueue .moveToFailed with
    | .ok _ => return .finished .movedToFailed
    | .error moveErr => return .finished (if moveErr.code = some "ENOENT" then .alreadyGone else .failed)

/-- `drainQueuedEntry`, up to its call of `deliver`. -/
def drainQueuedEntry (entry : QueuedDelivery) : QueueProgram Phase :=
  match entry.recoveryState with
  | none => callDeliver .recovery entry none
  | some state => do
    let reconciliation ← reconcileUnknownQueuedDelivery entry
    if reconciliation = some .sent then ackReconciledSent
    else if reconciliation = some .notSent ∧ state = .sendAttemptStarted then
      callDeliver .recovery entry reconciliation
    else refuseBlindReplay state reconciliation

/-! ## A visit -/

inductive VisitKind where
  | live
  | recovery
  | drain
  deriving DecidableEq, Repr

/-- `applyRecoveryDeliveryAdmission`: whether the visit goes on. -/
def applyRecoveryDeliveryAdmission (entry : QueuedDelivery) : QueueProgram Bool :=
  .call (.resolveDeferredDeliveryAdmission entry) fun rejection =>
    match rejection with
    | none => .done true
    | some reason => .call (.failPendingDelivery reason entry) fun _ => .done false

/-- The body of the loop of `recoverPendingDeliveries`, once the entry is claimed. -/
def recoverEntry : QueueProgram Phase := do
  match ← loadPendingDelivery with
  | .ok (some currentEntry) =>
    if !(← applyRecoveryDeliveryAdmission currentEntry) then return .finished .skipped
    else if currentEntry.retryCount ≥ maxRetries then
      let _ ← writeQueue .moveToFailed
      return .finished .skipped
    else
      .call .now fun now =>
        if !isEntryEligibleForRecoveryRetry currentEntry now then .done (.finished .skipped)
        else
          .call .pace fun (ready : Bool) =>
            if ready then drainQueuedEntry currentEntry else .done (.finished .skipped)
  | _ => return .finished .skipped

/-- The body of the loop of `drainPendingDeliveries`. -/
def drainEntry : QueueProgram Phase := do
  match ← loadPendingDelivery with
  | .ok (some currentEntry) =>
    if !(← applyRecoveryDeliveryAdmission currentEntry) then return .finished .skipped
    else
      .call (.selectEntry currentEntry) fun decision =>
        if !decision.selected then .done (.finished .skipped)
        else if currentEntry.retryCount ≥ maxRetries then do
          let _ ← writeQueue .moveToFailed
          return .finished .skipped
        else
          .call .now fun now =>
            if !decision.bypassBackoff && !isEntryEligibleForRecoveryRetry currentEntry now then
              .done (.finished .skipped)
            else .call .pace fun _ => drainQueuedEntry currentEntry
  | _ => return .finished .skipped

/-! ## Processes -/

/-- A call of `deliver`, as it began: `stored` is the pending entry, `sendRecorded` says whether a write
had recorded by then that some payload was sent.  This is bookkeeping of the model. -/
structure DeliverCall where
  stored : Option QueuedDelivery
  reconciliation : Option Reconciliation
  sendRecorded : Bool

/-- What outlives a process: the row.  `sendRecorded` and `delivers` are bookkeeping of the model. -/
structure QueueWorld where
  id : String
  store : QueueStore
  sendRecorded : Bool := false
  delivers : List DeliverCall := []

/-- What chance decides about one reply. -/
structure Chance where
  databaseError : Option QueueError := none
  now : Int := 0
  answer : ReconcileAnswer := .unsupported
  rejection : Option String := none
  decision : DrainDecision := { selected := true, bypassBackoff := false }
  ready : Bool := true

def respond (w : QueueWorld) (r : QueueRequest) (chance : Chance) : QueueWorld × QueueReply r :=
  match r with
  | .write write =>
    match chance.databaseError with
    | some err => (w, .error err)
    | none =>
      match performWrite w.store w.id chance.now write with
      | .error err => (w, .error err)
      | .ok store => ({ w with store, sendRecorded := w.sendRecorded || write.recordsSend }, .ok ())
  | .failPendingDelivery lastError entry =>
    match chance.databaseError with
    | some err => (w, .error err)
    | none =>
      let (store, failed) := failPendingDeliveryQueueEntry w.store lastError entry
      ({ w with store }, .ok failed)
  | .loadPendingDelivery =>
    match chance.databaseError with
    | some err => (w, .error err)
    | none => (w, .ok (loadDeliveryQueueEntry w.store))
  | .reconcileUnknownSend _ => (w, chance.answer)
  | .resolveDeferredDeliveryAdmission _ => (w, chance.rejection)
  | .selectEntry _ => (w, chance.decision)
  | .now => (w, chance.now)
  | .pace => (w, chance.ready)
  | .deliver reconciliation =>
    let call : DeliverCall :=
      { stored := loadDeliveryQueueEntry w.store, reconciliation, sendRecorded := w.sendRecorded }
    ({ w with delivers := w.delivers ++ [call] }, ())

structure Visit where
  kind : VisitKind
  control : QueueProgram Phase

/-- One process and what outlives it. -/
structure QueueSystem where
  world : QueueWorld
  entriesInProgress : Bool
  visits : List Visit

/-- A process just after `enqueueDelivery`.  If `claimed`, the live send got the claim; if not, a recovery
was faster, and the live send returned without looking at the row. -/
def enqueuedSystem (entry : QueuedDelivery) (claimed : Bool) : QueueSystem where
  world := { id := entry.id, store := upsertDeliveryQueueEntry entry .pending }
  entriesInProgress := claimed
  visits := if claimed then [{ kind := .live, control := callDeliver .live entry none }] else []

inductive QueueEvent where
  | visit (kind : VisitKind)
  | claim (visit : Nat)
  | reply (visit : Nat) (chance : Chance)
  | report (visit : Nat) (report : AdapterReport)
  | release (visit : Nat)
  | crash

def QueueSystem.setControl (s : QueueSystem) (i : Nat) (visit : Visit) (control : QueueProgram Phase) : QueueSystem :=
  { s with visits := s.visits.set i { visit with control } }

/-- One step.  Only recoveries and drains begin later visits. -/
def stepQueueSystem? (s : QueueSystem) : QueueEvent → Option QueueSystem
  | .visit .live => none
  | .visit kind => some { s with visits := s.visits ++ [{ kind, control := .done .unclaimed }] }
  | .claim i => do
    let visit ← s.visits[i]?
    match visit.control with
    | .done .unclaimed =>
      if s.entriesInProgress then some (s.setControl i visit (.done .gone))
      else
        let body := if visit.kind = .recovery then recoverEntry else drainEntry
        some { s.setControl i visit body with entriesInProgress := true }
    | _ => none
  | .reply i chance => do
    let visit ← s.visits[i]?
    let (world, control) ← Program.advance? respond s.world chance visit.control
    some { s.setControl i visit control with world }
  | .report i report => do
    let visit ← s.visits[i]?
    match visit.control with
    | .done (.delivering d) => some (s.setControl i visit (onReport d report))
    | _ => none
  | .release i => do
    let visit ← s.visits[i]?
    match visit.control with
    | .done (.finished _) => some { s.setControl i visit (.done .gone) with entriesInProgress := false }
    | _ => none
  | .crash => some { s with entriesInProgress := false, visits := [] }

def stepQueueSystem : QueueSystem → QueueEvent → QueueSystem := skipDisabled stepQueueSystem?

end OpenClaw.Outbound
