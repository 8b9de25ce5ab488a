/-
# OpenClaw.Outbound.DeliverySend -- one delivery of a queued entry

`deliverOutboundPayloadsWithQueueCleanup` wraps the delivery of an entry's payloads.  The adapter reports
what it does through callbacks, in whatever order, and at last returns its results or throws; each
callback, and the end, writes the queue.  The wrapper runs in two places: for a live send, which owns the
queue row, and inside a recovery, which passes callbacks of its own and finishes the row itself.

What the queue writes depend on is here; audit events, commit hooks and log lines are left out.
-/
import OpenClaw.Outbound.DeliveryQueueStorage

namespace OpenClaw.Outbound

open OpenClaw.Logic

/-! ## Requests -/

/-- An error as the delivery code looks at it: `outbound` holds the results of an
`OutboundDeliveryError`, `abort` is `isDeliveryAbortError` and `provenNotSent` is
`isProvenDeliveryNotSentError`. -/
structure DeliveryError where
  message : String
  abort : Bool := false
  outbound : Option (List String) := none
  provenNotSent : Bool := false

/-- `err instanceof OutboundDeliveryError && err.sentBeforeError`: that class sets it from its results. -/
def DeliveryError.sentBeforeError (err : DeliveryError) : Bool := err.outbound.any (· ≠ [])

/-- A queue error among the errors of a delivery: neither an abort nor proof that nothing was sent. -/
def QueueError.toDeliveryError (err : QueueError) : DeliveryError := { message := err.message }

/-- `ChannelMessageUnknownSendReconciliationResult`. -/
inductive Reconciliation where
  | sent
  | notSent
  | unresolved (error : Option String) (retryable : Bool)
  deriving DecidableEq, Repr

/-- What comes of asking an adapter: it cannot reconcile, it answers, or it throws. -/
inductive ReconcileAnswer where
  | unsupported
  | answered (reconciliation : Reconciliation)
  | threw (error : String)

structure DrainDecision where
  selected : Bool
  bypassBackoff : Bool

inductive QueueRequest where
  | write (w : QueueWrite)
  | failPendingDelivery (lastError : String) (entry : QueuedDelivery)
  | loadPendingDelivery
  | reconcileUnknownSend (entry : QueuedDelivery)
  | resolveDeferredDeliveryAdmission (entry : QueuedDelivery)
  | selectEntry (entry : QueuedDelivery)
  | now
  | pace
  /-- The call of `deliver`, with the reconciliation that led to it. -/
  | deliver (reconciliation : Option Reconciliation)

def QueueReply : QueueRequest → Type
  | .write _ => Except QueueError Unit
  | .failPendingDelivery _ _ => Except QueueError Bool
  | .loadPendingDelivery => Except QueueError (Option QueuedDelivery)
  | .reconcileUnknownSend _ => ReconcileAnswer
  | .resolveDeferredDeliveryAdmission _ => Option String
  | .selectEntry _ => DrainDecision
  | .now => Int
  | .pace => Bool
  | .deliver _ => Unit

abbrev QueueProgram := Program QueueRequest QueueReply

def writeQueue (w : QueueWrite) : QueueProgram (Except QueueError Unit) := .call (.write w) .done

def loadPendingDelivery : QueueProgram (Except QueueError (Option QueuedDelivery)) := .call .loadPendingDelivery .done

/-! ## The state of a delivery -/

inductive PreSendState where
  | marked
  | acked
  deriving DecidableEq, Repr

inductive PostSendState where
  | marked
  | acked
  | failed
  deriving DecidableEq, Repr

inductive DeliveryOwner where
  | live
  | recovery
  deriving DecidableEq, Repr

/-- A failed payload outcome. -/
structure PayloadFailure where
  error : DeliveryError
  sentBeforeError : Bool

/-- The variables of a delivery that is under way.  `postSendState` and `deliveredResults` are the
wrapper's own in a live send and those of `drainQueuedEntry` in a recovery; `failedOutcomes` is read by a
recovery only, and the three fields above it by a live send only. -/
structure Delivery where
  owner : DeliveryOwner
  entry : QueuedDelivery
  queuedPreSendState : Option PreSendState := none
  platformSendRoute : Option PlatformSendRoute := none
  postSendState : Option PostSendState := none
  deliveredResults : List String := []
  hadPartialFailure : Bool := false
  lastPayloadError : Option DeliveryError := none
  partialFailuresAreProvenNotSent : Bool := true
  failedOutcomes : List PayloadFailure := []

def Delivery.platformQueuePolicy (d : Delivery) : QueuePolicy :=
  match d.owner with
  | .live => d.entry.queuePolicy.getD .bestEffort
  | .recovery => d.entry.queuePolicy.getD .required

def Delivery.exactReconciliationRequired (d : Delivery) : Bool := d.entry.requireUnknownSendReconciliation

/-- How a visit to the entry ended.  `skipped` never reached `deliver`. -/
inductive VisitResult where
  | recovered
  | failed
  | movedToFailed
  | alreadyGone
  | skipped
  | returned
  | threw
  deriving DecidableEq, Repr

inductive Phase where
  | unclaimed
  | delivering (d : Delivery)
  | finished (result : VisitResult)
  | gone

/-! ## The callbacks -/

/-- `persistQueuedPreSendState`. -/
def persistQueuedPreSendState (policy : QueuePolicy) (route : PlatformSendRoute) :
    QueueProgram (Except QueueError PreSendState) := do
  let marker := .markDeliveryPlatformSendAttemptStarted (some { replyToId := some (route.replyToId.getD none) })
  match ← writeQueue marker with
  | .ok _ => return .ok .marked
  | .error markErr =>
    if policy = .required then return .error markErr
    else
      match ← writeQueue .ackDelivery with
      | .ok _ => return .ok .acked
      | .error ackErr => return .error ackErr

/-- `persistQueuedPostSendState`, and `persistRecoveredPostSendState`, which writes the same. -/
def persistQueuedPostSendState : QueueProgram (Except QueueError PostSendState) := do
  match ← writeQueue .markDeliveryPlatformOutcomeUnknown with
  | .ok _ => return .ok .marked
  | .error markErr =>
    match ← writeQueue .ackDelivery with
    | .ok _ => return .ok .acked
    | .error ackErr =>
      let error := "post-send state persistence failed: marker=" ++ markErr.message
        ++ "; ack=" ++ ackErr.message
      match ← writeQueue (.failDeliveryAfterPlatformSend error) with
      | .ok _ => return .ok .failed
      | .error err => return .error err

/-- `state ??= await persistQueuedPostSendState(…)` -/
def orPersist (state : Option PostSendState) : QueueProgram (Except QueueError PostSendState) :=
  match state with
  | some state => pure (.ok state)
  | none => persistQueuedPostSendState

/-- A callback that throws leaves the variables as they are; the adapter learns of it. -/
def onPlatformSendStart (d : Delivery) (route : PlatformSendRoute) : QueueProgram Delivery :=
  let d := { d with platformSendRoute := some route }
  if !d.exactReconciliationRequired && d.queuedPreSendState = none then do
    match ← persistQueuedPreSendState d.platformQueuePolicy route with
    | .error _ => return d
    | .ok state =>
      if d.owner = .live && state = .acked then
        return { d with queuedPreSendState := some state, postSendState := some .acked }
      else return { d with queuedPreSendState := some state }
  else pure d

def onPlatformSendDispatch (d : Delivery) : QueueProgram Delivery :=
  if d.queuedPreSendState ≠ some .acked then do
    match ← writeQueue (.markDeliveryPlatformSendDispatched d.platformSendRoute) with
    | .ok _ => return { d with queuedPreSendState := some (d.queuedPreSendState.getD .marked) }
    | .error _ => return d
  else pure d

def onDeliveryResult (d : Delivery) (result : String) : QueueProgram Delivery := do
  let d := { d with deliveredResults := d.deliveredResults ++ [result] }
  match ← orPersist d.postSendState with
  | .ok state => return { d with postSendState := some state }
  | .error _ => return d

def onError (d : Delivery) (err : DeliveryError) : Delivery :=
  { d with
    hadPartialFailure := true
    lastPayloadError := some err
    partialFailuresAreProvenNotSent := d.partialFailuresAreProvenNotSent && err.provenNotSent }

def collectPayloadOutcome (d : Delivery) (failure : PayloadFailure) : Delivery :=
  { d with failedOutcomes := d.failedOutcomes ++ [failure] }

def recordFailure (provenNotSent : Bool) (error : String) : QueueProgram (Except QueueError Unit) :=
  writeQueue (if provenNotSent then .failDeliveryBeforePlatformSend error else .failDelivery error)

/-! ## The end of a live send -/

/-- The branch of a best-effort send some of whose payloads failed. -/
def livePartialFailure (d : Delivery) (partialSendEvidence : Bool) (state : Option PostSendState) :
    QueueProgram Phase :=
  if state = none ∨ state = some .marked then do
    let provenNotSent := !partialSendEvidence && d.partialFailuresAreProvenNotSent
    let _ ← recordFailure provenNotSent "partial delivery failure (bestEffort)"
    return .finished .returned
  else pure (.finished .returned)

/-- The acknowledgement of a send without failures. -/
def liveAcknowledge (d : Delivery) (results : List String) : QueueProgram Phase := do
  match ← writeQueue .ackDelivery with
  | .ok _ => return .finished .returned
  | .error err =>
    let hasSendEvidence := results ≠ [] || d.queuedPreSendState ≠ none
    let _ ← writeQueue
      (if hasSendEvidence then
        .failDeliveryAfterPlatformSend ("failed to ack sent delivery: " ++ err.message)
      else .failDelivery ("failed to ack unsent delivery: " ++ err.message))
    if d.platformQueuePolicy = .required then return .finished .threw
    else return .finished .returned

/-- The core returned `results`.  An error of the branches here meets a `catch` that leaves the row. -/
def liveReturned (d : Delivery) (results : List String) : QueueProgram Phase :=
  if d.hadPartialFailure then
    let partialSendEvidence := results ≠ [] || d.lastPayloadError.any (·.sentBeforeError)
    match d.postSendState with
    | some state => livePartialFailure d partialSendEvidence (some state)
    | none =>
      if partialSendEvidence then do
        match ← persistQueuedPostSendState with
        | .ok state => livePartialFailure d partialSendEvidence (some state)
        | .error _ => return .finished .threw
      else livePartialFailure d partialSendEvidence none
  else
    match d.postSendState with
    | some .marked => liveAcknowledge d results
    | some _ => pure (.finished .returned)
    | none =>
      if results ≠ [] ∨ d.queuedPreSendState = some .marked then do
        match ← persistQueuedPostSendState with
        | .ok .marked => liveAcknowledge d results
        | .ok _ => return .finished .returned
        | .error _ => return .finished .threw
      else if d.queuedPreSendState = some .acked then pure (.finished .returned)
      else liveAcknowledge d results

/-- `if (err instanceof OutboundDeliveryError && err.results.length > 0) deliveredResults = err.results` -/
def Delivery.resultsAfter (d : Delivery) (err : DeliveryError) : List String :=
  if err.sentBeforeError then err.outbound.getD [] else d.deliveredResults

theorem resultsAfter_ne_nil {d : Delivery} (h : d.deliveredResults ≠ []) (err : DeliveryError) :
    d.resultsAfter err ≠ [] := by
  unfold Delivery.resultsAfter
  split
  · rename_i hsent
    cases hresults : err.outbound with
    | none => simp [DeliveryError.sentBeforeError, hresults] at hsent
    | some results => simpa [DeliveryError.sentBeforeError, hresults] using hsent
  · exact h

/-- The core threw `err`. -/
def liveThrew (d : Delivery) (err : DeliveryError) : QueueProgram Phase :=
  let deliveredResults := d.resultsAfter err
  if err.abort then do
    let _ ← writeQueue .ackDelivery
    return .finished .threw
  else if deliveredResults ≠ [] || err.sentBeforeError then do
    match ← orPersist d.postSendState with
    | .ok .marked =>
      let _ ← writeQueue (.failDeliveryAfterPlatformSend err.message)
      return .finished .threw
    | _ => return .finished .threw
  else if d.queuedPreSendState = some .acked then pure (.finished .threw)
  else do
    let _ ← recordFailure err.provenNotSent err.message
    return .finished .threw

/-! ## Permanent errors -/

/-- The segments occur one after the other, on a line whose first `skip` characters are taken: by their
leftmost occurrences, if at all. -/
def hasSegments (skip : Nat) (segments : List (List Char)) : List Char → Bool
  | [] => segments.isEmpty
  | c :: line =>
    match skip, segments with
    | skip + 1, _ => hasSegments skip segments line
    | 0, [] => true
    | 0, segment :: rest =>
      if segment.isPrefixOf (c :: line) then hasSegments (segment.length - 1) rest line
      else hasSegments 0 segments line

attribute [grind =] hasSegments

/-- `.` of a pattern matches no line terminator. -/
def isLineTerminator (c : Char) : Bool := c.toNat ∈ [0xA, 0xD, 0x2028, 0x2029]

/-- `PERMANENT_ERROR_PATTERNS`, each as the literals around its `.*`; they ignore ASCII case. -/
def permanentErrorPatterns : List (List String) :=
  [["no conversation reference found"], ["chat not found"], ["user not found"],
    ["bot", "not", "member"], ["bot was blocked by the user"], ["forbidden: bot was kicked"],
    ["chat_id is empty"], ["recipient is not a valid"], ["outbound not configured for channel"],
    ["ambiguous ", " recipient"], ["user ", " not in room"]]

def isPermanentDeliveryError (error : String) : Bool :=
  let lines := (error.toList.map Char.toLower).splitOnP isLineTerminator
  permanentErrorPatterns.any fun pattern => lines.any (hasSegments 0 (pattern.map String.toList))

/-! ## The end of a recovered send -/

/-- The `catch` of `drainQueuedEntry`. -/
def recoveryThrew (d : Delivery) (err : DeliveryError) : QueueProgram Phase :=
  let deliveredResults := d.resultsAfter err
  if deliveredResults ≠ [] || d.postSendState ≠ none || err.sentBeforeError then do
    let _ ← orPersist d.postSendState
    return .finished .failed
  else do
    match ← loadPendingDelivery with
    | .error _ => return .finished .threw
    | .ok none => return .finished .failed
    | .ok (some _) =>
      if isPermanentDeliveryError err.message then
        match ← writeQueue .moveToFailed with
        | .ok _ => return .finished .movedToFailed
        | .error moveErr => return .finished (if moveErr.code = some "ENOENT" then .alreadyGone else .failed)
      else
        match ← recordFailure err.provenNotSent err.message with
        | .ok _ => return .finished .failed
        | .error failErr => return .finished (if failErr.code = some "ENOENT" then .alreadyGone else .failed)

/-- The acknowledgement of a recovered send without failures. -/
def recoveryAcknowledge (d : Delivery) (results : List String) : QueueProgram Phase := do
  match ← writeQueue .ackDelivery with
  | .ok _ => return .finished .recovered
  | .error ackErr =>
    let ackError := "failed to ack recovered delivery: " ++ ackErr.message
    let write :=
      if results ≠ [] then QueueWrite.failDeliveryAfterPlatformSend ackError
      else .failDelivery ackError
    match ← writeQueue write with
    | .ok _ => return .finished .failed
    | .error err => recoveryThrew d err.toDeliveryError

/-- What `drainQueuedEntry` does with the results of `deliver`. -/
def settleRecovered (d : Delivery) (results : List String) : QueueProgram Phase :=
  match d.failedOutcomes with
  | failedOutcome :: _ =>
    if results ≠ [] || d.failedOutcomes.any (·.sentBeforeError) then do
      match ← orPersist d.postSendState with
      | .ok _ => return .finished .failed
      | .error err => recoveryThrew d err.toDeliveryError
    else do
      let provenNotSent := d.failedOutcomes.all (·.error.provenNotSent)
      match ← recordFailure provenNotSent failedOutcome.error.message with
      | .ok _ => return .finished .failed
      | .error err => recoveryThrew d err.toDeliveryError
  | [] =>
    match d.postSendState with
    | some .failed => pure (.finished .failed)
    | some .acked => pure (.finished .recovered)
    | some .marked => recoveryAcknowledge d results
    | none =>
      if results ≠ [] then do
        match ← persistQueuedPostSendState with
        | .error err => recoveryThrew d err.toDeliveryError
        | .ok .failed => return .finished .failed
        | .ok .acked => return .finished .recovered
        | .ok .marked => recoveryAcknowledge { d with postSendState := some .marked } results
      else recoveryAcknowledge d results

/-- `deliver` returned `results`. -/
def recoveryReturned (d : Delivery) (results : List String) : QueueProgram Phase :=
  settleRecovered
    { d with deliveredResults := if results ≠ [] then results else d.deliveredResults } results

/-! ## Reports -/

/-- What the adapter, or the core around it, does next. -/
inductive AdapterReport where
  | sendStart (route : PlatformSendRoute)
  | sendDispatch
  | deliveryResult (result : String)
  | payloadError (err : DeliveryError)
  | payloadFailed (failure : PayloadFailure)
  | returned (results : List String)
  | threw (err : DeliveryError)

def onReport (d : Delivery) : AdapterReport → QueueProgram Phase
  | .sendStart route => do return .delivering (← onPlatformSendStart d route)
  | .sendDispatch => do return .delivering (← onPlatformSendDispatch d)
  | .deliveryResult result => do return .delivering (← onDeliveryResult d result)
  | .payloadError err => pure (.delivering (onError d err))
  | .payloadFailed failure => pure (.delivering (collectPayloadOutcome d failure))
  | .returned results =>
    match d.owner with
    | .live => liveReturned d results
    | .recovery => recoveryReturned d results
  | .threw err =>
    match d.owner with
    | .live => liveThrew d err
    | .recovery => recoveryThrew d err

end OpenClaw.Outbound
