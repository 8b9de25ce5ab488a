/-
# OpenClaw.Infra.HeartbeatWake -- coalescing heartbeat wakes and handing them to a handler

A wake names an agent and a session; wakes for the same target merge while they are pending.  A timer
collects what is pending into a batch and hands it, wake after wake, to the handler registered when the
timer fired; a busy target or an exception puts wakes back under a retry timer.  This module follows
`heartbeat-wake.ts`, whose module variables are the fields of `HeartbeatWakes`.

The callback of the timer awaits the handler once per wake.  What it has left to do is a `WakeBatch`
here, and what happens between two awaits is one event.  `clock` gives the readings of `Date.now()`
within one event, in order.
-/
import OpenClaw.Data.JsPrim
import OpenClaw.Data.Table
import OpenClaw.Logic.Run

namespace OpenClaw.Infra.HeartbeatWake

open OpenClaw.Logic OpenClaw.Data

/-! ## Requests -/

inductive HeartbeatWakeIntent where
  | scheduled
  | event
  | immediate
  | manual
  deriving DecidableEq

inductive HeartbeatWakeSource where
  | interval
  | manual
  | execEvent
  | notificationsEvent
  | cron
  | hook
  | backgroundTask
  | backgroundTaskBlocked
  | acpSpawn
  | sessionState
  | cliWatchdog
  | restartSentinel
  | retry
  | other
  deriving DecidableEq

structure HeartbeatWakeOverride where
  target : Option String
  «to» : Option String
  accountId : Option String

structure HeartbeatWakeRequest where
  source : HeartbeatWakeSource
  intent : HeartbeatWakeIntent
  reason : Option String := none
  agentId : Option String := none
  sessionKey : Option String := none
  heartbeat : Option HeartbeatWakeOverride := none

inductive HeartbeatRunResult where
  | ran
  | skipped (reason : String)
  | failed (reason : String)

def isRetryableHeartbeatBusySkipReason (reason : String) : Bool :=
  reason = "requests-in-flight" || reason = "cron-in-progress" || reason = "lanes-busy"

/-! ## Pending wakes -/

/-- `PendingWakeReason` -/
structure PendingWake where
  source : HeartbeatWakeSource
  intent : HeartbeatWakeIntent
  reason : String
  priority : Nat
  requestedAt : Int
  agentId : Option String
  sessionKey : Option String
  heartbeat : Option HeartbeatWakeOverride

/-- `REASON_PRIORITY`: retry 0, interval 1, default 2, action 3. -/
def resolveWakePriority (source : HeartbeatWakeSource) (intent : HeartbeatWakeIntent) (reason : String) : Nat :=
  if intent = .manual ∨ intent = .immediate then 3
  else if source = .retry ∨ reason = "retry" then 0
  else if intent = .scheduled ∨ source = .interval ∨ reason = "interval" then 1
  else 2

def normalizeOptionalString (value : Option String) : Option String :=
  match value with
  | none => none
  | some value => if trim value = "" then none else some (trim value)

/-- `normalizeHeartbeatWakeReason` -/
def normalizeWakeReason (reason : Option String) : String := (normalizeOptionalString reason).getD "requested"

def normalizeWakeTarget (value : Option String) : Option String :=
  let trimmed := (normalizeOptionalString value).getD ""
  if trimmed = "" then none else some trimmed

def getWakeTargetKey (agentId sessionKey : Option String) : String :=
  (normalizeWakeTarget agentId).getD "" ++ "::" ++ (normalizeWakeTarget sessionKey).getD ""

/-- The record `next` of `queuePendingWakeReason`. -/
def pendingWake (params : HeartbeatWakeRequest) (requestedAt : Int) : PendingWake where
  source := params.source
  intent := params.intent
  reason := normalizeWakeReason params.reason
  priority := resolveWakePriority params.source params.intent (normalizeWakeReason params.reason)
  requestedAt
  agentId := normalizeWakeTarget params.agentId
  sessionKey := normalizeWakeTarget params.sessionKey
  heartbeat := params.heartbeat

def queuePendingWakeReason (pendingWakes : Table String PendingWake) (params : HeartbeatWakeRequest)
    (requestedAt : Int) : Table String PendingWake :=
  let next := pendingWake params requestedAt
  let wakeTargetKey := getWakeTargetKey next.agentId next.sessionKey
  match pendingWakes.find wakeTargetKey with
  | none => pendingWakes.upsert wakeTargetKey next
  | some previous =>
    let merged := { next with heartbeat := next.heartbeat <|> previous.heartbeat }
    if next.priority > previous.priority then pendingWakes.upsert wakeTargetKey merged
    else if next.priority = previous.priority ∧ next.requestedAt ≥ previous.requestedAt then
      pendingWakes.upsert wakeTargetKey merged
    else pendingWakes

/-- The request a batch makes of a wake: to the handler, and to the queue when it goes back. -/
def wakeOpts (wake : PendingWake) : HeartbeatWakeRequest where
  source := wake.source
  intent := wake.intent
  reason := some wake.reason
  agentId := wake.agentId
  sessionKey := wake.sessionKey
  heartbeat := wake.heartbeat

/-! ## The dispatcher -/

inductive WakeTimerKind where
  | normal
  | retry
  deriving DecidableEq

/-- The armed timer; `delay` and `kind` are what its callback closes over. -/
structure WakeTimer where
  dueAt : Int
  kind : WakeTimerKind
  delay : Int

/-- A timer callback between two awaits.  `rest` are the wakes it has not finished, the first of them
under way; `called` says that the gateway admitted the first one and its handler was called. -/
structure WakeBatch where
  registration : Nat
  active : Nat
  delay : Int
  pendingBatch : List PendingWake
  rest : List PendingWake
  called : Bool

/-- One call of a handler. -/
structure HandlerCall where
  handler : Nat
  opts : HeartbeatWakeRequest

/-- `handler` is known by a number, and so is a disposer.  `registered` counts the registrations of a
handler, and `calls` lists the calls made of handlers; both are bookkeeping of this model. -/
structure HeartbeatWakes where
  handler : Option Nat := none
  handlerGeneration : Nat := 0
  pendingWakes : Table String PendingWake := .empty
  scheduled : Bool := false
  running : Bool := false
  timer : Option WakeTimer := none
  disposers : List (Nat × Option Nat) := []
  batches : Table Nat WakeBatch := .empty
  nextBatch : Nat := 0
  registered : Nat := 0
  calls : List HandlerCall := []

def defaultCoalesceMs : Int := 250
def defaultRetryMs : Int := 1000
def maxTimerTimeoutMs : Int := 2147000000

/-- `valueMs` is the integer part of a finite number; `none` is any other value. -/
def resolveTimerTimeoutMs (valueMs : Option Int) (fallbackMs minMs : Int) : Int :=
  min (max (valueMs.getD fallbackMs) (max 0 minMs)) maxTimerTimeoutMs

def schedule (s : HeartbeatWakes) (coalesceMs : Option Int) (kind : WakeTimerKind) (now : Int) : HeartbeatWakes :=
  let delay := resolveTimerTimeoutMs coalesceMs defaultCoalesceMs 0
  let dueAt := now + delay
  let armed := { s with timer := some { dueAt, kind, delay } }
  match s.timer with
  | none => armed
  | some timer =>
    if timer.kind = .retry then s
    else if timer.dueAt ≤ dueAt then s
    else armed

def requestHeartbeat (s : HeartbeatWakes) (opts : HeartbeatWakeRequest) (coalesceMs : Option Int)
    (clock : Nat → Int) : HeartbeatWakes :=
  schedule { s with pendingWakes := queuePendingWakeReason s.pendingWakes opts (clock 0) }
    (some (coalesceMs.getD defaultCoalesceMs)) .normal (clock 1)

/-- The `finally` of a batch. -/
def finishBatch (s : HeartbeatWakes) (delay now : Int) : HeartbeatWakes :=
  let s := { s with running := false }
  if s.pendingWakes.keys ≠ [] ∨ s.scheduled then schedule s (some delay) .normal now else s

/-- The timer's callback, up to its first await. -/
def timerFires (s : HeartbeatWakes) (clock : Nat → Int) : HeartbeatWakes :=
  match s.timer with
  | none => s
  | some timer =>
    let s := { s with timer := none, scheduled := false }
    match s.handler with
    | none => s
    | some active =>
      if s.running then schedule { s with scheduled := true } (some timer.delay) timer.kind (clock 0)
      else
        let pendingBatch := s.pendingWakes.rows.map (·.2)
        let s := { s with pendingWakes := .empty, running := true }
        if pendingBatch = [] then finishBatch s timer.delay (clock 0)
        else
          { s with
            batches := s.batches.upsert s.nextBatch
              { registration := s.registered, active, delay := timer.delay, pendingBatch,
                rest := pendingBatch, called := false }
            nextBatch := s.nextBatch + 1 }

/-- The gateway admits the wake that is under way: its handler is called. -/
def callHandler (s : HeartbeatWakes) (id : Nat) (batch : WakeBatch) : HeartbeatWakes :=
  match batch.called, batch.rest with
  | false, wake :: _ =>
    { s with
      batches := s.batches.upsert id { batch with called := true }
      calls := s.calls ++ [{ handler := batch.active, opts := wakeOpts wake }] }
  | _, _ => s

/-- What follows the wake that was under way: the next one, or the `finally`. -/
def nextWake (s : HeartbeatWakes) (id : Nat) (batch : WakeBatch) (now : Int) : HeartbeatWakes :=
  match batch.rest.tail with
  | [] => finishBatch { s with batches := s.batches.deleteKey id } batch.delay now
  | rest => { s with batches := s.batches.upsert id { batch with rest, called := false } }

/-- The target is busy: its wake goes back, under the retry timer. -/
def retryWake (s : HeartbeatWakes) (wake : PendingWake) (clock : Nat → Int) : HeartbeatWakes :=
  schedule { s with pendingWakes := queuePendingWakeReason s.pendingWakes (wakeOpts wake) (clock 0) }
    (some defaultRetryMs) .retry (clock 1)

/-- The handler's promise resolves with `res`. -/
def handlerReturns (s : HeartbeatWakes) (id : Nat) (batch : WakeBatch) (res : HeartbeatRunResult)
    (clock : Nat → Int) : HeartbeatWakes :=
  match batch.called, batch.rest with
  | true, wake :: _ =>
    match res with
    | .skipped reason =>
      if isRetryableHeartbeatBusySkipReason reason then
        nextWake (retryWake s wake clock) id batch (clock 2)
      else nextWake s id batch (clock 0)
    | .ran | .failed _ => nextWake s id batch (clock 0)
  | _, _ => s

/-- The loop of the `catch`: every wake of the batch goes back. -/
def requeueBatch (pendingWakes : Table String PendingWake) :
    List PendingWake → (Nat → Int) → Table String PendingWake
  | [], _ => pendingWakes
  | wake :: rest, clock =>
    requeueBatch (queuePendingWakeReason pendingWakes (wakeOpts wake) (clock 0)) rest
      fun i => clock (i + 1)

/-- The `catch` of a batch. -/
def retryBatch (s : HeartbeatWakes) (batch : WakeBatch) (clock : Nat → Int) : HeartbeatWakes :=
  schedule { s with pendingWakes := requeueBatch s.pendingWakes batch.pendingBatch clock }
    (some defaultRetryMs) .retry (clock batch.pendingBatch.length)

/-- The gateway refuses the wake under way, or the handler throws. -/
def batchThrows (s : HeartbeatWakes) (id : Nat) (batch : WakeBatch) (clock : Nat → Int) : HeartbeatWakes :=
  let s := retryBatch s batch clock
  finishBatch { s with batches := s.batches.deleteKey id } batch.delay
    (clock (batch.pendingBatch.length + 1))

/-! ## Registration -/

/-- The new handler, with the state of the previous lifecycle cleared where there is one. -/
def registerHandler (s : HeartbeatWakes) (next : Option Nat) : HeartbeatWakes :=
  let generation := s.handlerGeneration + 1
  let s := { s with
    handlerGeneration := generation
    handler := next
    disposers := s.disposers ++ [(generation, next)] }
  match next with
  | none => s
  | some _ => { s with timer := none, running := false, scheduled := false, registered := s.registered + 1 }

def setHeartbeatWakeHandler (s : HeartbeatWakes) (next : Option Nat) (now : Int) : HeartbeatWakes :=
  let s := registerHandler s next
  if s.handler.isSome ∧ s.pendingWakes.keys ≠ [] then
    schedule s (some defaultCoalesceMs) .normal now
  else s

/-- The disposer a registration returned. -/
def dispose (s : HeartbeatWakes) (generation : Nat) (next : Option Nat) : HeartbeatWakes :=
  if s.handlerGeneration ≠ generation then s
  else if s.handler ≠ next then s
  else { s with handlerGeneration := s.handlerGeneration + 1, handler := none }

/-! ## Runs -/

/-- `settles` is the end of the await on the wake under way: with a result, or with an exception, which
the gateway's refusal is too. -/
inductive WakeEvent where
  | request (opts : HeartbeatWakeRequest) (coalesceMs : Option Int) (clock : Nat → Int)
  | setHandler (next : Option Nat) (now : Int)
  | dispose (disposer : Nat)
  | timerFires (clock : Nat → Int)
  | callHandler (batch : Nat)
  | settles (batch : Nat) (res : Option HeartbeatRunResult) (clock : Nat → Int)

/-- One event.  A disposer that was not returned and a batch that is not running are disabled. -/
def stepWake? (s : HeartbeatWakes) : WakeEvent → Option HeartbeatWakes
  | .request opts coalesceMs clock => some (requestHeartbeat s opts coalesceMs clock)
  | .setHandler next now => some (setHeartbeatWakeHandler s next now)
  | .dispose disposer => s.disposers[disposer]?.map fun (generation, next) => dispose s generation next
  | .timerFires clock => some (timerFires s clock)
  | .callHandler batch => (s.batches.find batch).map (callHandler s batch)
  | .settles id res clock =>
    (s.batches.find id).map fun batch =>
      match res with
      | some res => handlerReturns s id batch res clock
      | none => batchThrows s id batch clock

def stepWake : HeartbeatWakes → WakeEvent → HeartbeatWakes := skipDisabled stepWake?

end OpenClaw.Infra.HeartbeatWake
