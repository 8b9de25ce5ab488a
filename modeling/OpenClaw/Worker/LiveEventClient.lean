/-
# OpenClaw.Worker.LiveEventClient -- the worker's client for live events

The worker buffers its live events, numbers them, and sends the head of the buffer until the gateway
has acknowledged it.  This module follows `worker-rpc-live-event-client.ts`: one definition for each
method, and the drain loop cut at its awaits.  What the connection does (states, replies, interrupted
requests) and when callers emit or dispose is left to the events of `stepClient`.
-/
import OpenClaw.Logic.Run
import OpenClaw.WorkerEnvironments.LiveEvents

namespace OpenClaw.Worker

open OpenClaw.Logic
open OpenClaw.WorkerEnvironments.LiveEvents (WorkerLiveEvent WorkerLiveEventParams)

/-! ## The connection, as the client sees it -/

inductive WorkerFencedReason where
  | credentialReplaced
  | ownerEpochMismatch
  deriving DecidableEq

def WorkerFencedReason.text : WorkerFencedReason → String
  | .credentialReplaced => "credential-replaced"
  | .ownerEpochMismatch => "owner-epoch-mismatch"

/-- `WorkerConnectionState`, without the attempt counters and the hello frame. -/
inductive WorkerConnectionState where
  | idle
  | connecting
  | admitting
  | ready
  | reconnecting
  | fenced (reason : WorkerFencedReason)
  | failed (error : String)
  | stopped
  deriving DecidableEq

def isTerminalConnection : WorkerConnectionState → Bool
  | .fenced _ | .failed _ | .stopped => true
  | _ => false

/-- The `details` of an error reply, with the close reasons that do not fence under one name. -/
inductive LiveErrorDetails where
  | epochMismatch
  | sessionNotAttached
  | invalidEvent
  | capacityExceeded
  | resyncRequired (ackedSeq expectedSeq : Int)
  | closed (fenced : Option WorkerFencedReason)
  deriving DecidableEq

inductive LiveEventResponse where
  | ok (ackedSeq : Int)
  | error (details : LiveErrorDetails) (message : String)

/-- Why `waitForReady` or `requestLiveEvent` rejects. -/
inductive RequestError where
  | interrupted (message : String)
  | other (message : String)

/-! ## The client's state -/

structure ResyncCursor where
  ackedSeq : Int
  expectedSeq : Int
  deriving DecidableEq

/-- A buffered event.  `ticket` is the entry's identity, and that of the promise it settles. -/
structure BufferedLiveEvent where
  ticket : Nat
  seq : Int
  runId : String
  event : WorkerLiveEvent
  lastResync : Option ResyncCursor := none

inductive Settlement where
  | resolved (ackedSeq : Int)
  | rejected (message : String)

/-- The await at which the drain loop stands.  `threw` and `finishing` are the two turns between the
end of `drain` and its `catch` and `finally` callbacks. -/
inductive DrainPhase where
  | idle
  | waitingReady (current : BufferedLiveEvent)
  | requesting (current : BufferedLiveEvent)
  | threw (error : String)
  | finishing

/-- The client, with the connection's state, the promises settled so far and the requests sent. -/
structure WorkerLiveEventClient where
  runEpoch : Int
  maxBufferedEvents : Nat
  buffered : List BufferedLiveEvent
  ackedSeqValue : Int
  nextSeqValue : Int
  drain : DrainPhase
  disposed : Bool
  connection : WorkerConnectionState
  tickets : Nat
  settled : List (Nat × Settlement)
  sent : List WorkerLiveEventParams

/-- The constructor; the options' defaults are 0 and 1024. -/
def newClient (runEpoch : Int) (connection : WorkerConnectionState) (initialAckedSeq : Int := 0)
    (maxBufferedEvents : Nat := 1024) : WorkerLiveEventClient where
  runEpoch
  maxBufferedEvents
  buffered := []
  ackedSeqValue := initialAckedSeq
  nextSeqValue := initialAckedSeq + 1
  drain := .idle
  disposed := false
  connection
  tickets := 0
  settled := []
  sent := []

/-! ## The methods -/

def rejectAll (c : WorkerLiveEventClient) (error : String) : WorkerLiveEventClient :=
  { c with
    buffered := []
    settled := c.settled ++ c.buffered.map fun entry => (entry.ticket, .rejected error) }

/-- The head of the loop in `drain`, up to its first await. -/
def drainHead (c : WorkerLiveEventClient) : WorkerLiveEventClient :=
  match c.disposed, c.buffered with
  | false, current :: _ => { c with drain := .waitingReady current }
  | _, _ => { c with drain := .finishing }

def scheduleDrain (c : WorkerLiveEventClient) : WorkerLiveEventClient :=
  match c.drain, c.disposed, c.buffered with
  | .idle, false, _ :: _ => drainHead c
  | _, _, _ => c

/-- `emit`: one promise per call, whether the event is buffered or refused. -/
def emit (c : WorkerLiveEventClient) (runId : String) (event : WorkerLiveEvent) : WorkerLiveEventClient :=
  let refuse (message : String) : WorkerLiveEventClient :=
    { c with
      tickets := c.tickets + 1
      settled := c.settled ++ [(c.tickets, .rejected message)] }
  if c.disposed then refuse "worker live-event client disposed"
  else if c.buffered.length ≥ c.maxBufferedEvents then
    refuse "worker live-event buffer capacity exceeded"
  else
    scheduleDrain { c with
      buffered := c.buffered ++ [{ ticket := c.tickets, seq := c.nextSeqValue, runId, event }]
      nextSeqValue := c.nextSeqValue + 1
      tickets := c.tickets + 1 }

def dispose (c : WorkerLiveEventClient) : WorkerLiveEventClient :=
  if c.disposed then c
  else rejectAll { c with disposed := true } "worker live-event client disposed"

/-- The connection changes its state, and the client's listener hears of it unless disposed. -/
def connectionChanged (c : WorkerLiveEventClient) (state : WorkerConnectionState) : WorkerLiveEventClient :=
  let c := { c with connection := state }
  if c.disposed then c
  else
    match state with
    | .fenced reason => rejectAll c s!"worker fenced: {reason.text}"
    | .failed error => rejectAll c error
    | .stopped => rejectAll c "worker connection stopped"
    | _ => c

attribute [grind =] connectionChanged

/-- `connection.fence`: nothing happens on a terminal connection. -/
def fence (c : WorkerLiveEventClient) (reason : WorkerFencedReason) : WorkerLiveEventClient :=
  if isTerminalConnection c.connection then c else connectionChanged c (.fenced reason)

/-- The fence that an error reply asks for. -/
def ownershipFence : LiveErrorDetails → Option WorkerFencedReason
  | .epochMismatch => some .ownerEpochMismatch
  | .closed fenced => fenced
  | _ => none

def fenceForOwnershipError (c : WorkerLiveEventClient) (details : LiveErrorDetails) : WorkerLiveEventClient :=
  match ownershipFence details with
  | some reason => fence c reason
  | none => c

def ackThrough (c : WorkerLiveEventClient) (ackedSeq : Int) : WorkerLiveEventClient :=
  let ackedSeqValue := max c.ackedSeqValue ackedSeq
  { c with
    ackedSeqValue
    buffered := c.buffered.dropWhile (·.seq ≤ ackedSeqValue)
    settled := c.settled ++ (c.buffered.takeWhile (·.seq ≤ ackedSeqValue)).map
      fun entry => (entry.ticket, .resolved ackedSeqValue) }

/-- The renumbering loop of `resync`. -/
def renumber : Int → List BufferedLiveEvent → List BufferedLiveEvent
  | _, [] => []
  | seq, entry :: rest => { entry with seq } :: renumber (seq + 1) rest

def resync (c : WorkerLiveEventClient) (ackedSeq expectedSeq : Int) : WorkerLiveEventClient :=
  if expectedSeq ≠ ackedSeq + 1 then rejectAll c "worker live-event resync cursor is inconsistent"
  else
    let c := if ackedSeq ≥ c.ackedSeqValue then ackThrough c ackedSeq
      else { c with ackedSeqValue := ackedSeq }
    { c with
      buffered := renumber expectedSeq c.buffered
      nextSeqValue := expectedSeq + c.buffered.length }

/-! ## The drain loop between its awaits -/

/-- `waitForReady` resolved: the request for `current` goes out. -/
def sendRequest (c : WorkerLiveEventClient) (current : BufferedLiveEvent) : WorkerLiveEventClient :=
  { c with
    drain := .requesting current
    sent := c.sent ++ [{
      runEpoch := c.runEpoch
      lastAckedSeq := c.ackedSeqValue
      seq := current.seq
      runId := current.runId
      event := current.event }] }

def returns (c : WorkerLiveEventClient) : WorkerLiveEventClient := { c with drain := .finishing }

def throws (c : WorkerLiveEventClient) (error : String) : WorkerLiveEventClient := { c with drain := .threw error }

/-- The `catch` clause around one round. -/
def roundFailed (c : WorkerLiveEventClient) : RequestError → WorkerLiveEventClient
  | .interrupted message =>
    if isTerminalConnection c.connection then throws c message else returns c
  | .other message => throws c message

/-- `response.ok` -/
def acknowledged (c : WorkerLiveEventClient) (current : BufferedLiveEvent) (ackedSeq : Int) : WorkerLiveEventClient :=
  if ackedSeq < c.ackedSeqValue || ackedSeq > current.seq then
    returns (rejectAll c "worker live-event acknowledgement is outside sent range")
  else
    let previousAck := c.ackedSeqValue
    let c := ackThrough c ackedSeq
    if c.ackedSeqValue = previousAck && c.buffered.head?.any (·.ticket = current.ticket) then
      returns (rejectAll c "worker live-event acknowledgement did not advance")
    else drainHead c

/-- `current.lastResync = cursor` -/
def noteResync (c : WorkerLiveEventClient) (current : BufferedLiveEvent) (cursor : ResyncCursor) :
    WorkerLiveEventClient :=
  { c with
    buffered := c.buffered.map fun entry =>
      if entry.ticket = current.ticket then { entry with lastResync := some cursor } else entry }

/-- A reply with the reason `resync-required`. -/
def resyncReplied (c : WorkerLiveEventClient) (current : BufferedLiveEvent) (cursor : ResyncCursor) :
    WorkerLiveEventClient :=
  if cursor.ackedSeq > current.seq then
    returns (rejectAll c "worker live-event resync acknowledged an unsent event")
  else if current.lastResync = some cursor then throws c "worker live-event resync did not advance"
  else drainHead (resync (noteResync c current cursor) cursor.ackedSeq cursor.expectedSeq)

def responded (c : WorkerLiveEventClient) (current : BufferedLiveEvent) : LiveEventResponse → WorkerLiveEventClient
  | .ok ackedSeq => acknowledged c current ackedSeq
  | .error (.resyncRequired ackedSeq expectedSeq) _ => resyncReplied c current { ackedSeq, expectedSeq }
  | .error details message => returns (rejectAll (fenceForOwnershipError c details) message)

attribute [grind =] responded

/-- The `finally` callback. -/
def drainFinished (c : WorkerLiveEventClient) : WorkerLiveEventClient := scheduleDrain { c with drain := .idle }

/-! ## Runs -/

inductive ClientEvent where
  | emit (runId : String) (event : WorkerLiveEvent)
  | dispose
  | connectionChanged (state : WorkerConnectionState)
  | ready
  | readyResolved
  | readyRejected (error : RequestError)
  | response (response : LiveEventResponse)
  | requestRejected (error : RequestError)
  | catchCallback
  | finallyCallback

/-- One event.  An event at an await at which the loop does not stand is disabled, and so is a way out
of a terminal connection state. -/
def stepClient? (c : WorkerLiveEventClient) : ClientEvent → Option WorkerLiveEventClient
  | .emit runId event => some (emit c runId event)
  | .dispose => some (dispose c)
  | .connectionChanged state =>
    if isTerminalConnection c.connection && !isTerminalConnection state then none
    else some (connectionChanged c state)
  | .ready => some (scheduleDrain c)
  | .readyResolved =>
    match c.drain with
    | .waitingReady current => some (sendRequest c current)
    | _ => none
  | .readyRejected error =>
    match c.drain with
    | .waitingReady _ => some (roundFailed c error)
    | _ => none
  | .response response =>
    match c.drain with
    | .requesting current => some (responded c current response)
    | _ => none
  | .requestRejected error =>
    match c.drain with
    | .requesting _ => some (roundFailed c error)
    | _ => none
  | .catchCallback =>
    match c.drain with
    | .threw error => some (returns (rejectAll c error))
    | _ => none
  | .finallyCallback =>
    match c.drain with
    | .finishing => some (drainFinished c)
    | _ => none

def stepClient : WorkerLiveEventClient → ClientEvent → WorkerLiveEventClient := skipDisabled stepClient?

end OpenClaw.Worker
