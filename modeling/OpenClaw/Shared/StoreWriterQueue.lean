/-
# OpenClaw.Shared.StoreWriterQueue -- the queue of the writes of a store

Writes of one store path run one after another: a *drain* takes them from the queue of the path.  A call made
from inside a running section may ask to be *reentrant*; it then runs at once, when the chain of async contexts
that it was made in holds a section of the same path.

The model runs `store-writer-queue.ts` on an event loop.  The stack has the code that runs now; only when it is
empty does the loop pick up something else.  A call can be made by any code that runs, in the context of any
section that was started: by a section, by its asynchronous children after it returned, or by code outside.  The
drain calls a section's function before the assignment of `queue.drainPromise` is made, so that the assignment
waits on the stack, below the function.
-/
import OpenClaw.Logic.Run
import Mathlib.Logic.Function.Basic

namespace OpenClaw.Shared

open OpenClaw.Logic

/-- A map of queues, and a key of it. -/
structure Lane where
  queues : Nat
  storePath : String
  deriving DecidableEq

/-! ## Calls -/

inductive CallKind where
  /-- Thrown out for its path. -/
  | refused
  /-- Run at once, inside a section of its lane. -/
  | inline
  | queued
  deriving DecidableEq

/-- How far the section of a call is. -/
inductive Phase where
  | waiting
  | running
  /-- The promise of its function has settled. -/
  | finished
  /-- `writer.active` is false. -/
  | closed
  /-- The promise of the call has settled. -/
  | done
  deriving DecidableEq

/-- A call of `runQueuedStoreWrite`.  Its context lists the sections that its own function runs inside of,
innermost first: the chain of `parent`s of its writer. -/
structure Call where
  lane : Lane
  kind : CallKind
  context : List Nat
  phase : Phase

/-- The `active` flag of a writer. -/
def Call.active (call : Call) : Bool := call.phase = .running || call.phase = .finished

/-- A call whose task was just pushed. -/
def Call.task (lane : Lane) : Call := ⟨lane, .queued, [], .waiting⟩

/-! ## Queues and drains -/

/-- The tasks are named by their calls. -/
structure StoreWriterQueue where
  running : Bool := false
  pending : List Nat := []
  /-- `drainPromise` is not null. -/
  drainPromise : Bool := false

/-- A drain that awaits the function of a task. -/
structure Drain where
  lane : Lane
  queue : Nat
  context : List Nat
  task : Nat

inductive Frame where
  /-- Code in an async context; the call whose function it is, while that has not returned its promise. -/
  | code (context : List Nat) (body : Option Nat)
  /-- `queue.drainPromise = ...`, once the drain has returned its promise. -/
  | assignDrainPromise (queue : Nat)

/-- The calls and queue objects are named by their places.  `started`, `outcomes` and `settled` record which
queued sections were started, what the functions of the calls gave, and what the promises of the calls gave. -/
structure Machine (Ω : Type) where
  calls : List Call
  queueAt : Lane → Option Nat
  objects : List StoreWriterQueue
  drains : List Drain
  microtasks : List (Lane × List Nat)
  stack : List Frame
  started : List Nat
  outcomes : List (Nat × Ω)
  settled : List (Nat × Ω)

variable {Ω : Type}

def idleMachine (Ω : Type) : Machine Ω := ⟨[], fun _ => none, [], [], [], [], [], [], []⟩

namespace Machine

def queue (m : Machine Ω) (queue : Nat) : StoreWriterQueue := m.objects.getD queue {}

def modifyQueue (m : Machine Ω) (queue : Nat) (f : StoreWriterQueue → StoreWriterQueue) : Machine Ω :=
  { m with objects := m.objects.modify queue f }

def setPhase (m : Machine Ω) (call : Nat) (phase : Phase) : Machine Ω :=
  { m with calls := m.calls.modify call fun c => { c with phase } }

/-- A section of the lane is active in the context. -/
def isActiveStoreWriter (m : Machine Ω) (context : List Nat) (lane : Lane) : Bool :=
  context.any fun writer => (m.calls[writer]?).any fun call => call.active && call.lane = lane

/-- `runActiveStoreWriter`, up to the first await of the function. -/
def runActiveStoreWriter (m : Machine Ω) (task : Nat) (context : List Nat) : Machine Ω :=
  { m with
    calls := m.calls.modify task fun c => { c with context := task :: context, phase := .running }
    started := m.started ++ [task]
    stack := .code (task :: context) (some task) :: m.stack }

def getOrCreateStoreWriterQueue (m : Machine Ω) (lane : Lane) : Machine Ω × Nat :=
  match m.queueAt lane with
  | some queue => (m, queue)
  | none =>
    ({ m with
        queueAt := Function.update m.queueAt lane (some m.objects.length)
        objects := m.objects ++ [{}] }, m.objects.length)

/-- The `finally` of a drain. -/
def finishDrain (m : Machine Ω) (lane : Lane) (queue : Nat) (context : List Nat) : Machine Ω :=
  let m := m.modifyQueue queue fun q => { q with running := false, drainPromise := false }
  if (m.queue queue).pending = [] then { m with queueAt := Function.update m.queueAt lane none }
  else { m with microtasks := m.microtasks ++ [(lane, context)] }

/-- The head of the loop of a drain: it starts the next task, or ends. -/
def drainLoop (m : Machine Ω) (lane : Lane) (queue : Nat) (context : List Nat) : Machine Ω :=
  match (m.queue queue).pending with
  | task :: rest =>
    let m := m.modifyQueue queue fun q => { q with pending := rest }
    runActiveStoreWriter { m with drains := m.drains ++ [⟨lane, queue, context, task⟩] } task context
  | [] => finishDrain m lane queue context

def drainStoreWriterQueue (m : Machine Ω) (lane : Lane) (context : List Nat) : Machine Ω :=
  match m.queueAt lane with
  | none => m
  | some queue =>
    if (m.queue queue).drainPromise then m
    else
      let m := m.modifyQueue queue fun q => { q with running := true }
      drainLoop { m with stack := .assignDrainPromise queue :: m.stack } lane queue context

def enqueue (m : Machine Ω) (lane : Lane) (context : List Nat) : Machine Ω :=
  let task := m.calls.length
  let (m, queue) := getOrCreateStoreWriterQueue { m with calls := m.calls ++ [.task lane] } lane
  drainStoreWriterQueue (m.modifyQueue queue fun q => { q with pending := q.pending ++ [task] }) lane context

/-- The call is not reentrant, or there is no section for it to enter. -/
def queues (m : Machine Ω) (lane : Lane) (reentrant : Bool) (context : List Nat) : Bool :=
  lane.storePath ≠ "" && !(reentrant && m.isActiveStoreWriter context lane)

/-- `rejection` is the settled promise of a call that throws an error with the given message. -/
def runQueuedStoreWrite (rejection : String → Ω) (m : Machine Ω) (lane : Lane) (label : String) (reentrant : Bool)
    (context : List Nat) : Machine Ω :=
  let call := m.calls.length
  if lane.storePath = "" then
    { m with
      calls := m.calls ++ [⟨lane, .refused, [], .done⟩]
      settled := m.settled ++ [(call, rejection (label ++ ": storePath must be a non-empty string, got \"\""))] }
  else if reentrant && m.isActiveStoreWriter context lane then
    { m with
      calls := m.calls ++ [⟨lane, .inline, context, .running⟩]
      stack := .code context (some call) :: m.stack }
  else enqueue m lane context

end Machine

/-! ## Steps -/

inductive StoreEvent (Ω : Type) where
  /-- The loop picks up code: of the section of a call or of a child of it, or code outside of all sections. -/
  | resume (origin : Option Nat)
  | runQueuedStoreWrite (lane : Lane) (label : String) (reentrant : Bool)
  /-- The code that runs returns, or awaits something. -/
  | suspend
  /-- The function of a call throws before it has returned a promise. -/
  | throw (outcome : Ω)
  | assignDrainPromise
  /-- The promise that the function of a call returned settles. -/
  | settle (call : Nat) (outcome : Ω)
  /-- The `finally` of `runActiveStoreWriter`, after its await. -/
  | deactivate (call : Nat)
  /-- The drain that awaits the task goes on. -/
  | continueDrain (task : Nat)
  /-- The promise of an inline call takes the outcome of its function. -/
  | deliver (call : Nat)
  | microtask

def Frame.isBody (call : Nat) : Frame → Bool
  | .code _ body => body = some call
  | .assignDrainPromise _ => false

/-- The function of the call is not on the stack: it has returned its promise. -/
def Machine.hasReturned (m : Machine Ω) (call : Nat) : Bool := !m.stack.any (Frame.isBody call)

def Machine.inPhase (m : Machine Ω) (call : Nat) (kind : CallKind) (phase : Phase) : Bool :=
  (m.calls[call]?).any fun c => c.kind = kind && c.phase = phase

def Machine.outcome (m : Machine Ω) (call : Nat) : Option Ω := (m.outcomes.find? (·.1 = call)).map (·.2)

def storeStep? (rejection : String → Ω) (m : Machine Ω) : StoreEvent Ω → Option (Machine Ω)
  | .resume origin =>
    match m.stack, origin with
    | [], none => some { m with stack := [.code [] none] }
    | [], some call =>
      (m.calls[call]?).bind fun c =>
        if c.phase = .waiting then none else some { m with stack := [.code c.context none] }
    | _, _ => none
  | .runQueuedStoreWrite lane label reentrant =>
    match m.stack with
    | .code context _ :: _ => some (m.runQueuedStoreWrite rejection lane label reentrant context)
    | _ => none
  | .suspend =>
    match m.stack with
    | .code _ _ :: rest => some { m with stack := rest }
    | _ => none
  | .throw outcome =>
    match m.stack with
    | .code _ (some call) :: rest =>
      let m := { m with stack := rest, outcomes := m.outcomes ++ [(call, outcome)] }
      if m.inPhase call .queued .running then some (m.setPhase call .closed)
      else if m.inPhase call .inline .running then some (m.setPhase call .finished)
      else none
    | _ => none
  | .assignDrainPromise =>
    match m.stack with
    | .assignDrainPromise queue :: rest =>
      some { m.modifyQueue queue (fun q => { q with drainPromise := true }) with stack := rest }
    | _ => none
  | .settle call outcome =>
    if (m.inPhase call .queued .running || m.inPhase call .inline .running) && m.hasReturned call then
      some { m.setPhase call .finished with outcomes := m.outcomes ++ [(call, outcome)] }
    else none
  | .deactivate call =>
    if m.stack.isEmpty && m.inPhase call .queued .finished then some (m.setPhase call .closed) else none
  | .continueDrain task =>
    match m.stack, m.drains.find? (·.task = task), m.outcome task with
    | [], some drain, some outcome =>
      if m.inPhase task .queued .closed then
        let m := { m.setPhase task .done with
          settled := m.settled ++ [(task, outcome)]
          drains := m.drains.filter (·.task ≠ task) }
        some (m.drainLoop drain.lane drain.queue drain.context)
      else none
    | _, _, _ => none
  | .deliver call =>
    match m.stack, m.outcome call with
    | [], some outcome =>
      if m.inPhase call .inline .finished then
        some { m.setPhase call .done with settled := m.settled ++ [(call, outcome)] }
      else none
    | _, _ => none
  | .microtask =>
    match m.stack, m.microtasks with
    | [], (lane, context) :: rest => some ({ m with microtasks := rest }.drainStoreWriterQueue lane context)
    | _, _ => none

end OpenClaw.Shared
