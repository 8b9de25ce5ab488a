/-
# OpenClaw.Process.CommandQueue -- the lanes of the command queue

Commands wait in lanes; a lane runs at most `maxConcurrent` of them at a time.  A *pump* is a loop
that starts waiting commands while the lane has a free slot.  Before it starts one that waited long,
it calls the command's `onWait` callback, and the callback may come back into the queue.  This module
follows `command-queue.ts` at that grain: a `Machine` has a call stack, of pumps, of pumps suspended
inside a callback, and of the loop in `resetAllLanes`; whoever is on top of the stack makes the next
step.  Tasks settle between the calls, in any order.

Tasks, their timeouts and the waiters for active tasks do not touch a lane; they are left out, as is
the admission gate, which enters `enqueueCommandInLane` as the answer it gave.
-/
import OpenClaw.Data.JsStrings
import OpenClaw.Data.Table
import OpenClaw.Logic.Run

namespace OpenClaw.Process.CommandQueue

open OpenClaw.Logic OpenClaw.Data

/-! ## Lanes -/

structure QueueEntry where
  enqueuedAt : Int
  sequence : Nat
  priority : Int
  warnAfterMs : Int
  queuedAheadAtEnqueue : Nat
  activeAheadAtEnqueue : Nat
  onWait : Bool

/-- A lane; its name is its key in `lanes`. -/
structure LaneState where
  queue : List QueueEntry := []
  activeTaskIds : List Nat := []
  maxConcurrent : Int := 1
  draining : Bool := false
  generation : Nat := 0

structure QueueState where
  lanes : Table String LaneState
  nextTaskId : Nat
  nextQueueSequence : Nat

def mainLane : String := "main"

def normalizeLane (lane : String) : String :=
  if trim lane = "" then mainLane else trim lane

def isQuietProbeLane (lane : String) : Bool :=
  startsWith lane "auth-probe:" || startsWith lane "session:probe-" ||
    startsWith lane "session:temp:setup-inference:probe-setup-inference-"

/-- A lane that does not exist yet is created with these defaults when it is first written. -/
def getLaneState (q : QueueState) (lane : String) : LaneState := (q.lanes.find lane).getD {}

def setLaneState (q : QueueState) (lane : String) (state : LaneState) : QueueState :=
  { q with lanes := q.lanes.upsert lane state }

inductive QueuePriority where
  | foreground
  | normal
  | background

def resolveQueuePriority : QueuePriority → Int
  | .foreground => 1
  | .normal => 0
  | .background => -1

/-- `queued` stays behind `entry` in the queue. -/
def queuedBehind (entry queued : QueueEntry) : Bool :=
  queued.priority < entry.priority || (queued.priority = entry.priority && queued.sequence > entry.sequence)

/-- `splice` at the first entry that stays behind; at the end if there is none. -/
def enqueueLaneEntry (state : LaneState) (entry : QueueEntry) : LaneState :=
  let insertAt := state.queue.findIdx (queuedBehind entry)
  let entry := { entry with
    queuedAheadAtEnqueue := insertAt
    activeAheadAtEnqueue := state.activeTaskIds.length }
  { state with queue := state.queue.take insertAt ++ entry :: state.queue.drop insertAt }

/-- `activeTaskIds.add(taskId)` -/
def addTaskId (taskIds : List Nat) (taskId : Nat) : List Nat :=
  if taskId ∈ taskIds then taskIds else taskIds ++ [taskId]

/-! ## The machine -/

/-- A call that has not returned: a pump at the head of its loop, a pump inside the `onWait` callback of
the entry it took, or `resetAllLanes` with the lanes it has yet to drain. -/
inductive Frame where
  | pump (lane : String)
  | waiting (lane : String) (entry : QueueEntry)
  | drainLanes (lanes : List String)

structure RunningTask where
  lane : String
  taskId : Nat
  generation : Nat
  deriving DecidableEq

/-- What a lane looked like right after a task was started in it. -/
structure TaskStart where
  lane : String
  taskId : Nat
  activeCount : Nat
  maxConcurrent : Int

/-- The queue, the call stack (innermost call first), the tasks in flight, and a record of the starts. -/
structure Machine where
  state : QueueState
  stack : List Frame
  running : List RunningTask
  started : List TaskStart

def idleMachine : Machine where
  state := { lanes := .empty, nextTaskId := 1, nextQueueSequence := 1 }
  stack := []
  running := []
  started := []

def Machine.lane (m : Machine) (lane : String) : LaneState := getLaneState m.state lane

def Machine.setLane (m : Machine) (lane : String) (state : LaneState) : Machine :=
  { m with state := setLaneState m.state lane state }

/-! ## Pumping -/

/-- `drainLane`: a pump is entered unless the lane says one is at work. -/
def drainLane (m : Machine) (lane : String) : Machine :=
  if (m.lane lane).draining then m
  else
    { m.setLane lane { m.lane lane with draining := true } with stack := .pump lane :: m.stack }

/-- Start the task of an entry the pump took. -/
def startTask (m : Machine) (lane : String) : Machine :=
  let state := m.lane lane
  let taskId := m.state.nextTaskId
  let activeTaskIds := addTaskId state.activeTaskIds taskId
  let m := { m with state := { m.state with nextTaskId := taskId + 1 } }
  { m.setLane lane { state with activeTaskIds } with
    running := m.running ++ [{ lane, taskId, generation := state.generation }]
    started := m.started ++
      [{ lane, taskId, activeCount := activeTaskIds.length, maxConcurrent := state.maxConcurrent }] }

/-- One round of the pump on top of `rest`: leave the loop, or take the first entry and either call
its callback or start it. -/
def pumpRound (m : Machine) (lane : String) (rest : List Frame) (now : Int) : Machine :=
  let state := m.lane lane
  match state.queue with
  | [] => { m.setLane lane { state with draining := false } with stack := rest }
  | entry :: queue =>
    if state.activeTaskIds.length < state.maxConcurrent then
      let m := m.setLane lane { state with queue }
      if now - entry.enqueuedAt ≥ entry.warnAfterMs && entry.onWait then
        { m with stack := .waiting lane entry :: rest }
      else startTask m lane
    else { m.setLane lane { state with draining := false } with stack := rest }

/-- `completeTask` and the pump it enters; a task of an older generation changes nothing. -/
def taskSettled (m : Machine) (task : RunningTask) : Machine :=
  let m := { m with running := m.running.erase task }
  let state := m.lane task.lane
  if task.generation ≠ state.generation then m
  else
    { m.setLane task.lane { state with activeTaskIds := state.activeTaskIds.erase task.taskId } with
      stack := .pump task.lane :: m.stack }

/-! ## The operations -/

structure EnqueueOptions where
  warnAfterMs : Int := 2000
  onWait : Bool := false
  priority : QueuePriority := .normal

def enqueueCommandInLane (m : Machine) (lane : String) (opts : EnqueueOptions) (now : Int)
    (admissionClosed : Bool) : Machine :=
  if admissionClosed then m
  else
    let cleaned := normalizeLane lane
    let entry : QueueEntry :=
      { enqueuedAt := now
        sequence := m.state.nextQueueSequence
        priority := resolveQueuePriority opts.priority
        warnAfterMs := opts.warnAfterMs
        queuedAheadAtEnqueue := 0
        activeAheadAtEnqueue := 0
        onWait := opts.onWait }
    let m := { m with state := { m.state with nextQueueSequence := m.state.nextQueueSequence + 1 } }
    drainLane (m.setLane cleaned (enqueueLaneEntry (m.lane cleaned) entry)) cleaned

/-- The limit that `setCommandLaneConcurrency` sets. -/
def laneLimit (cleaned : String) (maxConcurrent : Int) : Int :=
  max (if isQuietProbeLane cleaned then 1 else 0) maxConcurrent

def setCommandLaneConcurrency (m : Machine) (lane : String) (maxConcurrent : Int) : Machine :=
  let cleaned := normalizeLane lane
  let limit := laneLimit cleaned maxConcurrent
  let m := m.setLane cleaned { m.lane cleaned with maxConcurrent := limit }
  if limit > 0 then drainLane m cleaned else m

def clearCommandLane (m : Machine) (lane : String) : Machine :=
  let cleaned := normalizeLane lane
  match m.state.lanes.find cleaned with
  | none => m
  | some state => m.setLane cleaned { state with queue := [] }

/-- A new generation: nothing active, nobody draining. -/
def resetLane (state : LaneState) : LaneState :=
  { state with generation := state.generation + 1, activeTaskIds := [], draining := false }

def resetCommandLane (m : Machine) (lane : String) : Machine :=
  let cleaned := normalizeLane lane
  match m.state.lanes.find cleaned with
  | none => m
  | some state =>
    let m := m.setLane cleaned (resetLane state)
    if state.queue ≠ [] then drainLane m cleaned else m

def resetAllLanes (m : Machine) : Machine :=
  let lanesToDrain := (m.state.lanes.rows.filter (·.2.queue ≠ [])).map (·.1)
  { m with
    state := { m.state with lanes := (m.state.lanes.updateWhere (fun _ => true) resetLane).1 }
    stack := .drainLanes lanesToDrain :: m.stack }

/-! ## Runs -/

inductive QueueEvent where
  | enqueue (lane : String) (opts : EnqueueOptions) (now : Int) (admissionClosed : Bool)
  | setConcurrency (lane : String) (maxConcurrent : Int)
  | clear (lane : String)
  | reset (lane : String)
  | resetAll
  | goOn (now : Int)
  | callbackReturns
  | settles (task : RunningTask)

/-- Callers run when nothing else does, and inside a callback. -/
def callersRun : List Frame → Bool
  | [] | .waiting _ _ :: _ => true
  | _ => false

/-- The innermost call goes on: a pump makes a round, `resetAllLanes` drains its next lane. -/
def goOn (m : Machine) (now : Int) : Option Machine :=
  match m.stack with
  | .pump lane :: rest => some (pumpRound m lane rest now)
  | .drainLanes [] :: rest => some { m with stack := rest }
  | .drainLanes (lane :: lanes) :: rest => some (drainLane { m with stack := .drainLanes lanes :: rest } lane)
  | _ => none

/-- The callback returns or throws: the pump starts the entry and goes on. -/
def callbackReturns (m : Machine) : Option Machine :=
  match m.stack with
  | .waiting lane _ :: rest => some (startTask { m with stack := .pump lane :: rest } lane)
  | _ => none

def stepQueue? (m : Machine) : QueueEvent → Option Machine
  | .enqueue lane opts now admissionClosed =>
    if callersRun m.stack then some (enqueueCommandInLane m lane opts now admissionClosed) else none
  | .setConcurrency lane maxConcurrent =>
    if callersRun m.stack then some (setCommandLaneConcurrency m lane maxConcurrent) else none
  | .clear lane => if callersRun m.stack then some (clearCommandLane m lane) else none
  | .reset lane => if callersRun m.stack then some (resetCommandLane m lane) else none
  | .resetAll => if callersRun m.stack then some (resetAllLanes m) else none
  | .goOn now => goOn m now
  | .callbackReturns => callbackReturns m
  | .settles task =>
    if m.stack.isEmpty && task ∈ m.running then some (taskSettled m task) else none

def stepQueue : Machine → QueueEvent → Machine := skipDisabled stepQueue?

end OpenClaw.Process.CommandQueue
