/-
# OpenClaw.AutoReply.FollowupQueue -- the queue of follow-up runs

While a session is busy, further messages wait in its follow-up queue.  A queue that is full makes room
by its drop policy; with the policy `summarize` the dropped runs move to the summary sources, and from
there, when those are too many, to compact copies grouped by delivery context, the elisions, which are
capped in turn.  This module follows `queue/state.ts`, `queue/enqueue.ts` and the overflow helpers of
`utils/queue-helpers.ts`.

A queue here is one queue object: `clearFollowupQueue` and a finished drain take it out of the registry,
and the next enqueue makes another one.  Runs are compared as the source compares objects: every object
carries a `ref` of its own.  The lifecycle callbacks of a run only report to its owner and are left out,
but for the question whether it has an admission callback; times and texts of prompts are left out too.
The fields from `enqueued` on are the model's own record of what happened.
-/
import Mathlib.Algebra.Ring.Nat
import Mathlib.Data.List.Count
import OpenClaw.Logic.Run

namespace OpenClaw.AutoReply

open OpenClaw.Logic

/-! ## Runs -/

inductive QueueMode where
  | steer
  | followup
  | collect
  | interrupt
  deriving DecidableEq

inductive QueueDropPolicy where
  | old
  | new
  | summarize
  deriving DecidableEq

inductive QueueDedupeMode where
  | messageId
  | prompt
  | none
  deriving DecidableEq

structure QueuedReplyLifecycle where
  id : Nat
  onAdmitted : Bool
  deriving DecidableEq

/-- What `resolveCrossChannelKey` says of a run. -/
inductive CrossChannelKey where
  | cross
  | key (key : String)
  | none
  deriving DecidableEq

/-- A follow-up run, with the keys that its fields resolve to. -/
structure FollowupRun where
  /-- The object. -/
  ref : Nat
  /-- The message: a compact copy stands for the same one. -/
  id : Nat
  /-- `buildQueueSummaryLine` of its summary line or prompt. -/
  summaryLine : String
  /-- The message id with its route. -/
  messageRoute : Option String
  /-- The prompt with its route. -/
  promptRoute : String
  deliveryContextKey : String
  crossChannelKey : CrossChannelKey
  disableCollectBatching : Bool
  roomEvent : Bool
  currentInboundAudio : Bool
  protectFromQueueOverflow : Bool
  abortSignal : Option Nat
  queuedLifecycle : Option QueuedReplyLifecycle
  deriving DecidableEq

/-- `run.abortSignal?.aborted === true`, for the signals that have fired. -/
def FollowupRun.signalled (signals : List Nat) (run : FollowupRun) : Bool := run.abortSignal.any (· ∈ signals)

def FollowupRun.hasAdmission (run : FollowupRun) : Bool := run.queuedLifecycle.any (·.onAdmitted)

/-- The copy keeps the keys, the abort signal and the lifecycle. -/
def createOverflowSummaryRetrySource (source : FollowupRun) (ref : Nat) : FollowupRun :=
  { source with
    ref
    disableCollectBatching := false
    currentInboundAudio := false
    protectFromQueueOverflow := false }

/-! ## The queue -/

/-- Dropped runs of one delivery context, as compact copies. -/
structure SummaryElision where
  /-- The object; its first copy names it. -/
  ref : Nat
  contextKey : String
  sources : List FollowupRun
  /-- Which copy stands for which run. -/
  sourceRefs : List (FollowupRun × FollowupRun)

/-- How a run left `items`. -/
inductive ItemExit where
  | handed
  | folded
  | evicted
  | aborted
  | cleared
  deriving DecidableEq

/-- How a dropped run left the summary structures; a delivery with the messages it announced. -/
inductive SummaryExit where
  | delivered (announced : List Nat)
  | aborted
  | evicted
  | cleared
  deriving DecidableEq

structure FollowupQueue where
  items : List FollowupRun
  inFlight : List FollowupRun
  mode : QueueMode
  cap : Nat
  dropPolicy : QueueDropPolicy
  droppedCount : Nat
  summaryLines : List String
  summarySources : List FollowupRun
  activeSummarySources : List FollowupRun
  summaryElisions : List SummaryElision
  evictedSummaryCount : Nat
  /-- `abortController.signal.aborted`, which is the abort signal of every run in the queue. -/
  aborted : Bool
  /-- The queue is the one that `FOLLOWUP_QUEUES` holds. -/
  registered : Bool
  nextRef : Nat
  enqueued : List Nat
  left : List (FollowupRun × ItemExit)
  gone : List (FollowupRun × SummaryExit)
  /-- The runs that a callback admitted. -/
  admittedRuns : List Nat
  /-- The runs of the attempts that succeeded, and of the batches that were admitted. -/
  finished : List Nat

/-- `isFollowupRunAborted` of a run in the queue. -/
def isFollowupRunAborted (signals : List Nat) (q : FollowupQueue) (run : FollowupRun) : Bool :=
  run.signalled signals || q.aborted

def elidedSources (q : FollowupQueue) : List FollowupRun := q.summaryElisions.flatMap (·.sources)

structure QueueSettings where
  mode : QueueMode
  /-- `Math.floor` of a positive cap. -/
  cap : Option Nat
  dropPolicy : Option QueueDropPolicy

def defaultQueueCap : Nat := 20

/-- The queue that `getFollowupQueue` creates. -/
def createdQueue (settings : QueueSettings) : FollowupQueue where
  items := []
  inFlight := []
  mode := settings.mode
  cap := settings.cap.getD defaultQueueCap
  dropPolicy := settings.dropPolicy.getD .summarize
  droppedCount := 0
  summaryLines := []
  summarySources := []
  activeSummarySources := []
  summaryElisions := []
  evictedSummaryCount := 0
  aborted := false
  registered := true
  nextRef := 0
  enqueued := []
  left := []
  gone := []
  admittedRuns := []
  finished := []

/-! ## Elisions -/

/-- Evict the first copy that no delivery uses. -/
def evictFirst (active : List FollowupRun) : List SummaryElision →
    Option (FollowupRun × List SummaryElision)
  | [] => none
  | entry :: rest =>
    match entry.sources.find? (· ∉ active) with
    | none => (evictFirst active rest).map fun (source, rest) => (source, entry :: rest)
    | some source =>
      let sources := entry.sources.erase source
      some (source, if sources = [] then rest else { entry with sources } :: rest)

def evictOne (q : FollowupQueue) : FollowupQueue :=
  match evictFirst q.activeSummarySources q.summaryElisions with
  | none => q
  | some (source, summaryElisions) =>
    { q with
      summaryElisions
      evictedSummaryCount := q.evictedSummaryCount + 1
      gone := (source, .evicted) :: q.gone }

def evictTimes : Nat → FollowupQueue → FollowupQueue
  | 0, q => q
  | n + 1, q => evictTimes n (evictOne q)

def trimSummaryElisionsToCap (q : FollowupQueue) : FollowupQueue :=
  evictTimes ((elidedSources q).countP (· ∉ q.activeSummarySources) - q.cap) q

/-- A copy of the run joins the last elision if that has its context, else a new one. -/
def addElision (q : FollowupQueue) (item : FollowupRun) : FollowupQueue :=
  let compactSource := createOverflowSummaryRetrySource item q.nextRef
  let created : SummaryElision :=
    { ref := compactSource.ref, contextKey := item.deliveryContextKey, sources := [compactSource]
      sourceRefs := [(item, compactSource)] }
  { q with
    nextRef := q.nextRef + 1
    activeSummarySources :=
      if item ∈ q.activeSummarySources then compactSource :: q.activeSummarySources
      else q.activeSummarySources
    summaryElisions :=
      match q.summaryElisions.getLast? with
      | none => [created]
      | some lastElision =>
        if lastElision.contextKey = item.deliveryContextKey then
          q.summaryElisions.dropLast ++
            [{ lastElision with
              sources := lastElision.sources ++ [compactSource]
              sourceRefs := (item, compactSource) :: lastElision.sourceRefs }]
        else q.summaryElisions ++ [created] }

/-- The summary sources beyond the summary lines become elisions. -/
def foldOverflow (q : FollowupQueue) : FollowupQueue :=
  if q.dropPolicy = .summarize then
    let overflow := q.summarySources.length - q.summaryLines.length
    (q.summarySources.take overflow).foldl (fun q item => trimSummaryElisionsToCap (addElision q item))
      { q with summarySources := q.summarySources.drop overflow }
  else q

/-! ## The drop policy -/

def countPendingQueueItems (q : FollowupQueue) : Nat := q.items.countP (· ∉ q.inFlight)

/-- The first `n` items that may be dropped, and what stays. -/
def splitVictims (victim : FollowupRun → Bool) : Nat → List FollowupRun →
    List FollowupRun × List FollowupRun
  | 0, items => ([], items)
  | _ + 1, [] => ([], [])
  | n + 1, item :: rest =>
    if victim item then
      let (dropped, kept) := splitVictims victim n rest
      (item :: dropped, kept)
    else
      let (dropped, kept) := splitVictims victim (n + 1) rest
      (dropped, item :: kept)

attribute [grind =] splitVictims

def mayDrop (q : FollowupQueue) (item : FollowupRun) : Bool := item ∉ q.inFlight && !item.protectFromQueueOverflow

/-- Whether there is room, and the queue after the policy made it. -/
def applyQueueDropPolicy (q : FollowupQueue) : Bool × FollowupQueue :=
  let pendingCount := countPendingQueueItems q
  if q.cap = 0 ∨ pendingCount < q.cap then (true, q)
  else if q.dropPolicy = .new then (false, q)
  else
    let dropCount := pendingCount - q.cap + 1
    let (dropped, kept) := splitVictims (mayDrop q) dropCount q.items
    if dropped.length < dropCount then (false, q)
    else if q.dropPolicy = .summarize then
      let lines := q.summaryLines ++ dropped.map (·.summaryLine)
      (true, { q with
        items := kept
        summarySources := q.summarySources ++ dropped
        droppedCount := q.droppedCount + dropped.length
        summaryLines := lines.drop (lines.length - q.cap)
        left := dropped.map (·, .folded) ++ q.left })
    else (true, { q with items := kept, left := dropped.map (·, .evicted) ++ q.left })

/-! ## Enqueueing -/

def applyQueueRuntimeSettings (q : FollowupQueue) (settings : QueueSettings) : FollowupQueue :=
  { q with
    mode := settings.mode
    cap := settings.cap.getD q.cap
    dropPolicy := settings.dropPolicy.getD q.dropPolicy }

/-- `getFollowupQueue` of a queue that exists. -/
def getFollowupQueue (q : FollowupQueue) (settings : QueueSettings) : FollowupQueue :=
  trimSummaryElisionsToCap (applyQueueRuntimeSettings q settings)

def isRunAlreadyQueued (run : FollowupRun) (items : List FollowupRun) (allowPromptFallback : Bool) : Bool :=
  if run.messageRoute.isSome then items.any (·.messageRoute = run.messageRoute)
  else allowPromptFallback && items.any (·.promptRoute = run.promptRoute)

/-- The arguments of a call, with the answers it gets: is the message id in the recent ones, and does
the lifecycle accept the run? -/
structure EnqueueRequest where
  /-- The object gets its `ref` and `id` here. -/
  run : FollowupRun
  settings : QueueSettings
  dedupeMode : QueueDedupeMode
  front : Bool
  recentlySeen : Bool
  accepted : Bool

/-- A message like most. -/
def plainRequest (settings : QueueSettings) : EnqueueRequest where
  run := {
    ref := 0, id := 0, summaryLine := "m", messageRoute := none, promptRoute := "m"
    deliveryContextKey := "c", crossChannelKey := .none, disableCollectBatching := false
    roomEvent := false, currentInboundAudio := false, protectFromQueueOverflow := false
    abortSignal := none, queuedLifecycle := none }
  settings
  dedupeMode := .none
  front := false
  recentlySeen := false
  accepted := true

def isDuplicate (q : FollowupQueue) (req : EnqueueRequest) : Bool :=
  req.dedupeMode ≠ .none &&
    ((req.run.messageRoute.isSome && req.recentlySeen) ||
      isRunAlreadyQueued req.run q.items (req.dedupeMode = .prompt))

/-- The run joins the items. -/
def insertRun (q : FollowupQueue) (req : EnqueueRequest) : FollowupQueue :=
  let run := { req.run with
    ref := q.nextRef
    id := q.nextRef
    protectFromQueueOverflow := req.front || req.run.protectFromQueueOverflow }
  { q with
    items := if req.front then run :: q.items else q.items ++ [run]
    nextRef := q.nextRef + 1
    enqueued := run.id :: q.enqueued }

def enqueueFollowupRun (signals : List Nat) (q : FollowupQueue) (req : EnqueueRequest) : Bool × FollowupQueue :=
  if req.run.signalled signals then (false, q)
  else
    let q := getFollowupQueue q req.settings
    if isDuplicate q req then (false, q)
    else if q.dropPolicy = .new ∧ 0 < q.cap ∧ q.cap ≤ countPendingQueueItems q then (false, q)
    else if req.accepted = false then (false, q)
    else
      let (shouldEnqueue, q) := applyQueueDropPolicy q
      let q := foldOverflow q
      if shouldEnqueue then (true, insertRun q req) else (false, q)

/-! ## Clearing -/

def clearFollowupQueue (q : FollowupQueue) : FollowupQueue :=
  { q with
    items := []
    inFlight := []
    droppedCount := 0
    summaryLines := []
    summarySources := []
    summaryElisions := []
    evictedSummaryCount := 0
    aborted := true
    registered := false
    left := q.items.map (·, .cleared) ++ q.left
    gone := (q.summarySources ++ elidedSources q).map (·, .cleared) ++ q.gone }

end OpenClaw.AutoReply
