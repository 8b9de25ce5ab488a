/-
# OpenClaw.AutoReply.FollowupDrain -- the drain of a follow-up queue, await by await

The drain is one asynchronous loop over the queue.  While it awaits, enqueues, abort signals and a clear
may change the queue under it; between two awaits it runs alone.  So a `DrainPc` is an await with the
local variables that are alive across it, and a `Segment` is what the code does from one await to the
next: it awaits again, leaves the loop, or throws.  This module follows `queue/drain.ts`.

The callback that runs a follow-up, and the admission inside it, are the environment: it may return,
throw, or ask for admission at any time.  Routing, prompts and transcript records are left out.
-/
import Mathlib.Data.List.Dedup
import OpenClaw.AutoReply.FollowupQueue

namespace OpenClaw.AutoReply

open OpenClaw.Logic

/-! ## Summary deliveries -/

/-- What `previewQueueSummaryPrompt` announces. -/
structure SummaryPrompt where
  droppedCount : Nat
  summaryLines : List String

def previewQueueSummaryPrompt (dropPolicy : QueueDropPolicy) (droppedCount : Nat)
    (summaryLines : List String) : Option SummaryPrompt :=
  if dropPolicy ≠ .summarize ∨ droppedCount = 0 then none else some { droppedCount, summaryLines }

/-- A delivery in flight. -/
structure SummaryDelivery where
  prompt : SummaryPrompt
  droppedCount : Nat
  sources : List FollowupRun
  protectedSources : List FollowupRun
  inheritedActiveSources : List FollowupRun
  admitted : Bool
  /-- The elision that is delivered, and how many copies it had. -/
  elided : Option (Nat × Nat)

def SummaryDelivery.announced (delivery : SummaryDelivery) : List Nat := delivery.protectedSources.map (·.id)

def SummaryElision.knows (entry : SummaryElision) (source : FollowupRun) : Bool :=
  source ∈ entry.sources || (entry.sourceRefs.lookup source).isSome

/-- The copy that stands for `source` leaves the entry: `splice` at its index, which removes the last
copy when the index is -1. -/
def SummaryElision.take (entry : SummaryElision) (source : FollowupRun) : Option FollowupRun × List FollowupRun :=
  let target := (entry.sourceRefs.lookup source).getD source
  if target ∈ entry.sources then (some target, entry.sources.erase target)
  else (entry.sources.getLast?, entry.sources.dropLast)

/-- What the first entry that knows `source` loses. -/
def takeElided (source : FollowupRun) : List SummaryElision →
    Option (Option FollowupRun × List SummaryElision)
  | [] => none
  | entry :: rest =>
    if entry.knows source then
      let (removed, sources) := entry.take source
      some (removed, if sources = [] then rest else { entry with sources } :: rest)
    else (takeElided source rest).map fun (removed, rest) => (removed, entry :: rest)

/-- The body of the loop in `consumeQueueSummaryDelivery`, with the consumed count. -/
def consumeSource (announced : List Nat) (acc : FollowupQueue × Nat) (source : FollowupRun) : FollowupQueue × Nat :=
  let (q, consumedCount) := acc
  if source ∈ q.summarySources then
    let sourceIndex := q.summarySources.idxOf source
    ({ q with
      summarySources := q.summarySources.eraseIdx sourceIndex
      summaryLines := q.summaryLines.eraseIdx sourceIndex
      gone := (source, .delivered announced) :: q.gone }, consumedCount + 1)
  else
    match takeElided source q.summaryElisions with
    | none => acc
    | some (removed, summaryElisions) =>
      ({ q with
        summaryElisions
        gone := removed.toList.map (·, .delivered announced) ++ q.gone }, consumedCount + 1)

def consumeQueueSummaryDelivery (q : FollowupQueue) (announced : List Nat)
    (sources : List FollowupRun) (droppedCount : Nat) : FollowupQueue :=
  let (q, consumedCount) := sources.foldl (consumeSource announced) (q, if sources = [] then droppedCount else 0)
  { q with droppedCount := q.droppedCount - consumedCount }

/-- Replace the sources at their places by fresh copies. -/
def releaseQueueSummaryDeliveryForRetry (q : FollowupQueue) (sources : List FollowupRun) : FollowupQueue :=
  sources.foldl (fun q source =>
    if source ∈ q.summarySources then
      { q with
        nextRef := q.nextRef + 1
        summarySources := q.summarySources.set (q.summarySources.idxOf source)
          (createOverflowSummaryRetrySource source q.nextRef) }
    else q) q

/-- The aborted sources leave with their lines, from the last index down. -/
def dropAbortedAt (signals : List Nat) : Nat → FollowupQueue → FollowupQueue
  | 0, q => q
  | index + 1, q =>
    dropAbortedAt signals index <|
      match q.summarySources[index]? with
      | none => q
      | some source =>
        if isFollowupRunAborted signals q source then
          { q with
            summarySources := q.summarySources.eraseIdx index
            summaryLines := q.summaryLines.eraseIdx index
            droppedCount := q.droppedCount - 1
            gone := (source, .aborted) :: q.gone }
        else q

def dropAbortedQueueSummarySources (signals : List Nat) (q : FollowupQueue) : FollowupQueue :=
  dropAbortedAt signals q.summarySources.length q

/-- Two admission lifecycles must not be aggregated. -/
def singleAdmissionOwner (items : List FollowupRun) : Bool :=
  ((items.filter (·.hasAdmission)).filterMap (·.queuedLifecycle)).dedup.length ≤ 1

def needsAdmission (sources : List FollowupRun) : Bool := 1 < sources.length || sources.any (·.hasAdmission)

/-- The sources are no longer in use, nor the copies that stand for them, but for those `keep` names. -/
def releaseActiveSources (keep : List FollowupRun) (sources : List FollowupRun) (q : FollowupQueue) : FollowupQueue :=
  let released := sources.filter (· ∉ keep)
  let copies := q.summaryElisions.flatMap fun entry =>
    released.filterMap fun source => entry.sourceRefs.lookup source
  trimSummaryElisionsToCap { q with
    activeSummarySources := q.activeSummarySources.filter fun source =>
      source ∉ released && source ∉ copies }

def resolveOverflowSummarySourceGroup (q : FollowupQueue) : List FollowupRun :=
  match q.summarySources with
  | [] => []
  | source :: rest => source :: rest.takeWhile (·.deliveryContextKey = source.deliveryContextKey)

/-! ## Awaits -/

/-- A run in the hands of the callback. -/
structure ItemAttempt where
  item : FollowupRun
  admitted : Bool

/-- A collect batch in the hands of the callback, and the batches that follow. -/
structure GroupAttempt where
  active : List FollowupRun
  rest : List (List FollowupRun)
  admitted : Bool

inductive DrainPc where
  | idle
  /-- A drain is scheduled, and waits for its root. -/
  | starting
  /-- `dropAbortedFollowups` awaits the callback for the item at `index`. -/
  | droppingAborted (attempt : ItemAttempt) (index : Nat) (debounced : Bool)
  | droppedAborted (debounced : Bool)
  | debouncing
  | prioritising (attempt : ItemAttempt)
  | prioritised (ran : Bool)
  | summarising (delivery : SummaryDelivery)
  /-- `runQueueSummaryDelivery` has returned to `drainElidedOverflowSummary`. -/
  | elisionReturned (delivery : SummaryDelivery) (delivered : Bool)
  | elidedDrained (did : Bool)
  | overflowDrained (did : Bool)
  | running (attempt : ItemAttempt)
  | ran (did : Bool)
  | collectSkipped
  | collecting (group : GroupAttempt)
  /-- A rejection is on its way to the loop. -/
  | rejecting

/-- What the drain does from one await to the next. -/
inductive Segment where
  | awaits (q : FollowupQueue) (forceIndividualCollect : Bool) (pc : DrainPc)
  | leaves (q : FollowupQueue)
  | throws (q : FollowupQueue)

def hasPendingWork (q : FollowupQueue) : Bool := q.items ≠ [] || 0 < q.droppedCount

/-- The runs that the callback holds. -/
def DrainPc.attempt : DrainPc → List FollowupRun
  | .droppingAborted attempt _ _ => [attempt.item]
  | .prioritising attempt => [attempt.item]
  | .running attempt => [attempt.item]
  | .collecting group => group.active
  | _ => []

/-! ## The head of the loop -/

section Loop

variable (signals : List Nat) (force : Bool)

/-- `dropAbortedFollowups`, from the index below `n` on. -/
def scanAborted (q : FollowupQueue) (debounced : Bool) : Nat → Segment
  | 0 => .awaits q force (.droppedAborted debounced)
  | index + 1 =>
    match q.items[index]? with
    | none => .awaits q force .rejecting
    | some item =>
      if isFollowupRunAborted signals q item then
        .awaits q force (.droppingAborted { item, admitted := false } index debounced)
      else scanAborted q debounced index

def loopTop (q : FollowupQueue) : Segment :=
  if hasPendingWork q then scanAborted signals force q false q.items.length else .leaves q

/-- `items.splice(index, 1)`, after the callback returned for `item`. -/
def spliceAborted (q : FollowupQueue) (item : FollowupRun) (index : Nat) : FollowupQueue :=
  { q with
    items := q.items.eraseIdx index
    left := q.items[index]?.toList.map (·, .aborted) ++ q.left
    finished := item.id :: q.finished }

def afterDroppedAborted (q : FollowupQueue) (debounced : Bool) : Segment :=
  if hasPendingWork q = false then .leaves q
  else if debounced then
    match q.items.find? (·.protectFromQueueOverflow) with
    | some item => .awaits q force (.prioritising { item, admitted := false })
    | none => .awaits q force (.prioritised false)
  else .awaits q force .debouncing

/-! ## Overflow -/

/-- The start of `runQueueSummaryDelivery`. -/
def startDelivery (q : FollowupQueue) (prompt : SummaryPrompt) (droppedCount : Nat)
    (sources protectedSources : List FollowupRun) (elided : Option (Nat × Nat)) : Segment :=
  if singleAdmissionOwner protectedSources then
    .awaits { q with activeSummarySources := protectedSources ++ q.activeSummarySources } force
      (.summarising {
        prompt, droppedCount, sources, protectedSources
        inheritedActiveSources := protectedSources.filter (· ∈ q.activeSummarySources)
        admitted := false, elided })
  else .awaits q force .rejecting

/-- The aborted copies leave the first elision. -/
def dropAbortedElided (q : FollowupQueue) (entry : SummaryElision) (rest : List SummaryElision) : FollowupQueue :=
  let aborted := entry.sources.filter (isFollowupRunAborted signals q)
  let sources := entry.sources.filter (!isFollowupRunAborted signals q ·)
  { q with
    summaryElisions := if sources = [] then rest else { entry with sources } :: rest
    droppedCount := q.droppedCount - aborted.length
    gone := aborted.map (·, .aborted) ++ q.gone }

def drainElidedOverflowSummary (q : FollowupQueue) : Segment :=
  match q.summaryElisions with
  | [] => .awaits q force (.elidedDrained false)
  | entry :: rest =>
    let retainedSources :=
      if rest = [] then
        (resolveOverflowSummarySourceGroup q).filter (·.deliveryContextKey = entry.contextKey)
      else []
    let q := dropAbortedElided signals q entry rest
    let elidedSources := entry.sources.filter (!isFollowupRunAborted signals q ·)
    if elidedSources = [] then .awaits q force (.elidedDrained true)
    else
      match previewQueueSummaryPrompt q.dropPolicy (elidedSources.length + retainedSources.length)
        (q.summaryLines.take retainedSources.length) with
      | none => .awaits q force (.elidedDrained false)
      | some prompt =>
        startDelivery force q prompt retainedSources.length retainedSources
          (elidedSources ++ retainedSources) (some (entry.ref, elidedSources.length))

/-- The second half of `drainOverflowSummaryGroup`: the first group of summary sources. -/
def drainSourceGroup (q : FollowupQueue) : Segment :=
  let sources := resolveOverflowSummarySourceGroup q
  match previewQueueSummaryPrompt q.dropPolicy sources.length (q.summaryLines.take sources.length) with
  | none => .awaits q force (.overflowDrained false)
  | some prompt => startDelivery force q prompt sources.length sources sources none

def drainOverflowSummaryGroup (q : FollowupQueue) : Segment :=
  let dropped := dropAbortedQueueSummarySources signals q
  if dropped.summarySources.length < q.summarySources.length ∧ dropped.droppedCount = 0 then
    .awaits dropped force (.overflowDrained true)
  else if 0 < dropped.evictedSummaryCount then
    .awaits { dropped with
      evictedSummaryCount := 0
      droppedCount := dropped.droppedCount - dropped.evictedSummaryCount } force (.overflowDrained true)
  else drainElidedOverflowSummary signals force dropped

/-! ## Items -/

def requiresIndividualCollectDrain (item : FollowupRun) : Bool :=
  item.disableCollectBatching || (item.roomEvent || item.currentInboundAudio)

def channelKeyOf : CrossChannelKey → Option String
  | .key key => some key
  | _ => none

def hasCrossChannelItems (items : List FollowupRun) : Bool :=
  items.any (·.crossChannelKey = .cross) ||
    1 < (items.filterMap fun item => channelKeyOf item.crossChannelKey).dedup.length

/-- `drainNextQueueItem`, up to its await. -/
def drainNextQueueItem (q : FollowupQueue) : Segment :=
  match q.items with
  | [] => .awaits q force (.ran false)
  | item :: _ => .awaits { q with inFlight := item :: q.inFlight } force (.running { item, admitted := false })

def drainItems (q : FollowupQueue) : Segment :=
  if q.mode = .collect then
    let isCrossChannel := hasCrossChannelItems q.items || q.items.any requiresIndividualCollectDrain
    let force := if force && !isCrossChannel && 1 < q.items.length then false else force
    if force || isCrossChannel then drainNextQueueItem (force || isCrossChannel) q
    else .awaits q force .collectSkipped
  else drainNextQueueItem force q

/-- The items of `processed` leave the queue; an object is in it once. -/
def removeQueuedItemsByRef (q : FollowupQueue) (processed : List FollowupRun) (exit : ItemExit) : FollowupQueue :=
  { q with
    items := q.items.filter (· ∉ processed)
    left := (q.items.filter (· ∈ processed)).map (·, exit) ++ q.left }

def finishRuns (q : FollowupQueue) (runs : List FollowupRun) : FollowupQueue :=
  { q with finished := runs.map (·.id) ++ q.finished }

def admitRuns (q : FollowupQueue) (runs : List FollowupRun) : FollowupQueue :=
  { q with admittedRuns := runs.map (·.id) ++ q.admittedRuns }

def leaveFlight (q : FollowupQueue) (runs : List FollowupRun) : FollowupQueue :=
  { q with inFlight := q.inFlight.filter (· ∉ runs) }

/-! ## Collect batches -/

/-- `splitCollectItemsByDeliveryContext` -/
def splitCollectItemsByDeliveryContext (items : List FollowupRun) : List (List FollowupRun) :=
  items.splitBy fun a b => a.deliveryContextKey = b.deliveryContextKey

/-- The next batch that still has something to run. -/
def nextGroup : FollowupQueue → List (List FollowupRun) → Segment
  | q, [] => loopTop signals force q
  | q, groupItems :: rest =>
    let currentGroupItems := groupItems.filter (· ∈ q.items)
    let active := currentGroupItems.filter (!isFollowupRunAborted signals q ·)
    let q := removeQueuedItemsByRef q
      (currentGroupItems.filter (isFollowupRunAborted signals q)) .aborted
    if active = [] then nextGroup q rest
    else if singleAdmissionOwner active then
      .awaits { q with inFlight := active ++ q.inFlight } force
        (.collecting { active, rest, admitted := false })
    else .throws q

/-- Items that are missing come back to the front. -/
def restoreGroupItems (q : FollowupQueue) (runs : List FollowupRun) : FollowupQueue :=
  { q with items := runs.filter (· ∉ q.items) ++ q.items }

/-- The queue is still the one of its session. -/
def isCurrent (q : FollowupQueue) : Bool := q.registered && !q.aborted

/-- Is the admission of the batch a step of its own? -/
def GroupAttempt.needsAdmission (group : GroupAttempt) : Bool := AutoReply.needsAdmission group.active

/-- The callback returned for a batch. -/
def groupReturned (q : FollowupQueue) (group : GroupAttempt) : Segment :=
  let q := leaveFlight q group.active
  let canceledSources := group.active.filter (isFollowupRunAborted signals q)
  if group.admitted = false ∧ canceledSources ≠ [] then
    let q' := removeQueuedItemsByRef q canceledSources .aborted
    let survivors := group.active.filter (!isFollowupRunAborted signals q ·)
    if isCurrent q then
      let q' := restoreGroupItems q' survivors
      -- the inner loop breaks, the outer one goes on
      if survivors ≠ [] then loopTop signals force q' else nextGroup signals force q' group.rest
    else nextGroup signals force q' group.rest
  else
    nextGroup signals force (removeQueuedItemsByRef (finishRuns q group.active) group.active .handed) group.rest

/-- The callback threw for a batch. -/
def groupThrew (q : FollowupQueue) (group : GroupAttempt) : FollowupQueue :=
  leaveFlight
    (if group.admitted then removeQueuedItemsByRef q group.active .handed
    else if isCurrent q then restoreGroupItems q group.active
    else q)
    group.active

/-! ## Deliveries end -/

/-- The callback returned for a summary. -/
def deliveryReturned (q : FollowupQueue) (delivery : SummaryDelivery) : FollowupQueue × Bool :=
  let canceledSources := delivery.protectedSources.filter (isFollowupRunAborted signals q)
  let (q, delivered) :=
    if delivery.admitted then (q, true)
    else if canceledSources ≠ [] then
      (consumeQueueSummaryDelivery q delivery.announced canceledSources delivery.droppedCount, false)
    else
      (consumeQueueSummaryDelivery q delivery.announced delivery.sources delivery.droppedCount, true)
  (releaseActiveSources [] delivery.protectedSources q, delivered)

/-- The callback threw for a summary: a deferred attempt keeps its sources in use. -/
def deliveryThrew (q : FollowupQueue) (delivery : SummaryDelivery) (deferred : Bool) : FollowupQueue :=
  if delivery.admitted then releaseActiveSources [] delivery.protectedSources q
  else if deferred then
    releaseActiveSources
      (if delivery.inheritedActiveSources = [] then delivery.protectedSources
      else delivery.inheritedActiveSources)
      delivery.protectedSources q
  else
    releaseActiveSources [] delivery.protectedSources
      (releaseQueueSummaryDeliveryForRetry q delivery.sources)

/-- The first `count` copies of the elision that was delivered leave, if it is still there. -/
def consumeElision (entryRef count : Nat) :
    List SummaryElision → Option (List FollowupRun × List SummaryElision)
  | [] => none
  | entry :: rest =>
    if entry.ref = entryRef then
      let sources := entry.sources.drop count
      some (entry.sources.take count, if sources = [] then rest else { entry with sources } :: rest)
    else (consumeElision entryRef count rest).map fun (taken, rest) => (taken, entry :: rest)

def elisionDelivered (q : FollowupQueue) (delivery : SummaryDelivery) : FollowupQueue :=
  match delivery.elided with
  | none => q
  | some (entryRef, elidedCount) =>
    match consumeElision entryRef elidedCount q.summaryElisions with
    | none => q
    | some (consumedSources, summaryElisions) =>
      { q with
        summaryElisions
        droppedCount := q.droppedCount - consumedSources.length
        gone := consumedSources.map (·, .delivered delivery.announced) ++ q.gone }

/-! ## Going on -/

/-- The await is over, without a callback in between. -/
def resumeTick (q : FollowupQueue) : DrainPc → Option Segment
  | .starting => some (loopTop signals false q)
  | .droppedAborted debounced => some (afterDroppedAborted force q debounced)
  | .debouncing => some (scanAborted signals force q true q.items.length)
  | .prioritised ran =>
    some (if ran then loopTop signals force q
      else if 0 < q.droppedCount then drainOverflowSummaryGroup signals force q
      else drainItems force q)
  | .elisionReturned delivery delivered =>
    some (.awaits (if delivered then elisionDelivered q delivery else q) force (.elidedDrained true))
  | .elidedDrained did => some (if did then .awaits q force (.overflowDrained true) else drainSourceGroup force q)
  | .overflowDrained did => some (if did then loopTop signals force q else drainItems force q)
  | .ran did => some (if did then loopTop signals force q else .leaves q)
  | .collectSkipped =>
    some (if q.items = [] then .leaves q
      else nextGroup signals force q (splitCollectItemsByDeliveryContext q.items))
  | .rejecting => some (.throws q)
  | _ => none

attribute [grind =] resumeTick

/-- The callback returned. -/
def resumeReturned (q : FollowupQueue) : DrainPc → Option Segment
  | .droppingAborted attempt index debounced =>
    some (scanAborted signals force (spliceAborted q attempt.item index) debounced index)
  | .prioritising attempt =>
    some (.awaits (removeQueuedItemsByRef (finishRuns q [attempt.item]) [attempt.item] .handed) force
      (.prioritised true))
  | .summarising delivery =>
    let (q, delivered) := deliveryReturned signals q delivery
    some (.awaits q force
      (if delivery.elided.isSome then .elisionReturned delivery delivered else .overflowDrained true))
  | .running attempt =>
    some (.awaits
      (leaveFlight (removeQueuedItemsByRef (finishRuns q [attempt.item]) [attempt.item] .handed)
        [attempt.item])
      force (.ran true))
  | .collecting group => some (groupReturned signals force q group)
  | _ => none

attribute [grind =] resumeReturned

/-- The callback threw. -/
def resumeThrew (q : FollowupQueue) (deferred : Bool) : DrainPc → Option Segment
  | .droppingAborted _ _ _ => some (.awaits q force .rejecting)
  | .prioritising _ => some (.awaits q force .rejecting)
  | .summarising delivery => some (.awaits (deliveryThrew q delivery deferred) force .rejecting)
  | .running attempt =>
    some (.awaits
      (leaveFlight
        (if isCurrent q then q else removeQueuedItemsByRef q [attempt.item] .cleared) [attempt.item])
      force .rejecting)
  | .collecting group => some (.throws (groupThrew q group))
  | _ => none

attribute [grind =] resumeThrew

end Loop

/-! ## The system -/

structure FollowupSystem where
  queue : FollowupQueue
  forceIndividualCollect : Bool
  pc : DrainPc
  /-- The abort signals that have fired. -/
  signals : List Nat

inductive FollowupEvent where
  | enqueue (req : EnqueueRequest)
  | clear
  | abort (signal : Nat)
  | schedule
  /-- The root of the drain is denied. -/
  | denied
  | tick
  | returned
  | threw (deferred : Bool)
  /-- The callback asks for the admission of what it runs. -/
  | admits

/-- The segment that an event lets the drain run. -/
def resume (s : FollowupSystem) : FollowupEvent → Option Segment
  | .tick => resumeTick s.signals s.forceIndividualCollect s.queue s.pc
  | .returned => resumeReturned s.signals s.forceIndividualCollect s.queue s.pc
  | .threw deferred => resumeThrew s.forceIndividualCollect s.queue deferred s.pc
  | _ => none

attribute [grind =] resume

/-- The `finally` block of the drain: schedule it again while there is work, else drop the queue. -/
def afterLoop (s : FollowupSystem) (q : FollowupQueue) : FollowupSystem :=
  if hasPendingWork q then
    { s with queue := q, pc := if q.registered then .starting else .idle }
  else { s with queue := { q with registered := false }, pc := .idle }

/-- An admission consumes what is admitted. -/
def admission (q : FollowupQueue) : DrainPc → Option (FollowupQueue × DrainPc)
  | .droppingAborted attempt index debounced =>
    if attempt.item.hasAdmission then
      some (admitRuns q [attempt.item],
        .droppingAborted { attempt with admitted := true } index debounced)
    else none
  | .prioritising attempt =>
    if attempt.item.hasAdmission then
      some (admitRuns q [attempt.item], .prioritising { attempt with admitted := true })
    else none
  | .running attempt =>
    if attempt.item.hasAdmission then
      some (admitRuns q [attempt.item], .running { attempt with admitted := true })
    else none
  | .summarising delivery =>
    if needsAdmission delivery.protectedSources && !delivery.admitted then
      some (consumeQueueSummaryDelivery q delivery.announced delivery.protectedSources
          delivery.droppedCount,
        .summarising { delivery with admitted := true })
    else none
  | .collecting group =>
    if group.needsAdmission && !group.admitted then
      some (removeQueuedItemsByRef (finishRuns (admitRuns q group.active) group.active) group.active
          .handed,
        .collecting { group with admitted := true })
    else none
  | _ => none

def followupStep (s : FollowupSystem) (event : FollowupEvent) : FollowupSystem :=
  match event with
  | .enqueue req =>
    if s.queue.registered then { s with queue := (enqueueFollowupRun s.signals s.queue req).2 } else s
  | .clear => if s.queue.registered then { s with queue := clearFollowupQueue s.queue } else s
  | .abort signal => { s with signals := signal :: s.signals }
  | .schedule =>
    match s.pc with
    | .idle => if s.queue.registered then { s with pc := .starting } else s
    | _ => s
  | .denied =>
    match s.pc with
    | .starting => { s with pc := .idle }
    | _ => s
  | .admits =>
    match admission s.queue s.pc with
    | some (queue, pc) => { s with queue, pc }
    | none => s
  | event =>
    match resume s event with
    | none => s
    | some (.awaits queue forceIndividualCollect pc) => { s with queue, forceIndividualCollect, pc }
    | some (.leaves q) => afterLoop s q
    | some (.throws q) => afterLoop s q

/-- A queue as the first enqueue of a session makes it. -/
def newSystem (settings : QueueSettings) : FollowupSystem where
  queue := createdQueue settings
  forceIndividualCollect := false
  pc := .idle
  signals := []

end OpenClaw.AutoReply
