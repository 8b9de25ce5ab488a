/-
# OpenClaw.AutoReply.FollowupSteps -- what one step of a follow-up queue can do

A segment of the drain is a chain of a few changes to the queue.  `QueueOp` lists them once, with what
the code has checked when it makes them; `resume_ops` says that a segment is such a chain, and
`followupStep_step` what an event does to the system.  The invariants of the queue are proved for each
change, and never look into the drain again.
-/
import Mathlib.Logic.Relation
import OpenClaw.AutoReply.FollowupAccounting

namespace OpenClaw.AutoReply

open OpenClaw.Logic Relation

/-! ## Segments and events -/

def Segment.queue : Segment → FollowupQueue
  | .awaits q _ _ => q
  | .leaves q => q
  | .throws q => q

/-- The runs that the callback gets at the end of the segment. -/
def Segment.attempt : Segment → List FollowupRun
  | .awaits _ _ pc => pc.attempt
  | _ => []

/-- What an event does. -/
inductive FollowupStep (s : FollowupSystem) : FollowupEvent → FollowupSystem → Prop
  | skip (event : FollowupEvent) : FollowupStep s event s
  | enqueue (req : EnqueueRequest) (registered : s.queue.registered = true) :
      FollowupStep s (.enqueue req) { s with queue := (enqueueFollowupRun s.signals s.queue req).2 }
  | clear (registered : s.queue.registered = true) :
      FollowupStep s .clear { s with queue := clearFollowupQueue s.queue }
  | abort (signal : Nat) : FollowupStep s (.abort signal) { s with signals := signal :: s.signals }
  | schedule (idle : s.pc = .idle) (registered : s.queue.registered = true) :
      FollowupStep s .schedule { s with pc := .starting }
  | denied (starting : s.pc = .starting) : FollowupStep s .denied { s with pc := .idle }
  | admits {queue : FollowupQueue} {pc : DrainPc} (admitted : admission s.queue s.pc = some (queue, pc)) :
      FollowupStep s .admits { s with queue, pc }
  | awaits {event : FollowupEvent} {queue : FollowupQueue} {forceIndividualCollect : Bool} {pc : DrainPc}
      (resumed : resume s event = some (.awaits queue forceIndividualCollect pc)) :
      FollowupStep s event { s with queue, forceIndividualCollect, pc }
  | ends {event : FollowupEvent} {segment : Segment} (resumed : resume s event = some segment)
      (done : segment = .leaves segment.queue ∨ segment = .throws segment.queue) :
      FollowupStep s event (afterLoop s segment.queue)

theorem resumed_step {s : FollowupSystem} {event : FollowupEvent}
    (h : followupStep s event = match resume s event with
      | none => s
      | some (.awaits queue forceIndividualCollect pc) => { s with queue, forceIndividualCollect, pc }
      | some (.leaves q) => afterLoop s q
      | some (.throws q) => afterLoop s q) : FollowupStep s event (followupStep s event) := by
  rw [h]
  split
  · exact .skip event
  · rename_i hresume
    exact .awaits hresume
  · rename_i hresume
    exact .ends hresume (.inl rfl)
  · rename_i hresume
    exact .ends hresume (.inr rfl)

theorem followupStep_step (s : FollowupSystem) (event : FollowupEvent) :
    FollowupStep s event (followupStep s event) := by
  cases event with
  | enqueue req =>
    unfold followupStep
    dsimp only
    split
    · rename_i hregistered
      exact .enqueue req hregistered
    · exact .skip _
  | clear =>
    unfold followupStep
    dsimp only
    split
    · rename_i hregistered
      exact .clear hregistered
    · exact .skip _
  | abort signal => exact .abort signal
  | schedule =>
    unfold followupStep
    dsimp only
    split
    · rename_i hidle
      split
      · rename_i hregistered
        exact .schedule hidle hregistered
      · exact .skip _
    · exact .skip _
  | denied =>
    unfold followupStep
    dsimp only
    split
    · rename_i hstarting
      exact .denied hstarting
    · exact .skip _
  | admits =>
    unfold followupStep
    dsimp only
    split
    · rename_i hadmits
      exact .admits hadmits
    · exact .skip _
  | tick | returned => exact resumed_step rfl
  | threw deferred => exact resumed_step rfl

/-! ## The changes of a segment -/

inductive QueueOp (s : FollowupSystem) : FollowupQueue → FollowupQueue → Prop
  | flight (q : FollowupQueue) (inFlight : List FollowupRun) : QueueOp s q { q with inFlight }
  | handed (q : FollowupQueue) {runs : List FollowupRun} (attempted : runs ⊆ s.pc.attempt) :
      QueueOp s q (removeQueuedItemsByRef (finishRuns q runs) runs .handed)
  | handedBefore (q : FollowupQueue) {runs : List FollowupRun}
      (finished : ∀ run ∈ runs, run.id ∈ q.finished) :
      QueueOp s q (removeQueuedItemsByRef q runs .handed)
  | removed (q : FollowupQueue) {runs : List FollowupRun}
      (aborted : ∀ run ∈ runs, isFollowupRunAborted s.signals q run = true) :
      QueueOp s q (removeQueuedItemsByRef q runs .aborted)
  | splice {attempt : ItemAttempt} {index : Nat} {debounced : Bool}
      (attempted : s.pc = .droppingAborted attempt index debounced) :
      QueueOp s s.queue (spliceAborted s.queue attempt.item index)
  | activate (q : FollowupQueue) (sources : List FollowupRun) :
      QueueOp s q { q with activeSummarySources := sources ++ q.activeSummarySources }
  | release (q : FollowupQueue) (keep sources : List FollowupRun) :
      QueueOp s q (releaseActiveSources keep sources q)
  | consume {delivery : SummaryDelivery} {sources : List FollowupRun}
      (delivering : s.pc = .summarising delivery) (fresh : delivery.admitted = false)
      (announced : sources.Sublist delivery.protectedSources)
      (counted : sources = [] → delivery.droppedCount = 0) :
      QueueOp s s.queue
        (consumeQueueSummaryDelivery s.queue delivery.announced sources delivery.droppedCount)
  | retry (q : FollowupQueue) (sources : List FollowupRun) :
      QueueOp s q (releaseQueueSummaryDeliveryForRetry q sources)
  | dropAborted (q : FollowupQueue) : QueueOp s q (dropAbortedQueueSummarySources s.signals q)
  | dropAbortedElided (q : FollowupQueue) {entry : SummaryElision} {rest : List SummaryElision}
      (first : q.summaryElisions = entry :: rest) :
      QueueOp s q (dropAbortedElided s.signals q entry rest)
  | resetEvicted (q : FollowupQueue) :
      QueueOp s q { q with
        evictedSummaryCount := 0
        droppedCount := q.droppedCount - q.evictedSummaryCount }
  | elision {delivery : SummaryDelivery} (delivered : s.pc = .elisionReturned delivery true) :
      QueueOp s s.queue (elisionDelivered s.queue delivery)

abbrev QueueOps (s : FollowupSystem) : FollowupQueue → FollowupQueue → Prop := ReflTransGen (QueueOp s)

/-! ## What the awaits rely on -/

/-- A queue that is no longer registered is empty, and a cleared one is not registered. -/
structure Live (q : FollowupQueue) : Prop where
  closed : q.registered = false → q.items = [] ∧ q.droppedCount = 0
  cleared : q.aborted = true → q.registered = false

/-- What a batch or a delivery relies on while its callback runs. -/
def Held (q : FollowupQueue) : DrainPc → Prop
  | .collecting group =>
    (group.admitted = false → q.registered = true →
      ∀ run ∈ group.active, run ∈ q.items ∧ run ∈ q.inFlight) ∧
    (group.admitted = true → ∀ run ∈ group.active, run.id ∈ q.finished)
  | .summarising delivery =>
    delivery.sources.Sublist delivery.protectedSources ∧ delivery.droppedCount = delivery.sources.length
  | _ => True

theorem Live.current {q : FollowupQueue} (h : Live q) : isCurrent q = q.registered := by
  unfold isCurrent
  cases haborted : q.aborted with
  | false => simp
  | true => simp [h.cleared haborted]

theorem removeQueuedItemsByRef_empty {q : FollowupQueue} (h : q.items = [])
    (processed : List FollowupRun) (exit : ItemExit) : removeQueuedItemsByRef q processed exit = q := by
  unfold removeQueuedItemsByRef
  rw [h, List.filter_nil, List.filter_nil, List.map_nil, List.nil_append, ← h]

/-- Nothing is missing, so nothing comes back. -/
theorem restoreGroupItems_present {q : FollowupQueue} {runs : List FollowupRun}
    (h : ∀ run ∈ runs, run ∈ q.items) : restoreGroupItems q runs = q := by
  have hnone : runs.filter (· ∉ q.items) = [] := by
    rw [List.filter_eq_nil_iff]
    intro run hrun
    simp [h run hrun]
  unfold restoreGroupItems
  rw [hnone, List.nil_append]

/-! ## Segments are chains of changes -/

section Segments

variable {s : FollowupSystem} {force : Bool} {q : FollowupQueue}

theorem scanAborted_queue (signals : List Nat) (q : FollowupQueue) (debounced : Bool) (n : Nat) :
    (scanAborted signals force q debounced n).queue = q := by
  induction n with
  | zero => rfl
  | succ index ih =>
    unfold scanAborted
    split
    · rfl
    · split
      · rfl
      · exact ih

theorem loopTop_queue (signals : List Nat) (q : FollowupQueue) : (loopTop signals force q).queue = q := by
  unfold loopTop
  split
  · exact scanAborted_queue signals q false _
  · rfl

theorem afterDroppedAborted_queue (q : FollowupQueue) (debounced : Bool) :
    (afterDroppedAborted force q debounced).queue = q := by
  unfold afterDroppedAborted
  split
  · rfl
  · split
    · split <;> rfl
    · rfl

theorem startDelivery_ops (prompt : SummaryPrompt) (droppedCount : Nat)
    (sources protectedSources : List FollowupRun) (elided : Option (Nat × Nat)) : QueueOps s q
      (startDelivery force q prompt droppedCount sources protectedSources elided).queue := by
  unfold startDelivery
  split
  · exact .single (.activate q protectedSources)
  · exact .refl

theorem drainElidedOverflowSummary_ops : QueueOps s q (drainElidedOverflowSummary s.signals force q).queue := by
  unfold drainElidedOverflowSummary
  split
  · exact .refl
  · rename_i entry rest hentries
    have hdrop : QueueOps s q (dropAbortedElided s.signals q entry rest) := .single (.dropAbortedElided q hentries)
    dsimp only
    split
    · exact hdrop
    · split
      · exact hdrop
      · exact hdrop.trans (startDelivery_ops _ _ _ _ _)

theorem drainSourceGroup_ops : QueueOps s q (drainSourceGroup force q).queue := by
  unfold drainSourceGroup
  dsimp only
  split
  · exact .refl
  · exact startDelivery_ops _ _ _ _ _

theorem drainOverflowSummaryGroup_ops : QueueOps s q (drainOverflowSummaryGroup s.signals force q).queue := by
  have hdrop : QueueOps s q (dropAbortedQueueSummarySources s.signals q) := .single (.dropAborted q)
  unfold drainOverflowSummaryGroup
  dsimp only
  split
  · exact hdrop
  · split
    · exact hdrop.tail (.resetEvicted _)
    · exact hdrop.trans drainElidedOverflowSummary_ops

theorem drainItems_ops : QueueOps s q (drainItems force q).queue := by
  have hnext (force : Bool) : QueueOps s q (drainNextQueueItem force q).queue := by
    unfold drainNextQueueItem
    split
    · exact .refl
    · exact .single (.flight q _)
  have hcollect (force isCrossChannel : Bool) : QueueOps s q
      (if force || isCrossChannel then drainNextQueueItem (force || isCrossChannel) q
        else .awaits q force .collectSkipped).queue := by
    split
    · exact hnext _
    · exact .refl
  unfold drainItems
  split
  · exact hcollect _ _
  · exact hnext force

theorem nextGroup_ops (groups : List (List FollowupRun)) : ∀ q : FollowupQueue,
    QueueOps s q (nextGroup s.signals force q groups).queue := by
  induction groups with
  | nil =>
    intro q
    rw [nextGroup, loopTop_queue]
  | cons groupItems rest ih =>
    intro q
    have hremoved : QueueOps s q (removeQueuedItemsByRef q
        ((groupItems.filter (· ∈ q.items)).filter (isFollowupRunAborted s.signals q)) .aborted) :=
      .single (.removed q fun run hrun => (List.mem_filter.mp hrun).2)
    rw [nextGroup]
    split
    · exact hremoved.trans (ih _)
    · split
      · exact hremoved.tail (.flight _ _)
      · exact hremoved

theorem groupReturned_ops {group : GroupAttempt} (hlive : Live s.queue) (hheld : Held s.queue s.pc)
    (hpc : s.pc = .collecting group) : QueueOps s s.queue (groupReturned s.signals force s.queue group).queue := by
  have hflight : QueueOps s s.queue (leaveFlight s.queue group.active) := .single (.flight _ _)
  unfold groupReturned
  dsimp only
  split
  · rename_i hcanceled
    have hremoved : QueueOps s s.queue (removeQueuedItemsByRef (leaveFlight s.queue group.active)
        (group.active.filter (isFollowupRunAborted s.signals (leaveFlight s.queue group.active)))
        .aborted) :=
      hflight.tail (.removed _ fun run hrun => (List.mem_filter.mp hrun).2)
    split
    · rename_i hcurrent
      rw [restoreGroupItems_present]
      · split
        · rw [loopTop_queue]
          exact hremoved
        · exact hremoved.trans (nextGroup_ops _ _)
      · -- the survivors are still in the queue: nobody else takes what is in flight
        intro run hrun
        obtain ⟨hactive, hsurvives⟩ := List.mem_filter.mp hrun
        rw [hpc] at hheld
        have hregistered : s.queue.registered = true := by
          rw [← hlive.current]
          exact hcurrent
        have hitem := (hheld.1 hcanceled.1 hregistered run hactive).1
        refine List.mem_filter.mpr ⟨hitem, ?_⟩
        simp only [Bool.not_eq_true'] at hsurvives
        simp [List.mem_filter, hsurvives]
    · exact hremoved.trans (nextGroup_ops _ _)
  · have hattempted : group.active ⊆ s.pc.attempt := by
      rw [hpc]
      exact List.Subset.refl _
    exact (hflight.tail (.handed _ hattempted)).trans (nextGroup_ops _ _)

theorem groupThrew_ops {group : GroupAttempt} (hlive : Live s.queue) (hheld : Held s.queue s.pc)
    (hpc : s.pc = .collecting group) : QueueOps s s.queue (groupThrew s.queue group) := by
  rw [hpc] at hheld
  unfold groupThrew
  split
  · rename_i hadmitted
    exact .tail (.single (.handedBefore s.queue (hheld.2 hadmitted))) (.flight _ _)
  · rename_i hadmitted
    split
    · rename_i hcurrent
      rw [hlive.current] at hcurrent
      rw [restoreGroupItems_present fun run hrun =>
        (hheld.1 (by simpa using hadmitted) hcurrent run hrun).1]
      exact .single (.flight _ _)
    · exact .single (.flight _ _)

theorem deliveryReturned_ops {delivery : SummaryDelivery} (hheld : Held s.queue s.pc)
    (hpc : s.pc = .summarising delivery) : QueueOps s s.queue (deliveryReturned s.signals s.queue delivery).1 := by
  rw [hpc] at hheld
  unfold deliveryReturned
  dsimp only
  split
  · exact .single (.release _ _ _)
  · rename_i hadmitted
    have hfresh : delivery.admitted = false := by simpa using hadmitted
    split
    · rename_i hcanceled
      exact .tail (.single (.consume hpc hfresh List.filter_sublist
        fun hnil => absurd hnil hcanceled)) (.release _ _ _)
    · refine .tail (.single (.consume hpc hfresh hheld.1 fun hnil => ?_)) (.release _ _ _)
      rw [hheld.2, hnil, List.length_nil]

theorem deliveryThrew_ops (delivery : SummaryDelivery) (deferred : Bool) :
    QueueOps s s.queue (deliveryThrew s.queue delivery deferred) := by
  unfold deliveryThrew
  split
  · exact .single (.release _ _ _)
  · split
    · exact .single (.release _ _ _)
    · exact .tail (.single (.retry _ _)) (.release _ _ _)

theorem resumeTick_ops {segment : Segment} (h : resumeTick s.signals force s.queue s.pc = some segment) :
    QueueOps s s.queue segment.queue := by
  generalize hpc : s.pc = pc at h
  cases pc with
  | starting =>
    cases h
    rw [loopTop_queue]
  | droppedAborted debounced =>
    cases h
    rw [afterDroppedAborted_queue]
  | debouncing =>
    cases h
    rw [scanAborted_queue]
  | prioritised ran =>
    cases h
    split
    · rw [loopTop_queue]
    · split
      · exact drainOverflowSummaryGroup_ops
      · exact drainItems_ops
  | elisionReturned delivery delivered =>
    cases h
    cases delivered with
    | true => exact .single (.elision hpc)
    | false => exact .refl
  | elidedDrained did =>
    cases h
    split
    · exact .refl
    · exact drainSourceGroup_ops
  | overflowDrained did =>
    cases h
    split
    · rw [loopTop_queue]
    · exact drainItems_ops
  | ran did =>
    cases h
    split
    · rw [loopTop_queue]
    · exact .refl
  | collectSkipped =>
    cases h
    split
    · exact .refl
    · exact nextGroup_ops _ _
  | rejecting =>
    cases h
    exact .refl
  | idle | droppingAborted | prioritising | summarising | running | collecting => cases h

theorem resumeReturned_ops {segment : Segment} (hlive : Live s.queue) (hheld : Held s.queue s.pc)
    (h : resumeReturned s.signals force s.queue s.pc = some segment) : QueueOps s s.queue segment.queue := by
  generalize hpc : s.pc = pc at h
  have hattempted {item : FollowupRun} (hitem : pc.attempt = [item]) : [item] ⊆ s.pc.attempt := by
    rw [hpc, hitem]
    exact List.Subset.refl _
  cases pc with
  | droppingAborted attempt index debounced =>
    cases h
    rw [scanAborted_queue]
    exact .single (.splice hpc)
  | prioritising attempt =>
    cases h
    exact .single (.handed _ (hattempted rfl))
  | summarising delivery =>
    cases h
    exact deliveryReturned_ops hheld hpc
  | running attempt =>
    cases h
    exact .tail (.single (.handed _ (hattempted rfl))) (.flight _ _)
  | collecting group =>
    cases h
    exact groupReturned_ops hlive hheld hpc
  | idle | starting | droppedAborted | debouncing | prioritised | elisionReturned | elidedDrained
  | overflowDrained | ran | collectSkipped | rejecting => cases h

theorem resumeThrew_ops {segment : Segment} {deferred : Bool} (hlive : Live s.queue)
    (hheld : Held s.queue s.pc) (h : resumeThrew force s.queue deferred s.pc = some segment) :
    QueueOps s s.queue segment.queue := by
  generalize hpc : s.pc = pc at h
  cases pc with
  | droppingAborted attempt index debounced =>
    cases h
    exact .refl
  | prioritising attempt =>
    cases h
    exact .refl
  | summarising delivery =>
    cases h
    exact deliveryThrew_ops delivery deferred
  | running attempt =>
    cases h
    dsimp only [Segment.queue]
    split
    · exact .single (.flight _ _)
    · rename_i hcurrent
      rw [hlive.current, Bool.not_eq_true] at hcurrent
      rw [removeQueuedItemsByRef_empty (hlive.closed hcurrent).1]
      exact .single (.flight _ _)
  | collecting group =>
    cases h
    exact groupThrew_ops hlive hheld hpc
  | idle | starting | droppedAborted | debouncing | prioritised | elisionReturned | elidedDrained
  | overflowDrained | ran | collectSkipped | rejecting => cases h

end Segments

/-- **A segment is a chain of changes.** -/
theorem resume_ops {s : FollowupSystem} {event : FollowupEvent} {segment : Segment}
    (hlive : Live s.queue) (hheld : Held s.queue s.pc) (h : resume s event = some segment) :
    QueueOps s s.queue segment.queue := by
  cases event with
  | tick => exact resumeTick_ops h
  | returned => exact resumeReturned_ops hlive hheld h
  | threw deferred => exact resumeThrew_ops hlive hheld h
  | enqueue req => cases h
  | clear => cases h
  | abort signal => cases h
  | schedule | denied | admits => cases h

end OpenClaw.AutoReply
