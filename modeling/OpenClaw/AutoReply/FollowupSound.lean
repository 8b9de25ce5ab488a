/-
# OpenClaw.AutoReply.FollowupSound -- what every reachable follow-up queue satisfies

The changes of a drain either concern the overflow and leave the items alone (`OverflowFrame`), or take
items out of the queue.  From this follow, for every run of events, that a closed queue is empty, that a
batch in flight stays in the queue until it is admitted, and that the overflow counters balance.
-/
import OpenClaw.AutoReply.FollowupSteps

namespace OpenClaw.AutoReply

open OpenClaw.Logic Relation

/-! ## What changes of the overflow leave alone -/

structure OverflowFrame (q q' : FollowupQueue) : Prop where
  items : q'.items = q.items
  inFlight : q'.inFlight = q.inFlight
  dropPolicy : q'.dropPolicy = q.dropPolicy
  aborted : q'.aborted = q.aborted
  registered : q'.registered = q.registered
  enqueued : q'.enqueued = q.enqueued
  left : q'.left = q.left
  finished : q'.finished = q.finished
  nextRef : q.nextRef ≤ q'.nextRef
  dropped : q'.droppedCount ≤ q.droppedCount

theorem OverflowFrame.refl (q : FollowupQueue) : OverflowFrame q q :=
  ⟨rfl, rfl, rfl, rfl, rfl, rfl, rfl, rfl, Nat.le_refl _, Nat.le_refl _⟩

theorem OverflowFrame.trans {a b c : FollowupQueue} (hab : OverflowFrame a b) (hbc : OverflowFrame b c) :
    OverflowFrame a c :=
  ⟨hbc.items.trans hab.items, hbc.inFlight.trans hab.inFlight, hbc.dropPolicy.trans hab.dropPolicy,
    hbc.aborted.trans hab.aborted, hbc.registered.trans hab.registered,
    hbc.enqueued.trans hab.enqueued, hbc.left.trans hab.left, hbc.finished.trans hab.finished,
    Nat.le_trans hab.nextRef hbc.nextRef, Nat.le_trans hbc.dropped hab.dropped⟩

/-- Only overflow fields are written, and the count does not grow. -/
theorem OverflowFrame.of_write {q : FollowupQueue} {droppedCount nextRef evicted : Nat}
    {lines : List String} {sources active : List FollowupRun} {entries : List SummaryElision}
    {gone : List (FollowupRun × SummaryExit)} (href : q.nextRef ≤ nextRef)
    (hdropped : droppedCount ≤ q.droppedCount) :
    OverflowFrame q { q with
      droppedCount, summaryLines := lines, summarySources := sources, activeSummarySources := active
      summaryElisions := entries, evictedSummaryCount := evicted, nextRef, gone } :=
  ⟨rfl, rfl, rfl, rfl, rfl, rfl, rfl, rfl, href, hdropped⟩

theorem OverflowFrame.foldl {α : Type} {f : FollowupQueue → α → FollowupQueue}
    (h : ∀ q a, OverflowFrame q (f q a)) (l : List α) : ∀ q : FollowupQueue, OverflowFrame q (l.foldl f q) := by
  induction l with
  | nil => exact OverflowFrame.refl
  | cons a l ih => exact fun q => (h q a).trans (ih (f q a))

section Overflow

variable (q : FollowupQueue)

theorem trim_overflow : OverflowFrame q (trimSummaryElisionsToCap q) := by
  obtain ⟨entries, evicted, gone, heq⟩ := trim_frame q
  rw [heq]
  exact .of_write (Nat.le_refl _) (Nat.le_refl _)

theorem foldOverflow_overflow : OverflowFrame q (foldOverflow q) := by
  unfold foldOverflow
  split
  · refine OverflowFrame.trans (.of_write (Nat.le_refl _) (Nat.le_refl _)) (OverflowFrame.foldl ?_ _ _)
    intro q item
    refine OverflowFrame.trans ?_ (trim_overflow _)
    exact .of_write (Nat.le_succ _) (Nat.le_refl _)
  · exact .refl q

theorem releaseActiveSources_overflow (keep sources : List FollowupRun) :
    OverflowFrame q (releaseActiveSources keep sources q) :=
  OverflowFrame.trans (.of_write (Nat.le_refl _) (Nat.le_refl _)) (trim_overflow _)

theorem consumeSource_overflow (announced : List Nat) (acc : FollowupQueue × Nat)
    (source : FollowupRun) : OverflowFrame acc.1 (consumeSource announced acc source).1 := by
  unfold consumeSource
  dsimp only
  split
  · exact .of_write (Nat.le_refl _) (Nat.le_refl _)
  · split
    · exact .refl _
    · exact .of_write (Nat.le_refl _) (Nat.le_refl _)

theorem consume_overflow (announced : List Nat) (sources : List FollowupRun) (droppedCount : Nat) :
    OverflowFrame q (consumeQueueSummaryDelivery q announced sources droppedCount) := by
  have hfold : ∀ (sources : List FollowupRun) (acc : FollowupQueue × Nat),
      OverflowFrame acc.1 (sources.foldl (consumeSource announced) acc).1 := by
    intro sources
    induction sources with
    | nil => exact fun acc => .refl _
    | cons source sources ih =>
      exact fun acc => (consumeSource_overflow announced acc source).trans (ih _)
  exact (hfold sources (q, if sources = [] then droppedCount else 0)).trans (.of_write (Nat.le_refl _) (Nat.sub_le _ _))

theorem releaseForRetry_overflow (sources : List FollowupRun) :
    OverflowFrame q (releaseQueueSummaryDeliveryForRetry q sources) := by
  refine OverflowFrame.foldl (fun q source => ?_) sources q
  split
  · exact .of_write (Nat.le_succ _) (Nat.le_refl _)
  · exact .refl q

theorem dropAbortedAt_overflow (signals : List Nat) (n : Nat) :
    ∀ q : FollowupQueue, OverflowFrame q (dropAbortedAt signals n q) := by
  induction n with
  | zero => exact OverflowFrame.refl
  | succ index ih =>
    intro q
    refine OverflowFrame.trans ?_ (ih _)
    split
    · exact .refl q
    · split
      · exact .of_write (Nat.le_refl _) (Nat.sub_le _ _)
      · exact .refl q

theorem elisionDelivered_overflow (delivery : SummaryDelivery) : OverflowFrame q (elisionDelivered q delivery) := by
  unfold elisionDelivered
  split
  · exact .refl q
  · split
    · exact .refl q
    · exact .of_write (Nat.le_refl _) (Nat.sub_le _ _)

end Overflow

/-! ## What a change of the items keeps -/

/-- Items leave, and are recorded. -/
structure ItemsFrame (q q' : FollowupQueue) : Prop where
  items : q'.items.Sublist q.items
  droppedCount : q'.droppedCount = q.droppedCount
  dropPolicy : q'.dropPolicy = q.dropPolicy
  aborted : q'.aborted = q.aborted
  registered : q'.registered = q.registered
  finished : q.finished ⊆ q'.finished

variable {s : FollowupSystem} {q q' : FollowupQueue}

/-- Every change is one of the two kinds. -/
theorem QueueOp.frame (h : QueueOp s q q') : OverflowFrame q q' ∨ ItemsFrame q q' := by
  cases h with
  | flight => exact .inr ⟨List.Sublist.refl _, rfl, rfl, rfl, rfl, List.Subset.refl _⟩
  | handed => exact .inr ⟨List.filter_sublist, rfl, rfl, rfl, rfl, List.subset_append_right _ _⟩
  | handedBefore | removed => exact .inr ⟨List.filter_sublist, rfl, rfl, rfl, rfl, List.Subset.refl _⟩
  | splice =>
    exact .inr ⟨List.eraseIdx_sublist _ _, rfl, rfl, rfl, rfl, List.subset_cons_self _ _⟩
  | activate => exact .inl (.of_write (Nat.le_refl _) (Nat.le_refl _))
  | release => exact .inl (releaseActiveSources_overflow q _ _)
  | consume => exact .inl (consume_overflow _ _ _ _)
  | retry => exact .inl (releaseForRetry_overflow q _)
  | dropAborted => exact .inl (dropAbortedAt_overflow _ _ q)
  | dropAbortedElided | resetEvicted => exact .inl (.of_write (Nat.le_refl _) (Nat.sub_le _ _))
  | elision => exact .inl (elisionDelivered_overflow _ _)

/-- What every change keeps, a chain keeps. -/
theorem ops_keep {P : FollowupQueue → Prop} (hop : ∀ q q', QueueOp s q q' → P q → P q') (h : QueueOps s q q')
    (hq : P q) : P q' := by
  induction h with
  | refl => exact hq
  | tail _ hstep ih => exact hop _ _ hstep ih

theorem Live.op (h : QueueOp s q q') (hq : Live q) : Live q' := by
  rcases h.frame with h | h
  · refine ⟨fun hclosed => ?_, fun haborted => ?_⟩
    · rw [h.registered] at hclosed
      obtain ⟨hitems, hdropped⟩ := hq.closed hclosed
      exact ⟨h.items.trans hitems, Nat.eq_zero_of_le_zero (hdropped ▸ h.dropped)⟩
    · rw [h.aborted] at haborted
      rw [h.registered, hq.cleared haborted]
  · refine ⟨fun hclosed => ?_, fun haborted => ?_⟩
    · rw [h.registered] at hclosed
      obtain ⟨hitems, hdropped⟩ := hq.closed hclosed
      refine ⟨?_, h.droppedCount.trans hdropped⟩
      have hsub := h.items
      rw [hitems] at hsub
      exact List.sublist_nil.mp hsub
    · rw [h.aborted] at haborted
      rw [h.registered, hq.cleared haborted]

/-! ## Enqueueing -/

section Enqueueing

variable {q : FollowupQueue}

/-- The pieces of an enqueue, each of which keeps `P`. -/
theorem enqueue_keeps {P : FollowupQueue → Prop} (signals : List Nat) (req : EnqueueRequest)
    (hsettings : ∀ q, P q → P (applyQueueRuntimeSettings q req.settings))
    (htrim : ∀ q, P q → P (trimSummaryElisionsToCap q))
    (hdrop : ∀ q, P q → P (applyQueueDropPolicy q).2) (hfold : ∀ q, P q → P (foldOverflow q))
    (hinsert : ∀ q, P q → P (insertRun q req)) (hq : P q) : P (enqueueFollowupRun signals q req).2 := by
  have hget : P (getFollowupQueue q req.settings) := htrim _ (hsettings q hq)
  unfold enqueueFollowupRun
  dsimp only
  split
  · exact hq
  · split
    · exact hget
    · split
      · exact hget
      · split
        · exact hget
        · split
          · exact hinsert _ (hfold _ (hdrop _ hget))
          · exact hfold _ (hdrop _ hget)

theorem applyQueueDropPolicy_frame (q : FollowupQueue) :
    let q' := (applyQueueDropPolicy q).2
    q'.registered = q.registered ∧ q'.aborted = q.aborted ∧ q'.inFlight = q.inFlight ∧ q'.finished = q.finished := by
  dsimp only
  rcases applyQueueDropPolicy_cases q with
    ⟨room, heq⟩ | ⟨dropped, kept, -, -, -, heq⟩ | ⟨dropped, kept, -, -, -, heq⟩
  · rw [heq]
    exact ⟨rfl, rfl, rfl, rfl⟩
  · rw [heq]
    exact ⟨rfl, rfl, rfl, rfl⟩
  · rw [heq]
    exact ⟨rfl, rfl, rfl, rfl⟩

/-- What is in flight is not dropped. -/
theorem applyQueueDropPolicy_inFlight {run : FollowupRun} (hrun : run ∈ q.items)
    (hflight : run ∈ q.inFlight) : run ∈ (applyQueueDropPolicy q).2.items := by
  have hkept {dropped kept : List FollowupRun} (hperm : (dropped ++ kept).Perm q.items)
      (hvictims : ∀ item ∈ dropped, mayDrop q item = true) : run ∈ kept := by
    rcases List.mem_append.mp (hperm.mem_iff.mpr hrun) with hdropped | hkept
    · have hvictim := hvictims run hdropped
      simp [mayDrop, hflight] at hvictim
    · exact hkept
  rcases applyQueueDropPolicy_cases q with
    ⟨room, heq⟩ | ⟨dropped, kept, hperm, hvictims, -, heq⟩ | ⟨dropped, kept, hperm, hvictims, -, heq⟩
  · rw [heq]
    exact hrun
  · rw [heq]
    exact hkept hperm hvictims
  · rw [heq]
    exact hkept hperm hvictims

/-- What a batch in flight relies on, but for the items. -/
def SameFlight (q q' : FollowupQueue) : Prop :=
  q'.registered = q.registered ∧ q'.aborted = q.aborted ∧ q'.inFlight = q.inFlight ∧
    q'.finished = q.finished ∧ ∀ run ∈ q.items, run ∈ q.inFlight → run ∈ q'.items

theorem OverflowFrame.sameFlight (h : OverflowFrame q q') : SameFlight q q' :=
  ⟨h.registered, h.aborted, h.inFlight, h.finished, fun run hrun _ => by rw [h.items]; exact hrun⟩

theorem SameFlight.trans {a b c : FollowupQueue} (hab : SameFlight a b) (hbc : SameFlight b c) : SameFlight a c := by
  obtain ⟨hregistered, haborted, hinFlight, hfinished, hitems⟩ := hab
  obtain ⟨hregistered', haborted', hinFlight', hfinished', hitems'⟩ := hbc
  refine ⟨hregistered'.trans hregistered, haborted'.trans haborted, hinFlight'.trans hinFlight,
    hfinished'.trans hfinished, fun run hrun hflight => hitems' run (hitems run hrun hflight) ?_⟩
  rw [hinFlight]
  exact hflight

theorem enqueue_sameFlight (signals : List Nat) (q : FollowupQueue) (req : EnqueueRequest) :
    SameFlight q (enqueueFollowupRun signals q req).2 := by
  refine enqueue_keeps (P := SameFlight q) signals req ?_ ?_ ?_ ?_ ?_ ?_
  · exact fun q' h => h.trans ⟨rfl, rfl, rfl, rfl, fun _ hrun _ => hrun⟩
  · exact fun q' h => h.trans (trim_overflow q').sameFlight
  · intro q' h
    obtain ⟨hregistered, haborted, hinFlight, hfinished⟩ := applyQueueDropPolicy_frame q'
    exact h.trans ⟨hregistered, haborted, hinFlight, hfinished,
      fun run hrun hflight => applyQueueDropPolicy_inFlight hrun hflight⟩
  · exact fun q' h => h.trans (foldOverflow_overflow q').sameFlight
  · intro q' h
    refine h.trans ⟨rfl, rfl, rfl, rfl, fun run hrun _ => ?_⟩
    dsimp only [insertRun]
    split
    · exact List.mem_cons_of_mem _ hrun
    · exact List.mem_append_left _ hrun
  · exact ⟨rfl, rfl, rfl, rfl, fun _ hrun _ => hrun⟩

end Enqueueing

/-! ## How awaits are entered -/

/-- Nothing is in the hands of the callback. -/
def DrainPc.plain : DrainPc → Bool
  | .droppingAborted .. => false
  | .prioritising _ => false
  | .running _ => false
  | .collecting _ => false
  | .summarising _ => false
  | _ => true

/-- What the code has checked when it comes to an await. -/
inductive Entered (signals : List Nat) : FollowupQueue → DrainPc → Prop
  | plain (q : FollowupQueue) (pc : DrainPc) (plain : pc.plain = true) : Entered signals q pc
  | droppingAborted {q : FollowupQueue} {item : FollowupRun} {index : Nat} (debounced : Bool)
      (found : q.items[index]? = some item) (aborted : isFollowupRunAborted signals q item = true) :
      Entered signals q (.droppingAborted { item, admitted := false } index debounced)
  | prioritising {q : FollowupQueue} {item : FollowupRun} (queued : item ∈ q.items) :
      Entered signals q (.prioritising { item, admitted := false })
  | running {q : FollowupQueue} {item : FollowupRun} (queued : item ∈ q.items) :
      Entered signals q (.running { item, admitted := false })
  | collecting {q : FollowupQueue} {active : List FollowupRun} (rest : List (List FollowupRun))
      (queued : active ⊆ q.items) (inFlight : active ⊆ q.inFlight) :
      Entered signals q (.collecting { active, rest, admitted := false })
  | summarising {q : FollowupQueue} {delivery : SummaryDelivery} (fresh : delivery.admitted = false)
      (counted : delivery.droppedCount = delivery.sources.length)
      (prompted : delivery.prompt.droppedCount = delivery.protectedSources.length)
      (active : delivery.protectedSources ⊆ q.activeSummarySources)
      (retained : delivery.sources.Sublist q.summarySources)
      (elided : (delivery.elided = none ∧ delivery.protectedSources = delivery.sources) ∨
        ∃ entry rest, q.summaryElisions = entry :: rest ∧
          delivery.elided = some (entry.ref, entry.sources.length) ∧
          delivery.protectedSources = entry.sources ++ delivery.sources) :
      Entered signals q (.summarising delivery)

def Segment.Enters (signals : List Nat) : Segment → Prop
  | .awaits q _ pc => Entered signals q pc
  | _ => True

section Entered

variable {force : Bool} {q : FollowupQueue} {signals : List Nat}

theorem enters_plain {pc : DrainPc} (h : pc.plain = true) :
    (Segment.awaits q force pc).Enters signals := .plain q pc h

theorem scanAborted_enters (debounced : Bool) (n : Nat) : (scanAborted signals force q debounced n).Enters signals := by
  induction n with
  | zero => exact enters_plain rfl
  | succ index ih =>
    unfold scanAborted
    split
    · exact enters_plain rfl
    · rename_i item hitem
      split
      · rename_i haborted
        exact .droppingAborted debounced hitem haborted
      · exact ih

theorem loopTop_enters : (loopTop signals force q).Enters signals := by
  unfold loopTop
  split
  · exact scanAborted_enters false _
  · trivial

theorem afterDroppedAborted_enters (debounced : Bool) : (afterDroppedAborted force q debounced).Enters signals := by
  unfold afterDroppedAborted
  split
  · trivial
  · split
    · split
      · rename_i item hitem
        exact .prioritising (List.mem_of_find?_eq_some hitem)
      · exact enters_plain rfl
    · exact enters_plain rfl

theorem resolveOverflowSummarySourceGroup_sublist (q : FollowupQueue) :
    (resolveOverflowSummarySourceGroup q).Sublist q.summarySources := by
  unfold resolveOverflowSummarySourceGroup
  split
  · exact List.nil_sublist _
  · rename_i source rest hsources
    rw [hsources]
    exact (List.takeWhile_sublist _).cons_cons _

theorem startDelivery_enters {prompt : SummaryPrompt} {sources protectedSources : List FollowupRun}
    {elided : Option (Nat × Nat)} (hprompt : prompt.droppedCount = protectedSources.length)
    (hretained : sources.Sublist q.summarySources) (helided : (elided = none ∧ protectedSources = sources) ∨
      ∃ entry rest, q.summaryElisions = entry :: rest ∧ elided = some (entry.ref, entry.sources.length) ∧
        protectedSources = entry.sources ++ sources) :
    (startDelivery force q prompt sources.length sources protectedSources elided).Enters signals := by
  unfold startDelivery
  split
  · exact .summarising rfl rfl hprompt (List.subset_append_left _ _) hretained helided
  · exact enters_plain rfl

theorem previewQueueSummaryPrompt_count {dropPolicy : QueueDropPolicy} {droppedCount : Nat}
    {lines : List String} {prompt : SummaryPrompt}
    (h : previewQueueSummaryPrompt dropPolicy droppedCount lines = some prompt) :
    prompt.droppedCount = droppedCount := by
  unfold previewQueueSummaryPrompt at h
  split at h
  · cases h
  · cases h
    rfl

theorem drainElidedOverflowSummary_enters : (drainElidedOverflowSummary signals force q).Enters signals := by
  unfold drainElidedOverflowSummary
  split
  · exact enters_plain rfl
  · rename_i entry rest hentries
    dsimp only
    split
    · exact enters_plain rfl
    · rename_i hsome
      split
      · exact enters_plain rfl
      · rename_i prompt hprompt
        refine startDelivery_enters ?_ ?_ (.inr ⟨_, rest, if_neg hsome, rfl, rfl⟩)
        · rw [previewQueueSummaryPrompt_count hprompt, List.length_append]
        split
        · exact List.filter_sublist.trans (resolveOverflowSummarySourceGroup_sublist q)
        · exact List.nil_sublist _

theorem drainSourceGroup_enters : (drainSourceGroup force q).Enters signals := by
  unfold drainSourceGroup
  dsimp only
  split
  · exact enters_plain rfl
  · rename_i prompt hprompt
    exact startDelivery_enters (previewQueueSummaryPrompt_count hprompt)
      (resolveOverflowSummarySourceGroup_sublist q) (.inl ⟨rfl, rfl⟩)

theorem drainOverflowSummaryGroup_enters : (drainOverflowSummaryGroup signals force q).Enters signals := by
  unfold drainOverflowSummaryGroup
  dsimp only
  split
  · exact enters_plain rfl
  · split
    · exact enters_plain rfl
    · exact drainElidedOverflowSummary_enters

theorem drainItems_enters : (drainItems force q).Enters signals := by
  have hnext (force : Bool) : (drainNextQueueItem force q).Enters signals := by
    unfold drainNextQueueItem
    split
    · exact enters_plain rfl
    · rename_i item rest hitems
      exact .running (hitems ▸ List.mem_cons_self)
  have hcollect (force isCrossChannel : Bool) :
      (if force || isCrossChannel then drainNextQueueItem (force || isCrossChannel) q
        else Segment.awaits q force .collectSkipped).Enters signals := by
    split
    · exact hnext _
    · exact enters_plain rfl
  unfold drainItems
  split
  · exact hcollect _ _
  · exact hnext force

/-- A batch starts with items of the queue, and they are in flight. -/
theorem nextGroup_enters (groups : List (List FollowupRun)) :
    ∀ q : FollowupQueue, (nextGroup signals force q groups).Enters signals := by
  induction groups with
  | nil => exact fun q => loopTop_enters
  | cons groupItems rest ih =>
    intro q
    rw [nextGroup]
    split
    · exact ih _
    · split
      · refine .collecting rest (fun run hrun => ?_) (List.subset_append_left _ _)
        obtain ⟨hcurrent, hsurvives⟩ := List.mem_filter.mp hrun
        have hitem : run ∈ q.items := by simpa using (List.mem_filter.mp hcurrent).2
        simp only [Bool.not_eq_true'] at hsurvives
        refine List.mem_filter.mpr ⟨hitem, ?_⟩
        simp [List.mem_filter, hsurvives]
      · trivial

theorem groupReturned_enters (group : GroupAttempt) : (groupReturned signals force q group).Enters signals := by
  unfold groupReturned
  dsimp only
  split
  · split
    · split
      · exact loopTop_enters
      · exact nextGroup_enters _ _
    · exact nextGroup_enters _ _
  · exact nextGroup_enters _ _

end Entered

/-- **Every await is entered in one of these ways.** -/
theorem resume_enters {event : FollowupEvent} {segment : Segment} (h : resume s event = some segment) :
    segment.Enters s.signals := by
  cases event with
  | tick =>
    unfold resume resumeTick at h
    dsimp only at h
    split at h
    · cases h
      exact loopTop_enters
    · cases h
      exact afterDroppedAborted_enters _
    · cases h
      exact scanAborted_enters _ _
    · cases h
      split
      · exact loopTop_enters
      · split
        · exact drainOverflowSummaryGroup_enters
        · exact drainItems_enters
    · cases h
      exact enters_plain rfl
    · cases h
      split
      · exact enters_plain rfl
      · exact drainSourceGroup_enters
    · cases h
      split
      · exact loopTop_enters
      · exact drainItems_enters
    · cases h
      split
      · exact loopTop_enters
      · trivial
    · cases h
      split
      · trivial
      · exact nextGroup_enters _ _
    · cases h
      trivial
    · cases h
  | returned =>
    unfold resume resumeReturned at h
    dsimp only at h
    split at h
    · cases h
      exact scanAborted_enters _ _
    · cases h
      exact enters_plain rfl
    · cases h
      split <;> exact enters_plain rfl
    · cases h
      exact enters_plain rfl
    · cases h
      exact groupReturned_enters _
    · cases h
  | threw deferred =>
    unfold resume resumeThrew at h
    dsimp only at h
    split at h <;> cases h <;> first | exact enters_plain rfl | trivial
  | enqueue req => cases h
  | clear => cases h
  | abort signal => cases h
  | schedule | denied | admits => cases h

theorem Entered.held {signals : List Nat} {q : FollowupQueue} {pc : DrainPc}
    (h : Entered signals q pc) : Held q pc := by
  cases h with
  | plain =>
    rename_i hplain
    cases pc with
    | collecting group => cases hplain
    | summarising delivery => cases hplain
    | _ => trivial
  | collecting rest hqueued hflight =>
    exact ⟨fun _ _ run hrun => ⟨hqueued hrun, hflight hrun⟩, fun hadmitted => (by cases hadmitted)⟩
  | summarising hfresh hcounted hprompted hactive hretained helided =>
    refine ⟨?_, hcounted⟩
    rcases helided with ⟨-, hsame⟩ | ⟨entry, rest, -, -, hprotected⟩
    · rw [hsame]
    · rw [hprotected]
      exact List.sublist_append_right _ _
  | _ => trivial

/-! ## The invariant -/

structure Sound (s : FollowupSystem) : Prop where
  live : Live s.queue
  held : Held s.queue s.pc
  balanced : Balanced s.queue

theorem Balanced.op (h : QueueOp s q q') (hq : Balanced q) : Balanced q' := by
  cases h with
  | flight => exact hq.frame
  | handed =>
    have hfinished (runs : List FollowupRun) : Balanced (finishRuns q runs) := hq.frame
    exact (hfinished _).leave (by decide) _
  | handedBefore | removed => exact hq.leave (by decide) _
  | @splice attempt index =>
    have hfinished : Balanced (finishRuns s.queue [attempt.item]) := hq.frame
    exact hfinished.leave (by decide) (s.queue.items[index]?.toList)
  | activate => exact hq.frame
  | release => exact hq.releaseActive _ _
  | consume delivering fresh announced counted => exact hq.consume counted
  | retry => exact hq.releaseForRetry _
  | dropAborted => exact hq.dropAborted
  | dropAbortedElided => exact hq.dropAbortedElided ‹_›
  | resetEvicted => exact hq.resetEvicted
  | elision => exact hq.elisionDelivered _

theorem Live.enqueue {q : FollowupQueue} (signals : List Nat) (req : EnqueueRequest)
    (hregistered : q.registered = true) (hq : Live q) : Live (enqueueFollowupRun signals q req).2 := by
  obtain ⟨hregistered', haborted, -⟩ := enqueue_sameFlight signals q req
  refine ⟨fun hclosed => ?_, fun hcleared => ?_⟩
  · rw [hregistered', hregistered] at hclosed
    cases hclosed
  · rw [haborted] at hcleared
    rw [hregistered', hq.cleared hcleared]

theorem Held.enqueue {q : FollowupQueue} (signals : List Nat) (req : EnqueueRequest) {pc : DrainPc}
    (h : Held q pc) : Held (enqueueFollowupRun signals q req).2 pc := by
  obtain ⟨hregistered, -, hinFlight, hfinished, hitems⟩ := enqueue_sameFlight signals q req
  cases pc with
  | collecting group =>
    refine ⟨fun hadmitted hlive run hrun => ?_, fun hadmitted run hrun => ?_⟩
    · rw [hregistered] at hlive
      obtain ⟨hitem, hflight⟩ := h.1 hadmitted hlive run hrun
      rw [hinFlight]
      exact ⟨hitems run hitem hflight, hflight⟩
    · rw [hfinished]
      exact h.2 hadmitted run hrun
  | summarising delivery => exact h
  | _ => trivial

theorem Sound.admission {queue : FollowupQueue} {pc : DrainPc} (h : Sound s)
    (hadmits : admission s.queue s.pc = some (queue, pc)) : Sound { s with queue, pc } := by
  obtain ⟨hlive, hheld, hbalanced⟩ := h
  generalize hpc : s.pc = spc at hadmits hheld
  cases spc with
  | droppingAborted attempt index debounced =>
    simp only [AutoReply.admission] at hadmits
    split at hadmits
    · cases hadmits
      exact ⟨⟨hlive.closed, hlive.cleared⟩, trivial, hbalanced.frame⟩
    · cases hadmits
  | prioritising attempt =>
    simp only [AutoReply.admission] at hadmits
    split at hadmits
    · cases hadmits
      exact ⟨⟨hlive.closed, hlive.cleared⟩, trivial, hbalanced.frame⟩
    · cases hadmits
  | running attempt =>
    simp only [AutoReply.admission] at hadmits
    split at hadmits
    · cases hadmits
      exact ⟨⟨hlive.closed, hlive.cleared⟩, trivial, hbalanced.frame⟩
    · cases hadmits
  | summarising delivery =>
    simp only [AutoReply.admission] at hadmits
    split at hadmits
    · rename_i hneeds
      cases hadmits
      have hfresh : delivery.admitted = false := by simpa using (Bool.and_eq_true_iff.mp hneeds).2
      have hop : QueueOp s s.queue (consumeQueueSummaryDelivery s.queue delivery.announced
          delivery.protectedSources delivery.droppedCount) := by
        refine .consume hpc hfresh (List.Sublist.refl _) fun hnil => ?_
        have hnone := hheld.1
        rw [hnil] at hnone
        rw [hheld.2, List.sublist_nil.mp hnone, List.length_nil]
      exact ⟨hlive.op hop, hheld, hbalanced.op hop⟩
    · cases hadmits
  | collecting group =>
    simp only [AutoReply.admission] at hadmits
    split at hadmits
    · cases hadmits
      have hfinished : Balanced (finishRuns (admitRuns s.queue group.active) group.active) := hbalanced.frame
      refine ⟨⟨fun hclosed => ?_, hlive.cleared⟩, ⟨fun hadmitted => (by cases hadmitted),
        fun _ run hrun => List.mem_append_left _ (List.mem_map_of_mem hrun)⟩,
        hfinished.leave (by decide) _⟩
      obtain ⟨hitems, hdropped⟩ := hlive.closed hclosed
      refine ⟨?_, hdropped⟩
      dsimp only [removeQueuedItemsByRef, finishRuns, admitRuns]
      rw [hitems, List.filter_nil]
    · cases hadmits
  | _ => cases hadmits

theorem Sound.step (event : FollowupEvent) (h : Sound s) : Sound (followupStep s event) := by
  have hstep := followupStep_step s event
  generalize followupStep s event = s' at hstep
  have hresumed {segment : Segment} (hsegment : resume s event = some segment) :
      Live segment.queue ∧ Balanced segment.queue := by
    have hops := resume_ops h.live h.held hsegment
    exact ⟨ops_keep (fun _ _ hop => .op hop) hops h.live, ops_keep (fun _ _ hop => .op hop) hops h.balanced⟩
  cases hstep with
  | skip => exact h
  | enqueue req hregistered =>
    exact ⟨h.live.enqueue _ req hregistered, h.held.enqueue _ req, h.balanced.enqueue _ req⟩
  | clear hregistered =>
    refine ⟨⟨fun _ => ⟨rfl, rfl⟩, fun _ => rfl⟩, ?_, h.balanced.clear⟩
    have hheld := h.held
    dsimp only
    cases hpc : s.pc with
    | collecting group =>
      rw [hpc] at hheld
      exact ⟨fun _ hlive => (by cases hlive), hheld.2⟩
    | summarising delivery =>
      rw [hpc] at hheld
      exact hheld
    | _ => trivial
  | abort signal => exact ⟨h.live, h.held, h.balanced⟩
  | schedule | denied => exact ⟨h.live, trivial, h.balanced⟩
  | admits hadmits => exact h.admission hadmits
  | awaits hsegment =>
    obtain ⟨hlive, hbalanced⟩ := hresumed hsegment
    exact ⟨hlive, (resume_enters hsegment).held, hbalanced⟩
  | ends hsegment =>
    rename_i segment _
    obtain ⟨hlive, hbalanced⟩ := hresumed hsegment
    unfold afterLoop
    split
    · refine ⟨hlive, ?_, hbalanced⟩
      dsimp only
      split <;> trivial
    · rename_i hdone
      have hempty : segment.queue.items = [] ∧ segment.queue.droppedCount = 0 := by
        simpa [hasPendingWork] using hdone
      exact ⟨⟨fun _ => hempty, fun _ => rfl⟩, trivial,
        ⟨⟨hbalanced.accounted.count, hbalanced.accounted.entries, hbalanced.accounted.runs⟩, hbalanced.lines⟩⟩

theorem sound_newSystem (settings : QueueSettings) : Sound (newSystem settings) :=
  ⟨⟨fun hclosed => (by cases hclosed), fun haborted => (by cases haborted)⟩, trivial, balanced_created settings⟩

end OpenClaw.AutoReply
