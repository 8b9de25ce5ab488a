/-
# OpenClaw.AutoReply.FollowupDraining -- when a drain stops

The loop of the drain goes on while there are items or overflow is counted, and breaks where it finds no
item to run.  Overflow is announced only under the policy `summarize`, and the policy is a setting of the
latest enqueue.  `Pending` says for each await what is still to be done there.
-/
import OpenClaw.AutoReply.FollowupSound

namespace OpenClaw.AutoReply

open OpenClaw.Logic Relation

/-- The drain is about to look for overflow. -/
def DrainPc.looksForOverflow : DrainPc → Bool
  | .prioritised false => true
  | .elidedDrained false => true
  | _ => false

/-- When nothing but overflow is left, the drop policy is the one that announces it. -/
def SummarizesLeftOver (s : FollowupSystem) : FollowupEvent → Prop
  | .tick => s.pc.looksForOverflow = true → s.queue.items = [] → 0 < s.queue.droppedCount →
      s.queue.evictedSummaryCount = 0 → s.queue.dropPolicy = .summarize
  | _ => True

instance (s : FollowupSystem) : (event : FollowupEvent) → Decidable (SummarizesLeftOver s event)
  | .tick => inferInstanceAs (Decidable (s.pc.looksForOverflow = true → s.queue.items = [] →
      0 < s.queue.droppedCount → s.queue.evictedSummaryCount = 0 → s.queue.dropPolicy = .summarize))
  | .enqueue _ | .clear | .abort _ | .schedule | .denied | .returned | .threw _ | .admits => isTrue trivial

/-- What is still to be done at an await, unless the queue was closed. -/
def Pending (q : FollowupQueue) : DrainPc → Prop
  | .prioritised false => q.registered = true → q.items ≠ [] ∨ 0 < q.droppedCount
  | .elidedDrained false => q.registered = true →
      q.items ≠ [] ∨ (q.summaryElisions = [] ∧ q.evictedSummaryCount = 0 ∧ 0 < q.droppedCount)
  | .overflowDrained false => q.registered = true → q.items ≠ []
  | .collectSkipped => q.registered = true → q.items ≠ []
  | .ran false => q.registered = false
  | _ => True

/-- The loop is left with nothing to do, else an await is reached with what it relies on. -/
def Segment.Orderly : Segment → Prop
  | .awaits q _ pc => Pending q pc
  | .leaves q => q.items = [] ∧ q.droppedCount = 0
  | .throws _ => True

section Segments

variable {force : Bool} {q : FollowupQueue} {signals : List Nat}

theorem hasPendingWork_iff : hasPendingWork q = true ↔ q.items ≠ [] ∨ 0 < q.droppedCount := by
  simp [hasPendingWork]

theorem nothing_pending (h : ¬hasPendingWork q = true) : q.items = [] ∧ q.droppedCount = 0 := by
  simpa [hasPendingWork] using h

theorem scanAborted_orderly (debounced : Bool) (n : Nat) : (scanAborted signals force q debounced n).Orderly := by
  induction n with
  | zero => trivial
  | succ index ih =>
    unfold scanAborted
    split
    · trivial
    · split
      · trivial
      · exact ih

theorem loopTop_orderly : (loopTop signals force q).Orderly := by
  unfold loopTop
  split
  · exact scanAborted_orderly false _
  · rename_i hdone
    exact nothing_pending hdone

theorem afterDroppedAborted_orderly (debounced : Bool) : (afterDroppedAborted force q debounced).Orderly := by
  unfold afterDroppedAborted
  split
  · rename_i hdone
    apply nothing_pending
    rw [hdone]
    decide
  · rename_i hpending
    split
    · split
      · trivial
      · intro _
        apply hasPendingWork_iff.mp
        simpa using hpending
    · trivial

theorem startDelivery_orderly (prompt : SummaryPrompt) (droppedCount : Nat)
    (sources protectedSources : List FollowupRun) (elided : Option (Nat × Nat)) :
    (startDelivery force q prompt droppedCount sources protectedSources elided).Orderly := by
  unfold startDelivery
  split <;> trivial

theorem previewQueueSummaryPrompt_none {dropPolicy : QueueDropPolicy} {droppedCount : Nat}
    {lines : List String} (h : previewQueueSummaryPrompt dropPolicy droppedCount lines = none) :
    dropPolicy ≠ .summarize ∨ droppedCount = 0 := by
  unfold previewQueueSummaryPrompt at h
  split at h
  · assumption
  · cases h

/-- The elisions are announced, unless there are none or the policy forbids it. -/
theorem drainElidedOverflowSummary_orderly (hevicted : q.evictedSummaryCount = 0)
    (hleft : q.registered = true → q.items ≠ [] ∨ 0 < q.droppedCount)
    (hpolicy : q.registered = true → q.items = [] → q.dropPolicy = .summarize) :
    (drainElidedOverflowSummary signals force q).Orderly := by
  unfold drainElidedOverflowSummary
  split
  · rename_i hnone
    intro hregistered
    rcases hleft hregistered with hitems | hdropped
    · exact .inl hitems
    · exact .inr ⟨hnone, hevicted, hdropped⟩
  · dsimp only
    split
    · trivial
    · rename_i hsome
      split
      · rename_i hpreview
        intro hregistered
        rcases previewQueueSummaryPrompt_none hpreview with hother | hzero
        · exact .inl fun hitems => hother (hpolicy hregistered hitems)
        · exact absurd (List.eq_nil_of_length_eq_zero (by omega)) hsome
      · exact startDelivery_orderly _ _ _ _ _

theorem dropAbortedAt_elisions (signals : List Nat) (n : Nat) : ∀ q : FollowupQueue,
    (dropAbortedAt signals n q).summaryElisions = q.summaryElisions ∧
      (dropAbortedAt signals n q).evictedSummaryCount = q.evictedSummaryCount := by
  induction n with
  | zero => exact fun q => ⟨rfl, rfl⟩
  | succ index ih =>
    intro q
    rw [dropAbortedAt]
    split
    · exact ih q
    · split
      · exact ih _
      · exact ih q

theorem drainOverflowSummaryGroup_orderly (hbalanced : Balanced q) (hdropped : 0 < q.droppedCount)
    (hpolicy : q.registered = true → q.items = [] → q.evictedSummaryCount = 0 → q.dropPolicy = .summarize) :
    (drainOverflowSummaryGroup signals force q).Orderly := by
  have hframe : OverflowFrame q (dropAbortedQueueSummarySources signals q) := dropAbortedAt_overflow signals _ q
  obtain ⟨helisions, hevicted⟩ := dropAbortedAt_elisions signals q.summarySources.length q
  have hafter : Balanced (dropAbortedQueueSummarySources signals q) := hbalanced.dropAborted
  unfold drainOverflowSummaryGroup
  dsimp only
  split
  · trivial
  · rename_i hprogress
    split
    · trivial
    · rename_i hnone
      have hzero : (dropAbortedQueueSummarySources signals q).evictedSummaryCount = 0 := Nat.eq_zero_of_not_pos hnone
      have hzero' : q.evictedSummaryCount = 0 := hevicted.symm.trans hzero
      apply drainElidedOverflowSummary_orderly hzero
      · -- only aborted sources that were all there was would leave nothing, and then it is progress
        intro _
        right
        have hcount := hbalanced.accounted.count
        have hcount' := hafter.accounted.count
        dsimp only [dropAbortedQueueSummarySources] at hcount' hprogress ⊢
        rw [helisions] at hcount'
        simp only [List.length_nil] at hcount hcount'
        omega
      · intro hregistered hitems
        rw [hframe.dropPolicy]
        rw [hframe.registered] at hregistered
        rw [hframe.items] at hitems
        exact hpolicy hregistered hitems hzero'

theorem drainSourceGroup_orderly (hbalanced : Balanced q) (hpending : Pending q (.elidedDrained false))
    (hpolicy : q.registered = true → q.items = [] → 0 < q.droppedCount → q.evictedSummaryCount = 0 →
      q.dropPolicy = .summarize) : (drainSourceGroup force q).Orderly := by
  unfold drainSourceGroup
  dsimp only
  split
  · rename_i hpreview
    intro hregistered hitems
    rcases hpending hregistered with hsome | ⟨helisions, hevicted, hdropped⟩
    · exact hsome hitems
    · rcases previewQueueSummaryPrompt_none hpreview with hother | hzero
      · exact hother (hpolicy hregistered hitems hdropped hevicted)
      · -- all that is counted is in the sources, so there is a group to announce
        have hcount := hbalanced.accounted.count
        rw [helisions, hevicted] at hcount
        have hempty := List.eq_nil_of_length_eq_zero hzero
        unfold resolveOverflowSummarySourceGroup at hempty
        split at hempty
        · rename_i hsources
          rw [hsources] at hcount
          simp at hcount
          omega
        · cases hempty
  · exact startDelivery_orderly _ _ _ _ _

theorem drainItems_orderly (hitems : q.registered = true → q.items ≠ []) : (drainItems force q).Orderly := by
  have hnext (force : Bool) : (drainNextQueueItem force q).Orderly := by
    unfold drainNextQueueItem
    split
    · rename_i hnone
      show q.registered = false
      by_contra hregistered
      exact hitems (by simpa using hregistered) hnone
    · trivial
  have hcollect (force isCrossChannel : Bool) :
      (if force || isCrossChannel then drainNextQueueItem (force || isCrossChannel) q
        else Segment.awaits q force .collectSkipped).Orderly := by
    split
    · exact hnext _
    · exact hitems
  unfold drainItems
  split
  · exact hcollect _ _
  · exact hnext force

theorem nextGroup_orderly (groups : List (List FollowupRun)) :
    ∀ q : FollowupQueue, (nextGroup signals force q groups).Orderly := by
  induction groups with
  | nil => exact fun q => loopTop_orderly
  | cons groupItems rest ih =>
    intro q
    rw [nextGroup]
    split
    · exact ih _
    · split <;> trivial

theorem groupReturned_orderly (group : GroupAttempt) : (groupReturned signals force q group).Orderly := by
  unfold groupReturned
  dsimp only
  split
  · split
    · split
      · exact loopTop_orderly
      · exact nextGroup_orderly _ _
    · exact nextGroup_orderly _ _
  · exact nextGroup_orderly _ _

end Segments

variable {q : FollowupQueue}

/-- A closed queue has nothing to do. -/
theorem Live.done (h : Live q) (hpending : q.registered = true → q.items ≠ []) (hitems : q.items = []) :
    q.droppedCount = 0 := by
  apply (h.closed _).2
  by_contra hregistered
  exact hpending (by simpa using hregistered) hitems

theorem resume_orderly {s : FollowupSystem} {event : FollowupEvent} {segment : Segment}
    (hsound : Sound s) (hpending : Pending s.queue s.pc) (hguard : SummarizesLeftOver s event)
    (h : resume s event = some segment) : segment.Orderly := by
  cases event with
  | tick =>
    generalize hpc : s.pc = pc at hpending
    unfold resume resumeTick at h
    rw [hpc] at h
    dsimp only at h
    split at h
    · cases h
      exact loopTop_orderly
    · cases h
      exact afterDroppedAborted_orderly _
    · cases h
      exact scanAborted_orderly _ _
    · rename_i ran
      cases h
      cases ran with
      | true => exact loopTop_orderly
      | false =>
        have hlooks : s.pc.looksForOverflow = true := by
          rw [hpc]
          rfl
        rw [if_neg (by decide)]
        split
        · rename_i hdropped
          exact drainOverflowSummaryGroup_orderly hsound.balanced hdropped
            fun _ hitems => hguard hlooks hitems hdropped
        · rename_i hnone
          apply drainItems_orderly
          intro hregistered
          exact (hpending hregistered).resolve_right hnone
    · cases h
      trivial
    · rename_i did
      cases h
      cases did with
      | true => trivial
      | false =>
        have hlooks : s.pc.looksForOverflow = true := by
          rw [hpc]
          rfl
        exact drainSourceGroup_orderly hsound.balanced hpending fun _ => hguard hlooks
    · rename_i did
      cases h
      cases did with
      | true => exact loopTop_orderly
      | false => exact drainItems_orderly hpending
    · rename_i did
      cases h
      cases did with
      | true => exact loopTop_orderly
      | false => exact hsound.live.closed hpending
    · cases h
      split
      · rename_i hitems
        exact ⟨hitems, hsound.live.done hpending hitems⟩
      · exact nextGroup_orderly _ _
    · cases h
      trivial
    · cases h
  | returned =>
    unfold resume resumeReturned at h
    dsimp only at h
    split at h
    · cases h
      exact scanAborted_orderly _ _
    · cases h
      trivial
    · cases h
      split <;> trivial
    · cases h
      trivial
    · cases h
      exact groupReturned_orderly _
    · cases h
  | threw deferred =>
    unfold resume resumeThrew at h
    dsimp only at h
    split at h <;> cases h <;> trivial
  | enqueue req => cases h
  | clear => cases h
  | abort signal => cases h
  | schedule | denied | admits => cases h

/-! ## Enqueues do not take work away -/

/-- An enqueue adds its item, or leaves the items as they are. -/
theorem enqueue_cases (signals : List Nat) (q : FollowupQueue) (req : EnqueueRequest) :
    (enqueueFollowupRun signals q req).2.items ≠ [] ∨ (enqueueFollowupRun signals q req).2 = q ∨
      (enqueueFollowupRun signals q req).2 = getFollowupQueue q req.settings ∨
      (enqueueFollowupRun signals q req).2 = foldOverflow (getFollowupQueue q req.settings) := by
  unfold enqueueFollowupRun
  dsimp only
  split
  · exact .inr (.inl rfl)
  · split
    · exact .inr (.inr (.inl rfl))
    · split
      · exact .inr (.inr (.inl rfl))
      · split
        · exact .inr (.inr (.inl rfl))
        · split
          · left
            dsimp only [insertRun]
            split
            · exact List.cons_ne_nil _ _
            · simp
          · rename_i hroom
            rcases applyQueueDropPolicy_cases (getFollowupQueue q req.settings) with
              ⟨room, heq⟩ | ⟨dropped, kept, -, -, -, heq⟩ | ⟨dropped, kept, -, -, -, heq⟩
            · rw [heq]
              exact .inr (.inr (.inr rfl))
            · rw [heq] at hroom
              exact absurd rfl hroom
            · rw [heq] at hroom
              exact absurd rfl hroom

theorem getFollowupQueue_items (q : FollowupQueue) (settings : QueueSettings) :
    (getFollowupQueue q settings).items = q.items ∧ (getFollowupQueue q settings).droppedCount = q.droppedCount := by
  obtain ⟨entries, evicted, gone, heq⟩ := trim_frame (applyQueueRuntimeSettings q settings)
  unfold getFollowupQueue
  rw [heq]
  exact ⟨rfl, rfl⟩

theorem evictTimes_none (n : Nat) : ∀ {q : FollowupQueue}, q.summaryElisions = [] → evictTimes n q = q := by
  induction n with
  | zero => exact fun _ => rfl
  | succ n ih =>
    intro q hnone
    have hone : evictOne q = q := by
      unfold evictOne
      rw [hnone]
      rfl
    rw [evictTimes, hone]
    exact ih hnone

theorem foldOverflow_items (q : FollowupQueue) :
    (foldOverflow q).items = q.items ∧ (foldOverflow q).droppedCount = q.droppedCount := by
  unfold foldOverflow
  split
  · dsimp only
    obtain ⟨nextRef, active, entries, evicted, gone, -, heq⟩ := foldElisions_frame
      (q.summarySources.take (q.summarySources.length - q.summaryLines.length))
      { q with summarySources := q.summarySources.drop (q.summarySources.length - q.summaryLines.length) }
    rw [heq]
    exact ⟨rfl, rfl⟩
  · exact ⟨rfl, rfl⟩

/-- With as many lines as sources there is nothing to fold. -/
theorem foldOverflow_balanced_eq (h : q.summaryLines.length = q.summarySources.length) :
    (foldOverflow q).summaryElisions = q.summaryElisions ∧ (foldOverflow q).evictedSummaryCount =
      q.evictedSummaryCount := by
  unfold foldOverflow
  rw [h, Nat.sub_self]
  split <;> exact ⟨rfl, rfl⟩

theorem Pending.enqueue (signals : List Nat) (req : EnqueueRequest) {pc : DrainPc} (hbalanced : Balanced q)
    (h : Pending q pc) : Pending (enqueueFollowupRun signals q req).2 pc := by
  obtain ⟨hregistered, -⟩ := enqueue_sameFlight signals q req
  obtain ⟨hitems, hdropped⟩ := getFollowupQueue_items q req.settings
  obtain ⟨hitems', hdropped'⟩ := foldOverflow_items (getFollowupQueue q req.settings)
  have hsome (hq : q.items ≠ []) : (enqueueFollowupRun signals q req).2.items ≠ [] := by
    rcases enqueue_cases signals q req with hadded | heq | heq | heq
    · exact hadded
    · rwa [heq]
    · rwa [heq, hitems]
    · rwa [heq, hitems', hitems]
  have hcount : (enqueueFollowupRun signals q req).2.items ≠ [] ∨
      (enqueueFollowupRun signals q req).2.droppedCount = q.droppedCount := by
    rcases enqueue_cases signals q req with hadded | heq | heq | heq
    · exact .inl hadded
    · rw [heq]
      exact .inr rfl
    · rw [heq]
      exact .inr hdropped
    · rw [heq]
      exact .inr (hdropped'.trans hdropped)
  match pc with
  | .prioritised false =>
    intro hlive
    rw [hregistered] at hlive
    rcases h hlive with hq | hq
    · exact .inl (hsome hq)
    · rcases hcount with hadded | heq
      · exact .inl hadded
      · exact .inr (heq ▸ hq)
  | .elidedDrained false =>
    intro hlive
    rw [hregistered] at hlive
    rcases h hlive with hq | ⟨helisions, hevicted, hq⟩
    · exact .inl (hsome hq)
    · have hget : getFollowupQueue q req.settings = applyQueueRuntimeSettings q req.settings :=
        evictTimes_none _ helisions
      have hfold := foldOverflow_balanced_eq (hbalanced.getFollowupQueue req.settings).lines
      rcases hcount with hadded | heq
      · exact .inl hadded
      · rw [heq]
        rcases enqueue_cases signals q req with hadded | heq | heq | heq
        · exact .inl hadded
        · rw [heq]
          exact .inr ⟨helisions, hevicted, hq⟩
        · rw [heq, hget]
          exact .inr ⟨helisions, hevicted, hq⟩
        · rw [heq, hfold.1, hfold.2, hget]
          exact .inr ⟨helisions, hevicted, hq⟩
  | .overflowDrained false =>
    intro hlive
    rw [hregistered] at hlive
    exact hsome (h hlive)
  | .collectSkipped =>
    intro hlive
    rw [hregistered] at hlive
    exact hsome (h hlive)
  | .ran false => exact hregistered.trans h
  | .idle | .starting | .droppingAborted .. | .droppedAborted _ | .debouncing | .prioritising _
  | .prioritised true | .summarising _ | .elisionReturned .. | .elidedDrained true
  | .overflowDrained true | .running _ | .ran true | .collecting _ | .rejecting => trivial

theorem Pending.closed (hclosed : q.registered = false) (pc : DrainPc) : Pending q pc := by
  unfold Pending
  split
  · simp [hclosed]
  · simp [hclosed]
  · simp [hclosed]
  · simp [hclosed]
  · exact hclosed
  · trivial

/-! ## Whole runs -/

structure Draining (s : FollowupSystem) : Prop where
  sound : Sound s
  pending : Pending s.queue s.pc

theorem Draining.step {s : FollowupSystem} {event : FollowupEvent} (hguard : SummarizesLeftOver s event)
    (h : Draining s) : Draining (followupStep s event) := by
  refine ⟨h.sound.step event, ?_⟩
  have hstep := followupStep_step s event
  generalize followupStep s event = s' at hstep
  cases hstep with
  | skip => exact h.pending
  | enqueue req => exact h.pending.enqueue _ req h.sound.balanced
  | clear => exact .closed rfl _
  | abort signal => exact h.pending
  | schedule | denied => trivial
  | @admits queue pc hadmits =>
    generalize s.pc = spc at hadmits
    cases spc with
    | droppingAborted | prioritising | running | summarising | collecting =>
      simp only [admission] at hadmits
      split at hadmits <;> cases hadmits
      trivial
    | _ => cases hadmits
  | awaits hsegment => exact resume_orderly h.sound h.pending hguard hsegment
  | ends hsegment =>
    unfold afterLoop
    split
    · dsimp only
      split <;> trivial
    · trivial

theorem draining_newSystem (settings : QueueSettings) : Draining (newSystem settings) :=
  ⟨sound_newSystem settings, trivial⟩

theorem followupStep_leaves {s : FollowupSystem} {event : FollowupEvent} (h : resume s event = some (.leaves q)) :
    followupStep s event = afterLoop s q := by
  cases event with
  | tick | returned => simp only [followupStep, h]
  | threw deferred => simp only [followupStep, h]
  | enqueue | clear | abort | schedule | denied | admits => cases h

/-- **A drain stops only when its work is done**, and then does not schedule itself again. -/
theorem followup_drain_stops_when_done (settings : QueueSettings) (script : List FollowupEvent)
    (hguard : Guarded followupStep SummarizesLeftOver (newSystem settings) script)
    (event : FollowupEvent) (hevent : SummarizesLeftOver
      (run followupStep (newSystem settings) script) event) (q : FollowupQueue)
    (hleaves : resume (run followupStep (newSystem settings) script) event = some (.leaves q)) :
    q.items = [] ∧ q.droppedCount = 0 ∧
      (followupStep (run followupStep (newSystem settings) script) event).pc = .idle := by
  have hrun : Draining (run followupStep (newSystem settings) script) :=
    run_invariant_guarded (fun _ _ hguard h => h.step hguard) script hguard (draining_newSystem settings)
  have hdone : q.items = [] ∧ q.droppedCount = 0 := resume_orderly hrun.sound hrun.pending hevent hleaves
  refine ⟨hdone.1, hdone.2, ?_⟩
  rw [followupStep_leaves hleaves]
  unfold afterLoop
  rw [if_neg]
  simp [hasPendingWork, hdone.1, hdone.2]

def summarizeOne : QueueSettings := { mode := .followup, cap := some 1, dropPolicy := some .summarize }

/-- One run is dropped into the overflow; the drain announces it, and runs the other. -/
def announcedScript : List FollowupEvent :=
  [.enqueue (plainRequest summarizeOne), .enqueue (plainRequest summarizeOne), .schedule,
    .tick, .tick, .tick, .tick, .tick, .tick, .returned,
    .tick, .tick, .tick, .tick, .tick, .returned]

theorem followup_drain_stops_when_done_announced : ∃ q : FollowupQueue,
      resume (run followupStep (newSystem summarizeOne) announcedScript) .tick = some (.leaves q) ∧
      q.left.length = 2 ∧ q.gone.length = 1 ∧ q.items = [] ∧ q.droppedCount = 0 := by
  refine ⟨_, rfl, rfl, rfl, ?_⟩
  have hguard : Guarded followupStep SummarizesLeftOver (newSystem summarizeOne) announcedScript := by
    decide
  have hdone := followup_drain_stops_when_done summarizeOne announcedScript hguard .tick (by decide) _ rfl
  exact ⟨hdone.1, hdone.2.1⟩

/-! ## A policy that changes -/

def dropOldest : QueueSettings := { mode := .followup, cap := some 1, dropPolicy := some .old }

/-- A run is dropped into the overflow, then the policy becomes `old`; the drain runs what is queued. -/
def changedPolicyScript : List FollowupEvent :=
  [.enqueue (plainRequest summarizeOne), .enqueue (plainRequest summarizeOne),
    .enqueue (plainRequest dropOldest), .schedule,
    .tick, .tick, .tick, .tick, .tick, .tick, .tick, .returned,
    .tick, .tick, .tick, .tick, .tick, .tick, .tick]

theorem drain_stops_with_overflow_left :
    ¬∀ (settings : QueueSettings) (script : List FollowupEvent) (event : FollowupEvent) (q : FollowupQueue),
      resume (run followupStep (newSystem settings) script) event = some (.leaves q) →
        q.items = [] ∧ q.droppedCount = 0 := by
  intro h
  have hleft : ∃ q, resume (run followupStep (newSystem summarizeOne) changedPolicyScript) .tick =
      some (.leaves q) ∧ q.droppedCount = 1 := ⟨_, rfl, rfl⟩
  obtain ⟨q, hleaves, hcount⟩ := hleft
  have hzero := (h _ _ _ q hleaves).2
  rw [hcount] at hzero
  cases hzero

end OpenClaw.AutoReply
