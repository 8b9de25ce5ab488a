/-
# OpenClaw.AutoReply.FollowupSummaries -- who takes a dropped run out of the overflow

A run that the policy `summarize` dropped leaves the overflow once, and for a reason: a delivery that
announced it, its own abort, the cap of the elisions, or a clear.  `drainElidedOverflowSummary` alone can
take another run's copy: it counts the copies of its elision once more after the delivery, which may have
consumed them at its admission already.
-/
import OpenClaw.AutoReply.FollowupReferences

namespace OpenClaw.AutoReply

open OpenClaw.Logic Relation

/-! ## Reasons -/

/-- The reason on record is the real one; a delivery takes what it announced. -/
def Removed (signals : List Nat) (q : FollowupQueue) (run : FollowupRun) : SummaryExit → Prop
  | .delivered announced => run.id ∈ announced
  | .aborted => isFollowupRunAborted signals q run = true
  | .evicted => True
  | .cleared => q.aborted = true

structure Summarised (signals : List Nat) (q : FollowupQueue) : Prop where
  traceable : Traceable [] q
  removed : ∀ x ∈ q.gone, Removed signals q x.1 x.2

variable {delivery : SummaryDelivery}

section Summarised

variable {signals : List Nat} {q q' : FollowupQueue}

theorem Removed.mono {signals' : List Nat} {run : FollowupRun} {exit : SummaryExit}
    (hsignals : signals ⊆ signals') (haborted : q.aborted = true → q'.aborted = true)
    (h : Removed signals q run exit) : Removed signals' q' run exit := by
  cases exit with
  | delivered announced => exact h
  | aborted => exact isFollowupRunAborted_mono hsignals haborted h
  | evicted => trivial
  | cleared => exact haborted h

theorem Summarised.of_gone (h : Summarised signals q) (htraceable : Traceable [] q')
    (haborted : q.aborted = true → q'.aborted = true)
    (hgone : ∀ x ∈ q'.gone, x ∈ q.gone ∨ Removed signals q' x.1 x.2) : Summarised signals q' := by
  refine ⟨htraceable, fun x hx => ?_⟩
  rcases hgone x hx with hbefore | hnow
  · exact (h.removed x hbefore).mono (List.Subset.refl _) haborted
  · exact hnow

/-- Eviction puts only evictions on record. -/
def OnlyEvicts (q q' : FollowupQueue) : Prop := ∀ x ∈ q'.gone, x ∈ q.gone ∨ x.2 = .evicted

theorem OnlyEvicts.trans {a b c : FollowupQueue} (hab : OnlyEvicts a b) (hbc : OnlyEvicts b c) :
    OnlyEvicts a c := fun x hx => (hbc x hx).elim (hab x) .inr

theorem evictTimes_onlyEvicts (n : Nat) : ∀ q : FollowupQueue, OnlyEvicts q (evictTimes n q) := by
  induction n with
  | zero => exact fun q x hx => .inl hx
  | succ n ih =>
    intro q
    refine OnlyEvicts.trans ?_ (ih (evictOne q))
    unfold evictOne
    split
    · exact fun x hx => .inl hx
    · intro x hx
      rcases List.mem_cons.mp hx with rfl | hx
      · exact .inr rfl
      · exact .inl hx

theorem trim_onlyEvicts (q : FollowupQueue) : OnlyEvicts q (trimSummaryElisionsToCap q) := evictTimes_onlyEvicts _ q

theorem foldOverflow_onlyEvicts (q : FollowupQueue) : OnlyEvicts q (foldOverflow q) := by
  have hfold : ∀ (items : List FollowupRun) (q : FollowupQueue), OnlyEvicts q
      (items.foldl (fun q item => trimSummaryElisionsToCap (addElision q item)) q) := by
    intro items
    induction items with
    | nil => exact fun q x hx => .inl hx
    | cons item items ih =>
      exact fun q => OnlyEvicts.trans (trim_onlyEvicts (addElision q item)) (ih _)
  unfold foldOverflow
  split
  · exact hfold _ _
  · exact fun x hx => .inl hx

theorem enqueue_onlyEvicts (signals : List Nat) (q : FollowupQueue) (req : EnqueueRequest) :
    OnlyEvicts q (enqueueFollowupRun signals q req).2 := by
  refine enqueue_keeps (P := OnlyEvicts q) signals req ?_ ?_ ?_ ?_ ?_ fun x hx => .inl hx
  · exact fun _ h => h
  · exact fun q' h => h.trans (trim_onlyEvicts q')
  · intro q' h
    rcases applyQueueDropPolicy_cases q' with
      ⟨room, heq⟩ | ⟨dropped, kept, -, -, -, heq⟩ | ⟨dropped, kept, -, -, -, heq⟩
    · rw [heq]
      exact h
    · rw [heq]
      exact h
    · rw [heq]
      exact h
  · exact fun q' h => h.trans (foldOverflow_onlyEvicts q')
  · exact fun _ h => h

theorem OnlyEvicts.removed (h : OnlyEvicts q q') : ∀ x ∈ q'.gone, x ∈ q.gone ∨ Removed signals q' x.1 x.2 := by
  intro x hx
  refine (h x hx).imp id fun hexit => ?_
  rw [hexit]
  trivial

theorem dropAbortedAt_removed (n : Nat) : ∀ q : FollowupQueue, ∀ x ∈ (dropAbortedAt signals n q).gone, x ∈ q.gone ∨
      (x.2 = .aborted ∧ isFollowupRunAborted signals q x.1 = true) := by
  induction n with
  | zero => exact fun q x hx => .inl hx
  | succ index ih =>
    intro q x hx
    rw [dropAbortedAt] at hx
    rcases ih _ x hx with hx | ⟨hexit, haborted⟩
    · split at hx
      · exact .inl hx
      · split at hx
        · rename_i haborted
          rcases List.mem_cons.mp hx with rfl | hx
          · exact .inr ⟨rfl, haborted⟩
          · exact .inl hx
        · exact .inl hx
    · refine .inr ⟨hexit, ?_⟩
      split at haborted
      · exact haborted
      · split at haborted <;> exact haborted

/-! ## The elision that was delivered -/

/-- The elision is gone, or still begins with what was announced of it, or has nothing else. -/
def ElisionKept (q : FollowupQueue) (delivery : SummaryDelivery) : Prop :=
  match delivery.elided with
  | none => True
  | some (entryRef, elidedCount) => ∀ entry ∈ q.summaryElisions, entry.ref = entryRef →
      entry.sources.take elidedCount = delivery.protectedSources.take elidedCount ∨
        ∀ source ∈ entry.sources, source ∈ delivery.protectedSources

instance (q : FollowupQueue) (delivery : SummaryDelivery) : Decidable (ElisionKept q delivery) := by
  unfold ElisionKept
  split <;> infer_instance

theorem elisionDelivered_removed (hkept : ElisionKept q delivery) : ∀ x ∈ (elisionDelivered q delivery).gone, x ∈
      q.gone ∨ (x.2 = .delivered delivery.announced ∧ x.1.id ∈ delivery.announced) := by
  intro x hx
  unfold elisionDelivered at hx
  unfold ElisionKept at hkept
  split at hx
  · exact .inl hx
  · rename_i entryRef elidedCount helided
    rw [helided] at hkept
    split at hx
    · exact .inl hx
    · rename_i taken entries hconsume
      obtain ⟨entry, hloses, href, rfl⟩ := consumeElision_loses hconsume
      rcases List.mem_append.mp hx with htook | hx
      · obtain ⟨copy, hcopy, rfl⟩ := List.mem_map.mp htook
        refine .inr ⟨rfl, List.mem_map_of_mem ?_⟩
        rcases hkept entry hloses.mem href with hsame | hall
        · rw [hsame] at hcopy
          exact List.mem_of_mem_take hcopy
        · exact hall copy (List.mem_of_mem_take hcopy)
      · exact .inl hx

end Summarised

/-! ## Steps -/

def ReturnKept (q : FollowupQueue) : DrainPc → Prop
  | .elisionReturned delivery true => ElisionKept q delivery
  | _ => True

instance (q : FollowupQueue) : (pc : DrainPc) → Decidable (ReturnKept q pc)
  | .elisionReturned delivery true => inferInstanceAs (Decidable (ElisionKept q delivery))
  | .elisionReturned _ false | .idle | .starting | .droppingAborted .. | .droppedAborted _
  | .debouncing | .prioritising _ | .prioritised _ | .summarising _ | .elidedDrained _
  | .overflowDrained _ | .running _ | .ran _ | .collectSkipped | .collecting _ | .rejecting => isTrue trivial

/-- When `drainElidedOverflowSummary` goes on after its delivery, the elision has not both lost a run
that was announced and gained one that was not. -/
def KeepsElision (s : FollowupSystem) : FollowupEvent → Prop
  | .tick => ReturnKept s.queue s.pc
  | _ => True

instance (s : FollowupSystem) : (event : FollowupEvent) → Decidable (KeepsElision s event)
  | .tick => inferInstanceAs (Decidable (ReturnKept s.queue s.pc))
  | .enqueue _ | .clear | .abort _ | .schedule | .denied | .returned | .threw _ | .admits => isTrue trivial

structure Summarising (s : FollowupSystem) : Prop where
  sound : Sound s
  summarised : Summarised s.signals s.queue
  tracked : ∀ delivery, s.pc = .summarising delivery → delivery.admitted = false →
    Tracked delivery.protectedSources s.queue ∧ delivery.protectedSources.Nodup

theorem releaseForRetry_gone (sources : List FollowupRun) : ∀ q : FollowupQueue,
    (releaseQueueSummaryDeliveryForRetry q sources).gone = q.gone := by
  induction sources with
  | nil => exact fun _ => rfl
  | cons source sources ih =>
    intro q
    refine (ih _).trans ?_
    dsimp only
    split <;> rfl

theorem consume_removed {signals : List Nat} {q : FollowupQueue} {sources : List FollowupRun} (hq : Traceable [] q)
    (h : Tracked delivery.protectedSources q) (hnodup : delivery.protectedSources.Nodup)
    (hsub : sources.Sublist delivery.protectedSources) :
    ∀ x ∈ (consumeQueueSummaryDelivery q delivery.announced sources delivery.droppedCount).gone, x ∈ q.gone ∨
      Removed signals (consumeQueueSummaryDelivery q delivery.announced sources delivery.droppedCount) x.1 x.2 := by
  intro x hx
  refine ((h.sublist hsub.subset).consume hq (hnodup.sublist hsub) x hx).imp id ?_
  rintro ⟨hexit, source, hsource, hid⟩
  rw [hexit]
  show x.1.id ∈ delivery.announced
  rw [hid]
  exact List.mem_map_of_mem (hsub.subset hsource)

theorem Summarised.op {s : FollowupSystem} {q q' : FollowupQueue}
    (htracked : ∀ delivery, s.pc = .summarising delivery → delivery.admitted = false →
      Tracked delivery.protectedSources s.queue ∧ delivery.protectedSources.Nodup)
    (helision : ∀ delivery, s.pc = .elisionReturned delivery true → ElisionKept s.queue delivery)
    (hop : QueueOp s q q') (h : Summarised s.signals q) : Summarised s.signals q' := by
  have htraceable := h.traceable.op hop
  have haborted : q.aborted = true → q'.aborted = true := by
    intro hq
    rcases hop.frame with hframe | hframe
    · rw [hframe.aborted, hq]
    · rw [hframe.aborted, hq]
  refine h.of_gone htraceable haborted ?_
  cases hop with
  | flight | handed | handedBefore | removed | splice | activate | resetEvicted =>
    exact fun x hx => .inl hx
  | release => exact (trim_onlyEvicts _).removed
  | retry =>
    rw [releaseForRetry_gone]
    exact fun x hx => .inl hx
  | consume hpc hfresh hsub =>
    obtain ⟨htracked, hnodup⟩ := htracked _ hpc hfresh
    exact consume_removed h.traceable htracked hnodup hsub
  | dropAborted =>
    intro x hx
    refine (dropAbortedAt_removed _ q x hx).imp id ?_
    rintro ⟨hexit, hrun⟩
    rw [hexit]
    exact isFollowupRunAborted_mono (List.Subset.refl _) haborted hrun
  | dropAbortedElided =>
    intro x hx
    rcases List.mem_append.mp hx with hnow | hbefore
    · obtain ⟨run, hrun, rfl⟩ := List.mem_map.mp hnow
      exact .inr (List.mem_filter.mp hrun).2
    · exact .inl hbefore
  | elision hpc =>
    intro x hx
    refine (elisionDelivered_removed (helision _ hpc) x hx).imp id ?_
    rintro ⟨hexit, hmem⟩
    rw [hexit]
    exact hmem

/-- Only the drain itself goes on after a delivery. -/
theorem elisionReturned_resume {s : FollowupSystem} {event : FollowupEvent} {segment : Segment} {delivered : Bool}
    (hpc : s.pc = .elisionReturned delivery delivered) (h : resume s event = some segment) : event = .tick := by
  unfold resume at h
  rw [hpc] at h
  cases event with
  | tick => rfl
  | _ => cases h

theorem Summarising.segment {s : FollowupSystem} {event : FollowupEvent} {segment : Segment}
    (hguard : KeepsElision s event) (h : Summarising s) (hsegment : resume s event = some segment) :
    Summarised s.signals segment.queue := by
  refine ops_keep (fun _ _ hop => .op h.tracked (fun delivery hpc => ?_) hop)
    (resume_ops h.sound.live h.sound.held hsegment) h.summarised
  have htick := elisionReturned_resume hpc hsegment
  subst htick
  unfold KeepsElision at hguard
  rw [hpc] at hguard
  exact hguard

theorem Summarising.admits {s : FollowupSystem} {queue : FollowupQueue} {pc : DrainPc}
    (h : Summarising s) (hadmits : admission s.queue s.pc = some (queue, pc)) : Summarised s.signals queue ∧
      ∀ delivery, pc = .summarising delivery → delivery.admitted = true := by
  have hsummarised := h.summarised
  have htraceable := h.summarised.traceable
  have htracked := h.tracked
  generalize hpc : s.pc = spc at hadmits htracked
  cases spc with
  | droppingAborted | prioritising | running =>
    simp only [admission] at hadmits
    split at hadmits <;> cases hadmits
    refine ⟨⟨⟨htraceable.entries, htraceable.nodup, htraceable.fresh⟩, hsummarised.removed⟩,
      fun delivery heq => by cases heq⟩
  | summarising delivery =>
    simp only [admission] at hadmits
    split at hadmits <;> cases hadmits
    rename_i hneeds
    have hfresh : delivery.admitted = false := by simpa using (Bool.and_eq_true_iff.mp hneeds).2
    obtain ⟨htracked, hnodup⟩ := htracked delivery rfl hfresh
    have haborted : (consumeQueueSummaryDelivery s.queue delivery.announced delivery.protectedSources
        delivery.droppedCount).aborted = s.queue.aborted := (consume_overflow _ _ _ _).aborted
    refine ⟨hsummarised.of_gone (htraceable.consume _ _ _) (fun h => haborted.trans h) ?_,
      fun delivery' heq => ?_⟩
    · exact consume_removed htraceable htracked hnodup (List.Sublist.refl _)
    · cases heq
      rfl
  | collecting group =>
    simp only [admission] at hadmits
    split at hadmits <;> cases hadmits
    refine ⟨hsummarised.of_gone ?_ (fun h => h) fun x hx => .inl hx, fun delivery heq => by cases heq⟩
    exact htraceable.shrink List.filter_sublist (List.Sublist.refl _) (.refl _) (Nat.le_refl _)
  | _ => cases hadmits

theorem Summarising.step {s : FollowupSystem} {event : FollowupEvent} (hguard : KeepsElision s event)
    (h : Summarising s) : Summarising (followupStep s event) := by
  have hstep := followupStep_step s event
  have hsound := h.sound.step event
  generalize followupStep s event = s' at hstep hsound
  cases hstep with
  | skip => exact h
  | enqueue req =>
    refine ⟨hsound, h.summarised.of_gone (h.summarised.traceable.enqueue _ req) ?_
      (enqueue_onlyEvicts s.signals s.queue req).removed, fun delivery hpc hfresh => ?_⟩
    · intro haborted
      rw [(enqueue_sameFlight s.signals s.queue req).2.1, haborted]
    · obtain ⟨htracked, hnodup⟩ := h.tracked delivery hpc hfresh
      exact ⟨htracked.enqueue _ req h.summarised.traceable, hnodup⟩
  | clear =>
    refine ⟨hsound, h.summarised.of_gone h.summarised.traceable.clear (fun _ => rfl) ?_,
      fun delivery hpc hfresh => ?_⟩
    · intro x hx
      rcases List.mem_append.mp hx with hnow | hbefore
      · obtain ⟨run, hrun, rfl⟩ := List.mem_map.mp hnow
        exact .inr rfl
      · exact .inl hbefore
    · obtain ⟨htracked, hnodup⟩ := h.tracked delivery hpc hfresh
      exact ⟨htracked.clear, hnodup⟩
  | abort signal =>
    refine ⟨hsound, ⟨h.summarised.traceable, fun x hx => ?_⟩, h.tracked⟩
    exact (h.summarised.removed x hx).mono (List.subset_cons_self _ _) fun h => h
  | schedule | denied => exact ⟨hsound, h.summarised, fun _ hpc => by cases hpc⟩
  | admits hadmits =>
    obtain ⟨hsummarised, hadmitted⟩ := h.admits hadmits
    refine ⟨hsound, hsummarised, fun delivery hpc hfresh => ?_⟩
    rw [hadmitted delivery hpc] at hfresh
    cases hfresh
  | awaits hsegment =>
    have hsummarised := h.segment hguard hsegment
    refine ⟨hsound, hsummarised, fun delivery hpc _ => ?_⟩
    have henters := resume_enters hsegment
    dsimp only at hpc
    subst hpc
    exact Entered.tracked henters hsummarised.traceable
  | ends hsegment =>
    have hsummarised := h.segment hguard hsegment
    refine ⟨hsound, ?_, fun delivery hpc => ?_⟩
    · unfold afterLoop
      split
      · exact hsummarised
      · exact hsummarised.of_gone ⟨hsummarised.traceable.entries, hsummarised.traceable.nodup,
          hsummarised.traceable.fresh⟩ (fun h => h) fun x hx => .inl hx
    · unfold afterLoop at hpc
      split at hpc
      · dsimp only at hpc
        split at hpc <;> cases hpc
      · cases hpc

theorem summarising_newSystem (settings : QueueSettings) : Summarising (newSystem settings) :=
  ⟨sound_newSystem settings, ⟨⟨fun _ hentry => absurd hentry List.not_mem_nil, List.nodup_nil,
    fun _ href => absurd href List.not_mem_nil⟩, fun _ hx => absurd hx List.not_mem_nil⟩,
    fun _ hpc => by cases hpc⟩

theorem foldedRuns_sublist (q : FollowupQueue) : (foldedRuns q).Sublist (q.left.map (·.1)) := by
  unfold foldedRuns
  generalize q.left = left
  induction left with
  | nil => exact List.Sublist.refl _
  | cons x left ih =>
    obtain ⟨run, exit⟩ := x
    by_cases hexit : exit = .folded
    · simp only [List.filterMap_cons, hexit, if_true, List.map_cons]
      exact ih.cons_cons run
    · simp only [List.filterMap_cons, hexit, if_false, List.map_cons]
      exact ih.cons run

/-- What was folded is in the overflow, or has left it, once. -/
theorem folded_once {q : FollowupQueue} (hbalanced : Balanced q) (hconserved : Conserved q) :
    ((foldedRuns q).map (·.id)).Nodup ∧ ((foldedRuns q).map (·.id)).Perm
      ((q.summarySources ++ elidedSources q ++ q.gone.map (·.1)).map (·.id)) := by
  constructor
  · have hnodup := hconserved.perm.nodup_iff.mpr hconserved.nodup
    unfold placed at hnodup
    rw [List.map_append] at hnodup
    exact hnodup.of_append_right.sublist ((foldedRuns_sublist q).map _)
  · refine List.perm_iff_count.mpr fun id => ?_
    have := hbalanced.accounted.runs id
    rw [occurrences_nil, Nat.zero_add, ← occurrences_append, ← occurrences_append] at this
    exact this

theorem Entered.announced {signals : List Nat} {q : FollowupQueue} (h : Entered signals q (.summarising delivery)) :
    delivery.prompt.droppedCount = delivery.announced.length := by
  cases h with
  | plain =>
    rename_i hplain
    cases hplain
  | summarising hfresh hcounted hprompted =>
    unfold SummaryDelivery.announced
    rw [List.length_map]
    exact hprompted

/-- **The overflow is accounted for.**  The counters balance; every folded run is in the overflow or has
left it, once; it left for the reason on record, a delivery taking only what it announced; and a prompt
names the number of what its delivery announces. -/
theorem overflow_accounted (settings : QueueSettings) (script : List FollowupEvent)
    (hguard : Guarded followupStep KeepsElision (newSystem settings) script) :
    let s := run followupStep (newSystem settings) script
    s.queue.droppedCount = s.queue.summarySources.length + (elidedSources s.queue).length +
      s.queue.evictedSummaryCount ∧
    s.queue.summaryLines.length = s.queue.summarySources.length ∧
    (((foldedRuns s.queue).map (·.id)).Nodup ∧ ((foldedRuns s.queue).map (·.id)).Perm
      ((s.queue.summarySources ++ elidedSources s.queue ++ s.queue.gone.map (·.1)).map (·.id))) ∧
    (∀ run exit, (run, exit) ∈ s.queue.gone → Removed s.signals s.queue run exit) ∧
    ∀ event q force delivery, resume s event = some (.awaits q force (.summarising delivery)) →
      delivery.prompt.droppedCount = delivery.announced.length := by
  intro s
  have hrun : Summarising s := run_invariant_guarded (fun _ _ hguard h => h.step hguard) script hguard
    (summarising_newSystem settings)
  have hcount := hrun.sound.balanced.accounted.count
  rw [List.length_nil, Nat.zero_add] at hcount
  exact ⟨hcount, hrun.sound.balanced.lines,
    folded_once hrun.sound.balanced (followupRun_conserved settings script),
    fun run exit hmem => hrun.summarised.removed (run, exit) hmem,
    fun event q force delivery hsegment => (resume_enters hsegment).announced⟩

def summarizeLast : QueueSettings := { mode := .followup, cap := some 1, dropPolicy := some .summarize }

/-- Two runs are dropped, the first one into an elision, and announced together. -/
def deliveredScript : List FollowupEvent :=
  [.enqueue (plainRequest summarizeLast), .enqueue (plainRequest summarizeLast),
    .enqueue (plainRequest summarizeLast), .schedule, .tick, .tick, .tick, .tick, .tick, .returned, .tick]

theorem overflow_accounted_delivered :
    let s := run followupStep (newSystem summarizeLast) deliveredScript
    s.queue.gone.map (fun (run, exit) => (run.id, exit)) =
        [(0, .delivered [0, 1]), (1, .delivered [0, 1])] ∧
      s.queue.droppedCount = 0 ∧
      ∀ run exit, (run, exit) ∈ s.queue.gone → Removed s.signals s.queue run exit := by
  have hguard : Guarded followupStep KeepsElision (newSystem summarizeLast) deliveredScript := by decide
  have haccounted := overflow_accounted summarizeLast deliveredScript hguard
  exact ⟨by decide, by decide, haccounted.2.2.2.1⟩

/-! ## A delivery that takes more than it announced -/

/-- While the two are announced, two more are dropped, and the delivery is admitted. -/
def overtakenScript : List FollowupEvent :=
  [.enqueue (plainRequest summarizeLast), .enqueue (plainRequest summarizeLast),
    .enqueue (plainRequest summarizeLast), .schedule, .tick, .tick, .tick, .tick, .tick,
    .enqueue (plainRequest summarizeLast), .enqueue (plainRequest summarizeLast),
    .admits, .returned, .tick]

theorem delivery_takes_unannounced :
    ¬∀ (settings : QueueSettings) (script : List FollowupEvent) (item : FollowupRun) (exit : SummaryExit),
      let s := run followupStep (newSystem settings) script
      (item, exit) ∈ s.queue.gone → Removed s.signals s.queue item exit := by
  intro h
  let s := run followupStep (newSystem summarizeLast) overtakenScript
  have htaken : ∃ item : FollowupRun, (item, SummaryExit.delivered [0, 1]) ∈ s.queue.gone ∧
      item.id = 3 := ⟨_, List.mem_cons_self, rfl⟩
  obtain ⟨item, hitem, hid⟩ := htaken
  have hannounced : item.id ∈ [0, 1] := h summarizeLast overtakenScript item _ hitem
  rw [hid] at hannounced
  revert hannounced
  decide

end OpenClaw.AutoReply
