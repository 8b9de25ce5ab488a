/-
# OpenClaw.AutoReply.FollowupConservation -- no queued run is lost or handed out twice

Every run that was enqueued waits in the items or has left them in one way, and the two together are a
permutation of what was enqueued, in every run of events.  That a run left for the reason on record, and
that a finished run is not handed out again, needs that `dropAbortedFollowups` finds its item where it
was when its callback returns (`KeepsItsPlace`).
-/
import OpenClaw.AutoReply.FollowupSound

namespace OpenClaw.AutoReply

open OpenClaw.Logic Relation

/-! ## Places -/

/-- The runs that wait, and those that have left. -/
def placed (q : FollowupQueue) : List FollowupRun := q.items ++ q.left.map (·.1)

structure Conserved (q : FollowupQueue) : Prop where
  perm : ((placed q).map (·.id)).Perm q.enqueued
  nodup : q.enqueued.Nodup
  fresh : ∀ id ∈ q.enqueued, id < q.nextRef

variable {q q' : FollowupQueue} {s : FollowupSystem}

theorem Conserved.of_perm (h : Conserved q) (hplaced : (placed q').Perm (placed q))
    (henqueued : q'.enqueued = q.enqueued) (hnext : q.nextRef ≤ q'.nextRef) : Conserved q' := by
  refine ⟨?_, henqueued ▸ h.nodup, fun id hid => ?_⟩
  · rw [henqueued]
    exact (hplaced.map _).trans h.perm
  · rw [henqueued] at hid
    exact Nat.lt_of_lt_of_le (h.fresh id hid) hnext

/-- Runs that leave the items keep their place on record. -/
theorem placed_leave {exit : ItemExit} (dropped : List FollowupRun) (hitems : (dropped ++ q'.items).Perm q.items)
    (hleft : q'.left = dropped.map (·, exit) ++ q.left) : (placed q').Perm (placed q) := by
  have hruns : q'.left.map (·.1) = dropped ++ q.left.map (·.1) := by
    rw [hleft]
    simp [Function.comp_def]
  unfold placed
  rw [hruns, ← List.append_assoc]
  exact (List.perm_append_comm.trans hitems).append_right _

theorem OverflowFrame.placed (h : OverflowFrame q q') : placed q' = placed q := by
  unfold AutoReply.placed
  rw [h.items, h.left]

theorem removeQueuedItemsByRef_placed (q : FollowupQueue) (processed : List FollowupRun)
    (exit : ItemExit) : (placed (removeQueuedItemsByRef q processed exit)).Perm (placed q) := by
  refine placed_leave (q.items.filter (· ∈ processed)) ?_ rfl
  have hsplit := List.filter_append_perm (fun run => decide (run ∈ processed)) q.items
  simpa [removeQueuedItemsByRef] using hsplit

theorem spliceAborted_placed (q : FollowupQueue) (item : FollowupRun) (index : Nat) :
    (placed (spliceAborted q item index)).Perm (placed q) := by
  refine placed_leave (q.items[index]?.toList) ?_ rfl
  dsimp only [spliceAborted]
  by_cases hindex : index < q.items.length
  · rw [List.getElem?_eq_getElem hindex]
    have hset := List.set_perm_cons_eraseIdx hindex q.items[index]
    rw [List.set_getElem_self] at hset
    exact hset.symm
  · rw [List.getElem?_eq_none (Nat.le_of_not_lt hindex),
      List.eraseIdx_of_length_le (Nat.le_of_not_lt hindex)]
    exact List.Perm.refl _

/-- No change of a drain loses or invents a run. -/
theorem QueueOp.placed (h : QueueOp s q q') : (placed q').Perm (placed q) ∧ q'.enqueued = q.enqueued ∧
      q.nextRef ≤ q'.nextRef := by
  have hoverflow {a b : FollowupQueue} (h : OverflowFrame a b) :
      (AutoReply.placed b).Perm (AutoReply.placed a) ∧ b.enqueued = a.enqueued ∧ a.nextRef ≤ b.nextRef :=
    ⟨List.Perm.of_eq h.placed, h.enqueued, h.nextRef⟩
  cases h with
  | flight => exact ⟨List.Perm.refl _, rfl, Nat.le_refl _⟩
  | handed =>
    exact ⟨removeQueuedItemsByRef_placed (finishRuns q _) _ _, rfl, Nat.le_refl _⟩
  | handedBefore | removed => exact ⟨removeQueuedItemsByRef_placed q _ _, rfl, Nat.le_refl _⟩
  | splice => exact ⟨spliceAborted_placed _ _ _, rfl, Nat.le_refl _⟩
  | activate => exact ⟨List.Perm.refl _, rfl, Nat.le_refl _⟩
  | release => exact hoverflow (releaseActiveSources_overflow q _ _)
  | consume => exact hoverflow (consume_overflow _ _ _ _)
  | retry => exact hoverflow (releaseForRetry_overflow q _)
  | dropAborted => exact hoverflow (dropAbortedAt_overflow _ _ q)
  | dropAbortedElided | resetEvicted => exact ⟨List.Perm.refl _, rfl, Nat.le_refl _⟩
  | elision => exact hoverflow (elisionDelivered_overflow _ _)

theorem Conserved.op (h : QueueOp s q q') (hq : Conserved q) : Conserved q' := by
  obtain ⟨hplaced, henqueued, hnext⟩ := h.placed
  exact hq.of_perm hplaced henqueued hnext

theorem applyQueueDropPolicy_placed (q : FollowupQueue) : (placed (applyQueueDropPolicy q).2).Perm (placed q) ∧
      (applyQueueDropPolicy q).2.enqueued = q.enqueued ∧ (applyQueueDropPolicy q).2.nextRef = q.nextRef := by
  rcases applyQueueDropPolicy_cases q with
    ⟨room, heq⟩ | ⟨dropped, kept, hperm, -, -, heq⟩ | ⟨dropped, kept, hperm, -, -, heq⟩
  · rw [heq]
    exact ⟨List.Perm.refl _, rfl, rfl⟩
  · rw [heq]
    exact ⟨placed_leave dropped hperm rfl, rfl, rfl⟩
  · rw [heq]
    exact ⟨placed_leave dropped hperm rfl, rfl, rfl⟩

/-- An inserted run is new. -/
theorem Conserved.insertRun {q : FollowupQueue} (req : EnqueueRequest) (h : Conserved q) :
    Conserved (insertRun q req) := by
  have hplaced : ((placed (AutoReply.insertRun q req)).map (·.id)).Perm
      (q.nextRef :: (placed q).map (·.id)) := by
    unfold placed AutoReply.insertRun
    dsimp only
    split
    · exact List.Perm.refl _
    · rw [List.append_assoc]
      exact List.Perm.map _ List.perm_middle
  refine ⟨hplaced.trans (h.perm.cons _), ?_, fun id hid => ?_⟩
  · exact List.nodup_cons.mpr ⟨fun hmem => Nat.lt_irrefl _ (h.fresh _ hmem), h.nodup⟩
  · rcases List.mem_cons.mp hid with rfl | hid
    · exact Nat.lt_succ_self _
    · exact Nat.lt_succ_of_lt (h.fresh id hid)

theorem Conserved.enqueue {q : FollowupQueue} (signals : List Nat) (req : EnqueueRequest)
    (h : Conserved q) : Conserved (enqueueFollowupRun signals q req).2 := by
  have hoverflow {a b : FollowupQueue} (hab : OverflowFrame a b) (ha : Conserved a) : Conserved b :=
    ha.of_perm (List.Perm.of_eq hab.placed) hab.enqueued hab.nextRef
  refine enqueue_keeps signals req ?_ ?_ ?_ ?_ ?_ h
  · exact fun q hq => ⟨hq.perm, hq.nodup, hq.fresh⟩
  · exact fun q => hoverflow (trim_overflow q)
  · intro q hq
    obtain ⟨hplaced, henqueued, hnext⟩ := applyQueueDropPolicy_placed q
    exact hq.of_perm hplaced henqueued (Nat.le_of_eq hnext.symm)
  · exact fun q => hoverflow (foldOverflow_overflow q)
  · exact fun q hq => hq.insertRun req

theorem clearFollowupQueue_placed (q : FollowupQueue) : (placed (clearFollowupQueue q)).Perm (placed q) :=
  placed_leave q.items (List.Perm.of_eq (List.append_nil _)) rfl

/-- What `enqueueFollowupRun` reports is what it did. -/
theorem enqueueFollowupRun_recorded (signals : List Nat) (q : FollowupQueue) (req : EnqueueRequest) :
    ((enqueueFollowupRun signals q req).1 = true ∧ ∃ id, q.nextRef ≤ id ∧
      (enqueueFollowupRun signals q req).2.enqueued = id :: q.enqueued) ∨
    ((enqueueFollowupRun signals q req).1 = false ∧ (enqueueFollowupRun signals q req).2.enqueued = q.enqueued) := by
  have hget : OverflowFrame (applyQueueRuntimeSettings q req.settings)
      (getFollowupQueue q req.settings) := trim_overflow _
  obtain ⟨-, hdrop, hdropNext⟩ := applyQueueDropPolicy_placed (getFollowupQueue q req.settings)
  have hfold := foldOverflow_overflow (applyQueueDropPolicy (getFollowupQueue q req.settings)).2
  unfold enqueueFollowupRun
  dsimp only
  split
  · exact .inr ⟨rfl, rfl⟩
  · split
    · exact .inr ⟨rfl, hget.enqueued⟩
    · split
      · exact .inr ⟨rfl, hget.enqueued⟩
      · split
        · exact .inr ⟨rfl, hget.enqueued⟩
        · split
          · refine .inl ⟨rfl,
              (foldOverflow (applyQueueDropPolicy (getFollowupQueue q req.settings)).2).nextRef, ?_, ?_⟩
            · exact Nat.le_trans hget.nextRef (Nat.le_trans (Nat.le_of_eq hdropNext.symm) hfold.nextRef)
            · exact congrArg _ (hfold.enqueued.trans (hdrop.trans hget.enqueued))
          · exact .inr ⟨rfl, hfold.enqueued.trans (hdrop.trans hget.enqueued)⟩

theorem admission_placed {pc pc' : DrainPc} (h : admission q pc = some (q', pc')) : (placed q').Perm (placed q) ∧
      q'.enqueued = q.enqueued ∧ q.nextRef ≤ q'.nextRef := by
  cases pc with
  | droppingAborted | prioritising | running =>
    simp only [admission] at h
    split at h <;> cases h
    exact ⟨List.Perm.refl _, rfl, Nat.le_refl _⟩
  | summarising delivery =>
    simp only [admission] at h
    split at h <;> cases h
    have hframe := consume_overflow q delivery.announced delivery.protectedSources delivery.droppedCount
    exact ⟨List.Perm.of_eq hframe.placed, hframe.enqueued, hframe.nextRef⟩
  | collecting group =>
    simp only [admission] at h
    split at h <;> cases h
    exact ⟨removeQueuedItemsByRef_placed (finishRuns (admitRuns q group.active) group.active) _ _, rfl, Nat.le_refl _⟩
  | _ => cases h

theorem Conserved.step (event : FollowupEvent) (hsound : Sound s) (h : Conserved s.queue) :
    Conserved (followupStep s event).queue := by
  have hstep := followupStep_step s event
  generalize followupStep s event = s' at hstep
  have hresumed {segment : Segment} (hsegment : resume s event = some segment) :
      Conserved segment.queue :=
    ops_keep (fun _ _ hop => .op hop) (resume_ops hsound.live hsound.held hsegment) h
  cases hstep with
  | skip => exact h
  | enqueue req => exact h.enqueue s.signals req
  | clear => exact h.of_perm (clearFollowupQueue_placed s.queue) rfl (Nat.le_refl _)
  | abort | schedule | denied => exact h
  | admits hadmits =>
    obtain ⟨hplaced, henqueued, hnext⟩ := admission_placed hadmits
    exact h.of_perm hplaced henqueued hnext
  | awaits hsegment => exact hresumed hsegment
  | ends hsegment =>
    have hafter := hresumed hsegment
    unfold afterLoop
    split
    · exact hafter
    · exact ⟨hafter.perm, hafter.nodup, hafter.fresh⟩

/-- **Nothing is lost or invented**, in any run. -/
theorem followupRun_conserved (settings : QueueSettings) (script : List FollowupEvent) :
    Conserved (run followupStep (newSystem settings) script).queue :=
  (run_invariant (P := fun s => Sound s ∧ Conserved s.queue)
    (fun _ event h => ⟨h.1.step event, h.2.step event h.1⟩) script
    ⟨sound_newSystem settings, List.Perm.refl _, List.nodup_nil,
      fun _ hid => absurd hid List.not_mem_nil⟩).2

/-! ## Reasons -/

/-- The reason on record is the real one.  A folded run is one that the overflow accounts for; an evicted one
made room in a full queue, and no state keeps why. -/
def Justified (signals : List Nat) (q : FollowupQueue) (run : FollowupRun) : ItemExit → Prop
  | .handed => run.id ∈ q.finished
  | .aborted => isFollowupRunAborted signals q run = true
  | .cleared => q.aborted = true
  | .folded => run ∈ foldedRuns q
  | .evicted => True

/-- Runs have left for the reasons on record, what is finished does not wait again, and the runs in the
hands of the callback have a place. -/
structure Handled (signals : List Nat) (attempt : List FollowupRun) (q : FollowupQueue) : Prop where
  conserved : Conserved q
  justified : ∀ run exit, (run, exit) ∈ q.left → Justified signals q run exit
  unfinished : ∀ run ∈ q.items, run.id ∉ q.finished
  known : q.finished ⊆ q.enqueued
  attempted : ∀ run ∈ attempt, run ∈ placed q

/-- One message has one run in the queue. -/
theorem Conserved.unique {q : FollowupQueue} (h : Conserved q) {a b : FollowupRun} (ha : a ∈ placed q)
    (hb : b ∈ placed q) (hid : a.id = b.id) : a = b :=
  List.inj_on_of_nodup_map (h.perm.nodup_iff.mpr h.nodup) ha hb hid

theorem Conserved.recorded {q : FollowupQueue} (h : Conserved q) {run : FollowupRun}
    (hrun : run ∈ placed q) : run.id ∈ q.enqueued :=
  h.perm.mem_iff.mp (List.mem_map_of_mem hrun)

theorem mem_foldedRuns {q : FollowupQueue} {run : FollowupRun} : run ∈ foldedRuns q ↔ (run, .folded) ∈ q.left := by
  unfold foldedRuns
  rw [List.mem_filterMap]
  refine ⟨fun ⟨⟨run', exit⟩, hmem, hfound⟩ => ?_, fun hmem => ⟨_, hmem, if_pos rfl⟩⟩
  dsimp only at hfound
  split at hfound
  · rename_i hexit
    cases hfound
    rw [hexit] at hmem
    exact hmem
  · cases hfound

/-- Once aborted, a run stays so. -/
theorem isFollowupRunAborted_mono {signals signals' : List Nat} {run : FollowupRun} (hsignals : signals ⊆ signals')
    (haborted : q.aborted = true → q'.aborted = true) (h : isFollowupRunAborted signals q run = true) :
    isFollowupRunAborted signals' q' run = true := by
  unfold isFollowupRunAborted FollowupRun.signalled at *
  rw [Bool.or_eq_true] at *
  refine h.imp (fun hsignalled => ?_) haborted
  rw [Option.any_eq_true] at *
  obtain ⟨signal, hsignal, hfired⟩ := hsignalled
  exact ⟨signal, hsignal, decide_eq_true (hsignals (of_decide_eq_true hfired))⟩

/-- A reason stays a reason. -/
theorem Justified.mono {signals signals' : List Nat} {run : FollowupRun} {exit : ItemExit}
    (hsignals : signals ⊆ signals') (haborted : q.aborted = true → q'.aborted = true)
    (hfinished : q.finished ⊆ q'.finished) (hleft : q.left ⊆ q'.left) (h : Justified signals q run exit) :
    Justified signals' q' run exit := by
  cases exit with
  | handed => exact hfinished h
  | aborted => exact isFollowupRunAborted_mono hsignals haborted h
  | cleared => exact haborted h
  | folded => exact mem_foldedRuns.mpr (hleft (mem_foldedRuns.mp h))
  | evicted => trivial

section Handled

variable {signals : List Nat} {attempt : List FollowupRun} {q q' : FollowupQueue}

theorem Handled.of_frame (h : Handled signals attempt q) (hitems : q'.items = q.items)
    (hleft : q'.left = q.left) (haborted : q'.aborted = q.aborted) (hfinished : q'.finished = q.finished)
    (henqueued : q'.enqueued = q.enqueued) (hconserved : Conserved q') : Handled signals attempt q' := by
  refine ⟨hconserved, fun run exit hrun => ?_, fun run hrun => ?_, ?_, fun run hrun => ?_⟩
  · rw [hleft] at hrun
    refine (h.justified run exit hrun).mono (List.Subset.refl _) (fun h => haborted.trans h) ?_ ?_
    · rw [hfinished]
      exact List.Subset.refl _
    · rw [hleft]
      exact List.Subset.refl _
  · rw [hfinished]
    rw [hitems] at hrun
    exact h.unfinished run hrun
  · rw [hfinished, henqueued]
    exact h.known
  · have hplaced := h.attempted run hrun
    unfold placed at *
    rwa [hitems, hleft]

/-- Runs leave the items for a reason. -/
theorem Handled.leave {exit : ItemExit} (dropped : List FollowupRun) (h : Handled signals attempt q)
    (hitems : (dropped ++ q'.items).Perm q.items)
    (hleft : q'.left = dropped.map (·, exit) ++ q.left) (haborted : q.aborted = true → q'.aborted = true)
    (hfinished : q'.finished = q.finished) (henqueued : q'.enqueued = q.enqueued)
    (hnext : q'.nextRef = q.nextRef) (hreason : ∀ run ∈ dropped, Justified signals q' run exit) :
    Handled signals attempt q' := by
  have hplaced := placed_leave dropped hitems hleft
  refine ⟨h.conserved.of_perm hplaced henqueued (Nat.le_of_eq hnext.symm), fun run exit' hrun => ?_,
    fun run hrun => ?_, ?_, fun run hrun => hplaced.mem_iff.mpr (h.attempted run hrun)⟩
  · rw [hleft] at hrun
    rcases List.mem_append.mp hrun with hdropped | hbefore
    · obtain ⟨run', hrun', heq⟩ := List.mem_map.mp hdropped
      cases heq
      exact hreason run hrun'
    · refine (h.justified run exit' hbefore).mono (List.Subset.refl _) haborted ?_ ?_
      · rw [hfinished]
        exact List.Subset.refl _
      · rw [hleft]
        exact List.subset_append_right _ _
  · rw [hfinished]
    exact h.unfinished run (hitems.mem_iff.mp (List.mem_append_right _ hrun))
  · rw [hfinished, henqueued]
    exact h.known

theorem Handled.removed {exit : ItemExit} {processed : List FollowupRun} (h : Handled signals attempt q)
    (hreason : ∀ run ∈ processed, Justified signals q run exit) :
    Handled signals attempt (removeQueuedItemsByRef q processed exit) := by
  refine h.leave (q.items.filter (· ∈ processed)) ?_ rfl (fun h => h) rfl rfl rfl fun run hrun => ?_
  · have hsplit := List.filter_append_perm (fun run => decide (run ∈ processed)) q.items
    simpa [removeQueuedItemsByRef] using hsplit
  · have hprocessed : run ∈ processed := by simpa using (List.mem_filter.mp hrun).2
    refine (hreason run hprocessed).mono (List.Subset.refl _) ?_ ?_ ?_
    · exact fun h => h
    · exact List.Subset.refl _
    · exact List.subset_append_right _ _

/-- A finished attempt takes its runs out of the items. -/
theorem Handled.handed {runs : List FollowupRun} (h : Handled signals attempt q) (hruns : runs ⊆ attempt) :
    Handled signals attempt (removeQueuedItemsByRef (finishRuns q runs) runs .handed) := by
  have hplaced : (placed (removeQueuedItemsByRef (finishRuns q runs) runs .handed)).Perm (placed q) :=
    removeQueuedItemsByRef_placed (finishRuns q runs) runs .handed
  refine ⟨h.conserved.of_perm hplaced rfl (Nat.le_refl _), fun run exit hrun => ?_, fun run hrun => ?_,
    fun id hid => ?_, fun run hrun => hplaced.mem_iff.mpr (h.attempted run hrun)⟩
  · rcases List.mem_append.mp hrun with hleaves | hbefore
    · obtain ⟨run', hrun', heq⟩ := List.mem_map.mp hleaves
      cases heq
      have hmem : run ∈ runs := by simpa using (List.mem_filter.mp hrun').2
      exact List.mem_append_left _ (List.mem_map_of_mem hmem)
    · refine (h.justified run exit hbefore).mono (List.Subset.refl _) ?_
        (List.subset_append_right _ _) (List.subset_append_right _ _)
      exact fun h => h
  · obtain ⟨hitem, hother⟩ := List.mem_filter.mp hrun
    have hother : run ∉ runs := by simpa using hother
    intro hfinished
    rcases List.mem_append.mp hfinished with hnow | hbefore
    · -- a run of the attempt with this id would be this run
      obtain ⟨run', hrun', hid⟩ := List.mem_map.mp hnow
      have hsame := h.conserved.unique (h.attempted run' (hruns hrun')) (List.mem_append_left _ hitem) hid
      exact hother (hsame ▸ hrun')
    · exact h.unfinished run hitem hbefore
  · rcases List.mem_append.mp hid with hnow | hbefore
    · obtain ⟨run, hrun, rfl⟩ := List.mem_map.mp hnow
      exact h.conserved.recorded (h.attempted run (hruns hrun))
    · exact h.known hbefore

/-- The aborted run is still where it was found. -/
theorem Handled.splice {item : FollowupRun} {index : Nat} (h : Handled signals attempt q)
    (hitem : item ∈ attempt) (hfound : q.items[index]? = some item) (haborted : isFollowupRunAborted signals q item = true) :
    Handled signals attempt (spliceAborted q item index) := by
  have hplaced := spliceAborted_placed q item index
  obtain ⟨hindex, hget⟩ := List.getElem?_eq_some_iff.mp hfound
  have hperm : (item :: q.items.eraseIdx index).Perm q.items := by
    have hset := List.set_perm_cons_eraseIdx hindex q.items[index]
    rw [List.set_getElem_self, hget] at hset
    exact hset.symm
  have hids : (item.id :: (q.items.eraseIdx index).map (·.id)).Nodup := by
    have hnodup := h.conserved.perm.nodup_iff.mpr h.conserved.nodup
    unfold placed at hnodup
    rw [List.map_append] at hnodup
    exact (hperm.map (·.id)).nodup_iff.mpr hnodup.of_append_left
  refine ⟨h.conserved.of_perm hplaced rfl (Nat.le_refl _), fun run exit hrun => ?_, fun run hrun => ?_,
    fun id hid => ?_, fun run hrun => hplaced.mem_iff.mpr (h.attempted run hrun)⟩
  · dsimp only [spliceAborted] at hrun
    rw [hfound] at hrun
    rcases List.mem_append.mp hrun with hleaves | hbefore
    · obtain ⟨run', hrun', heq⟩ := List.mem_map.mp hleaves
      cases heq
      rw [Option.toList_some, List.mem_singleton] at hrun'
      subst hrun'
      exact haborted
    · refine (h.justified run exit hbefore).mono (List.Subset.refl _) ?_
        (List.subset_cons_self _ _) (List.subset_append_right _ _)
      exact fun h => h
  · intro hfinished
    rcases List.mem_cons.mp hfinished with hid | hbefore
    · exact (List.nodup_cons.mp hids).1 (hid ▸ List.mem_map_of_mem hrun)
    · exact h.unfinished run (hperm.mem_iff.mp (List.mem_cons_of_mem _ hrun)) hbefore
  · rcases List.mem_cons.mp hid with rfl | hbefore
    · exact h.conserved.recorded (h.attempted item hitem)
    · exact h.known hbefore

/-- There was nothing to remove. -/
theorem Handled.splice_empty {item : FollowupRun} {index : Nat} (h : Handled signals attempt q)
    (hitem : item ∈ attempt) (hempty : q.items = []) : Handled signals attempt (spliceAborted q item index) := by
  have hplaced := spliceAborted_placed q item index
  refine ⟨h.conserved.of_perm hplaced rfl (Nat.le_refl _), fun run exit hrun => ?_, fun run hrun => ?_,
    fun id hid => ?_, fun run hrun => hplaced.mem_iff.mpr (h.attempted run hrun)⟩
  · dsimp only [spliceAborted] at hrun
    rw [hempty, List.getElem?_nil] at hrun
    refine (h.justified run exit hrun).mono (List.Subset.refl _) ?_
      (List.subset_cons_self _ _) (List.subset_append_right _ _)
    exact fun h => h
  · dsimp only [spliceAborted] at hrun
    rw [hempty, List.eraseIdx_nil] at hrun
    cases hrun
  · rcases List.mem_cons.mp hid with rfl | hbefore
    · exact h.conserved.recorded (h.attempted item hitem)
    · exact h.known hbefore

/-- A new run joins the items. -/
theorem Handled.insertRun (req : EnqueueRequest) (h : Handled signals attempt q) :
    Handled signals attempt (insertRun q req) := by
  have hitems : ∀ run ∈ (AutoReply.insertRun q req).items, run.id = q.nextRef ∨ run ∈ q.items := by
    intro run hrun
    dsimp only [AutoReply.insertRun] at hrun
    split at hrun
    · rcases List.mem_cons.mp hrun with rfl | hrun
      · exact .inl rfl
      · exact .inr hrun
    · rcases List.mem_append.mp hrun with hrun | hrun
      · exact .inr hrun
      · rw [List.mem_singleton.mp hrun]
        exact .inl rfl
  refine ⟨h.conserved.insertRun req, fun run exit hrun => ?_, fun run hrun hfinished => ?_,
    fun id hid => List.mem_cons_of_mem _ (h.known hid), fun run hrun => ?_⟩
  · refine (h.justified run exit hrun).mono (List.Subset.refl _) ?_ ?_ ?_
    · exact fun h => h
    · exact List.Subset.refl _
    · exact List.Subset.refl _
  · rcases hitems run hrun with hnew | hbefore
    · exact Nat.lt_irrefl _ (hnew ▸ h.conserved.fresh _ (h.known hfinished))
    · exact h.unfinished run hbefore hfinished
  · rcases List.mem_append.mp (h.attempted run hrun) with hitem | hleft
    · refine List.mem_append_left _ ?_
      dsimp only [AutoReply.insertRun]
      split
      · exact List.mem_cons_of_mem _ hitem
      · exact List.mem_append_left _ hitem
    · exact List.mem_append_right _ hleft

theorem Handled.overflow (hframe : OverflowFrame q q') (h : Handled signals attempt q) : Handled signals attempt q' :=
  h.of_frame hframe.items hframe.left hframe.aborted hframe.finished hframe.enqueued
    (h.conserved.of_perm (List.Perm.of_eq hframe.placed) hframe.enqueued hframe.nextRef)

theorem Handled.applyQueueDropPolicy (h : Handled signals attempt q) :
    Handled signals attempt (applyQueueDropPolicy q).2 := by
  rcases applyQueueDropPolicy_cases q with
    ⟨room, heq⟩ | ⟨dropped, kept, hperm, -, -, heq⟩ | ⟨dropped, kept, hperm, -, -, heq⟩
  · rw [heq]
    exact h
  · rw [heq]
    refine h.leave dropped hperm rfl (fun h => h) rfl rfl rfl fun run hrun => mem_foldedRuns.mpr ?_
    exact List.mem_append_left _ (List.mem_map_of_mem hrun)
  · rw [heq]
    exact h.leave dropped hperm rfl (fun h => h) rfl rfl rfl fun run hrun => trivial

theorem Handled.enqueue (req : EnqueueRequest) (h : Handled signals attempt q) :
    Handled signals attempt (enqueueFollowupRun signals q req).2 := by
  refine enqueue_keeps signals req ?_ ?_ ?_ ?_ ?_ h
  · exact fun q hq => hq.of_frame rfl rfl rfl rfl rfl
      ⟨hq.conserved.perm, hq.conserved.nodup, hq.conserved.fresh⟩
  · exact fun q hq => hq.overflow (trim_overflow q)
  · exact fun q hq => hq.applyQueueDropPolicy
  · exact fun q hq => hq.overflow (foldOverflow_overflow q)
  · exact fun q hq => hq.insertRun req

theorem Handled.clear (h : Handled signals attempt q) : Handled signals attempt (clearFollowupQueue q) :=
  h.leave q.items (List.Perm.of_eq (List.append_nil _)) rfl (fun _ => rfl) rfl rfl rfl
    fun _ _ => rfl

theorem Handled.abort (signal : Nat) (h : Handled signals attempt q) : Handled (signal :: signals) attempt q :=
  ⟨h.conserved, fun run exit hrun => (h.justified run exit hrun).mono (List.subset_cons_self _ _)
    (fun h => h) (List.Subset.refl _) (List.Subset.refl _), h.unfinished, h.known, h.attempted⟩

end Handled

/-! ## Steps -/

/-- The run of an aborted attempt is still at its index. -/
def InPlace (q : FollowupQueue) : DrainPc → Prop
  | .droppingAborted attempt index _ => q.registered = true → q.items[index]? = some attempt.item
  | _ => True

instance (q : FollowupQueue) : (pc : DrainPc) → Decidable (InPlace q pc)
  | .droppingAborted attempt index _ =>
    inferInstanceAs (Decidable (q.registered = true → q.items[index]? = some attempt.item))
  | .idle | .starting | .droppedAborted _ | .debouncing | .prioritising _ | .prioritised _
  | .summarising _ | .elisionReturned .. | .elidedDrained _ | .overflowDrained _ | .running _
  | .ran _ | .collectSkipped | .collecting _ | .rejecting => isTrue trivial

/-- It is there when its callback returns. -/
def KeepsItsPlace (s : FollowupSystem) : FollowupEvent → Prop
  | .returned => InPlace s.queue s.pc
  | _ => True

instance (s : FollowupSystem) : (event : FollowupEvent) → Decidable (KeepsItsPlace s event)
  | .returned => inferInstanceAs (Decidable (InPlace s.queue s.pc))
  | .enqueue _ | .clear | .abort _ | .schedule | .denied | .tick | .threw _ | .admits => isTrue trivial

def AbortedAttempt (signals : List Nat) (q : FollowupQueue) (pc : DrainPc) : Prop :=
  ∀ attempt index debounced, pc = .droppingAborted attempt index debounced →
    isFollowupRunAborted signals q attempt.item = true

structure Handling (s : FollowupSystem) : Prop where
  sound : Sound s
  handled : Handled s.signals s.pc.attempt s.queue
  aborted : AbortedAttempt s.signals s.queue s.pc

theorem Entered.attempt {signals : List Nat} {q : FollowupQueue} {pc : DrainPc}
    (h : Entered signals q pc) : pc.attempt ⊆ q.items := by
  cases h with
  | plain =>
    rename_i hplain
    cases pc <;> first | exact List.nil_subset _ | cases hplain
  | droppingAborted debounced hfound =>
    exact List.cons_subset.mpr ⟨List.mem_of_getElem? hfound, List.nil_subset _⟩
  | prioritising hqueued => exact List.cons_subset.mpr ⟨hqueued, List.nil_subset _⟩
  | running hqueued => exact List.cons_subset.mpr ⟨hqueued, List.nil_subset _⟩
  | collecting rest hqueued => exact hqueued
  | summarising => exact List.nil_subset _

theorem Entered.aborted {signals : List Nat} {q : FollowupQueue} {pc : DrainPc}
    (h : Entered signals q pc) : AbortedAttempt signals q pc := by
  intro attempt index debounced hpc
  subst hpc
  cases h with
  | plain =>
    rename_i hplain
    cases hplain
  | droppingAborted debounced hfound haborted => exact haborted

theorem Handled.op (hsplice : ∀ attempt index debounced, s.pc = .droppingAborted attempt index debounced →
    s.queue.items = [] ∨ (s.queue.items[index]? = some attempt.item ∧
    isFollowupRunAborted s.signals s.queue attempt.item = true)) (h : QueueOp s q q') (hq :
    Handled s.signals s.pc.attempt q) : Handled s.signals s.pc.attempt q' := by
  cases h with
  | flight =>
    exact hq.of_frame rfl rfl rfl rfl rfl
      ⟨hq.conserved.perm, hq.conserved.nodup, hq.conserved.fresh⟩
  | handed => exact hq.handed ‹_›
  | handedBefore | removed => exact hq.removed ‹_›
  | splice hpc =>
    rename_i attempt index debounced
    have hitem : attempt.item ∈ s.pc.attempt := by
      rw [hpc]
      exact List.mem_singleton_self _
    rcases hsplice _ _ _ hpc with hempty | ⟨hfound, haborted⟩
    · exact hq.splice_empty hitem hempty
    · exact hq.splice hitem hfound haborted
  | activate => exact hq.overflow (.of_write (Nat.le_refl _) (Nat.le_refl _))
  | release => exact hq.overflow (releaseActiveSources_overflow q _ _)
  | consume => exact hq.overflow (consume_overflow _ _ _ _)
  | retry => exact hq.overflow (releaseForRetry_overflow q _)
  | dropAborted => exact hq.overflow (dropAbortedAt_overflow _ _ q)
  | dropAbortedElided | resetEvicted => exact hq.overflow (.of_write (Nat.le_refl _) (Nat.sub_le _ _))
  | elision => exact hq.overflow (elisionDelivered_overflow _ _)

theorem Handled.admits {s : FollowupSystem} {queue : FollowupQueue} {pc : DrainPc}
    (h : Handled s.signals s.pc.attempt s.queue) (haborted : AbortedAttempt s.signals s.queue s.pc)
    (hadmits : admission s.queue s.pc = some (queue, pc)) :
    Handled s.signals pc.attempt queue ∧ AbortedAttempt s.signals queue pc := by
  have hsame (runs : List FollowupRun) : Handled s.signals s.pc.attempt (admitRuns s.queue runs) :=
    h.of_frame rfl rfl rfl rfl rfl ⟨h.conserved.perm, h.conserved.nodup, h.conserved.fresh⟩
  generalize s.pc = spc at h haborted hadmits hsame
  cases spc with
  | droppingAborted attempt index debounced =>
    simp only [admission] at hadmits
    split at hadmits
    · cases hadmits
      refine ⟨hsame _, fun attempt' index' debounced' hpc => ?_⟩
      cases hpc
      exact haborted attempt index debounced rfl
    · cases hadmits
  | prioritising attempt =>
    simp only [admission] at hadmits
    split at hadmits
    · cases hadmits
      exact ⟨hsame _, fun _ _ _ hpc => by cases hpc⟩
    · cases hadmits
  | running attempt =>
    simp only [admission] at hadmits
    split at hadmits
    · cases hadmits
      exact ⟨hsame _, fun _ _ _ hpc => by cases hpc⟩
    · cases hadmits
  | summarising delivery =>
    simp only [admission] at hadmits
    split at hadmits
    · cases hadmits
      exact ⟨h.overflow (consume_overflow _ _ _ _), fun _ _ _ hpc => by cases hpc⟩
    · cases hadmits
  | collecting group =>
    simp only [admission] at hadmits
    split at hadmits
    · cases hadmits
      exact ⟨(hsame group.active).handed (List.Subset.refl _), fun _ _ _ hpc => by cases hpc⟩
    · cases hadmits
  | _ => cases hadmits

/-- An event other than the return of its callback leaves the queue of an aborted attempt alone. -/
theorem droppingAborted_segment {event : FollowupEvent} {segment : Segment} {attempt : ItemAttempt} {index : Nat}
    {debounced : Bool} (hpc : s.pc = .droppingAborted attempt index debounced) (h : resume s event = some segment) :
    event = .returned ∨ segment.queue = s.queue := by
  unfold resume at h
  rw [hpc] at h
  cases event with
  | returned => exact .inl rfl
  | threw deferred =>
    cases h
    exact .inr rfl
  | _ => cases h

theorem Handling.segment {event : FollowupEvent} {segment : Segment} (hguard : KeepsItsPlace s event) (h : Handling s)
    (hsegment : resume s event = some segment) : Handled s.signals s.pc.attempt segment.queue := by
  have hops := resume_ops h.sound.live h.sound.held hsegment
  by_cases hquiet : segment.queue = s.queue
  · rw [hquiet]
    exact h.handled
  · refine ops_keep (fun _ _ hop => .op (fun attempt index debounced hpc => ?_) hop) hops h.handled
    have hreturned := (droppingAborted_segment hpc hsegment).resolve_right hquiet
    subst hreturned
    unfold KeepsItsPlace at hguard
    rw [hpc] at hguard
    cases hregistered : s.queue.registered with
    | false => exact .inl (h.sound.live.closed hregistered).1
    | true => exact .inr ⟨hguard hregistered, h.aborted attempt index debounced hpc⟩

theorem Handled.attempts {signals : List Nat} {attempt attempt' : List FollowupRun} {q : FollowupQueue}
    (h : Handled signals attempt q) (hattempt : attempt' ⊆ q.items) : Handled signals attempt' q :=
  ⟨h.conserved, h.justified, h.unfinished, h.known,
    fun _ hrun => List.mem_append_left _ (hattempt hrun)⟩

theorem Handling.step {event : FollowupEvent} (hguard : KeepsItsPlace s event) (h : Handling s) :
    Handling (followupStep s event) := by
  have hstep := followupStep_step s event
  have hsound := h.sound.step event
  generalize followupStep s event = s' at hstep hsound
  cases hstep with
  | skip => exact h
  | enqueue req =>
    refine ⟨hsound, h.handled.enqueue req, fun attempt index debounced hpc => ?_⟩
    have haborted := h.aborted attempt index debounced hpc
    unfold isFollowupRunAborted at haborted ⊢
    rw [(enqueue_sameFlight s.signals s.queue req).2.1]
    exact haborted
  | clear =>
    refine ⟨hsound, h.handled.clear, fun attempt index debounced hpc => ?_⟩
    exact Bool.or_true _
  | abort signal =>
    refine ⟨hsound, h.handled.abort signal, fun attempt index debounced hpc => ?_⟩
    have haborted := h.aborted attempt index debounced hpc
    exact isFollowupRunAborted_mono (List.subset_cons_self _ _) (fun h => h) haborted
  | schedule | denied => exact ⟨hsound, h.handled.attempts (List.nil_subset _), fun _ _ _ hpc => by cases hpc⟩
  | admits hadmits =>
    obtain ⟨hhandled, haborted⟩ := h.handled.admits h.aborted hadmits
    exact ⟨hsound, hhandled, haborted⟩
  | awaits hsegment =>
    have henters := resume_enters hsegment
    exact ⟨hsound, (h.segment hguard hsegment).attempts henters.attempt, henters.aborted⟩
  | ends hsegment =>
    rename_i segment hdone
    have hafter := (h.segment hguard hsegment).attempts (List.nil_subset segment.queue.items)
    refine ⟨hsound, ?_, ?_⟩
    · unfold afterLoop
      split
      · dsimp only
        split <;> exact hafter
      · exact hafter.of_frame rfl rfl rfl rfl rfl
          ⟨hafter.conserved.perm, hafter.conserved.nodup, hafter.conserved.fresh⟩
    · intro attempt index debounced hpc
      unfold afterLoop at hpc
      split at hpc
      · dsimp only at hpc
        split at hpc <;> cases hpc
      · cases hpc

theorem handling_newSystem (settings : QueueSettings) : Handling (newSystem settings) := by
  refine ⟨sound_newSystem settings, ⟨⟨List.Perm.refl _, List.nodup_nil, ?_⟩, ?_, ?_, ?_, ?_⟩, ?_⟩
  · exact fun _ hid => absurd hid List.not_mem_nil
  · exact fun _ _ hrun => absurd hrun List.not_mem_nil
  · exact fun _ hrun => absurd hrun List.not_mem_nil
  · exact List.nil_subset _
  · exact fun _ hrun => absurd hrun List.not_mem_nil
  · exact fun _ _ _ hpc => by cases hpc

/-- **The queue loses nothing and hands nothing out twice.**  A run that was enqueued waits, or has left
in one way, for the reason on record; a closed queue keeps nobody waiting; and the callback never gets a
run again after an attempt that succeeded, or whose batch was admitted. -/
theorem followup_runs_accounted (settings : QueueSettings) (script : List FollowupEvent)
    (hguard : Guarded followupStep KeepsItsPlace (newSystem settings) script) :
    let s := run followupStep (newSystem settings) script
    (s.queue.enqueued.Nodup ∧
      ((s.queue.items ++ s.queue.left.map (·.1)).map (·.id)).Perm s.queue.enqueued) ∧
    (∀ run exit, (run, exit) ∈ s.queue.left → Justified s.signals s.queue run exit) ∧
    (s.queue.registered = false → s.queue.items = []) ∧
    (∀ event segment, KeepsItsPlace s event → resume s event = some segment →
      ∀ run ∈ segment.attempt, run.id ∉ segment.queue.finished) ∧
    ∀ req, ((enqueueFollowupRun s.signals s.queue req).1 = true ∧ ∃ id, s.queue.nextRef ≤ id ∧
        (enqueueFollowupRun s.signals s.queue req).2.enqueued = id :: s.queue.enqueued) ∨
      ((enqueueFollowupRun s.signals s.queue req).1 = false ∧
        (enqueueFollowupRun s.signals s.queue req).2.enqueued = s.queue.enqueued) := by
  intro s
  have hrun : Handling s := run_invariant_guarded (fun _ _ hguard h => h.step hguard) script hguard
    (handling_newSystem settings)
  refine ⟨⟨hrun.handled.conserved.nodup, hrun.handled.conserved.perm⟩, hrun.handled.justified,
    fun hclosed => (hrun.sound.live.closed hclosed).1, fun event segment hevent hsegment run hattempt => ?_,
    fun req => enqueueFollowupRun_recorded s.signals s.queue req⟩
  have hafter := hrun.segment hevent hsegment
  have henters := resume_enters hsegment
  cases segment with
  | awaits q force pc => exact hafter.unfinished run (henters.attempt hattempt)
  | leaves q => cases hattempt
  | throws q => cases hattempt

def followupSettings : QueueSettings := { mode := .followup, cap := none, dropPolicy := none }

/-- A message whose source can withdraw it. -/
def abortableRequest : EnqueueRequest :=
  { plainRequest followupSettings with
    run := { (plainRequest followupSettings).run with abortSignal := some 1 } }

/-- The first of two messages is withdrawn; the drain drops it and runs the other. -/
def withdrawnScript : List FollowupEvent :=
  [.enqueue abortableRequest, .enqueue (plainRequest followupSettings), .abort 1, .schedule,
    .tick, .returned, .tick, .tick, .tick, .tick, .returned, .tick]

theorem followup_runs_accounted_withdrawn :
    let s := run followupStep (newSystem followupSettings) withdrawnScript
    s.queue.left.map (fun (run, exit) => (run.id, exit)) = [(1, .handed), (0, .aborted)] ∧
      ∀ run exit, (run, exit) ∈ s.queue.left → Justified s.signals s.queue run exit := by
  have hguard : Guarded followupStep KeepsItsPlace (newSystem followupSettings) withdrawnScript := by
    decide
  exact ⟨by decide, (followup_runs_accounted followupSettings withdrawnScript hguard).2.1⟩

/-! ## Attempts that fail, and items that move -/

/-- A message whose callback asks for admission. -/
def admittingRequest : EnqueueRequest :=
  { plainRequest followupSettings with
    run := { (plainRequest followupSettings).run with
      queuedLifecycle := some { id := 0, onAdmitted := true } } }

/-- The attempt is admitted, then throws, and the drain comes back to the run. -/
def retriedScript : List FollowupEvent :=
  [.enqueue admittingRequest, .schedule, .tick, .tick, .tick, .tick, .tick, .admits, .threw false,
    .tick, .tick, .tick, .tick, .tick]

/-- While the callback handles the withdrawn message, another one comes in at the front. -/
def movedScript : List FollowupEvent :=
  [.enqueue abortableRequest, .abort 1, .schedule, .tick,
    .enqueue { plainRequest followupSettings with front := true }, .returned]

theorem admitted_run_handed_again_moved_run_lost :
    (¬∀ (settings : QueueSettings) (script : List FollowupEvent) (event : FollowupEvent)
      (segment : Segment), resume (run followupStep (newSystem settings) script) event = some segment →
        ∀ run ∈ segment.attempt, run.id ∉ segment.queue.admittedRuns) ∧
    ¬∀ (settings : QueueSettings) (script : List FollowupEvent) (item : FollowupRun) (exit : ItemExit),
      let s := run followupStep (newSystem settings) script
      (item, exit) ∈ s.queue.left → Justified s.signals s.queue item exit := by
  constructor
  · intro h
    have hagain : ∃ segment,
        resume (run followupStep (newSystem followupSettings) retriedScript) .tick = some segment ∧
          segment.attempt.map (·.id) = [0] ∧ 0 ∈ segment.queue.admittedRuns := by
      refine ⟨_, rfl, rfl, ?_⟩
      decide
    obtain ⟨segment, hsegment, hattempt, hadmitted⟩ := hagain
    have hmem : 0 ∈ segment.attempt.map (·.id) := by
      rw [hattempt]
      decide
    obtain ⟨run, hrun, hid⟩ := List.mem_map.mp hmem
    exact h _ _ _ segment hsegment run hrun (hid ▸ hadmitted)
  · intro h
    let s := run followupStep (newSystem followupSettings) movedScript
    have hlost : ∃ item : FollowupRun, (item, ItemExit.aborted) ∈ s.queue.left ∧
        isFollowupRunAborted s.signals s.queue item = false := ⟨_, List.mem_cons_self, rfl⟩
    obtain ⟨item, hitem, hnot⟩ := hlost
    have haborted : isFollowupRunAborted s.signals s.queue item = true :=
      h followupSettings movedScript item .aborted hitem
    rw [hnot] at haborted
    cases haborted

end OpenClaw.AutoReply
