/-
# OpenClaw.Process.CommandQueueLanes -- one step of the command queue, and the order of its lanes

`StepsTo` says once what a step of the machine can be; the invariants of the lanes follow from it.
The first of them is here: in every run, each lane's queue is ordered by priority and then by age.
-/
import OpenClaw.Process.CommandQueue

namespace OpenClaw.Process.CommandQueue

open OpenClaw.Logic OpenClaw.Data

/-! ## Reading a lane after an operation -/

theorem lane_setLane (m : Machine) (lane l : String) (state : LaneState) :
    (m.setLane lane state).lane l = if l = lane then state else m.lane l := by
  show ((m.state.lanes.upsert lane state).find l).getD {} = _
  rw [Table.find_upsert]
  split
  · rfl
  · rfl

@[simp] theorem drainLane_started (m : Machine) (lane : String) : (drainLane m lane).started = m.started := by
  unfold drainLane
  split <;> rfl

@[simp] theorem drainLane_nextQueueSequence (m : Machine) (lane : String) :
    (drainLane m lane).state.nextQueueSequence = m.state.nextQueueSequence := by
  unfold drainLane
  split <;> rfl

/-- Draining a lane marks it and changes no other field of any lane. -/
theorem lane_drainLane (m : Machine) (lane l : String) :
    (drainLane m lane).lane l
      = { m.lane l with draining := (m.lane l).draining || decide (l = lane) } := by
  unfold drainLane
  split
  · rename_i hdraining
    by_cases hl : l = lane
    · subst hl
      simp only [hdraining, Bool.true_or]
      rw [← hdraining]
    · simp [hl]
  · show (m.setLane lane _).lane l = _
    rw [lane_setLane]
    split
    · rename_i hl
      subst hl
      simp
    · rename_i hl
      simp [hl]

theorem drainLane_stack (m : Machine) (lane : String) : (drainLane m lane).stack
      = if (m.lane lane).draining then m.stack else .pump lane :: m.stack := by
  unfold drainLane
  split <;> rfl

theorem lane_startTask (m : Machine) (lane l : String) :
    (startTask m lane).lane l
      = if l = lane then
          { m.lane lane with
            activeTaskIds := addTaskId (m.lane lane).activeTaskIds m.state.nextTaskId }
        else m.lane l :=
  lane_setLane { m with state := { m.state with nextTaskId := m.state.nextTaskId + 1 } } lane l _

theorem enqueueLaneEntry_active (state : LaneState) (entry : QueueEntry) :
    (enqueueLaneEntry state entry).activeTaskIds = state.activeTaskIds := rfl

theorem enqueueLaneEntry_max (state : LaneState) (entry : QueueEntry) :
    (enqueueLaneEntry state entry).maxConcurrent = state.maxConcurrent := rfl

theorem addTaskId_length (taskIds : List Nat) (taskId : Nat) :
    (addTaskId taskIds taskId).length ≤ taskIds.length + 1 := by
  unfold addTaskId
  split
  · omega
  · simp

theorem lane_resetAllLanes (m : Machine) (l : String) : (resetAllLanes m).lane l
      = if (m.state.lanes.find l).isSome then resetLane (m.lane l) else {} := by
  show (((m.state.lanes.updateWhere (fun _ => true) resetLane).1).find l).getD {} = _
  rw [Table.find_updateWhere]
  show _ = if (m.state.lanes.find l).isSome then resetLane ((m.state.lanes.find l).getD {}) else {}
  cases m.state.lanes.find l <;> rfl

variable {m : Machine}

/-- A lane that exists is the one read. -/
theorem lane_of_find {lane : String} {state : LaneState} (h : m.state.lanes.find lane = some state) :
    m.lane lane = state := by
  show (m.state.lanes.find lane).getD {} = state
  rw [h]
  rfl

/-! ## What one step can be -/

/-- The steps of the machine: callers act, the innermost call goes on, a callback returns, or a task
settles while nothing is running. -/
inductive StepsTo (m : Machine) : QueueEvent → Machine → Prop
  | enqueue (lane opts now admissionClosed) :
      StepsTo m (.enqueue lane opts now admissionClosed) (enqueueCommandInLane m lane opts now admissionClosed)
  | setConcurrency (lane maxConcurrent) (hcallers : callersRun m.stack = true) :
      StepsTo m (.setConcurrency lane maxConcurrent) (setCommandLaneConcurrency m lane maxConcurrent)
  | clear (lane) : StepsTo m (.clear lane) (clearCommandLane m lane)
  | reset (lane) : StepsTo m (.reset lane) (resetCommandLane m lane)
  | resetAll : StepsTo m .resetAll (resetAllLanes m)
  | round (lane rest now) (hstack : m.stack = .pump lane :: rest) :
      StepsTo m (.goOn now) (pumpRound m lane rest now)
  | drained (rest now) (hstack : m.stack = .drainLanes [] :: rest) :
      StepsTo m (.goOn now) { m with stack := rest }
  | drainsNext (lane lanes rest now) (hstack : m.stack = .drainLanes (lane :: lanes) :: rest) :
      StepsTo m (.goOn now) (drainLane { m with stack := .drainLanes lanes :: rest } lane)
  | returns (lane entry rest) (hstack : m.stack = .waiting lane entry :: rest) :
      StepsTo m .callbackReturns (startTask { m with stack := .pump lane :: rest } lane)
  | settles (task) (hidle : m.stack = []) (hrunning : task ∈ m.running) :
      StepsTo m (.settles task) (taskSettled m task)

theorem stepQueue?_stepsTo {m m' : Machine} {event : QueueEvent}
    (h : stepQueue? m event = some m') : StepsTo m event m' := by
  cases event with
  | enqueue lane opts now admissionClosed =>
    obtain ⟨-, rfl⟩ : callersRun m.stack ∧ _ = m' := by simpa [stepQueue?] using h
    exact .enqueue lane opts now admissionClosed
  | setConcurrency lane maxConcurrent =>
    obtain ⟨hcallers, rfl⟩ : callersRun m.stack ∧ _ = m' := by simpa [stepQueue?] using h
    exact .setConcurrency lane maxConcurrent hcallers
  | clear lane =>
    obtain ⟨-, rfl⟩ : callersRun m.stack ∧ _ = m' := by simpa [stepQueue?] using h
    exact .clear lane
  | reset lane =>
    obtain ⟨-, rfl⟩ : callersRun m.stack ∧ _ = m' := by simpa [stepQueue?] using h
    exact .reset lane
  | resetAll =>
    obtain ⟨-, rfl⟩ : callersRun m.stack ∧ _ = m' := by simpa [stepQueue?] using h
    exact .resetAll
  | goOn now =>
    simp only [stepQueue?, goOn] at h
    split at h
    · rename_i lane rest hstack
      cases h
      exact .round lane rest now hstack
    · rename_i rest hstack
      cases h
      exact .drained rest now hstack
    · rename_i lane lanes rest hstack
      cases h
      exact .drainsNext lane lanes rest now hstack
    · cases h
  | callbackReturns =>
    simp only [stepQueue?, callbackReturns] at h
    split at h
    · rename_i lane entry rest hstack
      cases h
      exact .returns lane entry rest hstack
    · cases h
  | settles task =>
    obtain ⟨⟨hidle, hrunning⟩, rfl⟩ : (m.stack = [] ∧ task ∈ m.running) ∧ _ = m' := by
      simpa [stepQueue?] using h
    exact .settles task hidle hrunning

/-! ## Order -/

/-- `a` goes before `b`: by descending priority, then by ascending sequence. -/
def Before (a b : QueueEntry) : Prop := b.priority < a.priority ∨ (a.priority = b.priority ∧ a.sequence < b.sequence)

theorem queuedBehind_iff {entry queued : QueueEntry} : queuedBehind entry queued = true ↔ Before entry queued := by
  simp only [queuedBehind, Before, Bool.or_eq_true, Bool.and_eq_true, decide_eq_true_eq]
  constructor
  · rintro (h | ⟨h, h'⟩)
    · exact .inl h
    · exact .inr ⟨h.symm, h'⟩
  · rintro (h | ⟨h, h'⟩)
    · exact .inl h
    · exact .inr ⟨h.symm, h'⟩

theorem Before.trans {a b c : QueueEntry} (hab : Before a b) (hbc : Before b c) : Before a c := by
  rcases hab with h | ⟨h, h'⟩ <;> rcases hbc with g | ⟨g, g'⟩
  · exact .inl (by omega)
  · exact .inl (by omega)
  · exact .inl (by omega)
  · exact .inr ⟨by omega, by omega⟩

/-- An entry younger than all others goes behind those that it does not go before. -/
theorem before_of_not_behind {a entry : QueueEntry} (hyounger : a.sequence < entry.sequence)
    (h : ¬queuedBehind entry a = true) : Before a entry := by
  rw [queuedBehind_iff] at h
  by_cases hpriority : a.priority = entry.priority
  · exact .inr ⟨hpriority, hyounger⟩
  · refine .inl ?_
    by_contra hle
    exact h (.inl (by omega))

/-- **Inserting keeps the queue in order.** -/
theorem enqueueLaneEntry_sorted {state : LaneState} {entry : QueueEntry}
    (hsorted : state.queue.Pairwise Before) (hyounger : ∀ a ∈ state.queue, a.sequence < entry.sequence) :
    (enqueueLaneEntry state entry).queue.Pairwise Before := by
  have hindex : state.queue.findIdx (queuedBehind entry)
      = state.queue.findIdx fun a => !(fun a => !queuedBehind entry a) a := by simp
  unfold enqueueLaneEntry
  dsimp only
  -- What the new entry is spliced between: those ahead of it, and the rest from the first one behind.
  rw [hindex, ← List.takeWhile_eq_take_findIdx_not, ← List.dropWhile_eq_drop_findIdx_not]
  set ahead := state.queue.takeWhile fun a => !queuedBehind entry a with hahead
  set behind := state.queue.dropWhile fun a => !queuedBehind entry a with hbehind
  have hsplit : ahead ++ behind = state.queue := List.takeWhile_append_dropWhile
  rw [← hsplit, List.pairwise_append] at hsorted
  obtain ⟨hsahead, hsbehind, hacross⟩ := hsorted
  have hleft : ∀ a ∈ ahead, Before a entry := by
    intro a ha
    have hnot : (!queuedBehind entry a) = true := List.mem_takeWhile_imp (p := fun a => !queuedBehind entry a) ha
    refine before_of_not_behind (hyounger a ?_) (by simpa using hnot)
    rw [← hsplit]
    exact List.mem_append_left _ ha
  have hright : ∀ b ∈ behind, Before entry b := by
    cases hlist : behind with
    | nil => simp
    | cons first rest =>
      have hfirst : queuedBehind entry first = true := by
        have := List.head?_dropWhile_not (fun a => !queuedBehind entry a) state.queue
        rw [← hbehind, hlist] at this
        simpa using this
      rw [hlist] at hsbehind
      intro b hb
      rcases List.mem_cons.mp hb with rfl | hb
      · exact queuedBehind_iff.mp hfirst
      · exact (queuedBehind_iff.mp hfirst).trans ((List.pairwise_cons.mp hsbehind).1 b hb)
  rw [List.pairwise_append, List.pairwise_cons]
  refine ⟨hsahead, ⟨fun b hb => hright b hb, hsbehind⟩, ?_⟩
  intro a ha b hb
  rcases List.mem_cons.mp hb with rfl | hb
  · exact hleft a ha
  · exact hacross a ha b hb

/-- The queues are in order, and every entry is older than the next one to come. -/
structure Sorted (m : Machine) : Prop where
  order : ∀ l, (m.lane l).queue.Pairwise Before
  younger : ∀ l, ∀ a ∈ (m.lane l).queue, a.sequence < m.state.nextQueueSequence

/-- Taking entries away keeps the order. -/
theorem Sorted.of_sublist {m m' : Machine} (h : Sorted m) (hqueue : ∀ l, (m'.lane l).queue.Sublist (m.lane l).queue)
    (hnext : m'.state.nextQueueSequence = m.state.nextQueueSequence) : Sorted m' := by
  refine ⟨fun l => (h.order l).sublist (hqueue l), fun l a ha => ?_⟩
  rw [hnext]
  exact h.younger l a ((hqueue l).subset ha)

theorem setLane_sorted (h : Sorted m) {lane : String} {state : LaneState}
    (hqueue : state.queue.Sublist (m.lane lane).queue) : Sorted (m.setLane lane state) := by
  refine h.of_sublist (fun l => ?_) rfl
  rw [lane_setLane]
  split
  · rename_i hl
    subst hl
    exact hqueue
  · exact List.Sublist.refl _

theorem drainLane_sorted (h : Sorted m) (lane : String) : Sorted (drainLane m lane) := by
  refine h.of_sublist (fun l => ?_) (drainLane_nextQueueSequence m lane)
  rw [lane_drainLane]

theorem startTask_sorted (h : Sorted m) (lane : String) : Sorted (startTask m lane) := by
  refine h.of_sublist (fun l => ?_) rfl
  rw [lane_startTask]
  split
  · rename_i hl
    subst hl
    exact List.Sublist.refl _
  · exact List.Sublist.refl _

/-- The stack is not part of the order. -/
theorem Sorted.withStack (h : Sorted m) (stack : List Frame) : Sorted { m with stack } := ⟨h.order, h.younger⟩

theorem enqueueCommandInLane_sorted (h : Sorted m) (lane : String) (opts : EnqueueOptions) (now : Int)
    (admissionClosed : Bool) : Sorted (enqueueCommandInLane m lane opts now admissionClosed) := by
  unfold enqueueCommandInLane
  split
  · exact h
  · dsimp only
    refine drainLane_sorted ⟨fun l => ?_, fun l a ha => ?_⟩ _
    · rw [lane_setLane]
      split
      · exact enqueueLaneEntry_sorted (h.order _) (h.younger _)
      · exact h.order l
    · rw [lane_setLane] at ha
      show a.sequence < m.state.nextQueueSequence + 1
      split at ha
      · have hmem := ha
        simp only [enqueueLaneEntry, List.mem_append, List.mem_cons] at hmem
        rcases hmem with hahead | rfl | hbehind
        · exact Nat.lt_succ_of_lt (h.younger _ a (List.mem_of_mem_take hahead))
        · exact Nat.lt_succ_self _
        · exact Nat.lt_succ_of_lt (h.younger _ a (List.mem_of_mem_drop hbehind))
      · exact Nat.lt_succ_of_lt (h.younger l a ha)

theorem pumpRound_sorted (h : Sorted m) (lane : String) (rest : List Frame) (now : Int) :
    Sorted (pumpRound m lane rest now) := by
  have hleft : Sorted (m.setLane lane { m.lane lane with draining := false }) := setLane_sorted h (List.Sublist.refl _)
  unfold pumpRound
  dsimp only
  split
  · exact hleft.withStack rest
  · rename_i entry queue hqueue
    have htaken : Sorted (m.setLane lane { m.lane lane with queue }) :=
      setLane_sorted h (hqueue ▸ List.sublist_cons_self entry queue)
    split
    · split
      · exact htaken.withStack _
      · exact startTask_sorted htaken lane
    · exact hleft.withStack rest

theorem setCommandLaneConcurrency_sorted (h : Sorted m) (lane : String) (maxConcurrent : Int) :
    Sorted (setCommandLaneConcurrency m lane maxConcurrent) := by
  unfold setCommandLaneConcurrency
  dsimp only
  have hset : Sorted (m.setLane (normalizeLane lane) { m.lane (normalizeLane lane) with
      maxConcurrent := laneLimit (normalizeLane lane) maxConcurrent }) :=
    setLane_sorted h (List.Sublist.refl _)
  split
  · exact drainLane_sorted hset _
  · exact hset

theorem clearCommandLane_sorted (h : Sorted m) (lane : String) : Sorted (clearCommandLane m lane) := by
  unfold clearCommandLane
  dsimp only
  split
  · exact h
  · exact setLane_sorted h (List.nil_sublist _)

theorem resetCommandLane_sorted (h : Sorted m) (lane : String) : Sorted (resetCommandLane m lane) := by
  unfold resetCommandLane
  dsimp only
  split
  · exact h
  · rename_i state hfind
    have hset : Sorted (m.setLane (normalizeLane lane) (resetLane state)) :=
      setLane_sorted h (lane_of_find hfind ▸ List.Sublist.refl _)
    split
    · exact drainLane_sorted hset _
    · exact hset

theorem resetAllLanes_sorted (h : Sorted m) : Sorted (resetAllLanes m) := by
  refine h.of_sublist (fun l => ?_) rfl
  rw [lane_resetAllLanes]
  split
  · exact List.Sublist.refl _
  · exact List.nil_sublist _

theorem taskSettled_sorted (h : Sorted m) (task : RunningTask) : Sorted (taskSettled m task) := by
  unfold taskSettled
  dsimp only
  split
  · exact ⟨h.order, h.younger⟩
  · have hset : Sorted (m.setLane task.lane { m.lane task.lane with
        activeTaskIds := (m.lane task.lane).activeTaskIds.erase task.taskId }) :=
      setLane_sorted h (List.Sublist.refl _)
    exact ⟨hset.order, hset.younger⟩

/-- One step keeps the queues in order. -/
theorem StepsTo.sorted {m m' : Machine} {event : QueueEvent} (hstep : StepsTo m event m')
    (h : Sorted m) : Sorted m' := by
  cases hstep with
  | enqueue lane opts now admissionClosed =>
    exact enqueueCommandInLane_sorted h lane opts now admissionClosed
  | setConcurrency lane maxConcurrent _ => exact setCommandLaneConcurrency_sorted h lane maxConcurrent
  | clear lane => exact clearCommandLane_sorted h lane
  | reset lane => exact resetCommandLane_sorted h lane
  | resetAll => exact resetAllLanes_sorted h
  | round lane rest now _ => exact pumpRound_sorted h lane rest now
  | drained rest now _ => exact h.withStack rest
  | drainsNext lane lanes rest now _ => exact drainLane_sorted (h.withStack _) lane
  | returns lane entry rest _ => exact startTask_sorted (h.withStack _) lane
  | settles task _ _ => exact taskSettled_sorted h task

end OpenClaw.Process.CommandQueue
