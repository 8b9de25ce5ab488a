/-
# OpenClaw.Process.CommandQueueSlots -- progress and limits of command lanes

`Driven`: a lane with waiting commands and free slots has a call on the stack that will get to it, so
none is stranded once the stack is empty.  `Reserved`: the slots that suspended pumps are going to
fill are still free when their callbacks return, so no start exceeds the limit.  The first holds in
every run.  The second does not: the pump that a settling task enters does not mark its lane as
draining, and its callback can make another pump take the same slot; so can a callback that lowers the
limit.  `KeepsReservations` is the condition that excludes this.
-/
import OpenClaw.Process.CommandQueueLanes

namespace OpenClaw.Process.CommandQueue

open OpenClaw.Logic OpenClaw.Data

/-! ## Calls on the stack -/

/-- The call is a pump of the lane, at its loop or inside a callback. -/
def Frame.pumps (l : String) : Frame → Bool
  | .pump lane | .waiting lane _ => lane = l
  | .drainLanes _ => false

/-- The call will get to the lane's queue. -/
def Frame.covers (l : String) : Frame → Bool
  | .pump lane | .waiting lane _ => lane = l
  | .drainLanes lanes => l ∈ lanes

/-- The call is a pump of the lane inside a callback: it will start one task. -/
def Frame.holdsSlot (l : String) : Frame → Bool
  | .waiting lane _ => lane = l
  | _ => false

theorem Frame.covers_of_pumps {l : String} {f : Frame} (h : f.pumps l = true) : f.covers l = true := by
  cases f with
  | pump lane => exact h
  | waiting lane entry => exact h
  | drainLanes lanes => cases h

theorem covers_of_pumps {l : String} {stack : List Frame} (h : stack.any (·.pumps l) = true) :
    stack.any (·.covers l) = true := by
  rw [List.any_eq_true] at h ⊢
  obtain ⟨f, hf, hpumps⟩ := h
  exact ⟨f, hf, Frame.covers_of_pumps hpumps⟩

/-- The slots of the lane that suspended pumps are going to fill. -/
def heldSlots (stack : List Frame) (l : String) : Nat := stack.countP (·.holdsSlot l)

@[simp] theorem heldSlots_pump (lane l : String) (rest : List Frame) :
    heldSlots (.pump lane :: rest) l = heldSlots rest l := by
  simp [heldSlots, Frame.holdsSlot]

@[simp] theorem heldSlots_drainLanes (lanes : List String) (l : String) (rest : List Frame) :
    heldSlots (.drainLanes lanes :: rest) l = heldSlots rest l := by
  simp [heldSlots, Frame.holdsSlot]

theorem heldSlots_waiting (lane l : String) (entry : QueueEntry) (rest : List Frame) :
    heldSlots (.waiting lane entry :: rest) l = heldSlots rest l + if lane = l then 1 else 0 := by
  simp [heldSlots, Frame.holdsSlot, List.countP_cons]

/-! ## Progress -/

/-- The lane could start a waiting command. -/
def LaneState.HasWork (state : LaneState) : Prop :=
  state.queue ≠ [] ∧ (state.activeTaskIds.length : Int) < state.maxConcurrent

structure Driven (m : Machine) : Prop where
  marked : ∀ l, (m.lane l).draining = true → m.stack.any (·.pumps l) = true
  covered : ∀ l, (m.lane l).HasWork → m.stack.any (·.covers l) = true

variable {m : Machine} {lane : String} {rest : List Frame} {state : LaneState}

/-- **Draining a lane sees to it**, whatever was done to it before. -/
theorem drainLane_driven (hmarked : ∀ l, (m.lane l).draining = true → m.stack.any (·.pumps l) = true)
    (hcovered : ∀ l, l ≠ lane → (m.lane l).HasWork → m.stack.any (·.covers l) = true) :
    Driven (drainLane m lane) := by
  have hhas : ∀ l, ((drainLane m lane).lane l).HasWork → (m.lane l).HasWork := by
    intro l hl
    rw [lane_drainLane] at hl
    exact hl
  constructor
  · intro l hdraining
    rw [lane_drainLane] at hdraining
    rw [drainLane_stack]
    rcases (Bool.or_eq_true _ _).mp hdraining with hbefore | hl
    · split
      · exact hmarked l hbefore
      · rw [List.any_cons, hmarked l hbefore, Bool.or_true]
    · obtain rfl : l = lane := of_decide_eq_true hl
      split
      · rename_i hbefore
        exact hmarked l hbefore
      · simp [Frame.pumps]
  · intro l hwork
    rw [drainLane_stack]
    by_cases hl : l = lane
    · subst hl
      split
      · rename_i hdraining
        exact covers_of_pumps (hmarked l hdraining)
      · simp [Frame.covers]
    · have hbefore := hcovered l hl (hhas l hwork)
      split
      · exact hbefore
      · rw [List.any_cons, hbefore, Bool.or_true]

/-- Changing one lane: it must be seen to, and no longer marked than before. -/
theorem setLane_marked (h : Driven m) (hdraining : state.draining = true → (m.lane lane).draining = true) (l : String)
    (hl : ((m.setLane lane state).lane l).draining = true) : m.stack.any (·.pumps l) = true := by
  rw [lane_setLane] at hl
  split at hl
  · rename_i heq
    subst heq
    exact h.marked l (hdraining hl)
  · exact h.marked l hl

theorem setLane_covered (h : Driven m) (l : String) (hne : l ≠ lane) (hl : ((m.setLane lane state).lane l).HasWork) :
    m.stack.any (·.covers l) = true := by
  rw [lane_setLane, if_neg hne] at hl
  exact h.covered l hl

/-- A lane that is changed and then drained. -/
theorem setLane_drainLane_driven (h : Driven m) (hdraining : state.draining = true → (m.lane lane).draining = true) :
    Driven (drainLane (m.setLane lane state) lane) :=
  drainLane_driven (setLane_marked h hdraining) (fun l hne => setLane_covered h l hne)

/-- A lane that is changed and left without work. -/
theorem setLane_driven (h : Driven m) (hdraining : state.draining = true → (m.lane lane).draining = true)
    (hidle : ¬state.HasWork) : Driven (m.setLane lane state) := by
  refine ⟨setLane_marked h hdraining, fun l hl => ?_⟩
  by_cases hne : l = lane
  · subst hne
    rw [lane_setLane, if_pos rfl] at hl
    exact absurd hl hidle
  · exact setLane_covered h l hne hl

theorem enqueueCommandInLane_driven (h : Driven m) (lane : String) (opts : EnqueueOptions) (now : Int)
    (admissionClosed : Bool) : Driven (enqueueCommandInLane m lane opts now admissionClosed) := by
  unfold enqueueCommandInLane
  split
  · exact h
  · have hm : Driven { m with
        state := { m.state with nextQueueSequence := m.state.nextQueueSequence + 1 } } :=
      ⟨h.marked, h.covered⟩
    exact setLane_drainLane_driven hm fun hdraining => hdraining

theorem setCommandLaneConcurrency_driven (h : Driven m) (lane : String) (maxConcurrent : Int) :
    Driven (setCommandLaneConcurrency m lane maxConcurrent) := by
  unfold setCommandLaneConcurrency
  dsimp only
  split
  · exact setLane_drainLane_driven h fun hdraining => hdraining
  · rename_i hlimit
    refine setLane_driven h (fun hdraining => hdraining) fun hwork => ?_
    have hfree : ((m.lane (normalizeLane lane)).activeTaskIds.length : Int)
        < laneLimit (normalizeLane lane) maxConcurrent := hwork.2
    omega

theorem clearCommandLane_driven (h : Driven m) (lane : String) : Driven (clearCommandLane m lane) := by
  unfold clearCommandLane
  dsimp only
  split
  · exact h
  · rename_i state hfind
    exact setLane_driven h (fun hdraining => lane_of_find hfind ▸ hdraining) fun hwork => hwork.1 rfl

theorem resetCommandLane_driven (h : Driven m) (lane : String) : Driven (resetCommandLane m lane) := by
  unfold resetCommandLane
  dsimp only
  split
  · exact h
  · rename_i state hfind
    split
    · exact setLane_drainLane_driven h fun hdraining => by cases hdraining
    · rename_i hqueue
      exact setLane_driven h (fun hdraining => by cases hdraining) fun hwork => hqueue hwork.1

/-- `resetAllLanes` will get to every lane with waiting commands. -/
theorem resetAllLanes_driven (m : Machine) : Driven (resetAllLanes m) := by
  refine ⟨fun l hdraining => ?_, fun l hwork => ?_⟩
  · rw [lane_resetAllLanes] at hdraining
    split at hdraining
    · cases hdraining
    · cases hdraining
  · rw [lane_resetAllLanes] at hwork
    split at hwork
    · rename_i hfind
      obtain ⟨state, hstate⟩ := Option.isSome_iff_exists.mp hfind
      have hqueue : state.queue ≠ [] := by
        have := hwork.1
        rw [lane_of_find hstate] at this
        exact this
      have hmem : l ∈ (m.state.lanes.rows.filter (·.2.queue ≠ [])).map (·.1) :=
        List.mem_map.mpr ⟨(l, state), List.mem_filter.mpr
          ⟨Table.mem_rows.mpr hstate, by simpa using hqueue⟩, rfl⟩
      show (Frame.covers l (.drainLanes _) || _) = true
      rw [show Frame.covers l (.drainLanes _) = decide (l ∈ _) from rfl, decide_eq_true hmem, Bool.true_or]
    · exact absurd rfl hwork.1

/-- Leaving the loop: the lane has no work, or no slot. -/
theorem leaveLoop_driven (h : Driven m) (hstack : m.stack = .pump lane :: rest) (hidle : ¬(m.lane lane).HasWork) :
    Driven { m.setLane lane { m.lane lane with draining := false } with stack := rest } := by
  have hother : ∀ l, l ≠ lane → (Frame.pump lane).pumps l = false ∧ (Frame.pump lane).covers l = false :=
    fun l hne => ⟨decide_eq_false (Ne.symm hne), decide_eq_false (Ne.symm hne)⟩
  constructor
  · intro l hdraining
    have hl : ((m.setLane lane { m.lane lane with draining := false }).lane l).draining = true := hdraining
    rw [lane_setLane] at hl
    split at hl
    · cases hl
    · rename_i hne
      have hbefore := h.marked l hl
      rw [hstack, List.any_cons, (hother l hne).1, Bool.false_or] at hbefore
      exact hbefore
  · intro l hwork
    have hl : ((m.setLane lane { m.lane lane with draining := false }).lane l).HasWork := hwork
    rw [lane_setLane] at hl
    split at hl
    · exact absurd hl hidle
    · rename_i hne
      have hbefore := h.covered l hl
      rw [hstack, List.any_cons, (hother l hne).2, Bool.false_or] at hbefore
      exact hbefore

/-- While a pump of the lane is on the stack, the lane may change as long as its mark stays. -/
theorem pumped_driven {m m' : Machine} (h : Driven m) {f g : Frame} (hstack : m.stack = f :: rest)
    (hstack' : m'.stack = g :: rest) (hf : ∀ l, g.pumps l = f.pumps l ∧ g.covers l = f.covers l)
    (hpumps : f.pumps lane = true) (hother : ∀ l, l ≠ lane → m'.lane l = m.lane l) : Driven m' := by
  have hsame : m'.stack.any (·.pumps lane) = true := by
    rw [hstack', List.any_cons, (hf lane).1, hpumps, Bool.true_or]
  constructor
  · intro l hdraining
    by_cases hl : l = lane
    · exact hl ▸ hsame
    · rw [hother l hl] at hdraining
      have hbefore := h.marked l hdraining
      rw [hstack', List.any_cons, (hf l).1]
      rw [hstack, List.any_cons] at hbefore
      exact hbefore
  · intro l hwork
    by_cases hl : l = lane
    · exact hl ▸ covers_of_pumps hsame
    · rw [hother l hl] at hwork
      have hbefore := h.covered l hwork
      rw [hstack', List.any_cons, (hf l).2]
      rw [hstack, List.any_cons] at hbefore
      exact hbefore

theorem pumpRound_driven (h : Driven m) (now : Int) (hstack : m.stack = .pump lane :: rest) :
    Driven (pumpRound m lane rest now) := by
  unfold pumpRound
  dsimp only
  split
  · rename_i hqueue
    exact leaveLoop_driven h hstack fun hwork => hwork.1 hqueue
  · rename_i entry queue hqueue
    split
    · split
      · refine pumped_driven (g := .waiting lane entry) h hstack rfl (fun l => ⟨rfl, rfl⟩)
          (decide_eq_true rfl) fun l hne => ?_
        show (m.setLane lane _).lane l = m.lane l
        rw [lane_setLane, if_neg hne]
      · refine pumped_driven (g := .pump lane) h hstack hstack (fun l => ⟨rfl, rfl⟩)
          (decide_eq_true rfl) fun l hne => ?_
        rw [lane_startTask, if_neg hne, lane_setLane, if_neg hne]
    · rename_i hfull
      exact leaveLoop_driven h hstack fun hwork => hfull hwork.2

theorem startTask_driven (h : Driven m) {entry : QueueEntry} (hstack : m.stack = .waiting lane entry :: rest) :
    Driven (startTask { m with stack := .pump lane :: rest } lane) := by
  refine pumped_driven (g := .pump lane) h hstack rfl (fun l => ⟨rfl, rfl⟩) (decide_eq_true rfl)
    fun l hne => ?_
  rw [lane_startTask, if_neg hne]
  rfl

/-- A lane that is changed and then pumped, marked or not. -/
theorem pushPump_driven (h : Driven m) (hdraining : state.draining = true → (m.lane lane).draining = true) :
    Driven { m.setLane lane state with stack := .pump lane :: m.stack } := by
  refine ⟨fun l hl => ?_, fun l hl => ?_⟩
  · rw [List.any_cons, setLane_marked h hdraining l hl, Bool.or_true]
  · rw [List.any_cons]
    by_cases hne : l = lane
    · subst hne
      rw [show (Frame.pump l).covers l = true from decide_eq_true rfl, Bool.true_or]
    · rw [setLane_covered h l hne hl, Bool.or_true]

theorem taskSettled_driven (h : Driven m) (task : RunningTask) : Driven (taskSettled m task) := by
  have hm : Driven { m with running := m.running.erase task } := ⟨h.marked, h.covered⟩
  unfold taskSettled
  dsimp only
  split
  · exact hm
  · exact pushPump_driven hm fun hdraining => hdraining

/-- One step sees to every lane. -/
theorem StepsTo.driven {m m' : Machine} {event : QueueEvent} (hstep : StepsTo m event m')
    (h : Driven m) : Driven m' := by
  cases hstep with
  | enqueue lane opts now admissionClosed =>
    exact enqueueCommandInLane_driven h lane opts now admissionClosed
  | setConcurrency lane maxConcurrent _ => exact setCommandLaneConcurrency_driven h lane maxConcurrent
  | clear lane => exact clearCommandLane_driven h lane
  | reset lane => exact resetCommandLane_driven h lane
  | resetAll => exact resetAllLanes_driven m
  | round lane rest now hstack => exact pumpRound_driven h now hstack
  | drained rest now hstack =>
    refine ⟨fun l hl => ?_, fun l hl => ?_⟩
    · have hbefore := h.marked l hl
      rw [hstack] at hbefore
      exact hbefore
    · have hbefore := h.covered l hl
      rw [hstack] at hbefore
      simpa [Frame.covers] using hbefore
  | drainsNext lane lanes rest now hstack =>
    refine drainLane_driven (fun l hl => ?_) (fun l hne hl => ?_)
    · have hbefore := h.marked l hl
      rw [hstack] at hbefore
      exact hbefore
    · have hbefore := h.covered l hl
      rw [hstack] at hbefore
      simpa [Frame.covers, hne] using hbefore
  | returns lane entry rest hstack => exact startTask_driven h hstack
  | settles task _ _ => exact taskSettled_driven h task

/-! ## Limits -/

/-- **The slots of suspended pumps are still free**, and no start so far exceeded its lane's limit. -/
structure Reserved (m : Machine) : Prop where
  free : ∀ l, 0 < heldSlots m.stack l →
    ((m.lane l).activeTaskIds.length : Int) + heldSlots m.stack l ≤ (m.lane l).maxConcurrent
  within : ∀ start ∈ m.started, (start.activeCount : Int) ≤ start.maxConcurrent

/-- The condition on one event: a pump takes an entry only if a slot is left besides those that
suspended pumps of its lane hold, and a limit is not set below the active tasks and those slots. -/
def KeepsReservations (m : Machine) : QueueEvent → Prop
  | .goOn _ => ∀ lane rest, m.stack = .pump lane :: rest → (m.lane lane).HasWork →
      ((m.lane lane).activeTaskIds.length : Int) + heldSlots m.stack lane < (m.lane lane).maxConcurrent
  | .setConcurrency lane maxConcurrent =>
    callersRun m.stack = true → 0 < heldSlots m.stack (normalizeLane lane) →
      ((m.lane (normalizeLane lane)).activeTaskIds.length : Int)
        + heldSlots m.stack (normalizeLane lane) ≤ laneLimit (normalizeLane lane) maxConcurrent
  | _ => True

/-- A step after which no lane has more active tasks or held slots, or a lower limit. -/
theorem Reserved.of_le {m m' : Machine} (h : Reserved m)
    (hactive : ∀ l, (m'.lane l).activeTaskIds.length ≤ (m.lane l).activeTaskIds.length)
    (hmax : ∀ l, (m'.lane l).maxConcurrent = (m.lane l).maxConcurrent)
    (hheld : ∀ l, heldSlots m'.stack l = heldSlots m.stack l) (hstarted : m'.started = m.started) : Reserved m' := by
  refine ⟨fun l hl => ?_, hstarted ▸ h.within⟩
  rw [hheld] at hl
  have hbefore := h.free l hl
  have hless := hactive l
  rw [hheld, hmax]
  omega

theorem drainLane_reserved (h : Reserved m) (lane : String) : Reserved (drainLane m lane) := by
  refine h.of_le (fun l => ?_) (fun l => ?_) (fun l => ?_) (drainLane_started m lane)
  · rw [lane_drainLane]
  · rw [lane_drainLane]
  · rw [drainLane_stack]
    split
    · rfl
    · exact heldSlots_pump lane l m.stack

/-- Changing one lane. -/
theorem setLane_reserved (h : Reserved m) (hlane : 0 < heldSlots m.stack lane →
    (state.activeTaskIds.length : Int) + heldSlots m.stack lane ≤ state.maxConcurrent) :
    Reserved (m.setLane lane state) := by
  refine ⟨fun l hl => ?_, h.within⟩
  rw [lane_setLane]
  split
  · rename_i heq
    subst heq
    exact hlane hl
  · exact h.free l hl

/-- Starting a task in a lane with a free slot besides the held ones. -/
theorem startTask_reserved (h : Reserved m) (hfree : ((m.lane lane).activeTaskIds.length :
    Int) + heldSlots m.stack lane < (m.lane lane).maxConcurrent) : Reserved (startTask m lane) := by
  have hlength := addTaskId_length (m.lane lane).activeTaskIds m.state.nextTaskId
  refine ⟨fun l hl => ?_, fun start hstart => ?_⟩
  · rw [lane_startTask]
    have hl' : 0 < heldSlots m.stack l := hl
    split
    · rename_i heq
      subst heq
      show ((addTaskId (m.lane l).activeTaskIds m.state.nextTaskId).length : Int) + heldSlots m.stack l
        ≤ (m.lane l).maxConcurrent
      omega
    · exact h.free l hl
  · rcases List.mem_append.mp hstart with hbefore | hnew
    · exact h.within start hbefore
    · rw [List.mem_singleton] at hnew
      subst hnew
      show ((addTaskId (m.lane lane).activeTaskIds m.state.nextTaskId).length : Int) ≤ (m.lane lane).maxConcurrent
      omega

theorem enqueueCommandInLane_reserved (h : Reserved m) (lane : String) (opts : EnqueueOptions) (now : Int)
    (admissionClosed : Bool) : Reserved (enqueueCommandInLane m lane opts now admissionClosed) := by
  unfold enqueueCommandInLane
  split
  · exact h
  · have hm : Reserved { m with
        state := { m.state with nextQueueSequence := m.state.nextQueueSequence + 1 } } :=
      ⟨h.free, h.within⟩
    dsimp only
    refine drainLane_reserved (setLane_reserved hm fun hheld => ?_) _
    rw [enqueueLaneEntry_active, enqueueLaneEntry_max]
    exact hm.free _ hheld

theorem setCommandLaneConcurrency_reserved (h : Reserved m) {maxConcurrent : Int}
    (hcallers : callersRun m.stack = true) (hkeeps : KeepsReservations m (.setConcurrency lane maxConcurrent)) :
    Reserved (setCommandLaneConcurrency m lane maxConcurrent) := by
  unfold setCommandLaneConcurrency
  dsimp only
  have hset : Reserved (m.setLane (normalizeLane lane) { m.lane (normalizeLane lane) with
      maxConcurrent := laneLimit (normalizeLane lane) maxConcurrent }) :=
    setLane_reserved h (hkeeps hcallers)
  split
  · exact drainLane_reserved hset _
  · exact hset

theorem clearCommandLane_reserved (h : Reserved m) (lane : String) : Reserved (clearCommandLane m lane) := by
  unfold clearCommandLane
  dsimp only
  split
  · exact h
  · rename_i state hfind
    refine setLane_reserved h fun hheld => ?_
    rw [← lane_of_find hfind]
    exact h.free _ hheld

theorem resetCommandLane_reserved (h : Reserved m) (lane : String) : Reserved (resetCommandLane m lane) := by
  unfold resetCommandLane
  dsimp only
  split
  · exact h
  · rename_i state hfind
    have hset : Reserved (m.setLane (normalizeLane lane) (resetLane state)) := by
      refine setLane_reserved h fun hheld => ?_
      have hbefore := h.free _ hheld
      rw [lane_of_find hfind] at hbefore
      show ((0 : Nat) : Int) + _ ≤ state.maxConcurrent
      omega
    split
    · exact drainLane_reserved hset _
    · exact hset

theorem resetAllLanes_reserved (h : Reserved m) : Reserved (resetAllLanes m) := by
  have hlane : ∀ l, ((resetAllLanes m).lane l).activeTaskIds = [] ∧
      ((resetAllLanes m).lane l).maxConcurrent = (m.lane l).maxConcurrent := by
    intro l
    rw [lane_resetAllLanes]
    split
    · exact ⟨rfl, rfl⟩
    · rename_i hfind
      have hnone : m.state.lanes.find l = none := by simpa using hfind
      refine ⟨rfl, ?_⟩
      show (1 : Int) = ((m.state.lanes.find l).getD {}).maxConcurrent
      rw [hnone]
      rfl
  refine h.of_le (fun l => ?_) (fun l => (hlane l).2) (fun l => ?_) rfl
  · rw [(hlane l).1]
    exact Nat.zero_le _
  · exact heldSlots_drainLanes _ l m.stack

theorem leaveLoop_reserved (h : Reserved m) (hstack : m.stack = .pump lane :: rest) :
    Reserved { m.setLane lane { m.lane lane with draining := false } with stack := rest } := by
  have hleft : Reserved (m.setLane lane { m.lane lane with draining := false }) := setLane_reserved h (h.free lane)
  refine hleft.of_le (fun l => Nat.le_refl _) (fun l => rfl) (fun l => ?_) rfl
  show heldSlots rest l = heldSlots m.stack l
  rw [hstack, heldSlots_pump]

theorem pumpRound_reserved (h : Reserved m) {now : Int} (hstack : m.stack = .pump lane :: rest)
    (hkeeps : KeepsReservations m (.goOn now)) : Reserved (pumpRound m lane rest now) := by
  unfold pumpRound
  dsimp only
  split
  · exact leaveLoop_reserved h hstack
  · rename_i entry queue hqueue
    split
    · rename_i hslot
      have hne : (m.lane lane).queue ≠ [] := by
        rw [hqueue]
        exact List.cons_ne_nil _ _
      have hfree := hkeeps lane rest hstack ⟨hne, hslot⟩
      have htaken : Reserved (m.setLane lane { m.lane lane with queue }) := setLane_reserved h (h.free lane)
      split
      · -- The slot is now held.
        refine ⟨fun l hl => ?_, h.within⟩
        have hheld : heldSlots (.waiting lane entry :: rest) l
            = heldSlots m.stack l + if lane = l then 1 else 0 := by
          rw [heldSlots_waiting, hstack, heldSlots_pump]
        have hl' : 0 < heldSlots (.waiting lane entry :: rest) l := hl
        show (((m.setLane lane { m.lane lane with queue }).lane l).activeTaskIds.length : Int)
          + heldSlots (.waiting lane entry :: rest) l
          ≤ ((m.setLane lane { m.lane lane with queue }).lane l).maxConcurrent
        rw [hheld] at hl' ⊢
        by_cases heq : lane = l
        · subst heq
          rw [lane_setLane, if_pos rfl, if_pos rfl]
          push_cast
          show ((m.lane lane).activeTaskIds.length : Int) + _ ≤ (m.lane lane).maxConcurrent
          omega
        · rw [if_neg heq, Nat.add_zero] at hl' ⊢
          exact htaken.free l hl'
      · refine startTask_reserved htaken ?_
        rw [lane_setLane, if_pos rfl]
        exact hfree
    · exact leaveLoop_reserved h hstack

/-- **A callback that returns finds its slot free.** -/
theorem callbackReturns_reserved (h : Reserved m) {entry : QueueEntry} (hstack :
    m.stack = .waiting lane entry :: rest) : Reserved (startTask { m with stack := .pump lane :: rest } lane) := by
  have hheld : ∀ l, heldSlots m.stack l = heldSlots rest l + if lane = l then 1 else 0 := by
    intro l
    rw [hstack, heldSlots_waiting]
  have hm : Reserved { m with stack := .pump lane :: rest } := by
    refine ⟨fun l hl => ?_, h.within⟩
    have hl' : 0 < heldSlots (.pump lane :: rest) l := hl
    show ((m.lane l).activeTaskIds.length : Int) + heldSlots (.pump lane :: rest) l
      ≤ (m.lane l).maxConcurrent
    rw [heldSlots_pump] at hl' ⊢
    have hbefore := h.free l (by rw [hheld]; omega)
    rw [hheld] at hbefore
    omega
  refine startTask_reserved hm ?_
  have hbefore := h.free lane (by rw [hheld, if_pos rfl]; omega)
  rw [hheld, if_pos rfl] at hbefore
  show ((m.lane lane).activeTaskIds.length : Int) + heldSlots (.pump lane :: rest) lane
    < (m.lane lane).maxConcurrent
  rw [heldSlots_pump]
  push_cast at hbefore
  omega

theorem taskSettled_reserved (h : Reserved m) (task : RunningTask) : Reserved (taskSettled m task) := by
  have hm : Reserved { m with running := m.running.erase task } := ⟨h.free, h.within⟩
  unfold taskSettled
  dsimp only
  split
  · exact hm
  · refine hm.of_le (fun l => ?_) (fun l => ?_) (fun l => heldSlots_pump _ l m.stack) rfl
    · show (((m.setLane task.lane { m.lane task.lane with
        activeTaskIds := (m.lane task.lane).activeTaskIds.erase task.taskId }).lane l).activeTaskIds).length
        ≤ (m.lane l).activeTaskIds.length
      rw [lane_setLane]
      split
      · rename_i heq
        subst heq
        exact List.length_erase_le
      · exact Nat.le_refl _
    · show ((m.setLane task.lane { m.lane task.lane with
        activeTaskIds := (m.lane task.lane).activeTaskIds.erase task.taskId }).lane l).maxConcurrent
        = (m.lane l).maxConcurrent
      rw [lane_setLane]
      split
      · rename_i heq
        subst heq
        rfl
      · rfl

/-- One step that keeps the reservations. -/
theorem StepsTo.reserved {m m' : Machine} {event : QueueEvent} (hstep : StepsTo m event m')
    (hkeeps : KeepsReservations m event) (h : Reserved m) : Reserved m' := by
  cases hstep with
  | enqueue lane opts now admissionClosed =>
    exact enqueueCommandInLane_reserved h lane opts now admissionClosed
  | setConcurrency lane maxConcurrent hcallers =>
    exact setCommandLaneConcurrency_reserved h hcallers hkeeps
  | clear lane => exact clearCommandLane_reserved h lane
  | reset lane => exact resetCommandLane_reserved h lane
  | resetAll => exact resetAllLanes_reserved h
  | round lane rest now hstack => exact pumpRound_reserved h hstack hkeeps
  | drained rest now hstack =>
    refine h.of_le (fun l => Nat.le_refl _) (fun l => rfl) (fun l => ?_) rfl
    rw [hstack, heldSlots_drainLanes]
  | drainsNext lane lanes rest now hstack =>
    have hm : Reserved { m with stack := .drainLanes lanes :: rest } := by
      refine h.of_le (fun l => Nat.le_refl _) (fun l => rfl) (fun l => ?_) rfl
      rw [hstack, heldSlots_drainLanes, heldSlots_drainLanes]
    exact drainLane_reserved hm lane
  | returns lane entry rest hstack => exact callbackReturns_reserved h hstack
  | settles task _ _ => exact taskSettled_reserved h task

/-! ## Runs -/

theorem idleMachine_sorted : Sorted idleMachine :=
  ⟨fun _ => List.Pairwise.nil, fun _ _ ha => by cases ha⟩

theorem idleMachine_driven : Driven idleMachine :=
  ⟨fun _ h => (by cases h), fun _ h => absurd rfl h.1⟩

theorem idleMachine_reserved : Reserved idleMachine :=
  ⟨fun _ h => (by cases h), fun _ h => (by cases h)⟩

/-- **Order and progress hold in every run**, whatever the callbacks do. -/
theorem lanes_sorted_and_driven (script : List QueueEvent) :
    Sorted (run stepQueue idleMachine script) ∧ Driven (run stepQueue idleMachine script) := by
  refine run_invariant (P := fun m => Sorted m ∧ Driven m) (fun m event h => ?_) script
    ⟨idleMachine_sorted, idleMachine_driven⟩
  refine skipDisabled_keeps (P := fun m => Sorted m ∧ Driven m) h fun m' hstep => ?_
  have hsteps := stepQueue?_stepsTo hstep
  exact ⟨hsteps.sorted h.1, hsteps.driven h.2⟩

theorem lanes_reserved (script : List QueueEvent) (hkeeps : Guarded stepQueue KeepsReservations idleMachine script) :
    Reserved (run stepQueue idleMachine script) := by
  refine run_invariant_guarded (fun m event hkeeps h => ?_) script hkeeps idleMachine_reserved
  exact skipDisabled_keeps h fun m' hstep => (stepQueue?_stepsTo hstep).reserved hkeeps h

/-- **Command lanes keep their promises in every run that keeps the reservations.**  No task that was
started made the active tasks of its lane exceed the limit; each queue is ordered by descending
priority and then ascending sequence; and when no call is executing, commands wait in a lane only if
its limit is reached. -/
theorem command_lanes_keep_limits (script : List QueueEvent)
    (hkeeps : Guarded stepQueue KeepsReservations idleMachine script) :
    let m := run stepQueue idleMachine script
    (∀ start ∈ m.started, (start.activeCount : Int) ≤ start.maxConcurrent) ∧
      (∀ l, (m.lane l).queue.Pairwise Before) ∧
      (m.stack = [] → ∀ l, (m.lane l).queue ≠ [] →
        (m.lane l).maxConcurrent ≤ (m.lane l).activeTaskIds.length) := by
  intro m
  obtain ⟨hsorted, hdriven⟩ := lanes_sorted_and_driven script
  refine ⟨(lanes_reserved script hkeeps).within, hsorted.order, fun hidle l hqueue => ?_⟩
  by_contra hfree
  have hcovered := hdriven.covered l ⟨hqueue, Int.not_le.mp hfree⟩
  rw [show (run stepQueue idleMachine script).stack = [] from hidle] at hcovered
  cases hcovered

/-! ### Two runs -/

/-- A command that waited long in a lane with two slots; its callback enqueues a second one. -/
def patientScript : List QueueEvent :=
  [.setConcurrency "work" 2, .goOn 0, .enqueue "work" { warnAfterMs := 0, onWait := true } 0 false,
    .goOn 0, .enqueue "work" { priority := .foreground } 0 false, .callbackReturns, .goOn 0, .goOn 0]

theorem command_lanes_keep_limits_patient :
    let m := run stepQueue idleMachine patientScript
    m.started.map (fun start => (start.activeCount, start.maxConcurrent)) = [(1, 2), (2, 2)] ∧
      ∀ start ∈ m.started, (start.activeCount : Int) ≤ start.maxConcurrent := by
  have hkeeps : Guarded stepQueue KeepsReservations idleMachine patientScript := by
    refine ⟨fun _ h => absurd h (by decide), ?_, trivial, ?_, trivial, trivial, ?_, ?_, trivial⟩
    · rintro lane rest ⟨⟩ hwork
      exact absurd rfl hwork.1
    · rintro lane rest ⟨⟩ -
      decide
    · rintro lane rest ⟨⟩ -
      decide
    · rintro lane rest ⟨⟩ hwork
      exact absurd rfl hwork.1
  exact ⟨rfl, (command_lanes_keep_limits patientScript hkeeps).1⟩

/-- The lane has one slot.  The first task settles; the second command has waited long, and its
callback enqueues a third. -/
def reentrantScript : List QueueEvent :=
  [.enqueue "main" {} 0 false, .goOn 0, .goOn 0,
    .enqueue "main" { warnAfterMs := 0, onWait := true } 0 false, .goOn 0,
    .settles { lane := "main", taskId := 1, generation := 0 }, .goOn 5,
    .enqueue "main" {} 5 false, .goOn 5, .goOn 5, .callbackReturns]

theorem command_lanes_exceed_limit_reentrant :
    ¬∀ script : List QueueEvent, ∀ start ∈ (run stepQueue idleMachine script).started,
      (start.activeCount : Int) ≤ start.maxConcurrent := by
  intro h
  have hstarted : (run stepQueue idleMachine reentrantScript).started
      = [⟨"main", 1, 1, 1⟩, ⟨"main", 2, 1, 1⟩, ⟨"main", 3, 2, 1⟩] := rfl
  have hstart : (⟨"main", 3, 2, 1⟩ : TaskStart) ∈ (run stepQueue idleMachine reentrantScript).started := by
    rw [hstarted]
    exact List.mem_cons_of_mem _ (List.mem_cons_of_mem _ List.mem_cons_self)
  exact absurd (h reentrantScript _ hstart) (by decide)

end OpenClaw.Process.CommandQueue
