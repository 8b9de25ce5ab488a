/-
# OpenClaw.Shared.StoreWriterLoops -- one drain for each queue

The invariant behind the queue: the tasks that have started and those that wait make up, in this order, the calls
that were queued on a lane; a lane has a queue exactly as long as a drain is at work on it, and the drain awaits
the only section of the lane that is under way.  It is stated for a machine in which one drain may be at the head
of its loop, awaiting nothing, so that starting a task and ending a drain are one lemma.
-/
import OpenClaw.Shared.StoreWriterQueue
import Mathlib.Data.List.Nodup

namespace OpenClaw.Shared

open OpenClaw.Logic

variable {Ω : Type}

/-! ## The calls of a lane -/

/-- The call waits, or waited, in the queue of the lane. -/
def ofLane (calls : List Call) (lane : Lane) (call : Nat) : Bool :=
  (calls[call]?).any fun c => c.kind = .queued && c.lane = lane

/-- The calls that were queued on a lane, in their order. -/
def queuedIn (calls : List Call) (lane : Lane) : List Nat := (List.range calls.length).filter (ofLane calls lane)

/-- A section is under way from the call of its function until the drain goes on. -/
def Phase.going : Phase → Bool
  | .running | .finished | .closed => true
  | .waiting | .done => false

variable {lane : Lane}

theorem ofLane_eq_true {calls : List Call} {call : Nat} : ofLane calls lane call = true ↔ ∃ c, calls[call]? = some c ∧
      c.kind = .queued ∧ c.lane = lane := by
  cases h : calls[call]? <;> simp [ofLane, h]

theorem ofLane_lt {calls : List Call} {call : Nat} (h : ofLane calls lane call = true) : call < calls.length := by
  obtain ⟨c, hc, -⟩ := ofLane_eq_true.mp h
  exact (List.getElem?_eq_some_iff.mp hc).1

theorem ofLane_concat (calls : List Call) (c : Call) (lane : Lane) (call : Nat) : ofLane (calls ++ [c]) lane call =
      if call = calls.length then c.kind = .queued && c.lane = lane else ofLane calls lane call := by
  unfold ofLane
  rcases Nat.lt_trichotomy call calls.length with hlt | heq | hgt
  · rw [List.getElem?_append_left hlt, if_neg (by omega)]
  · simp [heq]
  · have hout : (calls ++ [c])[call]? = none := by simp; omega
    rw [hout, if_neg (by omega), List.getElem?_eq_none (by omega)]

theorem queuedIn_concat (calls : List Call) (c : Call) (lane : Lane) : queuedIn (calls ++ [c]) lane =
      queuedIn calls lane ++ if c.kind = .queued && c.lane = lane then [calls.length] else [] := by
  unfold queuedIn
  rw [List.length_append, List.length_singleton, List.range_succ, List.filter_append]
  congr 1
  · refine List.filter_congr fun call hcall => ?_
    have hlt := List.mem_range.mp hcall
    rw [ofLane_concat, if_neg (by omega)]
  · rw [List.filter_singleton, ofLane_concat, if_pos rfl, Bool.cond_eq_ite]

/-- A change that keeps the lane and the kind of every call. -/
theorem ofLane_modify {calls : List Call} {call : Nat} {f : Call → Call}
    (hf : ∀ c, (f c).kind = c.kind ∧ (f c).lane = c.lane) (lane : Lane) :
    ofLane (calls.modify call f) lane = ofLane calls lane := by
  funext other
  unfold ofLane
  rw [List.getElem?_modify]
  cases calls[other]? with
  | none => rfl
  | some c =>
    by_cases h : call = other
    · simp [h, hf c]
    · simp [h]

theorem queuedIn_modify {calls : List Call} {call : Nat} {f : Call → Call}
    (hf : ∀ c, (f c).kind = c.kind ∧ (f c).lane = c.lane) (lane : Lane) :
    queuedIn (calls.modify call f) lane = queuedIn calls lane := by
  simp [queuedIn, ofLane_modify hf]

theorem queuedIn_nodup (calls : List Call) (lane : Lane) : (queuedIn calls lane).Nodup := List.nodup_range.filter _

/-! ## Queues -/

namespace Machine

theorem queue_modifyQueue (m : Machine Ω) {queue : Nat} (h : queue < m.objects.length)
    (f : StoreWriterQueue → StoreWriterQueue) (other : Nat) :
    (m.modifyQueue queue f).queue other = if other = queue then f (m.queue other) else m.queue other := by
  simp only [Machine.queue, modifyQueue, List.getD_eq_getElem?_getD, List.getElem?_modify]
  by_cases heq : other = queue
  · subst heq
    simp [h]
  · have hne : ¬queue = other := fun h => heq h.symm
    simp [heq, hne]

/-- The sections that were started on a lane, in their order. -/
def startedOf (m : Machine Ω) (lane : Lane) : List Nat := m.started.filter (ofLane m.calls lane)

/-- The tasks that wait in the queue of a lane. -/
def pendingOf (m : Machine Ω) (lane : Lane) : List Nat :=
  ((m.queueAt lane).map fun queue => (m.queue queue).pending).getD []

theorem pendingOf_some {m : Machine Ω} (queue : Nat) (h : m.queueAt lane = some queue) :
    m.pendingOf lane = (m.queue queue).pending := by
  simp [pendingOf, h]

theorem pendingOf_none {m : Machine Ω} (h : m.queueAt lane = none) : m.pendingOf lane = [] := by
  simp [pendingOf, h]

theorem pendingOf_congr {m m' : Machine Ω} (hqueueAt : m'.queueAt lane = m.queueAt lane)
    (h : ∀ queue, m.queueAt lane = some queue → (m'.queue queue).pending = (m.queue queue).pending) :
    m'.pendingOf lane = m.pendingOf lane := by
  cases hlane : m.queueAt lane with
  | none => rw [pendingOf_none hlane, pendingOf_none (hqueueAt.trans hlane)]
  | some queue => rw [pendingOf_some _ hlane, pendingOf_some _ (hqueueAt.trans hlane), h queue hlane]

end Machine

/-! ## The invariant -/

/-- Every drain awaits a task, but the one that is at the head of its loop, if there is one. -/
structure Loops (head : Option Lane) (m : Machine Ω) : Prop where
  order : ∀ lane, m.startedOf lane ++ m.pendingOf lane = queuedIn m.calls lane
  known : ∀ call ∈ m.started, call < m.calls.length
  waiting : ∀ call c, m.calls[call]? = some c → c.kind = .queued → (c.phase = .waiting ↔ call ∉ m.started)
  lanes : (m.drains.map (·.lane)).Nodup
  headless : ∀ drain ∈ m.drains, head ≠ some drain.lane
  task : ∀ drain ∈ m.drains, ∃ c, m.calls[drain.task]? = some c ∧ c.kind = .queued ∧ c.lane = drain.lane ∧
    c.phase.going = true
  going : ∀ call c, m.calls[call]? = some c → c.kind = .queued → c.phase.going = true →
    ∃ drain ∈ m.drains, drain.task = call
  held : ∀ drain ∈ m.drains, m.queueAt drain.lane = some drain.queue
  drained : ∀ lane queue, m.queueAt lane = some queue → queue < m.objects.length ∧ (m.queue queue).running = true ∧
    (head = some lane ∨ ∃ drain ∈ m.drains, drain.lane = lane)
  distinct : ∀ lane lane' queue, m.queueAt lane = some queue → m.queueAt lane' = some queue → lane = lane'
  quiet : m.microtasks = []

theorem loops_idle : Loops none (idleMachine Ω) where
  order := by simp [idleMachine, Machine.startedOf, Machine.pendingOf, queuedIn]
  known := by simp [idleMachine]
  waiting := by simp [idleMachine]
  lanes := by simp [idleMachine]
  headless := by simp [idleMachine]
  task := by simp [idleMachine]
  going := by simp [idleMachine]
  held := by simp [idleMachine]
  drained := by simp [idleMachine]
  distinct := by simp [idleMachine]
  quiet := rfl

namespace Loops

variable {head : Option Lane} {m : Machine Ω}

/-- The stack, the outcomes and the settled promises are of no matter. -/
theorem frames (h : Loops head m) (stack : List Frame) (outcomes settled : List (Nat × Ω)) :
    Loops head { m with stack, outcomes, settled } :=
  { h with }

theorem drain_unique (h : Loops head m) {drain drain' : Drain} (hmem : drain ∈ m.drains) (hmem' : drain' ∈ m.drains)
    (hlane : drain.lane = drain'.lane) : drain = drain' :=
  List.inj_on_of_nodup_map h.lanes hmem hmem' hlane

theorem task_unique (h : Loops head m) {drain drain' : Drain} (hmem : drain ∈ m.drains) (hmem' : drain' ∈ m.drains)
    (htask : drain.task = drain'.task) : drain = drain' := by
  obtain ⟨c, hc, -, hlane, -⟩ := h.task drain hmem
  obtain ⟨c', hc', -, hlane', -⟩ := h.task drain' hmem'
  rw [htask, hc'] at hc
  cases hc
  exact h.drain_unique hmem hmem' (hlane.symm.trans hlane')

/-- A queue changed, and neither what waits in it nor its flag. -/
theorem modifyQueue (h : Loops head m) (queue : Nat) {f : StoreWriterQueue → StoreWriterQueue}
    (hf : ∀ q, (f q).pending = q.pending ∧ (f q).running = q.running) : Loops head (m.modifyQueue queue f) := by
  by_cases hqueue : queue < m.objects.length
  · have hsame : ∀ other, ((m.modifyQueue queue f).queue other).pending = (m.queue other).pending ∧
        ((m.modifyQueue queue f).queue other).running = (m.queue other).running := by
      intro other
      rw [m.queue_modifyQueue hqueue]
      split
      · exact hf _
      · exact ⟨rfl, rfl⟩
    refine { h with order := fun lane => ?_, drained := fun lane other hother => ?_ }
    · refine Eq.trans (congrArg _ ?_) (h.order lane)
      exact Machine.pendingOf_congr rfl fun other _ => (hsame other).1
    · obtain ⟨hlt, hrunning, hdrain⟩ := h.drained lane other hother
      exact ⟨by simpa [Machine.modifyQueue] using hlt, (hsame other).2.trans hrunning, hdrain⟩
  · have hsame : m.modifyQueue queue f = m := by
      simp only [Machine.modifyQueue, List.modify_eq_self (Nat.le_of_not_lt hqueue)]
    rw [hsame]
    exact h

/-- The section of a call goes from one phase to the next. -/
theorem setPhase (h : Loops head m) {call : Nat} {c : Call} (hc : m.calls[call]? = some c) {phase : Phase}
    (hphase : c.kind = .queued → c.phase.going = true ∧ phase.going = true) : Loops head (m.setPhase call phase) := by
  have hget : ∀ (other : Nat) (c' : Call), (m.setPhase call phase).calls[other]? = some c' →
      ∃ c'' : Call, m.calls[other]? = some c'' ∧ c''.kind = c'.kind ∧ c''.lane = c'.lane ∧
        (c'.kind = .queued → c'.phase.going = c''.phase.going ∧ (c'.phase = .waiting ↔ c''.phase = .waiting)) := by
    intro other c' hc'
    simp only [Machine.setPhase, List.getElem?_modify] at hc'
    by_cases heq : call = other
    · subst heq
      rw [hc] at hc'
      simp only [if_true, Option.map_eq_map, Option.map_some, Option.some.injEq] at hc'
      subst hc'
      refine ⟨c, hc, rfl, rfl, fun hqueued => ?_⟩
      obtain ⟨hgoing, hgoing'⟩ := hphase hqueued
      refine ⟨hgoing'.trans hgoing.symm, ?_⟩
      constructor
      · rintro rfl
        cases hgoing'
      · intro hwaiting
        rw [hwaiting] at hgoing
        cases hgoing
    · have hsame : m.calls[other]? = some c' := by simpa [heq] using hc'
      exact ⟨c', hsame, rfl, rfl, fun _ => ⟨rfl, Iff.rfl⟩⟩
  refine { h with order := fun lane => ?_, known := fun other hother => ?_, waiting := fun other c' hc' hqueued => ?_,
                  task := fun drain hdrain => ?_, going := fun other c' hc' hqueued hgoing => ?_ }
  · have horder := h.order lane
    simp only [Machine.startedOf, Machine.pendingOf, Machine.setPhase, Machine.queue] at horder ⊢
    rw [ofLane_modify (f := fun c => { c with phase }) fun _ => ⟨rfl, rfl⟩,
      queuedIn_modify (f := fun c => { c with phase }) fun _ => ⟨rfl, rfl⟩]
    exact horder
  · simpa [Machine.setPhase] using h.known other hother
  · obtain ⟨c'', hc'', hkind, -, hsame⟩ := hget other c' hc'
    exact (hsame hqueued).2.trans (h.waiting other c'' hc'' (hkind.trans hqueued))
  · obtain ⟨c', hc', hqueued, hlane, hgoing⟩ := h.task drain hdrain
    by_cases heq : call = drain.task
    · subst heq
      rw [hc] at hc'
      cases hc'
      exact ⟨{ c with phase }, by simp [Machine.setPhase, hc], hqueued, hlane, (hphase hqueued).2⟩
    · exact ⟨c', by simp [Machine.setPhase, heq, hc'], hqueued, hlane, hgoing⟩
  · obtain ⟨c'', hc'', hkind, -, hsame⟩ := hget other c' hc'
    exact h.going other c'' hc'' (hkind.trans hqueued) ((hsame hqueued).1.symm.trans hgoing)

/-- A call that is not queued. -/
theorem concat (h : Loops head m) {c : Call} (hkind : c.kind ≠ .queued) :
    Loops head { m with calls := m.calls ++ [c] } := by
  have hnew : ∀ (call : Nat) (c' : Call), (m.calls ++ [c])[call]? = some c' → c'.kind = .queued →
      m.calls[call]? = some c' := by
    intro call c' hc' hqueued
    rcases Nat.lt_or_ge call m.calls.length with hlt | hge
    · rwa [List.getElem?_append_left hlt] at hc'
    · rw [List.getElem?_append_right hge, List.getElem?_singleton] at hc'
      split at hc'
      · cases hc'
        exact absurd hqueued hkind
      · cases hc'
  have hlane : ∀ lane, ofLane (m.calls ++ [c]) lane = ofLane m.calls lane := by
    intro lane
    funext call
    rw [ofLane_concat]
    split
    · rename_i heq
      have hnone : m.calls[call]? = none := List.getElem?_eq_none (Nat.le_of_eq heq.symm)
      simp [ofLane, hnone, hkind]
    · rfl
  refine { h with order := fun lane => ?_, known := fun call hcall => ?_, waiting := fun call c' hc' hqueued => ?_,
                  task := fun drain hdrain => ?_, going := fun call c' hc' hqueued hgoing => ?_ }
  · have horder := h.order lane
    rw [queuedIn_concat, decide_eq_false hkind, Bool.false_and, if_neg Bool.false_ne_true, List.append_nil]
    simp only [Machine.startedOf, Machine.pendingOf, Machine.queue] at horder ⊢
    rw [hlane]
    exact horder
  · have hlt := h.known call hcall
    simp only [List.length_append, List.length_singleton]
    omega
  · exact h.waiting call c' (hnew call c' hc' hqueued) hqueued
  · obtain ⟨c', hc', hrest⟩ := h.task drain hdrain
    exact ⟨c', (List.getElem?_append_left (List.getElem?_eq_some_iff.mp hc').1).trans hc', hrest⟩
  · exact h.going call c' (hnew call c' hc' hqueued) hqueued hgoing

/-- A task joins the queue of its lane. -/
theorem push (h : Loops head m) {lane : Lane} {queue : Nat} (hqueue : m.queueAt lane = some queue) :
    Loops head ({ m with calls := m.calls ++ [Call.task lane] }.modifyQueue queue
      fun q => { q with pending := q.pending ++ [m.calls.length] }) := by
  obtain ⟨hlt, -, -⟩ := h.drained lane queue hqueue
  have hget := ({ m with calls := m.calls ++ [Call.task lane] } : Machine Ω).queue_modifyQueue hlt
    fun q => { q with pending := q.pending ++ [m.calls.length] }
  have hnew : ∀ (call : Nat) (c : Call), (m.calls ++ [Call.task lane])[call]? = some c →
      m.calls[call]? = some c ∨ (call = m.calls.length ∧ c.phase = .waiting) := by
    intro call c hc
    rcases Nat.lt_or_ge call m.calls.length with hcall | hcall
    · rw [List.getElem?_append_left hcall] at hc
      exact .inl hc
    · rw [List.getElem?_append_right hcall, List.getElem?_singleton] at hc
      split at hc
      · cases hc
        exact .inr ⟨by omega, rfl⟩
      · cases hc
  have hfresh : m.calls.length ∉ m.started := fun hmem => Nat.lt_irrefl _ (h.known _ hmem)
  refine { h with order := fun other => ?_, known := fun call hcall => ?_, waiting := fun call c hc hqueued => ?_,
                  task := fun drain hdrain => ?_, going := fun call c hc hqueued hgoing => ?_,
                  drained := fun other queue' hother => ?_ }
  · -- what was started is as it was, and the queue of the lane has grown by the new call
    have hstarted : m.started.filter (ofLane (m.calls ++ [Call.task lane]) other) = m.startedOf other := by
      refine List.filter_congr fun call hcall => ?_
      rw [ofLane_concat, if_neg (Nat.ne_of_lt (h.known call hcall))]
    refine (congr (congrArg _ hstarted) ?_).trans ((List.append_assoc _ _ _).symm.trans
      ((congrArg (· ++ if other = lane then [m.calls.length] else []) (h.order other)).trans ?_))
    · by_cases heq : other = lane
      · subst heq
        rw [if_pos rfl]
        refine Eq.trans ?_ (congrArg (· ++ [m.calls.length]) (Machine.pendingOf_some _ hqueue).symm)
        refine Eq.trans (Machine.pendingOf_some queue hqueue) ?_
        rw [hget, if_pos rfl]
        rfl
      · rw [if_neg heq, List.append_nil]
        refine Machine.pendingOf_congr rfl fun queue' hother => ?_
        rw [hget, if_neg]
        · rfl
        · rintro rfl
          exact heq (h.distinct _ _ _ hother hqueue)
    · refine Eq.trans ?_ (queuedIn_concat _ _ _).symm
      by_cases heq : other = lane
      · simp [Call.task, heq]
      · have hne : ¬lane = other := fun h => heq h.symm
        simp [Call.task, heq, hne]
  · have hknown := h.known call hcall
    simp only [Machine.modifyQueue, List.length_append, List.length_singleton]
    omega
  · rcases hnew call c hc with hold | ⟨rfl, hwaiting⟩
    · exact h.waiting call c hold hqueued
    · exact ⟨fun _ => hfresh, fun _ => hwaiting⟩
  · obtain ⟨c, hc, hrest⟩ := h.task drain hdrain
    exact ⟨c, (List.getElem?_append_left (List.getElem?_eq_some_iff.mp hc).1).trans hc, hrest⟩
  · rcases hnew call c hc with hold | ⟨rfl, hwaiting⟩
    · exact h.going call c hold hqueued hgoing
    · rw [hwaiting] at hgoing
      cases hgoing
  · obtain ⟨hlt', hrunning, hdrain⟩ := h.drained other queue' hother
    refine ⟨by simpa [Machine.modifyQueue] using hlt', ?_, hdrain⟩
    rw [hget]
    split
    · exact hrunning
    · exact hrunning

/-- A queue is made for a lane that had none; its drain is at the head of the loop. -/
theorem create (h : Loops none m) {lane : Lane} (hlane : m.queueAt lane = none) :
    Loops (some lane)
      { m with
        queueAt := Function.update m.queueAt lane (some m.objects.length)
        objects := m.objects ++ [({ running := true } : StoreWriterQueue)] } := by
  have hfree : ∀ drain ∈ m.drains, drain.lane ≠ lane := by
    rintro drain hdrain rfl
    rw [h.held drain hdrain] at hlane
    cases hlane
  have hold : ∀ queue < m.objects.length,
      (m.objects ++ [({ running := true } : StoreWriterQueue)]).getD queue {} = m.queue queue := by
    intro queue hqueue
    rw [List.getD_eq_getElem?_getD, List.getElem?_append_left hqueue, ← List.getD_eq_getElem?_getD]
    rfl
  refine { h with order := fun other => ?_, headless := fun drain hdrain heq => ?_, held := fun drain hdrain => ?_,
                  drained := fun other queue hother => ?_, distinct := fun left right queue hleft hright => ?_ }
  · refine (congrArg _ ?_).trans (h.order other)
    by_cases heq : other = lane
    · subst heq
      rw [Machine.pendingOf_none hlane]
      refine Eq.trans (Machine.pendingOf_some _ (Function.update_self ..)) ?_
      simp [Machine.queue]
    · refine Machine.pendingOf_congr (Function.update_of_ne heq ..) fun queue hother => ?_
      exact congrArg _ (hold queue (h.drained other queue hother).1)
  · exact hfree drain hdrain (Option.some.inj heq).symm
  · exact (Function.update_of_ne (hfree drain hdrain) _ _).trans (h.held drain hdrain)
  · replace hother : Function.update m.queueAt lane (some m.objects.length) other = some queue := hother
    by_cases heq : other = lane
    · subst heq
      rw [Function.update_self] at hother
      cases hother
      simp [Machine.queue]
    · rw [Function.update_of_ne heq] at hother
      obtain ⟨hlt, hrunning, hdrain⟩ := h.drained other queue hother
      refine ⟨by simp; omega, ?_, .inr (hdrain.resolve_left nofun)⟩
      exact (congrArg _ (hold queue hlt)).trans hrunning
  · replace hleft : Function.update m.queueAt lane (some m.objects.length) left = some queue := hleft
    replace hright : Function.update m.queueAt lane (some m.objects.length) right = some queue := hright
    by_cases heq : left = lane
    · subst heq
      rw [Function.update_self] at hleft
      cases hleft
      by_cases heq' : right = left
      · exact heq'.symm
      · rw [Function.update_of_ne heq'] at hright
        exact absurd (h.drained right _ hright).1 (Nat.lt_irrefl _)
    · rw [Function.update_of_ne heq] at hleft
      by_cases heq' : right = lane
      · subst heq'
        rw [Function.update_self] at hright
        cases hright
        exact absurd (h.drained left _ hleft).1 (Nat.lt_irrefl _)
      · rw [Function.update_of_ne heq'] at hright
        exact h.distinct left right queue hleft hright

section Next

variable {queue task : Nat} {rest : List Nat} (hqueue : m.queueAt lane = some queue)
  (hpending : (m.queue queue).pending = task :: rest)
include hqueue hpending

/-- The next task of a queue is a call on its lane that was not started yet. -/
theorem next_task (h : Loops head m) : task ∉ m.started ∧ ∃ c, m.calls[task]? = some c ∧ c.kind = .queued ∧
    c.lane = lane ∧ c.phase = .waiting := by
  have horder : m.startedOf lane ++ task :: rest = queuedIn m.calls lane := by
    rw [← h.order lane, Machine.pendingOf_some queue hqueue, hpending]
  have hof : ofLane m.calls lane task = true :=
    List.of_mem_filter (p := ofLane m.calls lane) (by rw [← queuedIn, ← horder]; simp)
  obtain ⟨c, hc, hqueued, hlane⟩ := ofLane_eq_true.mp hof
  have hfresh : task ∉ m.started := by
    intro hmem
    have hnodup := queuedIn_nodup m.calls lane
    rw [← horder] at hnodup
    exact (List.nodup_append.mp hnodup).2.2 task (List.mem_filter.mpr ⟨hmem, hof⟩) task List.mem_cons_self rfl
  exact ⟨hfresh, c, hc, hqueued, hlane, (h.waiting task c hc hqueued).mpr hfresh⟩

/-- What was started and what waits, once the drain has taken the next task. -/
theorem startTask_order (h : Loops (some lane) m) (context : List Nat) (other : Lane) :
    let m' := Machine.runActiveStoreWriter
      { m.modifyQueue queue fun q => { q with pending := rest } with
        drains := m.drains ++ [⟨lane, queue, context, task⟩] } task context
    m'.startedOf other ++ m'.pendingOf other = queuedIn m'.calls other := by
  intro m'
  obtain ⟨hlt, -, -⟩ := h.drained lane queue hqueue
  have hget := m.queue_modifyQueue hlt fun q => { q with pending := rest }
  have horder : m.startedOf lane ++ task :: rest = queuedIn m.calls lane := by
    rw [← h.order lane, Machine.pendingOf_some queue hqueue, hpending]
  obtain ⟨-, c, hc, hqueued, hlane, -⟩ := h.next_task hqueue hpending
  have hof : ofLane m.calls lane task = true := ofLane_eq_true.mpr ⟨c, hc, hqueued, hlane⟩
  have hqueued' : queuedIn m'.calls other = queuedIn m.calls other := queuedIn_modify (by exact fun _ => ⟨rfl, rfl⟩) _
  have hof' : ofLane m'.calls other = ofLane m.calls other := ofLane_modify (by exact fun _ => ⟨rfl, rfl⟩) _
  refine Eq.trans ?_ hqueued'.symm
  by_cases heq : other = lane
  · subst heq
    refine Eq.trans ?_ horder
    refine (congr (congrArg _ (?_ : _ = m.startedOf other ++ [task])) (?_ : _ = rest)).trans (by simp)
    · refine (congrArg (List.filter · (m.started ++ [task])) hof').trans ?_
      rw [List.filter_append, List.filter_singleton, hof]
      rfl
    · refine Eq.trans (Machine.pendingOf_some queue hqueue) ?_
      exact (congrArg StoreWriterQueue.pending (hget queue)).trans (by rw [if_pos rfl])
  · refine Eq.trans (congr (congrArg _ ?_) ?_) (h.order other)
    · refine (congrArg (List.filter · (m.started ++ [task])) hof').trans ?_
      have hnot : ofLane m.calls other task = false := by
        rw [← Bool.not_eq_true]
        intro htrue
        obtain ⟨c', hc', -, hlane'⟩ := ofLane_eq_true.mp htrue
        rw [hc] at hc'
        cases hc'
        exact heq (hlane'.symm.trans hlane)
      rw [List.filter_append, List.filter_singleton, hnot, cond_false, List.append_nil]
      rfl
    · refine Machine.pendingOf_congr rfl fun queue' hother' => ?_
      refine (congrArg StoreWriterQueue.pending (hget queue')).trans ?_
      rw [if_neg]
      rintro rfl
      exact heq (h.distinct _ _ _ hother' hqueue)

/-- The drain at the head of its loop takes the next task. -/
theorem startTask (h : Loops (some lane) m) (context : List Nat) :
    Loops none (Machine.runActiveStoreWriter
      { m.modifyQueue queue fun q => { q with pending := rest } with
        drains := m.drains ++ [⟨lane, queue, context, task⟩] } task context) := by
  obtain ⟨hlt, -, -⟩ := h.drained lane queue hqueue
  have hget := m.queue_modifyQueue hlt fun q => { q with pending := rest }
  obtain ⟨hfresh, c, hc, hqueued, hlane, hwaiting⟩ := h.next_task hqueue hpending
  have hof : ofLane m.calls lane task = true := ofLane_eq_true.mpr ⟨c, hc, hqueued, hlane⟩
  have hother : ∀ drain ∈ m.drains, drain.task ≠ task := by
    rintro drain hdrain rfl
    obtain ⟨c', hc', -, -, hgoing⟩ := h.task drain hdrain
    rw [hc] at hc'
    cases hc'
    rw [hwaiting] at hgoing
    cases hgoing
  have hsame : ∀ other : Nat, other ≠ task → (m.calls.modify task fun c => { c with
      context := task :: context, phase := .running })[other]? = m.calls[other]? := by
    intro other hne
    exact List.getElem?_modify_ne _ _ fun heq => hne heq.symm
  have hstarted : (m.calls.modify task fun c => { c with context := task :: context, phase := .running })[task]? =
      some { c with context := task :: context, phase := .running } := by
    rw [List.getElem?_modify_eq, hc]
    rfl
  constructor
  case order => exact h.startTask_order hqueue hpending context
  case known =>
    intro call hcall
    simp only [Machine.runActiveStoreWriter, List.length_modify]
    rcases List.mem_append.mp hcall with hcall | hcall
    · exact h.known call hcall
    · rw [List.mem_singleton.mp hcall]
      exact ofLane_lt hof
  case waiting =>
    intro call c' hc' hqueued'
    by_cases heq : call = task
    · subst heq
      cases hstarted.symm.trans hc'
      simp [Machine.runActiveStoreWriter]
    · rw [h.waiting call c' ((hsame call heq).symm.trans hc') hqueued']
      refine not_congr (Iff.trans ?_ List.mem_append.symm)
      simp [heq]
      rfl
  case lanes =>
    simp only [Machine.runActiveStoreWriter, List.map_append, List.map_cons, List.map_nil]
    refine List.nodup_append.mpr ⟨h.lanes, List.nodup_singleton _, ?_⟩
    rintro left hleft right hright rfl
    obtain ⟨drain, hdrain, rfl⟩ := List.mem_map.mp hleft
    exact h.headless drain hdrain (congrArg some (List.mem_singleton.mp hright).symm)
  case headless => exact fun drain _ => (Option.some_ne_none _).symm
  case task =>
    intro drain hdrain
    rcases List.mem_append.mp hdrain with hdrain | hdrain
    · obtain ⟨c', hc', hrest⟩ := h.task drain hdrain
      exact ⟨c', (hsame _ (hother drain hdrain)).trans hc', hrest⟩
    · rw [List.mem_singleton.mp hdrain]
      exact ⟨_, hstarted, hqueued, hlane, rfl⟩
  case going =>
    intro call c' hc' hqueued' hgoing
    by_cases heq : call = task
    · exact ⟨⟨lane, queue, context, task⟩, List.mem_append_right _ List.mem_cons_self, heq.symm⟩
    · obtain ⟨drain, hdrain, htask⟩ := h.going call c' ((hsame call heq).symm.trans hc') hqueued' hgoing
      exact ⟨drain, List.mem_append_left _ hdrain, htask⟩
  case held =>
    intro drain hdrain
    rcases List.mem_append.mp hdrain with hdrain | hdrain
    · exact h.held drain hdrain
    · rw [List.mem_singleton.mp hdrain]
      exact hqueue
  case drained =>
    intro other queue' hother'
    obtain ⟨hlt', hrunning, hdrain⟩ := h.drained other queue' hother'
    refine ⟨by simpa [Machine.runActiveStoreWriter, Machine.modifyQueue] using hlt', ?_, .inr ?_⟩
    · refine (congrArg StoreWriterQueue.running (hget queue')).trans ?_
      split
      · exact hrunning
      · exact hrunning
    · rcases hdrain with heq | ⟨drain, hdrain, hlane'⟩
      · cases heq
        exact ⟨⟨lane, queue, context, task⟩, List.mem_append_right _ List.mem_cons_self, rfl⟩
      · exact ⟨drain, List.mem_append_left _ hdrain, hlane'⟩
  case distinct => exact h.distinct
  case quiet => exact h.quiet

end Next

/-- The drain at the head of its loop has nothing left to do. -/
theorem endDrain (h : Loops (some lane) m) {queue : Nat} (hqueue : m.queueAt lane = some queue)
    (hpending : (m.queue queue).pending = []) (context : List Nat) :
    Loops none (m.finishDrain lane queue context) := by
  obtain ⟨hlt, -, -⟩ := h.drained lane queue hqueue
  have hget := m.queue_modifyQueue hlt fun q => { q with running := false, drainPromise := false }
  have hempty : ((m.modifyQueue queue fun q => { q with running := false, drainPromise := false }).queue queue).pending
      = [] := by rw [hget, if_pos rfl, hpending]
  have hother : ∀ other queue', other ≠ lane → m.queueAt other = some queue' →
      (m.modifyQueue queue fun q => { q with running := false, drainPromise := false }).queue queue' =
        m.queue queue' := by
    intro other queue' hne hother
    rw [hget, if_neg]
    rintro rfl
    exact hne (h.distinct _ _ _ hother hqueue)
  have hself : Function.update m.queueAt lane none lane = none := Function.update_self ..
  have hne : ∀ other, other ≠ lane → Function.update m.queueAt lane none other = m.queueAt other := fun other hother =>
    Function.update_of_ne hother ..
  unfold Machine.finishDrain
  rw [if_pos hempty]
  refine { h with order := fun other => ?_, headless := fun drain _ => nofun, held := fun drain hdrain => ?_,
                  drained := fun other queue' hqueue' => ?_, distinct := fun left right queue' hleft hright => ?_ }
  · refine (congrArg _ ?_).trans (h.order other)
    by_cases heq : other = lane
    · subst heq
      rw [Machine.pendingOf_some _ hqueue, hpending]
      exact Machine.pendingOf_none (Function.update_self ..)
    · refine Machine.pendingOf_congr (Function.update_of_ne heq ..) fun queue' hother' => ?_
      exact congrArg StoreWriterQueue.pending (hother other queue' heq hother')
  · have hlane : drain.lane ≠ lane := fun heq => h.headless drain hdrain (congrArg some heq.symm)
    exact (hne drain.lane hlane).trans (h.held drain hdrain)
  · by_cases heq : other = lane
    · subst heq
      cases hself.symm.trans hqueue'
    · replace hqueue' : m.queueAt other = some queue' := (hne other heq).symm.trans hqueue'
      obtain ⟨hlt', hrunning, hdrain⟩ := h.drained other queue' hqueue'
      refine ⟨by simpa [Machine.modifyQueue] using hlt', ?_, .inr ?_⟩
      · exact (congrArg StoreWriterQueue.running (hother other queue' heq hqueue')).trans hrunning
      · exact hdrain.resolve_left fun hlane => heq (Option.some.inj hlane).symm
  · by_cases heq : left = lane
    · subst heq
      cases hself.symm.trans hleft
    · by_cases heq' : right = lane
      · subst heq'
        cases hself.symm.trans hright
      · exact h.distinct left right queue' ((hne left heq).symm.trans hleft) ((hne right heq').symm.trans hright)

theorem drainLoop (h : Loops (some lane) m) {queue : Nat} (hqueue : m.queueAt lane = some queue)
    (context : List Nat) : Loops none (m.drainLoop lane queue context) := by
  unfold Machine.drainLoop
  split
  · rename_i task rest hpending
    exact h.startTask hqueue hpending context
  · rename_i hpending
    exact h.endDrain hqueue hpending context

/-- The drain that awaited the task is at the head of its loop. -/
theorem finishTask (h : Loops none m) {drain : Drain} (hdrain : drain ∈ m.drains) :
    Loops (some drain.lane) { m.setPhase drain.task .done with drains := m.drains.filter (·.task ≠ drain.task) } := by
  obtain ⟨c, hc, hqueued, hlane, hgoing⟩ := h.task drain hdrain
  have hget : (m.setPhase drain.task .done).calls[drain.task]? = some { c with phase := .done } := by
    simp [Machine.setPhase, hc]
  have hsame : ∀ other : Nat, other ≠ drain.task → (m.setPhase drain.task .done).calls[other]? = m.calls[other]? := by
    intro other hne
    exact List.getElem?_modify_ne _ _ fun heq => hne heq.symm
  have hkept : ∀ other, other ∈ m.drains.filter (·.task ≠ drain.task) ↔ other ∈ m.drains ∧ other ≠ drain := by
    intro other
    rw [List.mem_filter]
    refine and_congr_right fun hmem => ?_
    simp only [ne_eq, decide_eq_true_eq]
    refine not_congr ⟨h.task_unique hmem hdrain, fun heq => heq ▸ rfl⟩
  refine { order := fun lane => ?_, known := fun call hcall => ?_, waiting := fun call c' hc' hqueued' => ?_,
           lanes := h.lanes.sublist (List.filter_sublist.map _), headless := fun other hother heq => ?_,
           task := fun other hother => ?_, going := fun call c' hc' hqueued' hgoing' => ?_,
           held := fun other hother => h.held other (List.mem_of_mem_filter hother),
           drained := fun lane queue hqueue => ?_, distinct := h.distinct, quiet := h.quiet }
  · have horder := h.order lane
    simp only [Machine.startedOf, Machine.pendingOf, Machine.setPhase, Machine.queue] at horder ⊢
    rw [ofLane_modify (f := fun c => { c with phase := .done }) fun _ => ⟨rfl, rfl⟩,
      queuedIn_modify (f := fun c => { c with phase := .done }) fun _ => ⟨rfl, rfl⟩]
    exact horder
  · simpa [Machine.setPhase] using h.known call hcall
  · by_cases heq : call = drain.task
    · subst heq
      cases hget.symm.trans hc'
      have hnot := h.waiting drain.task c hc hqueued
      have hphase : c.phase ≠ .waiting := by
        intro hphase
        rw [hphase] at hgoing
        cases hgoing
      simpa [hphase, Machine.setPhase] using hnot
    · exact h.waiting call c' ((hsame call heq).symm.trans hc') hqueued'
  · obtain ⟨hmem, hne⟩ := (hkept other).mp hother
    exact hne (h.drain_unique hmem hdrain (Option.some.inj heq).symm)
  · obtain ⟨hmem, hne⟩ := (hkept other).mp hother
    obtain ⟨c', hc', hrest⟩ := h.task other hmem
    have htask : other.task ≠ drain.task := fun heq => hne (h.task_unique hmem hdrain heq)
    exact ⟨c', (hsame _ htask).trans hc', hrest⟩
  · by_cases heq : call = drain.task
    · subst heq
      cases hget.symm.trans hc'
      cases hgoing'
    · obtain ⟨other, hmem, htask⟩ := h.going call c' ((hsame call heq).symm.trans hc') hqueued' hgoing'
      refine ⟨other, (hkept other).mpr ⟨hmem, ?_⟩, htask⟩
      rintro rfl
      exact heq htask.symm
  · obtain ⟨hlt, hrunning, hdrain'⟩ := h.drained lane queue hqueue
    refine ⟨hlt, hrunning, ?_⟩
    obtain ⟨other, hmem, rfl⟩ := hdrain'.resolve_left nofun
    by_cases heq : other = drain
    · exact .inl (congrArg (fun drain => some drain.lane) heq.symm)
    · exact .inr ⟨other, (hkept other).mpr ⟨hmem, heq⟩, rfl⟩

end Loops

end OpenClaw.Shared
