/-
# OpenClaw.Shared.StoreWriterExclusion -- one section of a lane at a time

A call that is queued while a drain of its lane is being started finds `drainPromise` still null, and starts a
second drain beside the first: the function of a section makes such a call when it calls the queue of its own path
before its first await.  In a run without such calls there is one drain for each lane, the sections of a lane
exclude each other and start in the order of the calls, and a task that waits has a drain at work on its lane.
-/
import OpenClaw.Shared.StoreWriterLoops

namespace OpenClaw.Shared

open OpenClaw.Logic

variable {Ω : Type}

/-! ## Runs without a second drain -/

/-- A drain of the lane has set `running` and not yet `drainPromise`. -/
def Machine.starting (m : Machine Ω) (lane : Lane) : Bool :=
  match m.queueAt lane with
  | none => false
  | some queue => (m.queue queue).running && !(m.queue queue).drainPromise

/-- No call is queued on a lane whose drain is being started. -/
def Patient (m : Machine Ω) : StoreEvent Ω → Prop
  | .runQueuedStoreWrite lane _ reentrant => ∀ context body rest, m.stack = .code context body :: rest →
      m.queues lane reentrant context = true → m.starting lane = false
  | _ => True

theorem modify_concat {α : Type} (l : List α) (a : α) (f : α → α) : (l ++ [a]).modify l.length f = l ++ [f a] := by
  induction l with
  | nil => rfl
  | cons b l ih => simpa using ih

theorem drain_busy {m : Machine Ω} {lane : Lane} (queue : Nat) (hqueue : m.queueAt lane = some queue)
    (hpromise : (m.queue queue).drainPromise = true) (context : List Nat) :
    m.drainStoreWriterQueue lane context = m := by
  simp [Machine.drainStoreWriterQueue, hqueue, hpromise]

/-- A queued call: it waits behind a drain that is at work, or its own task is the first of a new one. -/
theorem enqueue_cases {m : Machine Ω} (h : Loops none m) {lane : Lane} (hstarting : m.starting lane = false)
    (context : List Nat) :
    (∃ queue, m.queueAt lane = some queue ∧
      m.enqueue lane context = { m with calls := m.calls ++ [Call.task lane] }.modifyQueue queue
        fun q => { q with pending := q.pending ++ [m.calls.length] }) ∨
    ∃ created : Machine Ω, Loops (some lane) created ∧ created.calls = m.calls ++ [Call.task lane] ∧
      created.outcomes = m.outcomes ∧ created.settled = m.settled ∧
      created.queueAt lane = some m.objects.length ∧
      m.enqueue lane context = created.drainLoop lane m.objects.length context := by
  cases hlane : m.queueAt lane with
  | some queue =>
    obtain ⟨hlt, hrunning, -⟩ := h.drained lane queue hlane
    have hpromise : (m.queue queue).drainPromise = true := by
      simpa [Machine.starting, hlane, hrunning] using hstarting
    refine .inl ⟨queue, rfl, ?_⟩
    have hget := ({ m with calls := m.calls ++ [Call.task lane] } : Machine Ω).queue_modifyQueue hlt
      (fun q => { q with pending := q.pending ++ [m.calls.length] }) queue
    rw [if_pos rfl] at hget
    simp only [Machine.enqueue, Machine.getOrCreateStoreWriterQueue, hlane]
    refine drain_busy queue ?_ ?_ context
    · exact hlane
    · exact (congrArg StoreWriterQueue.drainPromise hget).trans hpromise
  | none =>
    have hpush := (h.create hlane).push (Function.update_self ..)
    refine .inr ⟨_, hpush.frames (.assignDrainPromise m.objects.length :: m.stack) m.outcomes m.settled, rfl, rfl, rfl,
      Function.update_self .., ?_⟩
    simp only [Machine.enqueue, Machine.getOrCreateStoreWriterQueue, hlane]
    unfold Machine.drainStoreWriterQueue
    simp only [Machine.modifyQueue, modify_concat, Function.update_self, Machine.queue]
    simp

theorem loops_enqueue {m : Machine Ω} (h : Loops none m) {lane : Lane} (hstarting : m.starting lane = false)
    (context : List Nat) : Loops none (m.enqueue lane context) := by
  rcases enqueue_cases h hstarting context with ⟨queue, hqueue, heq⟩ | ⟨created, hcreated, -, -, -, hqueue, heq⟩
  · rw [heq]
    exact h.push hqueue
  · rw [heq]
    exact hcreated.drainLoop hqueue context

theorem inPhase_eq_true {m : Machine Ω} {call : Nat} {kind : CallKind} {phase : Phase} :
    m.inPhase call kind phase = true ↔ ∃ c, m.calls[call]? = some c ∧ c.kind = kind ∧ c.phase = phase := by
  cases h : m.calls[call]? <;> simp [Machine.inPhase, h]

variable {rejection : String → Ω}

/-- What a step of such a run does: the stack apart, it adds a call, moves one call to another phase, or lets a
drain go on. -/
inductive Moves (rejection : String → Ω) (m : Machine Ω) : Machine Ω → Prop where
  | frames (stack : List Frame) : Moves rejection m { m with stack }
  | assign (queue : Nat) (stack : List Frame) :
    Moves rejection m { m.modifyQueue queue (fun q => { q with drainPromise := true }) with stack }
  | refuse (lane : Lane) (label : String) (hpath : lane.storePath = "") :
    Moves rejection m { m with
      calls := m.calls ++ [⟨lane, .refused, [], .done⟩]
      settled := m.settled ++
        [(m.calls.length, rejection (label ++ ": storePath must be a non-empty string, got \"\""))] }
  | enter (lane : Lane) (context : List Nat) (stack : List Frame) :
    Moves rejection m { m with calls := m.calls ++ [⟨lane, .inline, context, .running⟩], stack }
  | enqueue (lane : Lane) (context : List Nat) (hstarting : m.starting lane = false) :
    Moves rejection m (m.enqueue lane context)
  | settle {call : Nat} {c : Call} (hc : m.calls[call]? = some c) (hrunning : c.phase = .running) (phase : Phase)
      (hphase : phase = .finished ∨ phase = .closed ∧ c.kind = .queued) (outcome : Ω) (stack : List Frame) :
    Moves rejection m { m.setPhase call phase with outcomes := m.outcomes ++ [(call, outcome)], stack }
  | deactivate {call : Nat} {c : Call} (hc : m.calls[call]? = some c) (hkind : c.kind = .queued)
      (hfinished : c.phase = .finished) : Moves rejection m (m.setPhase call .closed)
  | continueDrain {drain : Drain} {c : Call} {outcome : Ω} (hmem : drain ∈ m.drains)
      (hc : m.calls[drain.task]? = some c) (hclosed : c.phase = .closed) (houtcome : m.outcome drain.task = some outcome) :
    Moves rejection m (({ m.setPhase drain.task .done with
      settled := m.settled ++ [(drain.task, outcome)]
      drains := m.drains.filter (·.task ≠ drain.task) } : Machine Ω).drainLoop drain.lane drain.queue drain.context)
  | deliver {call : Nat} {c : Call} {outcome : Ω} (hc : m.calls[call]? = some c) (hkind : c.kind = .inline)
      (hfinished : c.phase = .finished) (houtcome : m.outcome call = some outcome) :
    Moves rejection m { m.setPhase call .done with settled := m.settled ++ [(call, outcome)] }

theorem moves_of_step {m m' : Machine Ω} {e : StoreEvent Ω} (h : Loops none m) (hpatient : Patient m e)
    (hstep : storeStep? rejection m e = some m') : Moves rejection m m' := by
  cases e with
  | resume origin =>
    simp only [storeStep?] at hstep
    split at hstep
    · cases hstep
      exact .frames _
    · obtain ⟨c, -, hc⟩ := Option.bind_eq_some_iff.mp hstep
      split at hc
      · cases hc
      · cases hc
        exact .frames _
    · cases hstep
  | runQueuedStoreWrite lane label reentrant =>
    simp only [storeStep?] at hstep
    split at hstep
    case h_2 => cases hstep
    rename_i context body rest hstack
    cases hstep
    unfold Machine.runQueuedStoreWrite
    split
    · rename_i hpath
      exact .refuse lane label hpath
    · rename_i hpath
      split
      · exact .enter lane context _
      · rename_i hactive
        refine .enqueue lane context (hpatient context body rest hstack ?_)
        simp [Machine.queues, hpath, hactive]
  | suspend =>
    simp only [storeStep?] at hstep
    split at hstep
    · cases hstep
      exact .frames _
    · cases hstep
  | throw outcome =>
    simp only [storeStep?] at hstep
    split at hstep
    case h_2 => cases hstep
    rename_i call rest hstack
    split at hstep
    · rename_i hphase
      cases hstep
      obtain ⟨c, hc, hkind, hrunning⟩ := inPhase_eq_true.mp hphase
      exact Moves.settle (m := m) hc hrunning .closed (.inr ⟨rfl, hkind⟩) outcome rest
    · split at hstep
      · rename_i hphase
        cases hstep
        obtain ⟨c, hc, -, hrunning⟩ := inPhase_eq_true.mp hphase
        exact Moves.settle (m := m) hc hrunning .finished (.inl rfl) outcome rest
      · cases hstep
  | assignDrainPromise =>
    simp only [storeStep?] at hstep
    split at hstep
    · cases hstep
      exact .assign _ _
    · cases hstep
  | settle call outcome =>
    simp only [storeStep?] at hstep
    split at hstep
    · rename_i hphase
      cases hstep
      rw [Bool.and_eq_true, Bool.or_eq_true, inPhase_eq_true, inPhase_eq_true] at hphase
      rcases hphase.1 with ⟨c, hc, -, hrunning⟩ | ⟨c, hc, -, hrunning⟩
      · exact .settle hc hrunning .finished (.inl rfl) outcome m.stack
      · exact .settle hc hrunning .finished (.inl rfl) outcome m.stack
    · cases hstep
  | deactivate call =>
    simp only [storeStep?] at hstep
    split at hstep
    · rename_i hphase
      cases hstep
      obtain ⟨c, hc, hkind, hfinished⟩ := inPhase_eq_true.mp (Bool.and_eq_true_iff.mp hphase).2
      exact .deactivate hc hkind hfinished
    · cases hstep
  | continueDrain task =>
    simp only [storeStep?] at hstep
    split at hstep
    case h_2 => cases hstep
    rename_i drain outcome hstack hfind houtcome
    split at hstep
    · rename_i hphase
      cases hstep
      obtain rfl : drain.task = task := by simpa using List.find?_some hfind
      obtain ⟨c, hc, -, hclosed⟩ := inPhase_eq_true.mp hphase
      exact .continueDrain (List.mem_of_find?_eq_some hfind) hc hclosed houtcome
    · cases hstep
  | deliver call =>
    simp only [storeStep?] at hstep
    split at hstep
    case h_2 => cases hstep
    rename_i outcome hstack houtcome
    split at hstep
    · rename_i hphase
      cases hstep
      obtain ⟨c, hc, hkind, hfinished⟩ := inPhase_eq_true.mp hphase
      exact .deliver hc hkind hfinished houtcome
    · cases hstep
  | microtask =>
    simp only [storeStep?] at hstep
    split at hstep
    · rename_i hmicrotasks
      rw [h.quiet] at hmicrotasks
      cases hmicrotasks
    · cases hstep

theorem loops_step {m m' : Machine Ω} (h : Loops none m) (hmoves : Moves rejection m m') : Loops none m' := by
  cases hmoves with
  | frames stack => exact h.frames stack m.outcomes m.settled
  | assign queue stack =>
    exact (h.modifyQueue queue (f := fun q => { q with drainPromise := true }) fun _ => ⟨rfl, rfl⟩).frames stack
      m.outcomes m.settled
  | refuse lane label hpath => exact (h.concat (c := ⟨lane, .refused, [], .done⟩) nofun).frames m.stack m.outcomes _
  | enter lane context stack =>
    exact (h.concat (c := ⟨lane, .inline, context, .running⟩) nofun).frames stack m.outcomes m.settled
  | enqueue lane context hstarting => exact loops_enqueue h hstarting context
  | settle hc hrunning phase hphase outcome stack =>
    refine (h.setPhase hc fun _ => ?_).frames stack _ m.settled
    rcases hphase with rfl | ⟨rfl, -⟩
    · exact ⟨by rw [hrunning]; rfl, rfl⟩
    · exact ⟨by rw [hrunning]; rfl, rfl⟩
  | deactivate hc hkind hfinished => exact h.setPhase hc fun _ => ⟨by rw [hfinished]; rfl, rfl⟩
  | continueDrain hmem hc hclosed houtcome =>
    exact ((h.finishTask hmem).frames m.stack m.outcomes _).drainLoop (h.held _ hmem) _
  | deliver hc hkind hfinished houtcome =>
    exact (h.setPhase hc fun hqueued => by rw [hkind] at hqueued; cases hqueued).frames m.stack m.outcomes _

/-! ## What one drain for each lane gives -/

namespace Loops

variable {m : Machine Ω}

/-- Two sections of a lane are not under way at once. -/
theorem exclusive (h : Loops none m) {left right : Nat} {c c' : Call} (hc : m.calls[left]? = some c)
    (hc' : m.calls[right]? = some c') (hkind : c.kind = .queued) (hkind' : c'.kind = .queued) (hlane : c.lane = c'.lane)
    (hgoing : c.phase.going = true) (hgoing' : c'.phase.going = true) : left = right := by
  obtain ⟨drain, hdrain, rfl⟩ := h.going left c hc hkind hgoing
  obtain ⟨drain', hdrain', rfl⟩ := h.going right c' hc' hkind' hgoing'
  obtain ⟨c₁, hc₁, -, hlane₁, -⟩ := h.task drain hdrain
  obtain ⟨c₂, hc₂, -, hlane₂, -⟩ := h.task drain' hdrain'
  cases hc.symm.trans hc₁
  cases hc'.symm.trans hc₂
  rw [h.drain_unique hdrain hdrain' (hlane₁.symm.trans (hlane.trans hlane₂))]

/-- A task that waits has a drain at work on its lane, and is in the queue of that drain. -/
theorem waits (h : Loops none m) {call : Nat} {c : Call} (hc : m.calls[call]? = some c) (hkind : c.kind = .queued)
    (hphase : c.phase = .waiting) :
    ∃ drain ∈ m.drains, drain.lane = c.lane ∧ call ∈ (m.queue drain.queue).pending := by
  have hfresh := (h.waiting call c hc hkind).mp hphase
  have hqueued : call ∈ queuedIn m.calls c.lane :=
    List.mem_filter.mpr ⟨List.mem_range.mpr (List.getElem?_eq_some_iff.mp hc).1, ofLane_eq_true.mpr ⟨c, hc, hkind, rfl⟩⟩
  rw [← h.order c.lane, List.mem_append] at hqueued
  have hpending : call ∈ m.pendingOf c.lane :=
    hqueued.resolve_left fun hstarted => hfresh (List.mem_of_mem_filter hstarted)
  cases hqueue : m.queueAt c.lane with
  | none =>
    rw [Machine.pendingOf_none hqueue] at hpending
    cases hpending
  | some queue =>
    rw [Machine.pendingOf_some queue hqueue] at hpending
    obtain ⟨-, -, hdrain⟩ := h.drained c.lane queue hqueue
    obtain ⟨drain, hmem, hlane⟩ := hdrain.resolve_left nofun
    have hheld := h.held drain hmem
    rw [hlane, hqueue] at hheld
    exact ⟨drain, hmem, hlane, Option.some.inj hheld ▸ hpending⟩

end Loops

end OpenClaw.Shared
