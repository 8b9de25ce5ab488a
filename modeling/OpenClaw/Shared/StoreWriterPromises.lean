/-
# OpenClaw.Shared.StoreWriterPromises -- every promise settles once, with its own outcome

The promise of a call settles when its drain goes on after its section, or with an inline section; a call that is
thrown out settles at once.  The main theorem puts together what holds in every state of a run in which no call is
queued on a lane whose drain is being started.
-/
import OpenClaw.Shared.StoreWriterExclusion

namespace OpenClaw.Shared

open OpenClaw.Logic

variable {Ω : Type} {rejection : String → Ω}

/-! ## Promises -/

/-- The function of the call has given its outcome. -/
def Phase.over : Phase → Bool
  | .finished | .closed | .done => true
  | .waiting | .running => false

/-- What the calls, the outcomes of their functions and their settled promises have to do with each other. -/
structure Promises (rejection : String → Ω) (calls : List Call) (outcomes settled : List (Nat × Ω)) : Prop where
  outcomeOnce : (outcomes.map Prod.fst).Nodup
  hasOutcome : ∀ call, call ∈ outcomes.map Prod.fst ↔
    ∃ c, calls[call]? = some c ∧ c.kind ≠ .refused ∧ c.phase.over = true
  settledOnce : (settled.map Prod.fst).Nodup
  isSettled : ∀ call, call ∈ settled.map Prod.fst ↔ ∃ c, calls[call]? = some c ∧ c.phase = .done
  own : ∀ call outcome, (call, outcome) ∈ settled → (call, outcome) ∈ outcomes ∨
    ∃ label, outcome = rejection (label ++ ": storePath must be a non-empty string, got \"\"") ∧
      ∃ c, calls[call]? = some c ∧ c.kind = .refused ∧ c.lane.storePath = ""
  inline : ∀ (call : Nat) (c : Call), calls[call]? = some c → c.kind = .inline → c.phase ≠ .waiting ∧ c.phase ≠ .closed
  refused : ∀ (call : Nat) (c : Call), calls[call]? = some c → c.kind = .refused → c.phase = .done

variable {call : Nat}

namespace Promises

variable {calls : List Call} {outcomes settled : List (Nat × Ω)}

theorem getElem?_concat_cases {c c' : Call} (h : (calls ++ [c])[call]? = some c') : calls[call]? = some c' ∨
      (call = calls.length ∧ c' = c) := by
  rcases Nat.lt_or_ge call calls.length with hlt | hge
  · rw [List.getElem?_append_left hlt] at h
    exact .inl h
  · rw [List.getElem?_append_right hge, List.getElem?_singleton] at h
    split at h
    · cases h
      exact .inr ⟨by omega, rfl⟩
    · cases h

theorem getElem?_concat {c c' : Call} (h : calls[call]? = some c') : (calls ++ [c])[call]? = some c' :=
  (List.getElem?_append_left (List.getElem?_eq_some_iff.mp h).1).trans h

theorem nodup_concat {entries : List (Nat × Ω)} (h : (entries.map Prod.fst).Nodup)
    (hfresh : call ∉ entries.map Prod.fst) (outcome : Ω) : ((entries ++ [(call, outcome)]).map Prod.fst).Nodup := by
  rw [List.map_append]
  refine List.nodup_append.mpr ⟨h, List.nodup_singleton _, ?_⟩
  rintro left hleft right hright rfl
  obtain rfl : left = call := List.mem_singleton.mp hright
  exact hfresh hleft

/-- A call whose section has not begun, or has just begun. -/
theorem concat (h : Promises rejection calls outcomes settled) {c : Call} (hkind : c.kind ≠ .refused)
    (hphase : c.phase.over = false) (hinline : c.kind = .inline → c.phase ≠ .waiting) :
    Promises rejection (calls ++ [c]) outcomes settled := by
  have hdone : c.phase ≠ .done := fun heq => by rw [heq] at hphase; cases hphase
  have hclosed : c.phase ≠ .closed := fun heq => by rw [heq] at hphase; cases hphase
  refine { h with hasOutcome := fun call => (h.hasOutcome call).trans ?_, isSettled := fun call => (h.isSettled call).trans ?_,
                  own := fun call outcome hmem => ?_, inline := fun call c' hc' hkind' => ?_,
                  refused := fun call c' hc' hkind' => ?_ }
  · constructor
    · rintro ⟨c', hc', hrest⟩
      exact ⟨c', getElem?_concat hc', hrest⟩
    · rintro ⟨c', hc', hkind', hover⟩
      rcases getElem?_concat_cases hc' with hold | ⟨-, rfl⟩
      · exact ⟨c', hold, hkind', hover⟩
      · rw [hphase] at hover
        cases hover
  · constructor
    · rintro ⟨c', hc', hrest⟩
      exact ⟨c', getElem?_concat hc', hrest⟩
    · rintro ⟨c', hc', hdone'⟩
      rcases getElem?_concat_cases hc' with hold | ⟨-, rfl⟩
      · exact ⟨c', hold, hdone'⟩
      · exact absurd hdone' hdone
  · refine (h.own call outcome hmem).imp_right ?_
    rintro ⟨label, heq, c', hc', hrest⟩
    exact ⟨label, heq, c', getElem?_concat hc', hrest⟩
  · rcases getElem?_concat_cases hc' with hold | ⟨-, rfl⟩
    · exact h.inline call c' hold hkind'
    · exact ⟨hinline hkind', hclosed⟩
  · rcases getElem?_concat_cases hc' with hold | ⟨-, rfl⟩
    · exact h.refused call c' hold hkind'
    · exact absurd hkind' hkind

/-- A call that is thrown out. -/
theorem refuse (h : Promises rejection calls outcomes settled) {lane : Lane} (hpath : lane.storePath = "")
    (label : String) : Promises rejection (calls ++ [⟨lane, .refused, [], .done⟩]) outcomes
      (settled ++ [(calls.length, rejection (label ++ ": storePath must be a non-empty string, got \"\""))]) := by
  have hnew : calls.length ∉ settled.map Prod.fst := by
    intro hmem
    obtain ⟨c, hc, -⟩ := (h.isSettled _).mp hmem
    exact Nat.lt_irrefl _ (List.getElem?_eq_some_iff.mp hc).1
  refine { h with hasOutcome := fun call => (h.hasOutcome call).trans ?_, settledOnce := ?_, isSettled := fun call => ?_,
                  own := fun call outcome hmem => ?_, inline := fun call c' hc' hkind' => ?_,
                  refused := fun call c' hc' hkind' => ?_ }
  · constructor
    · rintro ⟨c', hc', hrest⟩
      exact ⟨c', getElem?_concat hc', hrest⟩
    · rintro ⟨c', hc', hkind', hover⟩
      rcases getElem?_concat_cases hc' with hold | ⟨-, rfl⟩
      · exact ⟨c', hold, hkind', hover⟩
      · exact absurd rfl hkind'
  · exact nodup_concat h.settledOnce hnew _
  · rw [List.map_append, List.mem_append, h.isSettled]
    constructor
    · rintro (⟨c', hc', hdone⟩ | hmem)
      · exact ⟨c', getElem?_concat hc', hdone⟩
      · rw [List.mem_singleton.mp hmem]
        exact ⟨_, List.getElem?_concat_length .., rfl⟩
    · rintro ⟨c', hc', hdone⟩
      rcases getElem?_concat_cases hc' with hold | ⟨rfl, -⟩
      · exact .inl ⟨c', hold, hdone⟩
      · exact .inr List.mem_cons_self
  · rcases List.mem_append.mp hmem with hmem | hmem
    · refine (h.own call outcome hmem).imp_right ?_
      rintro ⟨label, heq, c', hc', hrest⟩
      exact ⟨label, heq, c', getElem?_concat hc', hrest⟩
    · cases List.mem_singleton.mp hmem
      exact .inr ⟨label, rfl, _, List.getElem?_concat_length .., rfl, hpath⟩
  · rcases getElem?_concat_cases hc' with hold | ⟨-, rfl⟩
    · exact h.inline call c' hold hkind'
    · cases hkind'
  · rcases getElem?_concat_cases hc' with hold | ⟨-, rfl⟩
    · exact h.refused call c' hold hkind'
    · rfl

/-- The calls after one of them was changed. -/
theorem getElem?_change {c : Call} {call : Nat} (hc : calls[call]? = some c) (f : Call → Call) (other : Nat) :
    (calls.modify call f)[other]? = if other = call then some (f c) else calls[other]? := by
  by_cases heq : other = call
  · subst heq
    rw [List.getElem?_modify_eq, hc, if_pos rfl]
    rfl
  · rw [List.getElem?_modify_ne _ _ fun h => heq h.symm, if_neg heq]

/-- A call goes to a phase on the same side of its outcome, and not to the last one. -/
theorem advance (h : Promises rejection calls outcomes settled) {c : Call} (hc : calls[call]? = some c)
    {f : Call → Call} (hkind : (f c).kind = c.kind) (hlane : (f c).lane = c.lane)
    (hover : (f c).phase.over = c.phase.over) (hdone : c.phase ≠ .done ∧ (f c).phase ≠ .done)
    (hinline : c.kind = .inline → (f c).phase ≠ .waiting ∧ (f c).phase ≠ .closed) :
    Promises rejection (calls.modify call f) outcomes settled := by
  have hget := getElem?_change hc f
  refine { h with hasOutcome := fun other => (h.hasOutcome other).trans ?_,
                  isSettled := fun other => (h.isSettled other).trans ?_,
                  own := fun other outcome hmem => ?_, inline := fun other c' hc' hkind' => ?_,
                  refused := fun other c' hc' hkind' => ?_ }
  · rw [hget]
    split
    · rename_i heq
      subst heq
      simp [hc, hkind, hover]
    · rfl
  · rw [hget]
    split
    · rename_i heq
      subst heq
      simp [hc, hdone]
    · rfl
  · refine (h.own other outcome hmem).imp_right ?_
    rintro ⟨label, heq, c', hc', hkind', hpath⟩
    refine ⟨label, heq, ?_⟩
    rw [hget]
    split
    · rename_i heq'
      subst heq'
      cases hc.symm.trans hc'
      exact ⟨f c, rfl, hkind.trans hkind', hlane ▸ hpath⟩
    · exact ⟨c', hc', hkind', hpath⟩
  · rw [hget] at hc'
    split at hc'
    · cases hc'
      exact hinline (hkind ▸ hkind')
    · exact h.inline other c' hc' hkind'
  · rw [hget] at hc'
    split at hc'
    · cases hc'
      exact absurd (h.refused call c hc (hkind ▸ hkind')) hdone.1
    · exact h.refused other c' hc' hkind'

/-- The function of a call that runs gives its outcome. -/
theorem settle (h : Promises rejection calls outcomes settled) {c : Call} (hc : calls[call]? = some c)
    (hphase : c.phase = .running) (phase : Phase) (hover : phase.over = true) (hdone : phase ≠ .done)
    (hinline : c.kind = .inline → phase ≠ .closed) (outcome : Ω) :
    Promises rejection (calls.modify call fun c => { c with phase }) (outcomes ++ [(call, outcome)]) settled := by
  have hget := getElem?_change hc fun c => { c with phase }
  have hrefused : c.kind ≠ .refused := by
    intro hkind
    rw [h.refused call c hc hkind] at hphase
    cases hphase
  have hfresh : call ∉ outcomes.map Prod.fst := by
    intro hmem
    obtain ⟨c', hc', -, hover'⟩ := (h.hasOutcome call).mp hmem
    cases hc.symm.trans hc'
    rw [hphase] at hover'
    cases hover'
  refine { h with outcomeOnce := ?_, hasOutcome := fun other => ?_,
                  isSettled := fun other => (h.isSettled other).trans ?_,
                  own := fun other outcome' hmem => ?_, inline := fun other c' hc' hkind' => ?_,
                  refused := fun other c' hc' hkind' => ?_ }
  · exact nodup_concat h.outcomeOnce hfresh _
  · rw [List.map_append, List.mem_append, h.hasOutcome, hget]
    split
    · rename_i heq
      subst heq
      simp [hrefused, hover]
    · rename_i hne
      simp [hne]
  · rw [hget]
    split
    · rename_i heq
      subst heq
      simp [hc, hphase, hdone]
    · rfl
  · refine (h.own other outcome' hmem).imp (List.mem_append_left _) ?_
    rintro ⟨label, heq, c', hc', hkind', hpath⟩
    refine ⟨label, heq, ?_⟩
    rw [hget]
    split
    · rename_i heq'
      subst heq'
      cases hc.symm.trans hc'
      exact ⟨_, rfl, hkind', hpath⟩
    · exact ⟨c', hc', hkind', hpath⟩
  · rw [hget] at hc'
    split at hc'
    · cases hc'
      refine ⟨?_, hinline hkind'⟩
      rintro rfl
      cases hover
    · exact h.inline other c' hc' hkind'
  · rw [hget] at hc'
    split at hc'
    · cases hc'
      exact absurd hkind' hrefused
    · exact h.refused other c' hc' hkind'

/-- The promise of a call takes the outcome of its function. -/
theorem finish (h : Promises rejection calls outcomes settled) {c : Call} (hc : calls[call]? = some c)
    (hover : c.phase.over = true) (hdone : c.phase ≠ .done) {outcome : Ω} (hmem : (call, outcome) ∈ outcomes) :
    Promises rejection (calls.modify call fun c => { c with phase := .done }) outcomes (settled ++
      [(call, outcome)]) := by
  have hget := getElem?_change hc fun c => { c with phase := .done }
  have hfresh : call ∉ settled.map Prod.fst := by
    intro hmem
    obtain ⟨c', hc', hdone'⟩ := (h.isSettled call).mp hmem
    cases hc.symm.trans hc'
    exact hdone hdone'
  refine { h with hasOutcome := fun other => (h.hasOutcome other).trans ?_, settledOnce := ?_,
                  isSettled := fun other => ?_, own := fun other outcome' hmem' => ?_,
                  inline := fun other c' hc' hkind' => ?_, refused := fun other c' hc' hkind' => ?_ }
  · rw [hget]
    split
    · rename_i heq
      subst heq
      have hover' : Phase.done.over = true := rfl
      simp [hc, hover, hover']
    · rfl
  · exact nodup_concat h.settledOnce hfresh _
  · rw [List.map_append, List.mem_append, h.isSettled, hget]
    split
    · rename_i heq
      subst heq
      simp
    · rename_i hne
      simp [hne]
  · rcases List.mem_append.mp hmem' with hmem' | hmem'
    · refine (h.own other outcome' hmem').imp_right ?_
      rintro ⟨label, heq, c', hc', hkind', hpath⟩
      refine ⟨label, heq, ?_⟩
      rw [hget]
      split
      · rename_i heq'
        subst heq'
        cases hc.symm.trans hc'
        exact ⟨_, rfl, hkind', hpath⟩
      · exact ⟨c', hc', hkind', hpath⟩
    · cases List.mem_singleton.mp hmem'
      exact .inl hmem
  · rw [hget] at hc'
    split at hc'
    · cases hc'
      exact ⟨nofun, nofun⟩
    · exact h.inline other c' hc' hkind'
  · rw [hget] at hc'
    split at hc'
    · cases hc'
      rfl
    · exact h.refused other c' hc' hkind'

end Promises

/-! ## Steps -/

theorem promises_idle : Promises rejection [] ([] : List (Nat × Ω)) [] where
  outcomeOnce := List.nodup_nil
  hasOutcome := by simp
  settledOnce := List.nodup_nil
  isSettled := by simp
  own := by simp
  inline := by simp
  refused := by simp

/-- A drain at the head of its loop: it starts a task that waits, or no call changes. -/
theorem promises_drainLoop {m : Machine Ω} {lane : Lane} (h : Loops (some lane) m) {queue : Nat}
    (hqueue : m.queueAt lane = some queue) (hpromises : Promises rejection m.calls m.outcomes m.settled)
    (context : List Nat) :
    Promises rejection (m.drainLoop lane queue context).calls (m.drainLoop lane queue context).outcomes
      (m.drainLoop lane queue context).settled := by
  unfold Machine.drainLoop
  split
  · rename_i task rest hpending
    obtain ⟨-, c, hc, hkind, -, hwaiting⟩ := h.next_task hqueue hpending
    refine hpromises.advance hc rfl rfl ?_ ⟨?_, nofun⟩ fun hinline => ?_
    · rw [hwaiting]
      rfl
    · rw [hwaiting]
      nofun
    · rw [hkind] at hinline
      cases hinline
  · unfold Machine.finishDrain
    dsimp only
    split
    · exact hpromises
    · exact hpromises

theorem outcome_mem {m : Machine Ω} {outcome : Ω} (h : m.outcome call = some outcome) :
    (call, outcome) ∈ m.outcomes := by
  obtain ⟨entry, hfind, rfl⟩ := Option.map_eq_some_iff.mp h
  obtain rfl : entry.1 = call := by simpa using List.find?_some hfind
  exact List.mem_of_find?_eq_some hfind

theorem promises_enqueue {m : Machine Ω} {lane : Lane} (h : Loops none m) (hstarting : m.starting lane = false)
    (hpromises : Promises rejection m.calls m.outcomes m.settled) (context : List Nat) :
    Promises rejection (m.enqueue lane context).calls (m.enqueue lane context).outcomes
      (m.enqueue lane context).settled := by
  have htask := hpromises.concat (c := .task lane) (by simp [Call.task]) rfl (by simp [Call.task])
  rcases enqueue_cases h hstarting context with
    ⟨queue, -, heq⟩ | ⟨created, hcreated, hcalls, houtcomes, hsettled, hqueue, heq⟩
  · rw [heq]
    exact htask
  · rw [heq]
    rw [← hcalls, ← houtcomes, ← hsettled] at htask
    exact promises_drainLoop hcreated hqueue htask context

theorem promises_step {m m' : Machine Ω} (h : Loops none m)
    (hpromises : Promises rejection m.calls m.outcomes m.settled) (hmoves : Moves rejection m m') :
    Promises rejection m'.calls m'.outcomes m'.settled := by
  cases hmoves with
  | frames stack => exact hpromises
  | assign queue stack => exact hpromises
  | refuse lane label hpath => exact hpromises.refuse hpath label
  | enter lane context stack => exact hpromises.concat (by simp) rfl (by simp)
  | enqueue lane context hstarting => exact promises_enqueue h hstarting hpromises context
  | settle hc hrunning phase hphase outcome stack =>
    rcases hphase with rfl | ⟨rfl, hkind⟩
    · exact hpromises.settle hc hrunning .finished rfl (by simp) (by simp) outcome
    · exact hpromises.settle hc hrunning .closed rfl (by simp) (fun hinline => by rw [hkind] at hinline; cases hinline)
        outcome
  | deactivate hc hkind hfinished =>
    refine hpromises.advance hc rfl rfl ?_ ⟨?_, by simp⟩ fun hinline => ?_
    · rw [hfinished]
      rfl
    · rw [hfinished]
      simp
    · rw [hkind] at hinline
      cases hinline
  | continueDrain hmem hc hclosed houtcome =>
    refine promises_drainLoop ((h.finishTask hmem).frames m.stack m.outcomes _) (h.held _ hmem) ?_ _
    exact hpromises.finish hc (by rw [hclosed]; rfl) (by rw [hclosed]; simp) (outcome_mem houtcome)
  | deliver hc hkind hfinished houtcome =>
    exact hpromises.finish hc (by rw [hfinished]; rfl) (by rw [hfinished]; simp) (outcome_mem houtcome)

/-! ## Runs -/

/-- Nothing is left for the loop to do: what happens next is up to the functions of the sections. -/
def Machine.Quiet (rejection : String → Ω) (m : Machine Ω) : Prop :=
  m.stack = [] ∧ storeStep? rejection m .microtask = none ∧
    ∀ call, storeStep? rejection m (.deactivate call) = none ∧ storeStep? rejection m (.continueDrain call) = none ∧
      storeStep? rejection m (.deliver call) = none

/-- The call was queued on the lane, and its section is under way. -/
def Machine.Underway (m : Machine Ω) (lane : Lane) (call : Nat) : Prop :=
  ∃ c, m.calls[call]? = some c ∧ c.kind = .queued ∧ c.lane = lane ∧ c.phase.going = true

theorem outcome_isSome {m : Machine Ω} (h : call ∈ m.outcomes.map Prod.fst) :
    ∃ outcome, m.outcome call = some outcome := by
  obtain ⟨entry, hentry, rfl⟩ := List.mem_map.mp h
  cases hfind : m.outcomes.find? (·.1 = entry.1) with
  | none => exact absurd (decide_eq_true rfl) (List.find?_eq_none.mp hfind entry hentry)
  | some found => exact ⟨found.2, by simp [Machine.outcome, hfind]⟩

namespace Loops

variable {m : Machine Ω}

/-- When the loop has nothing left to do, a section that is under way has a function that did not settle. -/
theorem running_of_quiet (h : Loops none m) (hpromises : Promises rejection m.calls m.outcomes m.settled)
    (hquiet : m.Quiet rejection) {c : Call} (hc : m.calls[call]? = some c) (hgoing : c.phase.going = true) :
    c.phase = .running := by
  obtain ⟨hstack, -, hjobs⟩ := hquiet
  obtain ⟨hdeactivate, hcontinue, hdeliver⟩ := hjobs call
  have hrefused : c.kind ≠ .refused := by
    intro hkind
    rw [hpromises.refused call c hc hkind] at hgoing
    cases hgoing
  have houtcome : c.phase.over = true → ∃ outcome, m.outcome call = some outcome := fun hover =>
    outcome_isSome ((hpromises.hasOutcome call).mpr ⟨c, hc, hrefused, hover⟩)
  cases hphase : c.phase with
  | running => rfl
  | waiting =>
    rw [hphase] at hgoing
    cases hgoing
  | done =>
    rw [hphase] at hgoing
    cases hgoing
  | finished =>
    cases hkind : c.kind with
    | refused => exact absurd hkind hrefused
    | queued =>
      have hin : m.inPhase call .queued .finished = true := inPhase_eq_true.mpr ⟨c, hc, hkind, hphase⟩
      simp [storeStep?, hstack, hin] at hdeactivate
    | inline =>
      obtain ⟨outcome, houtcome⟩ := houtcome (by rw [hphase]; rfl)
      have hin : m.inPhase call .inline .finished = true := inPhase_eq_true.mpr ⟨c, hc, hkind, hphase⟩
      simp [storeStep?, hstack, hin, houtcome] at hdeliver
  | closed =>
    have hkind : c.kind = .queued := by
      cases hkind : c.kind with
      | refused => exact absurd hkind hrefused
      | queued => rfl
      | inline => exact absurd hphase (hpromises.inline call c hc hkind).2
    obtain ⟨outcome, houtcome⟩ := houtcome (by rw [hphase]; rfl)
    have hin : m.inPhase call .queued .closed = true := inPhase_eq_true.mpr ⟨c, hc, hkind, hphase⟩
    obtain ⟨drain, hdrain, htask⟩ := h.going call c hc hkind hgoing
    cases hfind : m.drains.find? (·.task = call) with
    | none => exact absurd htask (by simpa using List.find?_eq_none.mp hfind drain hdrain)
    | some found => simp [storeStep?, hstack, hin, houtcome, hfind] at hcontinue

/-- When the loop has nothing left to do, a promise that is not settled waits for the function of a section. -/
theorem settled_of_quiet (h : Loops none m) (hpromises : Promises rejection m.calls m.outcomes m.settled)
    (hquiet : m.Quiet rejection) {c : Call} (hc : m.calls[call]? = some c) : call ∈ m.settled.map Prod.fst ∨
      c.phase = .running ∨ (c.phase = .waiting ∧ ∃ (other : Nat) (c' : Call), m.calls[other]? = some c' ∧
      c'.kind = .queued ∧ c'.lane = c.lane ∧ c'.phase = .running) := by
  by_cases hgoing : c.phase.going = true
  · exact .inr (.inl (h.running_of_quiet hpromises hquiet hc hgoing))
  · cases hphase : c.phase with
    | done => exact .inl ((hpromises.isSettled call).mpr ⟨c, hc, hphase⟩)
    | waiting =>
      refine .inr (.inr ⟨rfl, ?_⟩)
      have hkind : c.kind = .queued := by
        cases hkind : c.kind with
        | queued => rfl
        | inline => exact absurd hphase (hpromises.inline call c hc hkind).1
        | refused =>
          rw [hpromises.refused call c hc hkind] at hphase
          cases hphase
      obtain ⟨drain, hdrain, hlane, -⟩ := h.waits hc hkind hphase
      obtain ⟨c', hc', hkind', hlane', hgoing'⟩ := h.task drain hdrain
      exact ⟨drain.task, c', hc', hkind', hlane'.trans hlane, h.running_of_quiet hpromises hquiet hc' hgoing'⟩
    | running | finished | closed => exact absurd (by rw [hphase]; rfl) hgoing

end Loops

/-- A drain changes the kind of no call. -/
theorem kind_drainStoreWriterQueue (m : Machine Ω) (lane : Lane) (context : List Nat) (call : Nat) :
    ((m.drainStoreWriterQueue lane context).calls[call]?).map (·.kind) = (m.calls[call]?).map (·.kind) := by
  unfold Machine.drainStoreWriterQueue
  split
  · rfl
  · split
    · rfl
    · unfold Machine.drainLoop
      dsimp only
      split
      · simp only [Machine.runActiveStoreWriter, Machine.modifyQueue, List.getElem?_modify]
        split
        · cases m.calls[call]? <;> rfl
        · cases m.calls[call]? <;> rfl
      · unfold Machine.finishDrain
        dsimp only
        split
        · rfl
        · rfl

theorem kind_enqueue (m : Machine Ω) (lane : Lane) (context : List Nat) :
    ((m.enqueue lane context).calls[m.calls.length]?).map (·.kind) = some .queued := by
  unfold Machine.enqueue
  dsimp only
  rw [kind_drainStoreWriterQueue]
  cases hlane : m.queueAt lane with
  | none => simp [Machine.getOrCreateStoreWriterQueue, hlane, Machine.modifyQueue, Call.task]
  | some queue => simp [Machine.getOrCreateStoreWriterQueue, hlane, Machine.modifyQueue, Call.task]

/-- A call runs inline only when it asks to, inside an active section of its lane. -/
theorem inline_active {m : Machine Ω} {lane : Lane} {label : String} {reentrant : Bool} {context : List Nat} {c : Call}
    (hc : (m.runQueuedStoreWrite rejection lane label reentrant context).calls[m.calls.length]? = some c)
    (hkind : c.kind = .inline) :
    reentrant = true ∧ ∃ writer ∈ context, ∃ c' : Call, m.calls[writer]? = some c' ∧ c'.lane = lane ∧ c'.active = true := by
  unfold Machine.runQueuedStoreWrite at hc
  split at hc
  · simp only [List.getElem?_concat_length, Option.some.injEq] at hc
    rw [← hc] at hkind
    cases hkind
  · split at hc
    · rename_i hactive
      obtain ⟨hreentrant, hwriter⟩ := Bool.and_eq_true_iff.mp hactive
      refine ⟨hreentrant, ?_⟩
      obtain ⟨writer, hwriter, hany⟩ := List.any_eq_true.mp hwriter
      cases hc' : m.calls[writer]? with
      | none =>
        rw [hc'] at hany
        cases hany
      | some c' =>
        rw [hc'] at hany
        obtain ⟨hactive', hlane⟩ := Bool.and_eq_true_iff.mp hany
        exact ⟨writer, hwriter, c', hc', of_decide_eq_true hlane, hactive'⟩
    · have hqueued := kind_enqueue m lane context
      rw [hc, Option.map_some, hkind] at hqueued
      cases hqueued

/-- In a run in which no call is queued on a lane whose drain is being started: sections of a lane exclude each
other; the sections that have started are the first that were queued, in their order; a promise settles once,
with the outcome of its own section, and does so when no function is left to wait for; a task that waits has a
drain at work on its lane; and a call runs inline only inside an active section of its lane. -/
theorem store_writer_queue (script : List (StoreEvent Ω))
    (hpatient : Guarded (skipDisabled (storeStep? rejection)) Patient (idleMachine Ω) script) :
    let m := run (skipDisabled (storeStep? rejection)) (idleMachine Ω) script
    (∀ lane left right, m.Underway lane left → m.Underway lane right → left = right) ∧
    (∀ lane, m.startedOf lane <+: queuedIn m.calls lane) ∧
    ((m.outcomes.map Prod.fst).Nodup ∧ (m.settled.map Prod.fst).Nodup ∧
      ∀ call outcome, (call, outcome) ∈ m.settled → (call, outcome) ∈ m.outcomes ∨
        ∃ label, outcome = rejection (label ++ ": storePath must be a non-empty string, got \"\"") ∧
          ∃ c : Call, m.calls[call]? = some c ∧ c.kind = .refused ∧ c.lane.storePath = "") ∧
    (m.Quiet rejection → ∀ (call : Nat) (c : Call), m.calls[call]? = some c →
      call ∈ m.settled.map Prod.fst ∨ c.phase = .running ∨
        (c.phase = .waiting ∧ ∃ (other : Nat) (c' : Call), m.calls[other]? = some c' ∧ c'.kind = .queued ∧
          c'.lane = c.lane ∧ c'.phase = .running)) ∧
    (∀ (call : Nat) (c : Call), m.calls[call]? = some c → c.kind = .queued → c.phase = .waiting →
      ∃ drain ∈ m.drains, drain.lane = c.lane ∧ call ∈ (m.queue drain.queue).pending) ∧
    (∀ lane label reentrant context (c : Call),
      (m.runQueuedStoreWrite rejection lane label reentrant context).calls[m.calls.length]? = some c →
      c.kind = .inline → reentrant = true ∧
        ∃ writer ∈ context, ∃ c' : Call, m.calls[writer]? = some c' ∧ c'.lane = lane ∧ c'.active = true) := by
  intro m
  have hinvariant : Loops none m ∧ Promises rejection m.calls m.outcomes m.settled := by
    refine run_invariant_guarded (P := fun m => Loops none m ∧ Promises rejection m.calls m.outcomes m.settled)
      (fun m e hguard hm => ?_) script hpatient ⟨loops_idle, promises_idle⟩
    refine skipDisabled_keeps (P := fun m => Loops none m ∧ Promises rejection m.calls m.outcomes m.settled) hm
      fun m' hstep => ?_
    have hmoves := moves_of_step hm.1 hguard hstep
    exact ⟨loops_step hm.1 hmoves, promises_step hm.1 hm.2 hmoves⟩
  obtain ⟨hloops, hpromises⟩ := hinvariant
  refine ⟨?_, ?_, ⟨hpromises.outcomeOnce, hpromises.settledOnce, hpromises.own⟩, ?_, ?_, ?_⟩
  · rintro lane left right ⟨c, hc, hkind, hlane, hgoing⟩ ⟨c', hc', hkind', hlane', hgoing'⟩
    exact hloops.exclusive hc hc' hkind hkind' (hlane.trans hlane'.symm) hgoing hgoing'
  · intro lane
    exact ⟨m.pendingOf lane, hloops.order lane⟩
  · intro hquiet call c hc
    exact hloops.settled_of_quiet hpromises hquiet hc
  · intro call c hc hkind hphase
    exact hloops.waits hc hkind hphase
  · intro lane label reentrant context c hc hkind
    exact inline_active hc hkind

/-- One section that queues another on its own lane after its first await. -/
def patientScript : List (StoreEvent String) :=
  let lane : Lane := ⟨0, "sessions.json"⟩
  [.resume none, .runQueuedStoreWrite lane "outer" false, .suspend, .assignDrainPromise, .suspend, .resume (some 0),
    .runQueuedStoreWrite lane "inner" false, .suspend]

theorem patientScript_patient : Guarded (skipDisabled (storeStep? id)) Patient (idleMachine String) patientScript :=
  ⟨trivial, fun _ _ _ _ _ => rfl, trivial, trivial, trivial, trivial, fun _ _ _ _ _ => rfl, trivial, trivial⟩

theorem store_writer_queue_patient :
    (run (skipDisabled (storeStep? id)) (idleMachine String) patientScript).startedOf ⟨0, "sessions.json"⟩ <+:
      queuedIn (run (skipDisabled (storeStep? id)) (idleMachine String) patientScript).calls ⟨0, "sessions.json"⟩ :=
  (store_writer_queue patientScript patientScript_patient).2.1 ⟨0, "sessions.json"⟩

/-- One section that queues another on its own lane before its first await: both are under way. -/
theorem sections_overlap : ¬∀ (script : List (StoreEvent String)) (lane : Lane) (left right : Nat),
      (run (skipDisabled (storeStep? id)) (idleMachine String) script).Underway lane left →
      (run (skipDisabled (storeStep? id)) (idleMachine String) script).Underway lane right → left = right := by
  intro h
  have hsame := h [.resume none, .runQueuedStoreWrite ⟨0, "sessions.json"⟩ "outer" false,
    .runQueuedStoreWrite ⟨0, "sessions.json"⟩ "inner" false] ⟨0, "sessions.json"⟩ 0 1
    ⟨_, rfl, rfl, rfl, rfl⟩ ⟨_, rfl, rfl, rfl, rfl⟩
  cases hsame

end OpenClaw.Shared
