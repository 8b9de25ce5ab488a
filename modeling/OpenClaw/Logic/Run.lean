/-
# OpenClaw.Logic.Run -- runs of a component under an arbitrary script of events

A component is a total function `step : σ → ι → σ`; a *script* is a finite list of events, and
`run` folds the script over a start state.  A component whose events may be disabled is given as a
partial step and enters through `skipDisabled`, which leaves the state alone on a disabled event:
the reachable states are the same, and every theorem about `run` keeps its "for every script" form.

Three rules carry all run-level results:

* `run_invariant`: a predicate each step keeps is kept by every run;
* `run_rel`: a preorder each step moves along relates the two ends of every run, under an invariant;
* `run_invariant_guarded`: the same as the first for scripts whose every event meets a guard.
-/
import Mathlib.Order.Defs.Unbundled

namespace OpenClaw.Logic

variable {σ ι : Type*}

/-- The state reached from `s` by the events of `script`, in order. -/
def run (step : σ → ι → σ) (s : σ) (script : List ι) : σ := script.foldl step s

/-- A partial step as a total one: a disabled event changes nothing. -/
def skipDisabled (step? : σ → ι → Option σ) (s : σ) (i : ι) : σ := (step? s i).getD s

@[simp] theorem run_nil (step : σ → ι → σ) (s : σ) : run step s [] = s := rfl

@[simp] theorem run_cons (step : σ → ι → σ) (s : σ) (i : ι) (script : List ι) :
    run step s (i :: script) = run step (step s i) script := rfl

theorem run_append (step : σ → ι → σ) (s : σ) (script₁ script₂ : List ι) :
    run step s (script₁ ++ script₂) = run step (run step s script₁) script₂ :=
  List.foldl_append ..

/-- A total step keeps `P` as soon as every enabled event keeps it. -/
theorem skipDisabled_keeps {step? : σ → ι → Option σ} {P : σ → Prop} {s : σ} {i : ι}
    (hs : P s) (hstep : ∀ s', step? s i = some s' → P s') : P (skipDisabled step? s i) := by
  unfold skipDisabled
  cases h : step? s i with
  | none => exact hs
  | some s' => exact hstep s' h

/-- **The invariant rule.** -/
theorem run_invariant {step : σ → ι → σ} {P : σ → Prop} (hstep : ∀ s i, P s → P (step s i)) :
    ∀ (script : List ι) {s : σ}, P s → P (run step s script)
  | [], _, hs => hs
  | i :: rest, s, hs => run_invariant hstep rest (hstep s i hs)

/-- **The monotonicity rule.** Under an invariant, a preorder that every step moves along relates the
start of a run to its end. -/
theorem run_rel {step : σ → ι → σ} {P : σ → Prop} {R : σ → σ → Prop} [Std.Refl R] [IsTrans σ R]
    (hP : ∀ s i, P s → P (step s i)) (hR : ∀ s i, P s → R s (step s i)) :
    ∀ (script : List ι) {s : σ}, P s → R s (run step s script)
  | [], s, _ => refl_of R s
  | i :: rest, s, hs => trans_of R (hR s i hs) (run_rel hP hR rest (hP s i hs))

/-- Every event of the script meets the guard `C` in the state in which it happens. -/
def Guarded (step : σ → ι → σ) (C : σ → ι → Prop) : σ → List ι → Prop
  | _, [] => True
  | s, i :: rest => C s i ∧ Guarded step C (step s i) rest

instance instDecidableGuarded {step : σ → ι → σ} {C : σ → ι → Prop} [∀ s i, Decidable (C s i)] :
    ∀ (s : σ) (script : List ι), Decidable (Guarded step C s script)
  | _, [] => isTrue trivial
  | s, i :: rest =>
    have : Decidable (Guarded step C (step s i) rest) := instDecidableGuarded (step s i) rest
    inferInstanceAs (Decidable (C s i ∧ Guarded step C (step s i) rest))

theorem guarded_append {step : σ → ι → σ} {C : σ → ι → Prop} : ∀ (script₁ script₂ : List ι) {s : σ},
    Guarded step C s (script₁ ++ script₂) ↔ Guarded step C s script₁ ∧ Guarded step C (run step s script₁) script₂
  | [], _, _ => by simp [Guarded]
  | i :: rest, script₂, s => by simp [Guarded, guarded_append rest script₂, and_assoc]

/-- The invariant rule for guarded scripts: only guarded steps have to keep `P`. -/
theorem run_invariant_guarded {step : σ → ι → σ} {P : σ → Prop} {C : σ → ι → Prop}
    (hstep : ∀ s i, C s i → P s → P (step s i)) :
    ∀ (script : List ι) {s : σ}, Guarded step C s script → P s → P (run step s script)
  | [], _, _, hs => hs
  | i :: rest, s, ⟨hi, hrest⟩, hs => run_invariant_guarded hstep rest hrest (hstep s i hi hs)

end OpenClaw.Logic
