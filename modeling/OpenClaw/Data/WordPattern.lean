/-
# OpenClaw.Data.WordPattern -- words of single letters and runs

A pattern is a list of steps.  A step reads one letter that it admits, or a run of such letters.  `Accepts`
says what a pattern reads as a whole, and `accepts` decides it.
-/
import Mathlib.Data.List.Basic
import Mathlib.Tactic.Common

namespace OpenClaw.Data

variable {α : Type}

inductive PatternStep (α : Type) where
  | once (p : α → Bool)
  | run (p : α → Bool)

abbrev WordPattern (α : Type) := List (PatternStep α)

def PatternStep.Reads : PatternStep α → List α → Prop
  | once p, word => ∃ x, word = [x] ∧ p x = true
  | run p, word => ∀ x ∈ word, p x = true

/-- The words of a pattern: each step reads a piece. -/
def Accepts : WordPattern α → List α → Prop
  | [], word => word = []
  | step :: rest, word => ∃ piece more, word = piece ++ more ∧ step.Reads piece ∧ Accepts rest more

/-- Some run of letters that `p` admits leads to a word of `next`. -/
def skipsTo (p : α → Bool) (next : List α → Bool) : List α → Bool
  | [] => next []
  | x :: word => next (x :: word) || (p x && skipsTo p next word)

def accepts : WordPattern α → List α → Bool
  | [], word => word.isEmpty
  | .once p :: rest, word =>
    match word with
    | [] => false
    | x :: more => p x && accepts rest more
  | .run p :: rest, word => skipsTo p (accepts rest) word

theorem skipsTo_iff {p : α → Bool} {next : List α → Bool} : ∀ {word : List α}, skipsTo p next word = true ↔
      ∃ piece more, word = piece ++ more ∧ (∀ x ∈ piece, p x = true) ∧ next more = true := by
  intro word
  induction word with
  | nil =>
    constructor
    · intro h
      exact ⟨[], [], rfl, fun x hx => absurd hx List.not_mem_nil, h⟩
    · rintro ⟨piece, more, hword, -, hnext⟩
      obtain ⟨rfl, rfl⟩ := List.nil_eq_append_iff.mp hword
      exact hnext
  | cons x word ih =>
    rw [skipsTo, Bool.or_eq_true, Bool.and_eq_true, ih]
    constructor
    · rintro (hnext | ⟨hx, piece, more, rfl, hpiece, hnext⟩)
      · exact ⟨[], x :: word, rfl, fun y hy => absurd hy List.not_mem_nil, hnext⟩
      · exact ⟨x :: piece, more, rfl, List.forall_mem_cons.mpr ⟨hx, hpiece⟩, hnext⟩
    · rintro ⟨piece, more, hword, hpiece, hnext⟩
      cases piece with
      | nil =>
        rw [List.nil_append] at hword
        exact .inl (hword ▸ hnext)
      | cons y piece =>
        obtain ⟨rfl, rfl⟩ := List.cons.inj hword
        obtain ⟨hx, hpiece⟩ := List.forall_mem_cons.mp hpiece
        exact .inr ⟨hx, piece, more, rfl, hpiece, hnext⟩

theorem accepts_iff : ∀ {pattern : WordPattern α} {word : List α},
    accepts pattern word = true ↔ Accepts pattern word := by
  intro pattern
  induction pattern with
  | nil => exact List.isEmpty_iff
  | cons step rest ih =>
    intro word
    cases step with
    | once p =>
      constructor
      · intro h
        cases word with
        | nil => cases h
        | cons x more =>
          obtain ⟨hx, hmore⟩ := Bool.and_eq_true_iff.mp h
          exact ⟨[x], more, rfl, ⟨x, rfl, hx⟩, ih.mp hmore⟩
      · rintro ⟨-, more, rfl, ⟨x, rfl, hx⟩, hmore⟩
        exact Bool.and_eq_true_iff.mpr ⟨hx, ih.mpr hmore⟩
    | run p =>
      rw [accepts, skipsTo_iff]
      simp only [ih]
      rfl

/-! ## Composition -/

/-- The pattern of a fixed word. -/
def literally [DecidableEq α] (word : List α) : WordPattern α := word.map fun x => .once (· = x)

/-- A fixed word reads itself only. -/
theorem accepts_literally [DecidableEq α] {text : List α} : ∀ {word : List α},
    Accepts (literally text) word ↔ word = text := by
  induction text with
  | nil => exact Iff.rfl
  | cons x text ih =>
    intro word
    constructor
    · rintro ⟨-, more, rfl, ⟨y, rfl, hy⟩, hmore⟩
      rw [ih.mp hmore, of_decide_eq_true hy]
      rfl
    · rintro rfl
      exact ⟨[x], text, rfl, ⟨x, rfl, decide_eq_true rfl⟩, ih.mpr rfl⟩

end OpenClaw.Data
