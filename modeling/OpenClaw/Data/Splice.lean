/-
# OpenClaw.Data.Splice -- replacing ranges of a text

Edits that are applied from the last one to the first keep the places of the ones in front of them.  Where the
edits are in order and none overlaps the next, the result is the text with every range replaced and all that
stands between them as it was (`applyEdits_spliced`).
-/
import Mathlib.Data.List.Basic
import Mathlib.Tactic.Common

namespace OpenClaw.Data

variable {α : Type}

structure Edit (α : Type) where
  start : Nat
  stop : Nat
  text : List α

/-- From the place `pos` of a text on, `after` is `before` with the ranges of the edits replaced: a gap is kept, a
range goes. -/
inductive Spliced : Nat → List (Edit α) → List α → List α → Prop where
  | done (pos : Nat) (rest : List α) : Spliced pos [] rest rest
  | edit {pos : Nat} {edit : Edit α} {edits : List (Edit α)} {gap old before after : List α}
      (hstart : edit.start = pos + gap.length) (hstop : edit.stop = edit.start + old.length)
      (h : Spliced edit.stop edits before after) :
      Spliced pos (edit :: edits) (gap ++ old ++ before) (gap ++ edit.text ++ after)

/-- From the last edit to the first. -/
def applyEdits (text : List α) (edits : List (Edit α)) : List α :=
  edits.foldr (fun edit text => text.take edit.start ++ edit.text ++ text.drop edit.stop) text

/-- Each edit begins behind the one in front of it, the first one behind `pos`. -/
def inOrder : Nat → List (Edit α) → Bool
  | _, [] => true
  | pos, edit :: edits => pos ≤ edit.start && inOrder edit.stop edits

theorem applyEdits_spliced {text : List α} (edits : List (Edit α)) : ∀ {pos : Nat}, pos ≤ text.length →
    inOrder pos edits = true → (∀ edit ∈ edits, edit.start ≤ edit.stop ∧ edit.stop ≤ text.length) →
    ∃ after, applyEdits text edits = text.take pos ++ after ∧ Spliced pos edits (text.drop pos) after := by
  induction edits with
  | nil =>
    intro pos _ _ _
    exact ⟨text.drop pos, (List.take_append_drop pos text).symm, .done pos _⟩
  | cons edit edits ih =>
    intro pos _ horder hrange
    rw [inOrder, Bool.and_eq_true, decide_eq_true_eq] at horder
    obtain ⟨⟨hstart, hstop⟩, hedits⟩ := List.forall_mem_cons.mp hrange
    obtain ⟨after, happly, hspliced⟩ := ih hstop horder.2 hedits
    have hgap : ((text.drop pos).take (edit.start - pos)).length = edit.start - pos := by
      rw [List.length_take, List.length_drop]
      omega
    have hold : ((text.drop edit.start).take (edit.stop - edit.start)).length = edit.stop - edit.start := by
      rw [List.length_take, List.length_drop]
      omega
    have htake : text.take edit.start = text.take pos ++ (text.drop pos).take (edit.start - pos) := by
      rw [← List.take_add]
      congr 1
      omega
    have hdrop : text.drop pos =
        (text.drop pos).take (edit.start - pos) ++ (text.drop edit.start).take (edit.stop - edit.start) ++
          text.drop edit.stop := by
      have hmiddle : text.drop edit.start =
          (text.drop edit.start).take (edit.stop - edit.start) ++ text.drop edit.stop := by
        conv_lhs => rw [← List.take_append_drop (edit.stop - edit.start) (text.drop edit.start), List.drop_drop]
        congr 2
        omega
      rw [List.append_assoc, ← hmiddle]
      conv_lhs => rw [← List.take_append_drop (edit.start - pos) (text.drop pos), List.drop_drop]
      congr 2
      omega
    refine ⟨(text.drop pos).take (edit.start - pos) ++ edit.text ++ after, ?_, ?_⟩
    · have hlength : (text.take edit.stop).length = edit.stop := List.length_take_of_le hstop
      have hfront : (text.take edit.stop ++ after).take edit.start = text.take edit.start := by
        rw [List.take_append_of_le_length (by omega), List.take_take, Nat.min_eq_left hstart]
      have hback : (text.take edit.stop ++ after).drop edit.stop = after := List.drop_left' hlength
      have hstep : applyEdits text (edit :: edits) =
          (applyEdits text edits).take edit.start ++ edit.text ++ (applyEdits text edits).drop edit.stop := rfl
      rw [hstep, happly, hfront, hback, htake]
      simp only [List.append_assoc]
    · have hstep : Spliced pos (edit :: edits)
          ((text.drop pos).take (edit.start - pos) ++ (text.drop edit.start).take (edit.stop - edit.start) ++
            text.drop edit.stop) ((text.drop pos).take (edit.start - pos) ++ edit.text ++ after) := by
        refine .edit ?_ ?_ hspliced
        · rw [hgap]
          omega
        · rw [hold]
          omega
      rw [← hdrop] at hstep
      exact hstep

end OpenClaw.Data
