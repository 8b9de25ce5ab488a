/-
# OpenClaw.Data.JsPrim -- the JavaScript primitives the stores are written with

Numbers that are used as integers are `Int`; a number that is not an integer fails
`Number.isSafeInteger` just as an out-of-range integer does.  Strings are `String`, and `trim` is
`String.prototype.trim`: it strips the code points of WhiteSpace and LineTerminator at both ends.
`required` is the check every store makes on a textual argument: trim it, refuse the empty string.
-/
import Mathlib.Data.List.DropRight
import OpenClaw.Logic.Fallible

namespace OpenClaw.Data

open OpenClaw.Logic

/-! ## Integers -/

/-- `Number.MAX_SAFE_INTEGER`. -/
def maxSafeInteger : Int := 9007199254740991

/-- `Number.isSafeInteger`. -/
def isSafeInteger (n : Int) : Bool := -maxSafeInteger ≤ n && n ≤ maxSafeInteger

theorem isSafeInteger_iff {n : Int} : isSafeInteger n = true ↔ -maxSafeInteger ≤ n ∧ n ≤ maxSafeInteger := by
  unfold isSafeInteger
  rw [Bool.and_eq_true, decide_eq_true_eq, decide_eq_true_eq]

/-! ## Strings -/

/-- The code points `String.prototype.trim` strips. -/
def isJsWhitespace (c : Char) : Bool :=
  c.toNat ∈ [0x9, 0xA, 0xB, 0xC, 0xD, 0x20, 0xA0, 0x1680, 0x2028, 0x2029, 0x202F, 0x205F, 0x3000,
    0xFEFF] || (0x2000 ≤ c.toNat && c.toNat ≤ 0x200A)

/-- Strip the elements satisfying `p` at both ends. -/
def stripBoth {α : Type} (p : α → Bool) (l : List α) : List α := (l.dropWhile p).rdropWhile p

theorem stripBoth_idem {α : Type} (p : α → Bool) (l : List α) : stripBoth p (stripBoth p l) = stripBoth p l := by
  unfold stripBoth
  set m := l.dropWhile p with hm
  have hfix : m.dropWhile p = m := by rw [hm]; exact List.dropWhile_idempotent p l
  suffices h : (m.rdropWhile p).dropWhile p = m.rdropWhile p by rw [h, List.rdropWhile_idempotent]
  cases hx : m.rdropWhile p with
  | nil => rfl
  | cons x xs =>
    obtain ⟨t, ht⟩ := List.rdropWhile_prefix p (l := m)
    have hmx : m = x :: (xs ++ t) := by rw [← ht, hx]; rfl
    have hpx : p x = false := by
      rw [hmx, List.dropWhile_cons] at hfix
      by_contra h
      rw [if_pos (by simpa using h)] at hfix
      have hlen := congrArg List.length hfix
      have hle := (List.dropWhile_suffix p (l := xs ++ t)).length_le
      simp only [List.length_cons] at hlen
      omega
    simp [hpx]

/-- `String.prototype.trim`. -/
def trim (s : String) : String := String.ofList (stripBoth isJsWhitespace s.toList)

@[simp] theorem trim_trim (s : String) : trim (trim s) = trim s := by
  simp [trim, stripBoth_idem]

/-- Trim a textual argument and refuse it when nothing is left. -/
def requiredText (message value : String) : Except String String :=
  if trim value = "" then .error message else .ok (trim value)

/-- What `requiredText` returns: trimmed and not empty. -/
def Trimmed (s : String) : Prop := trim s = s ∧ s ≠ ""

instance (s : String) : Decidable (Trimmed s) := inferInstanceAs (Decidable (_ ∧ _))

theorem requiredText_eq_ok {message value w : String} :
    requiredText message value = .ok w ↔ trim value = w ∧ w ≠ "" := by
  unfold requiredText
  split
  · rename_i h
    simp only [reduceCtorEq, false_iff, not_and, not_not]
    rintro rfl
    exact h
  · rename_i h
    simp only [Except.ok.injEq]
    exact ⟨fun e => ⟨e, e ▸ h⟩, And.left⟩

theorem requiredText_trimmed {message value w : String} (h : requiredText message value = .ok w) : Trimmed w := by
  obtain ⟨rfl, hne⟩ := Iff.mp requiredText_eq_ok h
  exact ⟨trim_trim value, hne⟩

/-- A value that passed the check once passes it again, unchanged. -/
theorem requiredText_of_trimmed {w : String} (h : Trimmed w) (message : String) : requiredText message w = .ok w :=
  Iff.mpr requiredText_eq_ok h

end OpenClaw.Data
