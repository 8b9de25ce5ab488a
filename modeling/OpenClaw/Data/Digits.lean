/-
# OpenClaw.Data.Digits -- numerals of a fixed width, and the order of texts

Numbers that are written to one base with equally many digits compare as their numerals do, and texts
that are made of parts of fixed lengths compare part by part.  Both are stated for any order of the
letters.
-/
import Mathlib.Algebra.Order.Monoid.Unbundled.Pow
import Mathlib.Algebra.Ring.Nat
import Mathlib.Data.List.Induction
import Mathlib.Tactic.Ring

namespace OpenClaw.Data

variable {α β γ : Type}

/-! ## Parts of fixed lengths -/

section Order

variable [LT α] [LT β]

theorem append_lt_append_iff : ∀ {front front' back back' : List α}, front.length = front'.length →
    (front ++ back < front' ++ back' ↔ front < front' ∨ front = front' ∧ back < back')
  | [], [], _, _, _ => by simp
  | x :: front, y :: front', back, back', h => by
    have ih := @append_lt_append_iff front front' back back' (Nat.succ.inj h)
    rw [List.cons_append, List.cons_append, List.cons_lt_cons_iff, List.cons_lt_cons_iff, ih, List.cons.injEq]
    constructor
    · rintro (hlt | ⟨hxy, hlt | ⟨hfront, hback⟩⟩)
      · exact .inl (.inl hlt)
      · exact .inl (.inr ⟨hxy, hlt⟩)
      · exact .inr ⟨⟨hxy, hfront⟩, hback⟩
    · rintro ((hlt | ⟨hxy, hlt⟩) | ⟨⟨hxy, hfront⟩, hback⟩)
      · exact .inl hlt
      · exact .inr ⟨hxy, .inl hlt⟩
      · exact .inr ⟨hxy, .inr ⟨hfront, hback⟩⟩

theorem cons_lt_cons_of_le [PartialOrder γ] {x y : γ} {text text' : List γ} (hxy : x ≤ y)
    (h : x = y → text < text') : x :: text < y :: text' := by
  rw [List.cons_lt_cons_iff]
  rcases hxy.lt_or_eq with hlt | heq
  · exact .inl hlt
  · exact .inr ⟨heq, h heq⟩

/-- Texts of one length compare by what they start with, and then by the rest. -/
theorem take_lt_take_or {text text' : List α} (hlength : text.length = text'.length) (h : text < text')
    (count : Nat) : text.take count < text'.take count ∨
      text.take count = text'.take count ∧ text.drop count < text'.drop count := by
  rw [← List.take_append_drop count text, ← List.take_append_drop count text'] at h
  exact (append_lt_append_iff (by simp [hlength])).mp h

theorem map_lt_map {f : α → β} : ∀ {text text' : List α},
    (∀ x ∈ text, ∀ y ∈ text', x < y → f x < f y) → text < text' → text.map f < text'.map f
  | _, [], _, h => absurd h (List.not_lt_nil _)
  | [], _ :: _, _, _ => List.nil_lt_cons _ _
  | x :: text, y :: text', hf, h => by
    rw [List.map_cons, List.map_cons, List.cons_lt_cons_iff]
    rcases List.cons_lt_cons_iff.mp h with hxy | ⟨rfl, hrest⟩
    · exact .inl (hf x List.mem_cons_self y List.mem_cons_self hxy)
    · refine .inr ⟨rfl, map_lt_map ?_ hrest⟩
      intro x' hx' y' hy'
      exact hf x' (List.mem_cons_of_mem _ hx') y' (List.mem_cons_of_mem _ hy')

/-- Letters that are spelt out with equally many letters keep their order. -/
theorem flatMap_lt_flatMap {f : α → List β} (hlength : ∀ x y, (f x).length = (f y).length)
    (hf : ∀ x y, x < y → f x < f y) : ∀ {text text' : List α}, text.length = text'.length →
    text < text' → text.flatMap f < text'.flatMap f
  | [], [], _, h => absurd h (List.not_lt_nil [])
  | x :: text, y :: text', hlen, h => by
    rw [List.flatMap_cons, List.flatMap_cons, append_lt_append_iff (hlength x y)]
    rcases List.cons_lt_cons_iff.mp h with hxy | ⟨rfl, hrest⟩
    · exact .inl (hf x y hxy)
    · exact .inr ⟨rfl, flatMap_lt_flatMap hlength hf (Nat.succ.inj hlen) hrest⟩

end Order

/-! ## Numerals -/

/-- The digits of `n` to a base, the most significant first, `width` of them. -/
def digitsOf (base : Nat) : Nat → Nat → List Nat
  | 0, _ => []
  | width + 1, n => digitsOf base width (n / base) ++ [n % base]

/-- The number that digits to a base name. -/
def valueOf (base : Nat) (digits : List Nat) : Nat := digits.foldl (fun value digit => value * base + digit) 0

variable {base : Nat}

@[simp] theorem digitsOf_length (base width n : Nat) : (digitsOf base width n).length = width := by
  induction width generalizing n with
  | zero => rfl
  | succ width ih => rw [digitsOf, List.length_append, ih, List.length_singleton]

theorem digitsOf_lt_base (hbase : 0 < base) (width n : Nat) : ∀ digit ∈ digitsOf base width n, digit < base := by
  induction width generalizing n with
  | zero => intro digit hdigit; cases hdigit
  | succ width ih =>
    intro digit hdigit
    rcases List.mem_append.mp hdigit with hfront | hlast
    · exact ih _ digit hfront
    · rw [List.mem_singleton.mp hlast]
      exact Nat.mod_lt n hbase

/-- **Numerals of one width compare as the numbers do.** -/
theorem digitsOf_lt_digitsOf {width n m : Nat} (hlt : n < m) (hm : m < base ^ width) :
    digitsOf base width n < digitsOf base width m := by
  induction width generalizing n m with
  | zero =>
    rw [Nat.pow_zero] at hm
    omega
  | succ width ih =>
    have hbase : 0 < base := by
      by_contra h
      simp [show base = 0 by omega] at hm
    have hmdiv : m / base < base ^ width := by
      rw [Nat.div_lt_iff_lt_mul hbase]
      rwa [Nat.pow_succ] at hm
    rw [digitsOf, digitsOf, append_lt_append_iff (by simp)]
    rcases Nat.lt_or_ge (n / base) (m / base) with hdiv | hdiv
    · exact .inl (ih hdiv hmdiv)
    · -- the quotients are equal, so the remainders differ
      have hquot : n / base = m / base := Nat.le_antisymm (Nat.div_le_div_right hlt.le) hdiv
      refine .inr ⟨by rw [hquot], ?_⟩
      have hn := Nat.div_add_mod n base
      have hm := Nat.div_add_mod m base
      rw [hquot] at hn
      rw [List.cons_lt_cons_iff]
      exact .inl (by omega)

theorem valueOf_concat (base : Nat) (digits : List Nat) (digit : Nat) :
    valueOf base (digits ++ [digit]) = valueOf base digits * base + digit := by
  rw [valueOf, List.foldl_append]
  rfl

theorem foldl_eq_valueOf (base start : Nat) (digits : List Nat) :
    digits.foldl (fun value digit => value * base + digit) start =
      start * base ^ digits.length + valueOf base digits := by
  induction digits using List.reverseRecOn with
  | nil => simp [valueOf]
  | append_singleton digits digit ih =>
    rw [valueOf_concat, List.foldl_append, ih, List.length_append, List.length_singleton, Nat.pow_succ]
    simp only [List.foldl_cons, List.foldl_nil]
    ring

theorem valueOf_cons (base digit : Nat) (digits : List Nat) :
    valueOf base (digit :: digits) = digit * base ^ digits.length + valueOf base digits := by
  have hfold := foldl_eq_valueOf base digit digits
  rw [valueOf, List.foldl_cons, Nat.zero_mul, Nat.zero_add]
  exact hfold

theorem valueOf_lt {digits : List Nat} (h : ∀ digit ∈ digits, digit < base) :
    valueOf base digits < base ^ digits.length := by
  induction digits using List.reverseRecOn with
  | nil => exact Nat.one_pos
  | append_singleton digits digit ih =>
    have hfront := ih fun other hother => h other (List.mem_append_left _ hother)
    have hlast := h digit (by simp)
    rw [valueOf_concat, List.length_append, List.length_singleton, Nat.pow_succ]
    calc valueOf base digits * base + digit
        < valueOf base digits * base + base := by omega
      _ = (valueOf base digits + 1) * base := by ring
      _ ≤ base ^ digits.length * base := Nat.mul_le_mul_right base hfront

theorem valueOf_digitsOf {width n : Nat} (h : n < base ^ width) : valueOf base (digitsOf base width n) = n := by
  induction width generalizing n with
  | zero =>
    rw [Nat.pow_zero] at h
    have hzero : n = 0 := by omega
    rw [hzero]
    rfl
  | succ width ih =>
    rw [Nat.pow_succ, Nat.mul_comm] at h
    rw [digitsOf, valueOf_concat, ih (Nat.div_lt_of_lt_mul h), Nat.mul_comm]
    exact Nat.div_add_mod n base

end OpenClaw.Data
