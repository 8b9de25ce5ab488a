/-
# OpenClaw.Data.Utf16Bytes -- how many bytes a string takes in UTF-8

A lone surrogate is written as U+FFFD.  Between two code points a string is parted: there the lengths of the
two sides add up, and inside a surrogate pair they do not.
-/
import Mathlib
import OpenClaw.Data.CodeUnits
import OpenClaw.Data.Utf8

namespace OpenClaw.Data

/-- The character that is written for a code point. -/
def CodePoint.written : CodePoint → Char
  | char c => c
  | lone _ => replacementCharacter

def CodePoint.byteSize (point : CodePoint) : Nat := (String.utf8EncodeChar point.written).length

def CodePoint.isLone : CodePoint → Bool
  | char _ => false
  | lone _ => true

/-- The length of a string in UTF-8. -/
def byteLength (s : JsString) : Nat := ((codePoints s).map CodePoint.byteSize).sum

def hasLone (s : JsString) : Bool := (codePoints s).any CodePoint.isLone

/-- The string with U+FFFD for its lone surrogates. -/
def repaired (s : JsString) : JsString := (codePoints s).flatMap fun point => charUnits point.written

/-- `a` does not end with the first half of a pair whose second half begins `b`. -/
def Parted (a b : JsString) : Prop :=
  ∀ x ∈ a.getLast?, ∀ y ∈ b.head?, isLeadSurrogate x = true → isTrailSurrogate y = true → False

/-- The bytes of a unit that is a code point on its own. -/
def unitBytes (unit : CodeUnit) : Nat := if unit.val ≤ 0x7F then 1 else if unit.val ≤ 0x7FF then 2 else 3

def isSurrogate (unit : CodeUnit) : Bool := isLeadSurrogate unit || isTrailSurrogate unit

/-! ## Single points -/

theorem unitBytes_surrogate {unit : CodeUnit} (h : isSurrogate unit = true) : unitBytes unit = 3 := by
  simp only [isSurrogate, isLeadSurrogate, isTrailSurrogate, Bool.or_eq_true, Bool.and_eq_true, decide_eq_true_eq] at h
  rw [unitBytes, if_neg (by omega), if_neg (by omega)]

theorem isLone_codePointOf (unit : CodeUnit) : (codePointOf unit).isLone = isSurrogate unit := by
  unfold codePointOf isSurrogate
  split
  · rename_i h
    rw [h]
    rfl
  · rename_i h
    rw [Bool.not_eq_true _ |>.mp h]
    rfl

theorem utf8Size_eq (c : Char) : c.utf8Size =
    if c.toNat ≤ 0x7F then 1 else if c.toNat ≤ 0x7FF then 2 else if c.toNat ≤ 0xFFFF then 3 else 4 := by
  simp only [Char.utf8Size, UInt32.le_iff_toNat_le]
  rfl

theorem byteSize_char (c : Char) : (CodePoint.char c).byteSize = c.utf8Size := String.length_utf8EncodeChar c

theorem byteSize_codePointOf (unit : CodeUnit) : (codePointOf unit).byteSize = unitBytes unit := by
  by_cases h : isSurrogate unit = true
  · have hpoint : codePointOf unit = .lone unit := if_pos h
    rw [unitBytes_surrogate h, hpoint]
    rfl
  · have hpoint : codePointOf unit = .char (Char.ofNat unit.val) := if_neg h
    have hunit := unit.isLt
    simp only [isSurrogate, isLeadSurrogate, isTrailSurrogate, Bool.or_eq_true, Bool.and_eq_true,
      decide_eq_true_eq, not_or, not_and] at h
    have hvalid : unit.val.isValidChar := by
      unfold Nat.isValidChar
      omega
    have hval : (Char.ofNat unit.val).toNat = unit.val := toNat_charOfNat hvalid
    rw [hpoint, byteSize_char, utf8Size_eq, hval, if_pos (show unit.val ≤ 0xFFFF by omega)]
    rfl

theorem byteSize_pair {lead trail : CodeUnit} (hlead : isLeadSurrogate lead = true)
    (htrail : isTrailSurrogate trail = true) : (CodePoint.char (surrogatePair lead trail)).byteSize = 4 := by
  simp only [isLeadSurrogate, isTrailSurrogate, Bool.and_eq_true, decide_eq_true_eq] at hlead htrail
  have hvalid : (0x10000 + (lead.val - 0xD800) * 0x400 + (trail.val - 0xDC00)).isValidChar := by
    unfold Nat.isValidChar
    omega
  rw [byteSize_char, utf8Size_eq, surrogatePair, toNat_charOfNat hvalid, if_neg (by omega), if_neg (by omega),
    if_neg (by omega)]

theorem not_trail_of_lead {unit : CodeUnit} (h : isLeadSurrogate unit = true) : isTrailSurrogate unit = false := by
  simp only [isLeadSurrogate, Bool.and_eq_true, decide_eq_true_eq] at h
  simp only [isTrailSurrogate, Bool.and_eq_false_iff, decide_eq_false_iff_not]
  omega

/-! ## Parted strings -/

theorem Parted.of_not_trail {a b : JsString} (h : ∀ y ∈ b.head?, isTrailSurrogate y = false) : Parted a b := by
  intro x _ y hy _ htrail
  rw [h y hy] at htrail
  cases htrail

theorem Parted.of_not_lead {a b : JsString} (h : ∀ x ∈ a.getLast?, isLeadSurrogate x = false) : Parted a b := by
  intro x hx y _ hlead
  rw [h x hx] at hlead
  cases hlead

theorem parted_nil_left (b : JsString) : Parted [] b := by
  intro x hx
  cases hx

theorem parted_nil_right (a : JsString) : Parted a [] := by
  intro x _ y hy
  cases hy

/-- **The code points of a parted string** are those of its sides. -/
theorem codePoints_append {a b : JsString} (h : Parted a b) : codePoints (a ++ b) = codePoints a ++ codePoints b := by
  induction a using codePoints.induct with
  | case1 => rfl
  | case2 unit =>
    cases b with
    | nil => simp [codePoints]
    | cons next rest =>
      have hno : ¬ (isLeadSurrogate unit && isTrailSurrogate next) = true := by
        intro hpair
        obtain ⟨hlead, htrail⟩ := Bool.and_eq_true_iff.mp hpair
        exact h unit rfl next rfl hlead htrail
      have hpoint : codePoints [unit] = [codePointOf unit] := rfl
      rw [List.singleton_append, hpoint, codePoints, if_neg hno]
      rfl
  | case3 unit next rest hpair ih =>
    have hrest : Parted rest b := by
      cases rest with
      | nil => exact parted_nil_left b
      | cons x rest =>
        intro y hy
        exact h y (by simpa [List.getLast?_cons_cons] using hy)
    rw [List.cons_append, List.cons_append, codePoints, if_pos hpair, ih hrest, codePoints, if_pos hpair,
      List.cons_append]
  | case4 unit next rest hpair ih =>
    have hrest : Parted (next :: rest) b := by
      intro y hy
      exact h y (by simpa [List.getLast?_cons_cons] using hy)
    rw [List.cons_append, List.cons_append, codePoints, if_neg hpair, codePoints, if_neg hpair, List.cons_append,
      ← ih hrest, List.cons_append]

theorem byteLength_append {a b : JsString} (h : Parted a b) : byteLength (a ++ b) = byteLength a + byteLength b := by
  rw [byteLength, codePoints_append h, List.map_append, List.sum_append]
  rfl

/-- Every code point takes a byte. -/
theorem byteLength_eq_zero {s : JsString} (h : byteLength s = 0) : s = [] := by
  rw [byteLength, List.sum_eq_zero_iff_forall_eq_nat] at h
  have hpoints : codePoints s = [] := by
    apply List.eq_nil_iff_forall_not_mem.mpr
    intro point hpoint
    have hzero := h _ (List.mem_map_of_mem hpoint)
    rw [CodePoint.byteSize, String.length_utf8EncodeChar] at hzero
    have hpos := point.written.utf8Size_pos
    omega
  rw [← units_codePoints s, hpoints]
  rfl

theorem hasLone_append {a b : JsString} (h : Parted a b) : hasLone (a ++ b) = (hasLone a || hasLone b) := by
  rw [hasLone, codePoints_append h, List.any_append]
  rfl

theorem byteLength_unit (unit : CodeUnit) : byteLength [unit] = unitBytes unit := by
  rw [byteLength, codePoints, List.map_singleton, List.sum_singleton, byteSize_codePointOf]

theorem byteLength_pair {lead trail : CodeUnit} (hlead : isLeadSurrogate lead = true)
    (htrail : isTrailSurrogate trail = true) : byteLength [lead, trail] = 4 := by
  rw [byteLength, codePoints, if_pos (Bool.and_eq_true_iff.mpr ⟨hlead, htrail⟩), codePoints, List.map_singleton,
    List.sum_singleton, byteSize_pair hlead htrail]

theorem hasLone_unit (unit : CodeUnit) : hasLone [unit] = isSurrogate unit := by
  rw [hasLone, codePoints, List.any_cons, List.any_nil, Bool.or_false, isLone_codePointOf]

theorem hasLone_pair {lead trail : CodeUnit} (hlead : isLeadSurrogate lead = true)
    (htrail : isTrailSurrogate trail = true) : hasLone [lead, trail] = false := by
  rw [hasLone, codePoints, if_pos (Bool.and_eq_true_iff.mpr ⟨hlead, htrail⟩), codePoints]
  rfl

/-! ## Repaired strings -/

theorem repaired_of_not_hasLone {s : JsString} (h : hasLone s = false) : repaired s = s := by
  have hall : (codePoints s).flatMap (fun point => charUnits point.written) = (codePoints s).flatMap CodePoint.units := by
    apply List.flatMap_congr
    intro point hpoint
    cases point with
    | char c => rfl
    | lone unit =>
      rw [hasLone, List.any_eq_false] at h
      exact absurd rfl (h _ hpoint)
  rw [repaired, hall, units_codePoints]

/-- A repaired string takes as many bytes as it did. -/
theorem byteLength_repaired (s : JsString) : byteLength (repaired s) = byteLength s := by
  have hunits : repaired s = unitsOf ((codePoints s).map CodePoint.written) := by
    rw [unitsOf, List.flatMap_map]
    rfl
  rw [hunits, byteLength, codePoints_unitsOf, List.map_map, List.map_map]
  rfl

end OpenClaw.Data
