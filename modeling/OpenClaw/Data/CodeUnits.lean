/-
# OpenClaw.Data.CodeUnits -- strings as sequences of UTF-16 code units

A JavaScript string is any sequence of code units; a surrogate may stand in it without its partner.
`codePoints` takes the pairs together, and `units` of the points is the string again.
-/
import OpenClaw.Data.JsStrings

namespace OpenClaw.Data

/-- One UTF-16 code unit. -/
abbrev CodeUnit := Fin 0x10000

abbrev JsString := List CodeUnit

def isLeadSurrogate (unit : CodeUnit) : Bool := 0xD800 ≤ unit.val && unit.val < 0xDC00

def isTrailSurrogate (unit : CodeUnit) : Bool := 0xDC00 ≤ unit.val && unit.val < 0xE000

/-- A code point of a string: a character, or a surrogate on its own. -/
inductive CodePoint where
  | char (c : Char)
  | lone (unit : CodeUnit)

abbrev unitOfNat (n : Nat) : CodeUnit := Fin.ofNat 0x10000 n

/-- The code units of one character. -/
def charUnits (c : Char) : JsString := (codeUnits c).map unitOfNat

def CodePoint.units : CodePoint → JsString
  | char c => charUnits c
  | lone unit => [unit]

/-- The string of a text. -/
def unitsOf (text : List Char) : JsString := text.flatMap charUnits

/-- A string literal. -/
def units (literal : String) : JsString := unitsOf literal.toList

/-- The code point of a unit that no partner follows. -/
def codePointOf (unit : CodeUnit) : CodePoint :=
  if isLeadSurrogate unit || isTrailSurrogate unit then .lone unit else .char (Char.ofNat unit.val)

def surrogatePair (lead trail : CodeUnit) : Char :=
  Char.ofNat (0x10000 + (lead.val - 0xD800) * 0x400 + (trail.val - 0xDC00))

/-- The code points of a string, from its start. -/
def codePoints : JsString → List CodePoint
  | [] => []
  | [unit] => [codePointOf unit]
  | unit :: next :: rest =>
    if isLeadSurrogate unit && isTrailSurrogate next then
      .char (surrogatePair unit next) :: codePoints rest
    else codePointOf unit :: codePoints (next :: rest)

/-! ## The points are the string -/

theorem toNat_charOfNat {n : Nat} (h : n.isValidChar) : (Char.ofNat n).toNat = n := by
  rw [Char.ofNat, dif_pos h]
  rfl

theorem codePointOf_units (unit : CodeUnit) : (codePointOf unit).units = [unit] := by
  unfold codePointOf
  by_cases h : (isLeadSurrogate unit || isTrailSurrogate unit) = true
  · rw [if_pos h]
    rfl
  · rw [if_neg h]
    simp only [isLeadSurrogate, isTrailSurrogate, Bool.or_eq_true, Bool.and_eq_true, decide_eq_true_eq,
      not_or, not_and] at h
    have hunit := unit.isLt
    have hvalid : unit.val.isValidChar := by
      unfold Nat.isValidChar
      omega
    simp [CodePoint.units, charUnits, codeUnits, toNat_charOfNat hvalid]

theorem surrogatePair_units {lead trail : CodeUnit} (hlead : isLeadSurrogate lead = true)
    (htrail : isTrailSurrogate trail = true) : charUnits (surrogatePair lead trail) = [lead, trail] := by
  simp only [isLeadSurrogate, isTrailSurrogate, Bool.and_eq_true, decide_eq_true_eq] at hlead htrail
  have hvalid : (0x10000 + (lead.val - 0xD800) * 0x400 + (trail.val - 0xDC00)).isValidChar := by
    unfold Nat.isValidChar
    omega
  rw [charUnits, surrogatePair, codeUnits, toNat_charOfNat hvalid, if_neg (by omega)]
  simp only [List.map_cons, List.map_nil, List.cons.injEq, and_true]
  constructor
  · apply Fin.ext
    simp only [Fin.val_ofNat]
    omega
  · apply Fin.ext
    simp only [Fin.val_ofNat]
    omega

/-- **The units of the code points are the string.** -/
theorem units_codePoints (s : JsString) : (codePoints s).flatMap CodePoint.units = s := by
  induction s using codePoints.induct with
  | case1 => rfl
  | case2 unit => simp [codePoints, codePointOf_units]
  | case3 unit next rest hpair ih =>
    obtain ⟨hlead, htrail⟩ := Bool.and_eq_true_iff.mp hpair
    rw [codePoints, if_pos hpair, List.flatMap_cons, ih, CodePoint.units, surrogatePair_units hlead htrail]
    rfl
  | case4 unit next rest hpair ih =>
    rw [codePoints, if_neg hpair, List.flatMap_cons, ih, codePointOf_units]
    rfl

/-! ## Strings of a text -/

/-- The text of a string without lone surrogates. -/
def textOf (s : JsString) : Option (List Char) :=
  (codePoints s).mapM fun
    | .char c => some c
    | .lone _ => none

theorem charUnits_cases (c : Char) :
    (∃ unit, charUnits c = [unit] ∧ codePointOf unit = .char c ∧ isLeadSurrogate unit = false) ∨
      ∃ lead trail, charUnits c = [lead, trail] ∧ isLeadSurrogate lead = true ∧
        isTrailSurrogate trail = true ∧ surrogatePair lead trail = c := by
  have hbounds : c.toNat < 0xD800 ∨ 0xDFFF < c.toNat ∧ c.toNat < 0x110000 := c.valid
  unfold charUnits codeUnits
  by_cases hbmp : c.toNat < 0x10000
  · rw [if_pos hbmp]
    have hval : (Fin.ofNat 0x10000 c.toNat).val = c.toNat := Nat.mod_eq_of_lt hbmp
    refine .inl ⟨Fin.ofNat 0x10000 c.toNat, rfl, ?_, ?_⟩
    · unfold codePointOf
      have hplain : ¬ (isLeadSurrogate (Fin.ofNat 0x10000 c.toNat) ||
          isTrailSurrogate (Fin.ofNat 0x10000 c.toNat)) = true := by
        simp only [isLeadSurrogate, isTrailSurrogate, hval, Bool.or_eq_true, Bool.and_eq_true, decide_eq_true_eq]
        omega
      rw [if_neg hplain, hval, Char.ofNat_toNat]
    · simp only [isLeadSurrogate, hval, Bool.and_eq_false_iff, decide_eq_false_iff_not]
      omega
  · rw [if_neg hbmp]
    have hlead : (Fin.ofNat 0x10000 (0xD800 + (c.toNat - 0x10000) / 0x400)).val =
        0xD800 + (c.toNat - 0x10000) / 0x400 := Nat.mod_eq_of_lt (by omega)
    have htrail : (Fin.ofNat 0x10000 (0xDC00 + (c.toNat - 0x10000) % 0x400)).val =
        0xDC00 + (c.toNat - 0x10000) % 0x400 := Nat.mod_eq_of_lt (by omega)
    refine .inr ⟨_, _, rfl, ?_, ?_, ?_⟩
    · simp only [isLeadSurrogate, hlead, Bool.and_eq_true, decide_eq_true_eq]
      omega
    · simp only [isTrailSurrogate, htrail, Bool.and_eq_true, decide_eq_true_eq]
      omega
    · have hpoint : 0x10000 + (0xD800 + (c.toNat - 0x10000) / 0x400 - 0xD800) * 0x400 +
          (0xDC00 + (c.toNat - 0x10000) % 0x400 - 0xDC00) = c.toNat := by omega
      rw [surrogatePair, hlead, htrail, hpoint, Char.ofNat_toNat]

/-- The code points of a text's string are its characters. -/
theorem codePoints_unitsOf (text : List Char) : codePoints (unitsOf text) = text.map .char := by
  induction text with
  | nil => rfl
  | cons c text ih =>
    rw [unitsOf, List.flatMap_cons, List.map_cons, ← ih, unitsOf]
    rcases charUnits_cases c with ⟨unit, hunits, hpoint, hlead⟩ | ⟨lead, trail, hunits, hlead, htrail, hpair⟩
    · rw [hunits, ← hpoint]
      cases text.flatMap charUnits with
      | nil => rfl
      | cons next rest => simp [codePoints, hlead]
    · rw [hunits, ← hpair]
      simp [codePoints, hlead, htrail]

@[simp] theorem textOf_unitsOf (text : List Char) : textOf (unitsOf text) = some text := by
  rw [textOf, codePoints_unitsOf]
  induction text with
  | nil => rfl
  | cons c text ih => simp [ih]

/-- A string that is a text is the string of that text. -/
theorem textOf_eq_some {s : JsString} {text : List Char} : textOf s = some text ↔ s = unitsOf text := by
  constructor
  · intro h
    have hpoints : ∀ (points : List CodePoint) (text : List Char),
        points.mapM (fun | .char c => some c | .lone _ => none) = some text → points = text.map .char := by
      intro points
      induction points with
      | nil =>
        intro text h
        cases h
        rfl
      | cons point points ih =>
        intro text h
        rw [List.mapM_cons] at h
        obtain ⟨c, hc, h⟩ := Option.bind_eq_some_iff.mp h
        obtain ⟨rest, hrest, h⟩ := Option.bind_eq_some_iff.mp h
        cases h
        cases point with
        | char c' =>
          cases hc
          rw [ih rest hrest, List.map_cons]
        | lone unit => cases hc
    have hunits := units_codePoints s
    rw [hpoints _ text h, List.flatMap_map] at hunits
    exact hunits.symm
  · rintro rfl
    exact textOf_unitsOf text

theorem charUnits_ne_nil (c : Char) : charUnits c ≠ [] := by
  rcases charUnits_cases c with ⟨unit, h, -⟩ | ⟨lead, trail, h, -⟩ <;> simp [h]

theorem unitsOf_eq_nil {text : List Char} : unitsOf text = [] ↔ text = [] := by
  cases text with
  | nil => simp [unitsOf]
  | cons c rest => simp [unitsOf, charUnits_ne_nil]

@[simp] theorem units_inj {left right : String} : units left = units right ↔ left = right := by
  constructor
  · intro h
    have htexts := congrArg textOf h
    simp only [units, textOf_unitsOf, Option.some.injEq] at htexts
    exact String.toList_inj.mp htexts
  · exact fun h => h ▸ rfl

@[simp] theorem units_eq_nil {literal : String} : units literal = [] ↔ literal = "" := by
  rw [units, unitsOf_eq_nil, String.toList_eq_nil_iff]

end OpenClaw.Data
