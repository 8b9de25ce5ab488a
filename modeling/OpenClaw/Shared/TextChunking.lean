/-
# OpenClaw.Shared.TextChunking -- chunks that end where a resolver says

`chunkTextByBreakResolver` shows each window of `limit` units to a resolver, and cuts at the index that it gets.  An
answer that is not finite, not positive or above `limit` is replaced by `limit`.  A fraction is not: it is used as an
index, which drops what is behind the point, and one that falls to zero cuts off nothing.  Then the loop comes to the
same text again and never ends (`breakTurn_stalls`).  And where one is added to step over a separator, the sum of a
fraction and one is rounded: a fraction just below a whole number is rounded past it, and the unit behind the separator
is gone (`breakTurn_swallows`).  Without such answers the loop ends, and loses nothing but white space
(`plain_chunking_iff`).

This follows `shared/text-chunking.ts`.  A finite number is a fraction, and the sum is rounded to a double.  The
difference with one, which `avoidTrailingHighSurrogateBreak` takes, is a double for every double from one on; below one
it reads no pair, rounded or not.
-/
import OpenClaw.Data.Double
import OpenClaw.MarkdownCore.ChunkText

namespace OpenClaw.Shared

open OpenClaw.Data OpenClaw.Logic OpenClaw.MarkdownCore

/-! ## Numbers as positions -/

/-- A number without what is behind its point. -/
def integerPart (position : ℚ) : Int := if 0 ≤ position then ⌊position⌋ else ⌈position⌉

def positionIndex (position : ℚ) : Nat := (integerPart position).toNat

def charCodeAt (text : JsString) (position : ℚ) : Option CodeUnit :=
  if integerPart position < 0 then none else text[positionIndex position]?

/-! ## The loop -/

/-- The index that is tried; `none` is no finite number. -/
def breakIndex (limit : Nat) (candidateBreak : Option ℚ) : ℚ :=
  match candidateBreak with
  | some candidate => if 0 < candidate && candidate ≤ limit then candidate else limit
  | none => limit

def safeBreakIndex (remaining : JsString) (breakIdx : ℚ) : ℚ :=
  avoidTrailingHighSurrogateBreak (charCodeAt remaining) (remaining.length : ℚ) 0 breakIdx

/-- Where the loop goes on: behind the separator, if it broke at one. -/
def nextStart (remaining : JsString) (safeBreakIdx : ℚ) : ℚ :=
  let brokeOnSeparator := safeBreakIdx < remaining.length && (charCodeAt remaining safeBreakIdx).any isWhiteUnit
  min (remaining.length : ℚ) (if brokeOnSeparator then toDouble (safeBreakIdx + 1) else safeBreakIdx)

/-- One turn of the loop; the state is `remaining` and `chunks`. -/
def breakTurn (limit : Nat) (resolveBreakIndex : JsString → Option ℚ) (state : JsString × List JsString) :
    Turn (JsString × List JsString) (List JsString) :=
  let (remaining, chunks) := state
  if limit < remaining.length then
    let breakIdx := breakIndex limit (resolveBreakIndex (remaining.take limit))
    let safeBreakIdx := safeBreakIndex remaining breakIdx
    let rawChunk := remaining.take (positionIndex safeBreakIdx)
    let chunk := rawChunk.rdropWhile isWhiteUnit
    .goOn ((remaining.drop (positionIndex (nextStart remaining safeBreakIdx))).dropWhile isWhiteUnit,
      if chunk ≠ [] then chunks ++ [chunk] else chunks)
  else .leave (if remaining ≠ [] then chunks ++ [remaining] else chunks)

def chunkTextByBreakResolver (text : JsString) (limit : Nat) (resolveBreakIndex : JsString → Option ℚ) (n : Nat) :
    Option (List JsString) :=
  if text = [] then some []
  else if limit = 0 || text.length ≤ limit then some [text]
  else turns (breakTurn limit resolveBreakIndex) n (text, [])

/-- A pair of surrogates stands in front. -/
def BeginsWithPair (text : JsString) : Prop :=
  (text[0]?).any isLeadSurrogate = true ∧ (text[1]?).any isTrailSurrogate = true

/-- **An answer that cuts off nothing**: it falls to zero, by itself or when it is moved in front of a pair. -/
def FallsToZero (remaining : JsString) (breakIdx : ℚ) : Prop :=
  breakIdx < 1 ∨ (1 < breakIdx ∧ breakIdx < 2 ∧ BeginsWithPair remaining)

/-- More than `limit` units remain, the first of them no white space, and the answer for them cuts off nothing. -/
structure Stalls (limit : Nat) (resolveBreakIndex : JsString → Option ℚ) (remaining : JsString) : Prop where
  long : limit < remaining.length
  begins : remaining.head?.any isWhiteUnit = false
  falls : ∃ candidate, resolveBreakIndex (remaining.take limit) = some candidate ∧ 0 < candidate ∧
    FallsToZero remaining candidate

/-- The sum with one is rounded up to the whole number behind the next one. -/
def RoundsPast (position : ℚ) : Prop := (positionIndex position + 2 : ℚ) ≤ toDouble (position + 1)

/-- More than `limit` units remain, the answer for them stands at white space, and one more is rounded past the unit
behind, which is no white space. -/
structure Swallows (limit : Nat) (resolveBreakIndex : JsString → Option ℚ) (remaining : JsString) : Prop where
  long : limit < remaining.length
  swallows : ∃ candidate, resolveBreakIndex (remaining.take limit) = some candidate ∧ 0 < candidate ∧
    candidate ≤ limit ∧ RoundsPast candidate ∧ (remaining[positionIndex candidate]?).any isWhiteUnit = true ∧
      (remaining[positionIndex candidate + 1]?).any isWhiteUnit = false

/-! ## Positions -/

section Positions

variable {text : JsString} {position : ℚ}

theorem positionIndex_eq (h : 0 ≤ position) : positionIndex position = ⌊position⌋.toNat := by
  rw [positionIndex, integerPart, if_pos h]

theorem positionIndex_nat (n : Nat) : positionIndex (n : ℚ) = n := by
  rw [positionIndex_eq (Nat.cast_nonneg n), Int.floor_natCast, Int.toNat_natCast]

theorem le_positionIndex {n : Nat} (h : 0 ≤ position) : n ≤ positionIndex position ↔ (n : ℚ) ≤ position := by
  have hfloor := Int.floor_nonneg.mpr h
  rw [positionIndex_eq h, Int.le_toNat hfloor, Int.le_floor, Int.cast_natCast]

theorem positionIndex_le {n : Nat} (h : 0 ≤ position) (hle : position ≤ n) : positionIndex position ≤ n := by
  have hfloor : ⌊position⌋ ≤ (n : ℤ) := by
    have := Int.floor_le_floor hle
    rwa [Int.floor_natCast] at this
  rw [positionIndex_eq h]
  omega

theorem positionIndex_add_one (h : 0 ≤ position) : positionIndex (position + 1) = positionIndex position + 1 := by
  have hfloor := Int.floor_nonneg.mpr h
  rw [positionIndex_eq h, positionIndex_eq (by linarith), Int.floor_add_one]
  omega

theorem charCodeAt_eq (h : 0 ≤ position) : charCodeAt text position = text[positionIndex position]? := by
  have hfloor := Int.floor_nonneg.mpr h
  rw [charCodeAt, integerPart, if_pos h, if_neg (by omega)]

/-- Between minus one and zero the first unit is read. -/
theorem charCodeAt_negative (h : position < 0) (hnear : -1 < position) : charCodeAt text position = text[0]? := by
  have hceil : ⌈position⌉ = 0 := by
    rw [Int.ceil_eq_iff]
    constructor
    · push_cast
      linarith
    · push_cast
      linarith
  have hpart : integerPart position = 0 := by rw [integerPart, if_neg (not_le.mpr h), hceil]
  rw [charCodeAt, positionIndex, hpart]
  rfl

theorem positionIndex_min {a b : ℚ} (ha : 0 ≤ a) (hb : 0 ≤ b) :
    positionIndex (min a b) = min (positionIndex a) (positionIndex b) := by
  refine eq_of_forall_le_iff fun n => ?_
  rw [le_positionIndex (le_min ha hb), le_min_iff, le_min_iff, le_positionIndex ha, le_positionIndex hb]

/-- One more, rounded, stands at the next unit or at the one behind it. -/
theorem positionIndex_toDouble (h : 0 ≤ position) (hbound : position + 1 < 2 ^ 53) :
    (RoundsPast position ∧ positionIndex (toDouble (position + 1)) = positionIndex position + 2) ∨
      (¬RoundsPast position ∧ positionIndex (toDouble (position + 1)) = positionIndex position + 1) := by
  have habs : |position + 1| < 2 ^ 53 := by rwa [abs_of_nonneg (by linarith)]
  have hbelow : (positionIndex position : ℚ) ≤ position := (le_positionIndex h).mp (Nat.le_refl _)
  have habove : position < positionIndex position + 1 := by
    rw [← not_le]
    intro hle
    exact absurd ((le_positionIndex h).mpr (by push_cast; exact hle)) (Nat.not_succ_le_self _)
  have hlow : (positionIndex position + 1 : ℚ) ≤ toDouble (position + 1) := by
    obtain ⟨j, hj⟩ := ulp_dvd_intCast habs (positionIndex position + 1)
    push_cast at hj
    rw [hj]
    apply le_toDouble
    rw [← hj]
    linarith
  have hhigh : toDouble (position + 1) < positionIndex position + 3 := by
    have herror := (abs_le.mp (abs_toDouble_sub_le (position + 1))).2
    have hulp := ulp_le_ulp_of_exponent (ulpExponent_nonpos habs)
    rw [zpow_zero] at hulp
    linarith
  have hat : ∀ n : Nat, n ≤ positionIndex (toDouble (position + 1)) ↔ (n : ℚ) ≤ toDouble (position + 1) :=
    fun n => le_positionIndex (by have := @Nat.cast_nonneg ℚ _ _ _ (positionIndex position); linarith)
  have hone := (hat (positionIndex position + 1)).mpr (by push_cast; exact hlow)
  have hthree := mt (hat (positionIndex position + 3)).mp (by push_cast; exact not_le.mpr hhigh)
  have htwo : positionIndex position + 2 ≤ positionIndex (toDouble (position + 1)) ↔ RoundsPast position := by
    rw [hat, RoundsPast]
    push_cast
    exact Iff.rfl
  by_cases hpast : RoundsPast position
  · have hle := htwo.mpr hpast
    exact .inl ⟨hpast, by omega⟩
  · have hlt := mt htwo.mp hpast
    exact .inr ⟨hpast, by omega⟩

/-- A whole number and one are added exactly. -/
theorem not_roundsPast_nat {n : Nat} (h : n < 2 ^ 53) : ¬RoundsPast (n : ℚ) := by
  have hsum : toDouble ((n : ℚ) + 1) = n + 1 := by
    have hcast := @toDouble_intCast ((n : ℤ) + 1) (by rw [abs_of_nonneg (by omega)]; omega)
    push_cast at hcast
    exact hcast
  rw [RoundsPast, positionIndex_nat, hsum]
  linarith

end Positions

/-- No surrogate is white space. -/
theorem surrogate_not_white {unit : CodeUnit} (hlow : 0xD800 ≤ unit.val) (hhigh : unit.val ≤ 0xDFFF) :
    isWhiteUnit unit = false := by
  have hpoint : Char.ofNat unit.val = '\x00' := by
    rw [Char.ofNat, dif_neg]
    · rfl
    · unfold Nat.isValidChar
      omega
  rw [isWhiteUnit, hpoint]
  decide

theorem lead_not_white {unit : CodeUnit} (h : isLeadSurrogate unit = true) : isWhiteUnit unit = false := by
  simp only [isLeadSurrogate, Bool.and_eq_true, decide_eq_true_eq] at h
  exact surrogate_not_white (by omega) (by omega)

theorem white_not_trail {unit : CodeUnit} (h : isWhiteUnit unit = true) : isTrailSurrogate unit = false := by
  cases htrail : isTrailSurrogate unit with
  | false => rfl
  | true =>
    simp only [isTrailSurrogate, Bool.and_eq_true, decide_eq_true_eq] at htrail
    rw [surrogate_not_white (by omega) (by omega)] at h
    contradiction

/-! ## The index that is used -/

section SafeIndex

variable {remaining : JsString} {limit : Nat} {breakIdx : ℚ}

theorem positionIndex_eq_zero (hpos : 0 < breakIdx) : positionIndex breakIdx = 0 ↔ breakIdx < 1 := by
  have hone := @le_positionIndex _ 1 hpos.le
  rw [Nat.cast_one] at hone
  rw [← not_le, ← hone]
  omega

/-- From one on, the unit in front of the index is the one before. -/
theorem positionIndex_before (hone : 1 ≤ breakIdx) : positionIndex breakIdx = positionIndex (breakIdx - 1) + 1 := by
  have hadd := @positionIndex_add_one (breakIdx - 1) (by linarith)
  rw [sub_add_cancel] at hadd
  exact hadd

/-- A pair is seen from one on: below, the same unit would be its lead and its trail. -/
theorem one_le_of_pair (hpos : 0 < breakIdx) (hlead : (charCodeAt remaining (breakIdx - 1)).any isLeadSurrogate = true)
    (htrail : (charCodeAt remaining breakIdx).any isTrailSurrogate = true) : 1 ≤ breakIdx := by
  by_contra hless
  rw [not_le] at hless
  rw [charCodeAt_negative (by linarith) (by linarith)] at hlead
  rw [charCodeAt_eq hpos.le, (positionIndex_eq_zero hpos).mpr hless] at htrail
  obtain ⟨unit, hunit, hisLead⟩ := (Option.any_eq_true _ _).mp hlead
  rw [hunit, Option.any_some, not_trail_of_lead hisLead] at htrail
  contradiction

/-- **The index that is used** is within the window and splits no pair; it is zero exactly if the answer falls to
zero. -/
theorem safeBreakIndex_spec (hlimit : 2 ≤ limit) (hlong : limit < remaining.length) (hpos : 0 < breakIdx)
    (hle : breakIdx ≤ limit) : (0 ≤ safeBreakIndex remaining breakIdx ∧ safeBreakIndex remaining breakIdx ≤ limit) ∧
      CutAt remaining (positionIndex (safeBreakIndex remaining breakIdx)) ∧
      (positionIndex (safeBreakIndex remaining breakIdx) = 0 ↔ FallsToZero remaining breakIdx) := by
  have hlimit' : (2 : ℚ) ≤ limit := by exact_mod_cast hlimit
  have hinside : breakIdx < (remaining.length : ℚ) := hle.trans_lt (by exact_mod_cast hlong)
  have hat := @charCodeAt_eq remaining _ hpos.le
  unfold safeBreakIndex avoidTrailingHighSurrogateBreak
  split
  case isTrue hkept =>
    simp only [Bool.or_eq_true, decide_eq_true_eq, Bool.not_eq_true', not_le.mpr hpos, not_le.mpr hinside,
      false_or] at hkept
    refine ⟨⟨hpos.le, hle⟩, ?_, ?_⟩
    · by_cases hone : 1 ≤ breakIdx
      · have hbefore := @charCodeAt_eq remaining (breakIdx - 1) (by linarith)
        rw [hat, hbefore] at hkept
        rcases hkept with hlead | htrail
        · apply cutAt_of_not_lead
          rw [positionIndex_before hone, Nat.add_sub_cancel]
          exact hlead
        · exact cutAt_of_not_trail htrail
      · rw [(positionIndex_eq_zero hpos).mpr (not_le.mp hone)]
        exact parted_nil_left _
    · rw [positionIndex_eq_zero hpos]
      refine ⟨Or.inl, ?_⟩
      rintro (hless | ⟨hone, htwo, hlead, htrail⟩)
      · exact hless
      · -- the pair in front would have been seen
        exfalso
        have hzero : positionIndex (breakIdx - 1) = 0 := (positionIndex_eq_zero (by linarith)).mpr (by linarith)
        have hbefore := @charCodeAt_eq remaining (breakIdx - 1) (by linarith)
        rw [hat, hbefore, positionIndex_before hone.le, hzero, hlead, htrail] at hkept
        simp at hkept
  case isFalse hmoved =>
    simp only [Bool.or_eq_true, decide_eq_true_eq, Bool.not_eq_true', not_or, Bool.not_eq_false] at hmoved
    obtain ⟨⟨-, hlead⟩, htrail⟩ := hmoved
    have hone := one_le_of_pair hpos hlead htrail
    rw [charCodeAt_eq (by linarith)] at hlead
    rw [hat, positionIndex_before hone] at htrail
    dsimp only
    split
    case isTrue hadjusted =>
      refine ⟨⟨hadjusted.le, by linarith⟩, ?_, ?_⟩
      · apply cutAt_of_not_trail
        obtain ⟨unit, hunit, hisLead⟩ := (Option.any_eq_true _ _).mp hlead
        rw [hunit, Option.any_some]
        exact not_trail_of_lead hisLead
      · rw [positionIndex_eq_zero hadjusted]
        constructor
        · intro hless
          have hzero : positionIndex (breakIdx - 1) = 0 := (positionIndex_eq_zero hadjusted).mpr hless
          rw [hzero] at hlead htrail
          exact Or.inr ⟨by linarith, by linarith, hlead, htrail⟩
        · rintro (hless | ⟨-, htwo, -⟩)
          · linarith
          · linarith
    case isFalse hadjusted =>
      obtain rfl : breakIdx = 1 := by linarith
      have hzero : positionIndex (1 - 1) = 0 := by
        rw [sub_self]
        exact positionIndex_nat 0
      have htwo : positionIndex ((1 : ℚ) + 1) = 2 := by
        have := positionIndex_nat 2
        rwa [Nat.cast_ofNat, ← one_add_one_eq_two] at this
      refine ⟨⟨by norm_num, by linarith⟩, ?_, ?_⟩
      · rw [htwo]
        apply cutAt_of_not_lead
        rw [hzero] at htrail
        obtain ⟨unit, hunit, hisTrail⟩ := (Option.any_eq_true _ _).mp htrail
        show (remaining[0 + 1]?).any isLeadSurrogate = false
        rw [hunit, Option.any_some]
        exact not_lead_of_trail hisTrail
      · rw [htwo]
        refine iff_of_false (by decide) ?_
        rintro (hless | ⟨hless, -⟩)
        · linarith
        · linarith

theorem breakIndex_spec (hlimit : 2 ≤ limit) (answer : Option ℚ) :
    (0 < breakIndex limit answer ∧ breakIndex limit answer ≤ limit) ∧
      (FallsToZero remaining (breakIndex limit answer) ↔
        ∃ candidate, answer = some candidate ∧ 0 < candidate ∧ FallsToZero remaining candidate) := by
  have hlimit' : (2 : ℚ) ≤ limit := by exact_mod_cast hlimit
  have hlarge : ∀ {index : ℚ}, 2 ≤ index → ¬FallsToZero remaining index := by
    rintro index hindex (hless | ⟨-, hless, -⟩)
    · linarith
    · linarith
  unfold breakIndex
  split
  case h_1 candidate =>
    split
    case isTrue hvalid =>
      rw [Bool.and_eq_true, decide_eq_true_eq, decide_eq_true_eq] at hvalid
      refine ⟨hvalid, ?_⟩
      constructor
      · intro hfalls
        exact ⟨candidate, rfl, hvalid.1, hfalls⟩
      · rintro ⟨other, hother, -, hfalls⟩
        rwa [Option.some.inj hother]
    case isFalse hinvalid =>
      rw [Bool.and_eq_true, decide_eq_true_eq, decide_eq_true_eq, not_and, not_le] at hinvalid
      refine ⟨⟨by linarith, le_refl _⟩, iff_of_false (hlarge hlimit') ?_⟩
      rintro ⟨other, hother, hpos, hfalls⟩
      obtain rfl := Option.some.inj hother
      have hover := hinvalid hpos
      exact hlarge (by linarith) hfalls
  case h_2 =>
    refine ⟨⟨by linarith, le_refl _⟩, iff_of_false (hlarge hlimit') ?_⟩
    rintro ⟨other, hother, -⟩
    contradiction

end SafeIndex

/-! ## Where the loop goes on -/

section NextStart

variable {remaining : JsString} {limit : Nat} {safe : ℚ}

/-- **The place where the loop goes on**: the cut, or behind the separator there; one unit further if the sum was
rounded past that. -/
theorem nextStart_index (hnonneg : 0 ≤ safe) (hwithin : safe ≤ limit) (hlong : limit < remaining.length)
    (hlength : remaining.length < 2 ^ 53) :
    ((remaining[positionIndex safe]?).any isWhiteUnit = false ∧
      positionIndex (nextStart remaining safe) = positionIndex safe) ∨
    ((remaining[positionIndex safe]?).any isWhiteUnit = true ∧
      ((¬RoundsPast safe ∧ positionIndex (nextStart remaining safe) = positionIndex safe + 1) ∨
        (RoundsPast safe ∧ positionIndex (nextStart remaining safe) = positionIndex safe + 2 ∧
          positionIndex safe + 1 < remaining.length))) := by
  have hcut : positionIndex safe ≤ limit := positionIndex_le hnonneg hwithin
  have hlongq : (limit : ℚ) + 1 ≤ remaining.length := by exact_mod_cast hlong
  have hlengthq : (remaining.length : ℚ) < 2 ^ 53 := by exact_mod_cast hlength
  unfold nextStart
  dsimp only
  rw [charCodeAt_eq hnonneg, decide_eq_true (show safe < remaining.length by linarith), Bool.true_and]
  cases hwhite : (remaining[positionIndex safe]?).any isWhiteUnit with
  | false =>
    rw [if_neg Bool.false_ne_true, min_eq_right (by linarith)]
    exact .inl ⟨rfl, rfl⟩
  | true =>
    rw [if_pos rfl]
    have hsum : 0 ≤ toDouble (safe + 1) := by
      have hzero := @le_toDouble (safe + 1) 0 (by rw [Int.cast_zero, zero_mul]; linarith)
      rwa [Int.cast_zero, zero_mul] at hzero
    have hmin := positionIndex_min (Nat.cast_nonneg remaining.length) hsum
    rw [positionIndex_nat] at hmin
    refine .inr ⟨rfl, ?_⟩
    rcases positionIndex_toDouble hnonneg (by linarith) with ⟨hpast, hnext⟩ | ⟨hpast, hnext⟩
    · -- the limit itself is a whole number
      have hbelow : positionIndex safe ≠ limit := by
        intro heq
        have hle := (le_positionIndex hnonneg).mp heq.ge
        rw [le_antisymm hwithin hle] at hpast
        exact not_roundsPast_nat (by omega) hpast
      exact .inr ⟨hpast, by omega, by omega⟩
    · exact .inl ⟨hpast, by omega⟩

theorem dropWhile_drop_white {text : JsString} {i : Nat} (h : (text[i]?).any isWhiteUnit = true) :
    (text.drop i).dropWhile isWhiteUnit = (text.drop (i + 1)).dropWhile isWhiteUnit := by
  obtain ⟨unit, hunit, hwhite⟩ := (Option.any_eq_true _ _).mp h
  obtain ⟨hindex, hget⟩ := List.getElem?_eq_some_iff.mp hunit
  rw [List.drop_eq_getElem_cons hindex, List.dropWhile_cons_of_pos (by rw [hget]; exact hwhite)]

/-- What is left is the text behind the cut without the white space in front: the separator is white space too, and so
is the unit behind it if it goes. -/
theorem dropWhile_nextStart (hnonneg : 0 ≤ safe) (hwithin : safe ≤ limit) (hlong : limit < remaining.length)
    (hlength : remaining.length < 2 ^ 53)
    (h : ¬(RoundsPast safe ∧ (remaining[positionIndex safe]?).any isWhiteUnit = true ∧
      (remaining[positionIndex safe + 1]?).any isWhiteUnit = false)) :
    (remaining.drop (positionIndex (nextStart remaining safe))).dropWhile isWhiteUnit =
      (remaining.drop (positionIndex safe)).dropWhile isWhiteUnit := by
  rcases nextStart_index hnonneg hwithin hlong hlength with
    ⟨-, hnext⟩ | ⟨hwhite, ⟨-, hnext⟩ | ⟨hpast, hnext, -⟩⟩
  · rw [hnext]
  · rw [hnext, dropWhile_drop_white hwhite]
  · have hbehind : (remaining[positionIndex safe + 1]?).any isWhiteUnit = true := by
      by_contra hsolid
      exact h ⟨hpast, hwhite, Bool.eq_false_iff.mpr hsolid⟩
    rw [hnext, dropWhile_drop_white hwhite, dropWhile_drop_white hbehind]

/-- An index at white space is used as it is. -/
theorem safeBreakIndex_white {breakIdx : ℚ} (hpos : 0 ≤ breakIdx)
    (hwhite : (remaining[positionIndex breakIdx]?).any isWhiteUnit = true) :
    safeBreakIndex remaining breakIdx = breakIdx := by
  obtain ⟨unit, hunit, hisWhite⟩ := (Option.any_eq_true _ _).mp hwhite
  unfold safeBreakIndex avoidTrailingHighSurrogateBreak
  rw [charCodeAt_eq hpos, hunit, Option.any_some, white_not_trail hisWhite, if_pos]
  simp

/-- An index that was moved stands at a surrogate or is a whole number. -/
theorem safeBreakIndex_moved {breakIdx : ℚ} (hpos : 0 < breakIdx)
    (hmoved : safeBreakIndex remaining breakIdx ≠ breakIdx) :
    safeBreakIndex remaining breakIdx = 2 ∨
      (remaining[positionIndex (safeBreakIndex remaining breakIdx)]?).any isWhiteUnit = false := by
  unfold safeBreakIndex avoidTrailingHighSurrogateBreak at hmoved ⊢
  split at hmoved
  · contradiction
  case isFalse hpair =>
    rw [if_neg hpair]
    simp only [Bool.or_eq_true, decide_eq_true_eq, Bool.not_eq_true', not_or, Bool.not_eq_false] at hpair
    obtain ⟨⟨-, hlead⟩, htrail⟩ := hpair
    dsimp only
    split
    case isTrue hadjusted =>
      rw [charCodeAt_eq hadjusted.le] at hlead
      obtain ⟨unit, hunit, hisLead⟩ := (Option.any_eq_true _ _).mp hlead
      right
      rw [hunit, Option.any_some]
      exact lead_not_white hisLead
    case isFalse hadjusted =>
      have hone := one_le_of_pair hpos hlead htrail
      left
      linarith

end NextStart

/-! ## One turn -/

section Turns

variable {limit : Nat} {resolve : JsString → Option ℚ} {remaining : JsString} {chunks : List JsString}

/-- The index that is used for the window in front. -/
def usedIndex (limit : Nat) (resolve : JsString → Option ℚ) (remaining : JsString) : ℚ :=
  safeBreakIndex remaining (breakIndex limit (resolve (remaining.take limit)))

/-- Where the next chunk is cut. -/
def cutIndex (limit : Nat) (resolve : JsString → Option ℚ) (remaining : JsString) : Nat :=
  positionIndex (usedIndex limit resolve remaining)

/-- Where the text goes on behind the chunk. -/
def nextIndex (limit : Nat) (resolve : JsString → Option ℚ) (remaining : JsString) : Nat :=
  positionIndex (nextStart remaining (usedIndex limit resolve remaining))

theorem usedIndex_range (hlimit : 2 ≤ limit) (hlong : limit < remaining.length) :
    0 ≤ usedIndex limit resolve remaining ∧ usedIndex limit resolve remaining ≤ limit := by
  obtain ⟨⟨hpos, hle⟩, -⟩ := @breakIndex_spec remaining limit hlimit (resolve (remaining.take limit))
  exact (safeBreakIndex_spec hlimit hlong hpos hle).1

theorem cutIndex_spec (hlimit : 2 ≤ limit) (hlong : limit < remaining.length) :
    cutIndex limit resolve remaining ≤ limit ∧ CutAt remaining (cutIndex limit resolve remaining) ∧
      (cutIndex limit resolve remaining = 0 ↔ ∃ candidate, resolve (remaining.take limit) = some candidate ∧
      0 < candidate ∧ FallsToZero remaining candidate) := by
  obtain ⟨⟨hpos, hle⟩, hfalls⟩ := @breakIndex_spec remaining limit hlimit (resolve (remaining.take limit))
  obtain ⟨⟨hnonneg, hwithin⟩, hcut, hzero⟩ := safeBreakIndex_spec hlimit hlong hpos hle
  exact ⟨positionIndex_le hnonneg hwithin, hcut, hzero.trans hfalls⟩

/-- A unit is swallowed by an answer only if the answer itself is used. -/
theorem swallows_iff (hlimit : 2 ≤ limit) (hlong : limit < remaining.length) (hlength : remaining.length < 2 ^ 53) :
    Swallows limit resolve remaining ↔ RoundsPast (usedIndex limit resolve remaining) ∧
      (remaining[cutIndex limit resolve remaining]?).any isWhiteUnit = true ∧
      (remaining[cutIndex limit resolve remaining + 1]?).any isWhiteUnit = false := by
  obtain ⟨⟨hpos, -⟩, -⟩ := @breakIndex_spec remaining limit hlimit (resolve (remaining.take limit))
  constructor
  · rintro ⟨-, candidate, hanswer, hpositive, hle, hpast, hwhite, hsolid⟩
    have hused : usedIndex limit resolve remaining = candidate := by
      have hvalid : breakIndex limit (some candidate) = candidate := by simp [breakIndex, hpositive, hle]
      rw [usedIndex, hanswer, hvalid, safeBreakIndex_white hpositive.le hwhite]
    rw [cutIndex, hused]
    exact ⟨hpast, hwhite, hsolid⟩
  · rintro ⟨hpast, hwhite, hsolid⟩
    have hkept : usedIndex limit resolve remaining = breakIndex limit (resolve (remaining.take limit)) := by
      by_contra hmoved
      rcases safeBreakIndex_moved hpos hmoved with htwo | hsurrogate
      · rw [usedIndex, htwo] at hpast
        exact @not_roundsPast_nat 2 (by decide) (by exact_mod_cast hpast)
      · exact absurd hwhite (Bool.eq_false_iff.mp hsurrogate)
    have hlimitExact : ¬RoundsPast (limit : ℚ) := not_roundsPast_nat (by omega)
    rw [cutIndex, hkept] at hwhite hsolid
    rw [hkept] at hpast
    cases hanswer : resolve (remaining.take limit) with
    | none =>
      rw [hanswer] at hpast
      exact absurd hpast hlimitExact
    | some candidate =>
      rw [hanswer, breakIndex] at hpast hwhite hsolid
      split at hpast
      case isTrue hvalid =>
        rw [if_pos hvalid] at hwhite hsolid
        rw [Bool.and_eq_true, decide_eq_true_eq, decide_eq_true_eq] at hvalid
        exact ⟨hlong, candidate, hanswer, hvalid.1, hvalid.2, hpast, hwhite, hsolid⟩
      case isFalse => exact absurd hpast hlimitExact

theorem breakTurn_goOn (hlong : limit < remaining.length) : breakTurn limit resolve (remaining, chunks) =
    .goOn ((remaining.drop (nextIndex limit resolve remaining)).dropWhile isWhiteUnit,
      if (remaining.take (cutIndex limit resolve remaining)).rdropWhile isWhiteUnit ≠ [] then
        chunks ++ [(remaining.take (cutIndex limit resolve remaining)).rdropWhile isWhiteUnit]
      else chunks) := by
  unfold breakTurn
  dsimp only
  rw [if_pos hlong]
  rfl

/-- Unless a unit is swallowed, what is left is the text behind the cut without the white space in front. -/
theorem breakTurn_eq (hlimit : 2 ≤ limit) (hlong : limit < remaining.length) (hlength : remaining.length < 2 ^ 53)
    (hkeeps : ¬Swallows limit resolve remaining) : breakTurn limit resolve (remaining, chunks) =
      .goOn ((remaining.drop (cutIndex limit resolve remaining)).dropWhile isWhiteUnit,
        if (remaining.take (cutIndex limit resolve remaining)).rdropWhile isWhiteUnit ≠ [] then
          chunks ++ [(remaining.take (cutIndex limit resolve remaining)).rdropWhile isWhiteUnit]
        else chunks) := by
  obtain ⟨hnonneg, hwithin⟩ := @usedIndex_range limit resolve remaining hlimit hlong
  rw [swallows_iff hlimit hlong hlength] at hkeeps
  rw [breakTurn_goOn hlong, nextIndex, dropWhile_nextStart hnonneg hwithin hlong hlength hkeeps]
  rfl

/-- **A turn that cuts off nothing** comes to the same state again. -/
theorem breakTurn_stalls (hlimit : 2 ≤ limit) (hlength : remaining.length < 2 ^ 53)
    (h : Stalls limit resolve remaining) :
    breakTurn limit resolve (remaining, chunks) = .goOn (remaining, chunks) := by
  obtain ⟨-, -, hzero⟩ := @cutIndex_spec limit resolve remaining hlimit h.long
  have hkeeps : ¬Swallows limit resolve remaining := by
    rw [swallows_iff hlimit h.long hlength, hzero.mpr h.falls, ← List.head?_eq_getElem?, h.begins]
    rintro ⟨-, hwhite, -⟩
    contradiction
  have hbegins : remaining.dropWhile isWhiteUnit = remaining := by
    have hfirst := h.begins
    cases remaining with
    | nil => rfl
    | cons unit rest =>
      rw [List.dropWhile_cons_of_neg]
      rw [List.head?_cons, Option.any_some] at hfirst
      rw [hfirst]
      exact Bool.false_ne_true
  rw [breakTurn_eq hlimit h.long hlength hkeeps, hzero.mpr h.falls, List.drop_zero, List.take_zero, hbegins]
  rfl

/-- A turn that cuts something off leaves less. -/
theorem cut_shortens (hlimit : 2 ≤ limit) (hlong : limit < remaining.length) (h : ¬Stalls limit resolve remaining) :
    ((remaining.drop (cutIndex limit resolve remaining)).dropWhile isWhiteUnit).length < remaining.length := by
  obtain ⟨-, -, hzero⟩ := @cutIndex_spec limit resolve remaining hlimit hlong
  have hdrop := (List.dropWhile_sublist (p := isWhiteUnit)
    (l := remaining.drop (cutIndex limit resolve remaining))).length_le
  rw [List.length_drop] at hdrop
  by_cases hcut : cutIndex limit resolve remaining = 0
  · -- nothing is cut off, so white space stands in front
    have hbegins : remaining.head?.any isWhiteUnit = true := by
      by_contra hfirst
      exact h ⟨hlong, Bool.eq_false_iff.mpr hfirst, hzero.mp hcut⟩
    rw [hcut, List.drop_zero]
    cases remaining with
    | nil => contradiction
    | cons unit rest =>
      rw [List.head?_cons, Option.any_some] at hbegins
      rw [List.dropWhile_cons_of_pos hbegins, List.length_cons]
      exact Nat.lt_succ_of_le (List.dropWhile_sublist _).length_le
  · omega

/-- **One turn loses nothing**: what remained is the chunk, white space, and what remains now. -/
theorem cut_chunks (hlimit : 2 ≤ limit) (hlong : limit < remaining.length) {more : List JsString}
    (h : ChunksOf limit ((remaining.drop (cutIndex limit resolve remaining)).dropWhile isWhiteUnit) more) :
    ChunksOf limit remaining
      ((if (remaining.take (cutIndex limit resolve remaining)).rdropWhile isWhiteUnit ≠ [] then
        [(remaining.take (cutIndex limit resolve remaining)).rdropWhile isWhiteUnit] else []) ++ more) := by
  obtain ⟨hle, hcut, -⟩ := @cutIndex_spec limit resolve remaining hlimit hlong
  obtain ⟨cut, hcutIndex⟩ : ∃ cut, cut = cutIndex limit resolve remaining := ⟨_, rfl⟩
  rw [← hcutIndex] at h hle hcut ⊢
  obtain ⟨chunk, hchunk⟩ : ∃ chunk, chunk = (remaining.take cut).rdropWhile isWhiteUnit := ⟨_, rfl⟩
  obtain ⟨white, hraw, hwhite⟩ : ∃ white, remaining.take cut = chunk ++ white ∧ white.all isWhiteUnit = true := by
    refine ⟨((remaining.take cut).reverse.takeWhile isWhiteUnit).reverse, ?_, ?_⟩
    · rw [hchunk, List.rdropWhile, ← List.reverse_append, List.takeWhile_append_dropWhile, List.reverse_reverse]
    · rw [List.all_reverse]
      exact all_takeWhile _
  have hbehind : ChunksOf limit (remaining.drop cut) more := by
    have hspace := h.space (all_takeWhile (p := isWhiteUnit) (remaining.drop cut))
    rwa [List.takeWhile_append_dropWhile] at hspace
  rw [← hchunk]
  have htext : remaining = chunk ++ (white ++ remaining.drop cut) := by
    rw [← List.append_assoc, ← hraw, List.take_append_drop]
  split
  case isTrue hne =>
    rw [htext]
    refine @ChunksOf.chunk limit [] chunk (white ++ remaining.drop cut) more rfl ?_ ?_ (hbehind.space hwhite)
    · have hlength := congrArg List.length hraw
      rw [List.length_take, List.length_append] at hlength
      omega
    · cases white with
      | nil =>
        rw [List.append_nil] at hraw
        rw [List.nil_append, ← hraw]
        exact hcut
      | cons unit rest =>
        apply Parted.of_not_trail
        intro y hy
        obtain rfl := Option.some.inj hy
        rw [List.all_cons, Bool.and_eq_true] at hwhite
        exact white_not_trail hwhite.1
  case isFalse hnothing =>
    rw [not_not] at hnothing
    rw [htext, hnothing]
    exact hbehind.space hwhite

/-! ## What is not white space -/

/-- The units that are no white space. -/
def solid (text : JsString) : Nat := text.countP fun unit => !isWhiteUnit unit

/-- Those of a state: what remains, and the chunks. -/
def solidOf (state : JsString × List JsString) : Nat := solid state.1 + (state.2.map solid).sum

theorem solid_append (a b : JsString) : solid (a ++ b) = solid a + solid b := List.countP_append

theorem solid_white {white : JsString} (h : white.all isWhiteUnit = true) : solid white = 0 := by
  rw [solid, List.countP_eq_zero]
  intro unit hunit
  rw [List.all_eq_true.mp h unit hunit]
  exact Bool.false_ne_true

theorem solid_dropWhile (text : JsString) : solid (text.dropWhile isWhiteUnit) = solid text := by
  have hsplit := solid_append (text.takeWhile isWhiteUnit) (text.dropWhile isWhiteUnit)
  rw [List.takeWhile_append_dropWhile, solid_white (all_takeWhile text), Nat.zero_add] at hsplit
  exact hsplit.symm

theorem solid_rdropWhile (text : JsString) : solid (text.rdropWhile isWhiteUnit) = solid text := by
  have hreverse : ∀ l : JsString, solid l.reverse = solid l := fun _ => List.countP_reverse
  rw [List.rdropWhile, hreverse, solid_dropWhile, hreverse]

theorem solid_drop_succ {text : JsString} {i : Nat} (h : i < text.length) :
    solid (text.drop i) = solid [text[i]] + solid (text.drop (i + 1)) := by
  rw [List.drop_eq_getElem_cons h]
  exact solid_append [text[i]] _

theorem solid_drop_le (text : JsString) (i : Nat) : solid (text.drop (i + 1)) ≤ solid (text.drop i) :=
  (List.drop_sublist_drop_left text (Nat.le_succ i)).countP_le

/-- Chunks of a text have all of it. -/
theorem chunksOf_solid {text : JsString} (h : ChunksOf limit text chunks) : (chunks.map solid).sum = solid text := by
  induction h with
  | done hgap => exact (solid_white hgap).symm
  | chunk hgap _ _ _ ih =>
    rw [List.map_cons, List.sum_cons, ih, solid_append, solid_append, solid_white hgap, Nat.zero_add]

/-- A turn keeps all but what stands between the cut and the place where it goes on. -/
theorem solidOf_goOn {state' : JsString × List JsString} (hlong : limit < remaining.length)
    (hturn : breakTurn limit resolve (remaining, chunks) = .goOn state') :
    solidOf state' + solid (remaining.drop (cutIndex limit resolve remaining)) =
      solidOf (remaining, chunks) + solid (remaining.drop (nextIndex limit resolve remaining)) := by
  rw [breakTurn_goOn hlong] at hturn
  obtain rfl := Turn.goOn.inj hturn
  have hsplit := solid_append (remaining.take (cutIndex limit resolve remaining))
    (remaining.drop (cutIndex limit resolve remaining))
  rw [List.take_append_drop] at hsplit
  have hraw := solid_rdropWhile (remaining.take (cutIndex limit resolve remaining))
  unfold solidOf
  dsimp only
  rw [solid_dropWhile, hsplit, ← hraw]
  split
  case isTrue =>
    rw [List.map_append, List.sum_append, List.map_singleton, List.sum_singleton]
    omega
  case isFalse hnothing =>
    rw [not_not] at hnothing
    rw [hnothing]
    have hnil : solid [] = 0 := rfl
    omega

/-- **A turn that swallows a unit** has one less; no turn has more. -/
theorem breakTurn_swallows (hlimit : 2 ≤ limit) (hlong : limit < remaining.length)
    (hlength : remaining.length < 2 ^ 53) {state' : JsString × List JsString}
    (hturn : breakTurn limit resolve (remaining, chunks) = .goOn state') :
    solidOf state' ≤ solidOf (remaining, chunks) ∧
      (Swallows limit resolve remaining → solidOf state' < solidOf (remaining, chunks)) := by
  have hkeeps := solidOf_goOn hlong hturn
  obtain ⟨hnonneg, hwithin⟩ := @usedIndex_range limit resolve remaining hlimit hlong
  rw [swallows_iff hlimit hlong hlength]
  obtain ⟨cut, hcut⟩ : ∃ cut, cut = positionIndex (usedIndex limit resolve remaining) := ⟨_, rfl⟩
  rw [cutIndex, nextIndex, ← hcut] at hkeeps
  rw [cutIndex, ← hcut]
  have hstep := @solid_drop_le remaining cut
  rcases nextStart_index hnonneg hwithin hlong hlength with
    ⟨hsolid, hnext⟩ | ⟨-, ⟨hpast, hnext⟩ | ⟨-, hnext, hinside⟩⟩
  · rw [hnext, ← hcut] at hkeeps
    refine ⟨by omega, ?_⟩
    rintro ⟨-, hwhite, -⟩
    rw [← hcut] at hsolid
    exact absurd hwhite (Bool.eq_false_iff.mp hsolid)
  · rw [hnext, ← hcut] at hkeeps
    exact ⟨by omega, fun hswallows => absurd hswallows.1 hpast⟩
  · rw [← hcut] at hinside
    rw [hnext, ← hcut] at hkeeps
    have hnextStep : solid (remaining.drop (cut + 2)) ≤ solid (remaining.drop (cut + 1)) := solid_drop_le remaining _
    refine ⟨by omega, ?_⟩
    rintro ⟨-, -, hbehind⟩
    rw [List.getElem?_eq_getElem hinside, Option.any_some] at hbehind
    have hone : solid [remaining[cut + 1]] = 1 := by simp [solid, hbehind]
    have hgone : _ = _ + solid (remaining.drop (cut + 2)) := solid_drop_succ hinside
    omega

/-- The loop never has more than it began with. -/
theorem comes_length {state state' : JsString × List JsString}
    (h : Comes (breakTurn limit resolve) state state') : state'.1.length ≤ state.1.length := by
  induction h with
  | start => exact Nat.le_refl _
  | @goOn s₁ s₂ _ hturn ih =>
    obtain ⟨remaining, chunks⟩ := s₁
    by_cases hlong : limit < remaining.length
    · rw [breakTurn_goOn hlong] at hturn
      obtain rfl := Turn.goOn.inj hturn
      refine Nat.le_trans ?_ ih
      exact ((List.dropWhile_sublist _).trans (List.drop_sublist _ _)).length_le
    · unfold breakTurn at hturn
      dsimp only at hturn
      rw [if_neg hlong] at hturn
      contradiction

theorem comes_solid (hlimit : 2 ≤ limit) {state state' : JsString × List JsString}
    (h : Comes (breakTurn limit resolve) state state') (hlength : state.1.length < 2 ^ 53) :
    solidOf state' ≤ solidOf state := by
  induction h with
  | start => exact Nat.le_refl _
  | @goOn s₁ s₂ hcomes hturn ih =>
    obtain ⟨remaining, chunks⟩ := s₁
    have hshorter := comes_length hcomes
    dsimp only at hshorter
    by_cases hlong : limit < remaining.length
    · exact (breakTurn_swallows hlimit hlong (by omega) hturn).1.trans ih
    · unfold breakTurn at hturn
      dsimp only at hturn
      rw [if_neg hlong] at hturn
      contradiction

/-- The chunks have no more than the state they come from. -/
theorem ends_solid (hlimit : 2 ≤ limit) {state : JsString × List JsString} {result : List JsString}
    (h : Ends (breakTurn limit resolve) state result) (hlength : state.1.length < 2 ^ 53) :
    (result.map solid).sum ≤ solidOf state := by
  obtain ⟨⟨remaining, chunks⟩, hcomes, hleaves⟩ := h.leaves
  refine Nat.le_trans (Nat.le_of_eq ?_) (comes_solid hlimit hcomes hlength)
  unfold breakTurn at hleaves
  dsimp only at hleaves
  split at hleaves
  · contradiction
  · obtain rfl := Turn.leave.inj hleaves
    unfold solidOf
    dsimp only
    split
    case isTrue => rw [List.map_append, List.sum_append, List.map_singleton, List.sum_singleton, Nat.add_comm]
    case isFalse hnothing =>
      rw [not_not] at hnothing
      rw [hnothing]
      exact (Nat.zero_add _).symm

/-- **The loop ends** where no answer stalls it or swallows a unit, and its chunks are the text. -/
theorem breakTurn_ends (hlimit : 2 ≤ limit) (state : JsString × List JsString) (hlength : state.1.length < 2 ^ 53)
    (h : ∀ state', Comes (breakTurn limit resolve) state state' → ¬Stalls limit resolve state'.1 ∧
    ¬Swallows limit resolve state'.1) : ∃ result, Ends (breakTurn limit resolve) state result ∧
      ∃ more, result = state.2 ++ more ∧ ChunksOf limit state.1 more := by
  refine ends_of_variant (P := fun state => ∀ state', Comes (breakTurn limit resolve) state state' →
    state'.1.length < 2 ^ 53 ∧ ¬Stalls limit resolve state'.1 ∧ ¬Swallows limit resolve state'.1)
    (R := fun state result => ∃ more, result = state.2 ++ more ∧ ChunksOf limit state.1 more)
    (fun state => state.1.length) ?_ ?_ state
    fun state' hcomes => ⟨(comes_length hcomes).trans_lt hlength, h state' hcomes⟩
  · rintro ⟨remaining, chunks⟩ result - hturn
    unfold breakTurn at hturn
    dsimp only at hturn
    split at hturn
    · contradiction
    case isFalse hshort =>
      obtain rfl := Turn.leave.inj hturn
      split
      case isTrue => exact ⟨[remaining], rfl, .whole (Nat.le_of_not_lt hshort)⟩
      case isFalse hnothing =>
        rw [not_not] at hnothing
        refine ⟨[], (List.append_nil _).symm, ?_⟩
        dsimp only
        rw [hnothing]
        exact .done rfl
  · rintro ⟨remaining, chunks⟩ next hcomes hturn
    by_cases hlong : limit < remaining.length
    · obtain ⟨hless, hgoes, hkeeps⟩ := hcomes _ .start
      have hstep := hturn
      rw [breakTurn_eq hlimit hlong hless hkeeps] at hturn
      obtain rfl := Turn.goOn.inj hturn
      refine ⟨fun state' h' => hcomes state' ((Comes.start.goOn hstep).trans h'), cut_shortens hlimit hlong hgoes, ?_⟩
      rintro result ⟨more, hresult, hchunks⟩
      refine ⟨_, ?_, cut_chunks hlimit hlong hchunks⟩
      rw [hresult]
      dsimp only
      split
      · rw [List.append_assoc]
      · rfl
    · unfold breakTurn at hturn
      dsimp only at hturn
      rw [if_neg hlong] at hturn
      contradiction

/-- **Chunks by a resolver**: there are chunks, and they are the text, exactly if no answer stalls the loop or swallows
a unit. -/
theorem byBreakResolver_iff (hlimit : 2 ≤ limit) {text : JsString} (hlength : text.length < 2 ^ 53) :
    (∃ chunks, Returns (chunkTextByBreakResolver text limit resolve) chunks ∧ ChunksOf limit text chunks) ↔
      ∀ state, Comes (breakTurn limit resolve) (text, []) state → ¬Stalls limit resolve state.1 ∧
      ¬Swallows limit resolve state.1 := by
  by_cases hshort : text.length ≤ limit
  · refine iff_of_true ?_ ?_
    · by_cases hempty : text = []
      · refine ⟨[], ⟨0, if_pos hempty⟩, ?_⟩
        rw [hempty]
        exact .done rfl
      · refine ⟨[text], ⟨0, ?_⟩, .whole hshort⟩
        rw [chunkTextByBreakResolver, if_neg hempty, if_pos]
        rw [Bool.or_eq_true, decide_eq_true_eq, decide_eq_true_eq]
        exact Or.inr hshort
    · intro state hcomes
      have hless := (comes_length hcomes).trans hshort
      exact ⟨fun hstalls => absurd hstalls.long (not_lt.mpr hless),
        fun hswallows => absurd hswallows.long (not_lt.mpr hless)⟩
  · have hloop : ∀ chunks, Returns (chunkTextByBreakResolver text limit resolve) chunks ↔
        Ends (breakTurn limit resolve) (text, []) chunks := by
      intro chunks
      have hempty : text ≠ [] := by
        rintro rfl
        exact hshort (Nat.zero_le limit)
      have heq : chunkTextByBreakResolver text limit resolve =
          fun n => turns (breakTurn limit resolve) n (text, []) := by
        funext n
        rw [chunkTextByBreakResolver, if_neg hempty, if_neg]
        rw [Bool.or_eq_true, decide_eq_true_eq, decide_eq_true_eq]
        omega
      rw [heq]
      rfl
    constructor
    · rintro ⟨chunks, hreturns, hchunks⟩ ⟨remaining, collected⟩ hcomes
      have hends := (ends_comes hcomes).mp ((hloop chunks).mp hreturns)
      have hless : remaining.length < 2 ^ 53 := (comes_length hcomes).trans_lt hlength
      dsimp only
      constructor
      · intro hstalls
        exact never_ends_of_same (breakTurn_stalls hlimit hless hstalls) hends
      · intro hswallows
        -- the chunks would have all of the text, but the turn loses a unit of it
        have hturn := @breakTurn_goOn limit resolve remaining collected hswallows.long
        have hlost := (breakTurn_swallows hlimit hswallows.long hless hturn).2 hswallows
        have hbefore := comes_solid hlimit hcomes hlength
        have hafter := ends_solid hlimit ((ends_goOn_iff hturn).mp hends)
          ((comes_length (Comes.start.goOn hturn)).trans_lt hless)
        have hall := chunksOf_solid hchunks
        have hstart : solidOf (text, []) = solid text := rfl
        omega
    · intro hnever
      obtain ⟨chunks, hends, more, hchunks, hof⟩ := breakTurn_ends hlimit (text, []) hlength hnever
      refine ⟨chunks, (hloop chunks).mpr hends, ?_⟩
      rw [hchunks]
      exact hof

end Turns

/-! ## The three functions -/

/-- **Plain text chunking.**  For every text and every limit of at least two, the ranges of both modes tile the text,
and `chunkText` and `chunkTextByBreakResolver` return chunks that are the text, all of it in pieces of at most `limit`
units that split no pair; exactly if the loop over the resolver never comes to a text for which the answer cuts off
nothing, or for which one more than the answer is rounded past a unit.  A string has fewer than `2 ^ 53` units. -/
theorem plain_chunking_iff {limit : Nat} (hlimit : 2 ≤ limit) {text : JsString} (hlength : text.length < 2 ^ 53)
    (resolveBreakIndex : JsString → Option ℚ) :
    ((∀ mode, ∃ ranges, Returns (chunkTextRanges text limit mode) ranges ∧ TilesFrom text limit 0 ranges) ∧
      (∃ chunks, Returns (chunkText text limit) chunks ∧ ChunksOf limit text chunks) ∧
      ∃ chunks, Returns (chunkTextByBreakResolver text limit resolveBreakIndex) chunks ∧ ChunksOf limit text chunks) ↔
    ∀ state, Comes (breakTurn limit resolveBreakIndex) (text, []) state →
      ¬Stalls limit resolveBreakIndex state.1 ∧ ¬Swallows limit resolveBreakIndex state.1 := by
  constructor
  · rintro ⟨-, -, hresolver⟩
    exact (byBreakResolver_iff hlimit hlength).mp hresolver
  · intro hnever
    exact ⟨chunkTextRanges_tiles text hlimit, chunkText_chunks text hlimit,
      (byBreakResolver_iff hlimit hlength).mpr hnever⟩

/-- A resolver that always answers with a half. -/
def halfResolver (_ : JsString) : Option ℚ := some (1 / 2)

/-- `plain_chunking_iff` for a text that is longer than the limit, with that resolver. -/
theorem plain_chunking_half :
    ((∀ mode, ∃ ranges, Returns (chunkTextRanges (units "abc") 2 mode) ranges ∧ TilesFrom (units "abc") 2 0 ranges) ∧
      (∃ chunks, Returns (chunkText (units "abc") 2) chunks ∧ ChunksOf 2 (units "abc") chunks) ∧
      ∃ chunks, Returns (chunkTextByBreakResolver (units "abc") 2 halfResolver) chunks ∧
        ChunksOf 2 (units "abc") chunks) ↔
    ∀ state, Comes (breakTurn 2 halfResolver) (units "abc", []) state →
      ¬Stalls 2 halfResolver state.1 ∧ ¬Swallows 2 halfResolver state.1 :=
  plain_chunking_iff (by decide) (by decide) halfResolver

-- The largest double below two and one make three: `b` is gone.
example : chunkTextByBreakResolver (units "a bcd") 2 (fun _ => some (2 - 1 / 2 ^ 52)) 4 =
    some [units "a", units "cd"] := by decide +kernel

/-- The answer of a half never ends the loop. -/
theorem half_break_never_ends : ¬∃ chunks, Returns (chunkTextByBreakResolver (units "abc") 2 halfResolver) chunks := by
  rintro ⟨chunks, n, hn⟩
  have hstalls : Stalls 2 halfResolver (units "abc") := by
    refine ⟨by decide, by decide, 1 / 2, rfl, by norm_num, Or.inl (by norm_num)⟩
  exact never_ends_of_same (@breakTurn_stalls 2 halfResolver (units "abc") [] (Nat.le_refl 2) (by decide) hstalls) ⟨n, hn⟩

end OpenClaw.Shared
