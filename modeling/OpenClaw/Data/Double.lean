/-
# OpenClaw.Data.Double -- rounding to a 53 bit significand

A double is a fraction with a significand of 53 bits and an exponent that is not below that of the
subnormal numbers.  An operation is carried out exactly and then rounded to the nearest double, of two to
the one with the even significand.  The exponent has no upper end here: a result that would overflow is
one of at least `2 ^ 1024`.  Integers up to `2 ^ 53` are doubles, and a quotient is not rounded past the
next integer as long as that integer times the divisor is not above `2 ^ 53`.
-/
import Mathlib.Data.Int.Log
import Mathlib.Data.Rat.Floor
import Mathlib.Tactic.FieldSimp
import Mathlib.Tactic.Linarith
import Mathlib.Tactic.NormNum
import Mathlib.Tactic.Positivity
import Mathlib.Tactic.Ring

namespace OpenClaw.Data

/-! ## The nearest integer -/

/-- The nearest integer; of two, the even one. -/
def roundEven (x : ℚ) : ℤ :=
  if x - ⌊x⌋ < 1 / 2 then ⌊x⌋
  else if 1 / 2 < x - ⌊x⌋ then ⌊x⌋ + 1
  else if ⌊x⌋ % 2 = 0 then ⌊x⌋
  else ⌊x⌋ + 1

theorem floor_le_roundEven (x : ℚ) : ⌊x⌋ ≤ roundEven x := by
  unfold roundEven
  split_ifs <;> omega

theorem abs_roundEven_sub_le (x : ℚ) : |(roundEven x : ℚ) - x| ≤ 1 / 2 := by
  have hle := Int.floor_le x
  have hlt := Int.lt_floor_add_one x
  rw [abs_le]
  unfold roundEven
  split_ifs <;> push_cast <;> constructor <;> linarith

theorem roundEven_intCast (n : ℤ) : roundEven (n : ℚ) = n := by
  unfold roundEven
  rw [Int.floor_intCast, sub_self, if_pos (by norm_num)]

/-! ## The last place -/

/-- The exponent of the last place of a number. -/
def ulpExponent (x : ℚ) : ℤ := max (Int.log 2 |x| - 52) (-1074)

/-- One unit in the last place. -/
def ulp (x : ℚ) : ℚ := 2 ^ ulpExponent x

theorem ulp_pos (x : ℚ) : 0 < ulp x := zpow_pos (by norm_num) _

variable {x : ℚ}

theorem ulp_le_ulp_of_exponent {e : ℤ} (h : ulpExponent x ≤ e) : ulp x ≤ 2 ^ e := zpow_le_zpow_right₀ (by norm_num) h

theorem log_lt_of_abs_lt {e : ℤ} (hx : x ≠ 0) (h : |x| < 2 ^ e) : Int.log 2 |x| < e := by
  apply (Int.lt_zpow_iff_log_lt (by norm_num) (abs_pos.mpr hx)).mp
  rw [Nat.cast_ofNat]
  exact h

/-- A whole number of last places. -/
theorem ulp_dvd_of_exponent {m e : ℤ} (h : ulpExponent x ≤ e) : ∃ j : ℤ, (m : ℚ) * 2 ^ e = j * ulp x := by
  refine ⟨m * 2 ^ (e - ulpExponent x).toNat, ?_⟩
  have hexp : ((e - ulpExponent x).toNat : ℤ) = e - ulpExponent x := Int.toNat_of_nonneg (by omega)
  have hsplit : (2 : ℚ) ^ e = 2 ^ (e - ulpExponent x).toNat * 2 ^ ulpExponent x := by
    rw [← zpow_natCast, hexp, ← zpow_add₀ (by norm_num), sub_add_cancel]
  rw [hsplit, ulp]
  push_cast
  ring

theorem ulpExponent_nonpos (h : |x| < 2 ^ 53) : ulpExponent x ≤ 0 := by
  unfold ulpExponent
  rcases eq_or_ne x 0 with rfl | hx
  · simp
  · have hlog : Int.log 2 |x| < 53 := log_lt_of_abs_lt hx (by exact_mod_cast h)
    omega

/-- Below `2 ^ 53` an integer is a whole number of last places. -/
theorem ulp_dvd_intCast (h : |x| < 2 ^ 53) (n : ℤ) : ∃ j : ℤ, (n : ℚ) = j * ulp x := by
  obtain ⟨j, hj⟩ := ulp_dvd_of_exponent (m := n) (ulpExponent_nonpos h)
  exact ⟨j, by rw [← hj, zpow_zero, mul_one]⟩

/-- A number has fewer than `2 ^ 53` last places. -/
theorem lt_ulp_mul (x : ℚ) : |x| < ulp x * 2 ^ 53 := by
  have hlog := Int.lt_zpow_succ_log_self (b := 2) (by norm_num) |x|
  have hexp : Int.log 2 |x| + 1 ≤ ulpExponent x + 53 := by
    unfold ulpExponent
    omega
  calc |x| < ((2 : ℕ) : ℚ) ^ (Int.log 2 |x| + 1) := hlog
    _ ≤ 2 ^ (ulpExponent x + 53) := by
        rw [Nat.cast_ofNat]
        exact zpow_le_zpow_right₀ (by norm_num) hexp
    _ = ulp x * 2 ^ 53 := by
        rw [zpow_add₀ (by norm_num), ulp]
        norm_cast

/-- Above the subnormal numbers a last place is small beside the number. -/
theorem ulp_mul_le (h : 1 / 2 ≤ |x|) : ulp x * 2 ^ 52 ≤ |x| := by
  have hpos : 0 < |x| := by linarith
  have hlog : -1 ≤ Int.log 2 |x| := by
    apply (Int.zpow_le_iff_le_log (by norm_num) hpos).mp
    norm_num
    linarith
  have hexp : ulpExponent x + 52 = Int.log 2 |x| := by
    unfold ulpExponent
    omega
  calc ulp x * 2 ^ 52 = 2 ^ (ulpExponent x + 52) := by
        rw [zpow_add₀ (by norm_num), ulp]
        norm_cast
    _ ≤ |x| := by
        rw [hexp]
        have hle := Int.zpow_log_le_self (b := 2) (by norm_num) hpos
        rwa [Nat.cast_ofNat] at hle

/-! ## Doubles -/

/-- The number has a significand of 53 bits. -/
def IsDouble (x : ℚ) : Prop := ∃ m e : ℤ, |m| < 2 ^ 53 ∧ -1074 ≤ e ∧ x = m * 2 ^ e

/-- The double that is nearest to the number. -/
def toDouble (x : ℚ) : ℚ := roundEven (x / ulp x) * ulp x

theorem IsDouble.ulp_dvd (h : IsDouble x) : ∃ j : ℤ, x = j * ulp x := by
  obtain ⟨m, e, hm, he, hx⟩ := h
  rcases eq_or_ne x 0 with hzero | hne
  · exact ⟨0, by rw [Int.cast_zero, zero_mul, hzero]⟩
  · have hpos : (0 : ℚ) < 2 ^ e := zpow_pos (by norm_num) e
    have hmq : |(m : ℚ)| < 2 ^ (53 : ℤ) := by exact_mod_cast hm
    have hlt : |x| < 2 ^ (53 + e) := by
      rw [hx, abs_mul, abs_of_pos hpos, zpow_add₀ (by norm_num)]
      exact mul_lt_mul_of_pos_right hmq hpos
    have hlog := log_lt_of_abs_lt hne hlt
    have hexp : ulpExponent x ≤ e := by
      unfold ulpExponent
      omega
    obtain ⟨j, hj⟩ := ulp_dvd_of_exponent (m := m) hexp
    exact ⟨j, hx.trans hj⟩

/-- A double is not rounded. -/
theorem toDouble_of_isDouble (h : IsDouble x) : toDouble x = x := by
  obtain ⟨j, hj⟩ := h.ulp_dvd
  have hdiv : x / ulp x = j := by
    rw [div_eq_iff (ulp_pos x).ne']
    exact hj
  rw [toDouble, hdiv, roundEven_intCast]
  exact hj.symm

/-- Rounding moves a number by half a last place at most. -/
theorem abs_toDouble_sub_le (x : ℚ) : |toDouble x - x| ≤ ulp x / 2 := by
  have hround := abs_roundEven_sub_le (x / ulp x)
  have hpos := ulp_pos x
  have hdiff : toDouble x - x = (roundEven (x / ulp x) - x / ulp x) * ulp x := by
    rw [toDouble, sub_mul, div_mul_cancel₀ _ hpos.ne']
  rw [hdiff, abs_mul, abs_of_pos hpos]
  calc |(roundEven (x / ulp x) : ℚ) - x / ulp x| * ulp x ≤ 1 / 2 * ulp x :=
        mul_le_mul_of_nonneg_right hround hpos.le
    _ = ulp x / 2 := by ring

/-- A whole number of last places is not rounded past. -/
theorem le_toDouble {x : ℚ} {j : ℤ} (h : j * ulp x ≤ x) : j * ulp x ≤ toDouble x := by
  have hpos := ulp_pos x
  have hfloor : j ≤ ⌊x / ulp x⌋ := Int.le_floor.mpr ((le_div_iff₀ hpos).mpr h)
  have hround : (j : ℚ) ≤ roundEven (x / ulp x) := by
    exact_mod_cast hfloor.trans (floor_le_roundEven _)
  exact mul_le_mul_of_nonneg_right hround hpos.le

/-! ## Integers -/

theorem isDouble_intCast {n : ℤ} (h : |n| ≤ 2 ^ 53) : IsDouble n := by
  rcases h.lt_or_eq with hlt | heq
  · exact ⟨n, 0, hlt, by norm_num, by rw [zpow_zero, mul_one]⟩
  · rcases abs_choice n with hn | hn
    · refine ⟨2 ^ 52, 1, by norm_num, by norm_num, ?_⟩
      rw [← hn, heq]
      norm_num
    · refine ⟨-2 ^ 52, 1, by norm_num, by norm_num, ?_⟩
      have hvalue : n = -2 ^ 53 := by omega
      rw [hvalue]
      norm_num

theorem toDouble_intCast {n : ℤ} (h : |n| ≤ 2 ^ 53) : toDouble n = n := toDouble_of_isDouble (isDouble_intCast h)

theorem toDouble_two_pow : toDouble (2 ^ 53) = 2 ^ 53 :=
  toDouble_of_isDouble ⟨1, 53, by norm_num, by norm_num, by norm_num⟩

/-- The first integer that is no double is halfway between two, and is rounded down. -/
theorem toDouble_two_pow_succ : toDouble (2 ^ 53 + 1) = 2 ^ 53 := by
  have hlog : Int.log 2 |(2 ^ 53 + 1 : ℚ)| = 53 := by
    apply le_antisymm
    · have hlt := log_lt_of_abs_lt (x := (2 ^ 53 + 1 : ℚ)) (e := 54) (by norm_num) (by norm_num)
      omega
    · apply (Int.zpow_le_iff_le_log (by norm_num) (by norm_num)).mp
      norm_num
  have hulp : ulp (2 ^ 53 + 1) = 2 := by
    rw [ulp, ulpExponent, hlog]
    norm_num
  have hfloor : ⌊(2 ^ 53 + 1 : ℚ) / 2⌋ = 2 ^ 52 := by
    rw [Int.floor_eq_iff]
    norm_num
  have hround : roundEven ((2 ^ 53 + 1 : ℚ) / 2) = 2 ^ 52 := by
    unfold roundEven
    rw [hfloor]
    norm_num
  rw [toDouble, hulp, hround]
  norm_num

/-- The distance from an integer to a double that is not smaller. -/
theorem IsDouble.sub_intCast {n : ℤ} (h : IsDouble x) (hn : 0 ≤ n) (hle : (n : ℚ) ≤ x) (hx : x ≤ 2 ^ 53) :
    IsDouble (x - n) := by
  obtain ⟨m, e, hm, he, rfl⟩ := h
  rcases le_or_gt 0 e with hnonneg | hneg
  · -- both are integers
    obtain ⟨k, rfl⟩ := Int.eq_ofNat_of_zero_le hnonneg
    have hcast : (m : ℚ) * 2 ^ (k : ℤ) = ((m * 2 ^ k : ℤ) : ℚ) := by
      push_cast
      rw [zpow_natCast]
    rw [hcast] at hle hx ⊢
    have hle' : n ≤ m * 2 ^ k := by exact_mod_cast hle
    have hx' : m * 2 ^ k ≤ 2 ^ 53 := by exact_mod_cast hx
    rw [← Int.cast_sub]
    apply isDouble_intCast
    rw [abs_of_nonneg (by omega)]
    omega
  · -- the integer has the exponent of the double
    obtain ⟨k, hk⟩ := Int.eq_ofNat_of_zero_le (neg_nonneg.mpr hneg.le)
    have he' : e = -(k : ℤ) := by omega
    have hone : (2 : ℚ) ^ k * 2 ^ e = 1 := by
      rw [he', zpow_neg, zpow_natCast]
      exact mul_inv_cancel₀ (by positivity)
    have hvalue : (m : ℚ) * 2 ^ e - n = ((m - n * 2 ^ k : ℤ) : ℚ) * 2 ^ e := by
      push_cast
      rw [sub_mul, mul_assoc, hone, mul_one]
    have hpos : (0 : ℚ) < 2 ^ e := zpow_pos (by norm_num) e
    have hnonneg : 0 ≤ m - n * 2 ^ k := by
      have hq : (0 : ℚ) ≤ ((m - n * 2 ^ k : ℤ) : ℚ) * 2 ^ e := by
        rw [← hvalue]
        linarith
      exact_mod_cast nonneg_of_mul_nonneg_left hq hpos
    have hsub : 0 ≤ n * 2 ^ k := by positivity
    refine ⟨m - n * 2 ^ k, e, ?_, he, hvalue⟩
    rw [abs_of_nonneg hnonneg]
    have hm' := (abs_lt.mp hm).2
    omega

/-! ## Quotients -/

/-- A quotient is not rounded up to the next integer. -/
theorem toDouble_div_lt {a : ℚ} {n k : ℤ} (ha : IsDouble a) (hpos : 0 ≤ a) (hn : 1 ≤ n)
    (hlt : a < (k + 1) * n) (hbound : (k + 1) * n ≤ 2 ^ 53) (hk : 0 ≤ k) : toDouble (a / n) < k + 1 := by
  have hnq : (1 : ℚ) ≤ n := by exact_mod_cast hn
  have hkq : (0 : ℚ) ≤ k := by exact_mod_cast hk
  have hboundq : ((k : ℚ) + 1) * n ≤ 2 ^ 53 := by exact_mod_cast hbound
  have hx0 : 0 ≤ a / n := div_nonneg hpos (by linarith)
  have herror := (abs_le.mp (abs_toDouble_sub_le (a / n))).2
  rcases lt_or_ge (a / n) (1 / 2) with hsmall | hlarge
  · -- far away from one
    have hulp : ulp (a / n) ≤ 1 := by
      rw [← zpow_zero (2 : ℚ)]
      apply ulp_le_ulp_of_exponent
      apply ulpExponent_nonpos
      rw [abs_of_nonneg hx0]
      linarith
    linarith
  · by_contra hge
    have hge := not_lt.mp hge
    have hulp := ulp_mul_le (x := a / n) (by rw [abs_of_nonneg hx0]; exact hlarge)
    rw [abs_of_nonneg hx0] at hulp
    have hquot : a / n * n = a := div_mul_cancel₀ a (by linarith)
    -- the next multiple of the divisor would be within a fraction of the last place of the double
    have hnear : ((k + 1) * n - a) * 2 ^ 53 ≤ a := by
      have hgap : ((k : ℚ) + 1 - a / n) * 2 ^ 53 ≤ a / n := by linarith
      calc ((k + 1) * n - a) * 2 ^ 53 = (((k : ℚ) + 1 - a / n) * 2 ^ 53) * n := by
            rw [sub_mul, sub_mul, sub_mul, mul_right_comm (a / n), hquot]
            ring
        _ ≤ a / n * n := mul_le_mul_of_nonneg_right hgap (by linarith)
        _ = a := hquot
    have habs : |a| < 2 ^ 53 := by
      rw [abs_of_nonneg hpos]
      linarith
    obtain ⟨i, hi⟩ := ha.ulp_dvd
    obtain ⟨j, hj⟩ := ulp_dvd_intCast habs ((k + 1) * n)
    have hulpPos := ulp_pos a
    have hgap : (j - i : ℤ) * ulp a = (k + 1) * n - a := by
      push_cast
      push_cast at hj
      rw [sub_mul, ← hj, ← hi]
    have hone : 1 ≤ j - i := by
      have hq : (0 : ℚ) < (j - i : ℤ) * ulp a := by
        rw [hgap]
        linarith
      exact_mod_cast pos_of_mul_pos_left hq hulpPos.le
    have honeq : (1 : ℚ) ≤ (j - i : ℤ) := by exact_mod_cast hone
    have hulpLe : ulp a ≤ (k + 1) * n - a := by
      rw [← hgap]
      exact le_mul_of_one_le_left hulpPos.le honeq
    have hlast := lt_ulp_mul a
    rw [abs_of_nonneg hpos] at hlast
    linarith

/-- The floor of a quotient, rounded or not. -/
theorem floor_toDouble_div {a : ℚ} {n : ℤ} (ha : IsDouble a) (hpos : 0 ≤ a) (hn : 1 ≤ n)
    (hbound : (⌊a / n⌋ + 1) * n ≤ 2 ^ 53) : ⌊toDouble (a / n)⌋ = ⌊a / n⌋ := by
  have hnq : (1 : ℚ) ≤ n := by exact_mod_cast hn
  have hx0 : 0 ≤ a / n := div_nonneg hpos (by linarith)
  have hfloor : 0 ≤ ⌊a / n⌋ := Int.floor_nonneg.mpr hx0
  have hlt := Int.lt_floor_add_one (a / n)
  rw [Int.floor_eq_iff]
  constructor
  · have habs : |a / n| < 2 ^ 53 := by
      rw [abs_of_nonneg hx0]
      have hone : ⌊a / n⌋ + 1 ≤ 2 ^ 53 := by nlinarith
      have honeq : ((⌊a / n⌋ : ℚ) + 1) ≤ 2 ^ 53 := by exact_mod_cast hone
      linarith
    obtain ⟨j, hj⟩ := ulp_dvd_intCast habs ⌊a / n⌋
    rw [hj]
    apply le_toDouble
    rw [← hj]
    exact Int.floor_le _
  · apply toDouble_div_lt ha hpos hn _ hbound hfloor
    exact (div_lt_iff₀ (by linarith)).mp hlt

end OpenClaw.Data
