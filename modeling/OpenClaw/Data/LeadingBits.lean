/-
# OpenClaw.Data.LeadingBits -- the first bits of a number of a given width

`leading width p x` is what the first `p` of the `width` bits of `x` say.  Two numbers lie in the same
block of prefix length `p` when they agree there.
-/
import Mathlib.Tactic.Ring

namespace OpenClaw.Data

variable {width high low p q x y : Nat}

/-- The number that the first `p` bits of `x` write; all of `x` if it has no more than `p` bits. -/
def leading (width p x : Nat) : Nat := x / 2 ^ (width - p)

theorem leading_of_le (h : width ≤ p) : leading width p x = x := by
  rw [leading, Nat.sub_eq_zero_of_le h, pow_zero, Nat.div_one]

/-- A longer prefix determines a shorter one. -/
theorem leading_leading (h : p ≤ q) (hq : q ≤ width) : leading q p (leading width q x) = leading width p x := by
  unfold leading
  rw [Nat.div_div_eq_div_mul, ← pow_add]
  congr 2
  omega

theorem leading_mono (h : p ≤ q) (hxy : leading width q x = leading width q y) :
    leading width p x = leading width p y := by
  rcases Nat.le_total q width with hq | hq
  · rw [← leading_leading h hq, ← leading_leading h hq, hxy]
  · rw [leading_of_le hq, leading_of_le hq] at hxy
    rw [hxy]

/-! ## A number of two parts -/

/-- Up to its low part, the leading bits are those of the high part. -/
theorem leading_high (hy : y < 2 ^ low) (h : p ≤ high) :
    leading (high + low) p (x * 2 ^ low + y) = leading high p x := by
  have hhigh : leading (high + low) high (x * 2 ^ low + y) = x := by
    rw [leading, Nat.add_sub_cancel_left, Nat.mul_comm, Nat.mul_add_div (Nat.two_pow_pos _),
      Nat.div_eq_of_lt hy, Nat.add_zero]
  rw [← leading_leading h (Nat.le_add_right high low), hhigh]

/-- Behind it, they are the high part and the leading bits of the low part. -/
theorem leading_low (x y : Nat) : leading (high + low) (high + p) (x * 2 ^ low + y) =
    x * 2 ^ (min p low) + leading low p y := by
  rcases Nat.le_total p low with hp | hp
  · have hsplit : x * 2 ^ low = 2 ^ (low - p) * (x * 2 ^ p) := by
      rw [Nat.mul_left_comm, ← pow_add, Nat.sub_add_cancel hp]
    rw [Nat.min_eq_left hp, leading, Nat.add_sub_add_left, hsplit, Nat.mul_add_div (Nat.two_pow_pos _)]
    rfl
  · rw [Nat.min_eq_right hp, leading_of_le (by omega), leading_of_le hp]

end OpenClaw.Data
