/-
# OpenClaw.Data.Consecutive -- runs of consecutive sequence numbers

`consecutive first count` lists the `count` integers from `first` on.  Senders and receivers of
numbered events state their cursors with it.
-/
import Mathlib.Data.List.Nodup

namespace OpenClaw.Data

/-- The `count` sequence numbers from `first` on. -/
def consecutive (first : Int) (count : Nat) : List Int := (List.range count).map fun (i : Nat) => first + i

/-- A run grows at its end. -/
theorem consecutive_succ (first : Int) (count : Nat) :
    consecutive first (count + 1) = consecutive first count ++ [first + count] := by
  simp [consecutive, List.range_succ]

/-- A run starts with its first number. -/
theorem consecutive_cons (first : Int) (count : Nat) :
    consecutive first (count + 1) = first :: consecutive (first + 1) count := by
  have htail : (List.range count).map ((fun i : Nat => first + i) ∘ Nat.succ)
      = (List.range count).map fun i : Nat => first + 1 + i := by
    refine List.map_congr_left fun i _ => ?_
    show first + ((i + 1 : Nat) : Int) = first + 1 + i
    omega
  rw [consecutive, consecutive, List.range_succ_eq_map, List.map_cons, List.map_map, htail]
  simp

theorem consecutive_nodup (first : Int) (count : Nat) : (consecutive first count).Nodup := by
  refine List.nodup_range.map fun i j hij => ?_
  have : first + (i : Int) = first + (j : Int) := hij
  omega

end OpenClaw.Data
