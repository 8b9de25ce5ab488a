/-
# OpenClaw.Data.RangeSweep -- ranges opened and closed along a line

A sweep goes over the points of a line.  At each point it closes what stands on top of its stack and ends
there, opens the ranges that begin there, and writes the text up to the next point.  `WellNested` pieces open
and close like brackets, every range at its own start and its own end.  The pieces of a sweep are well nested
exactly when no two ranges cross.
-/
import Mathlib.Data.List.Perm.Basic
import Mathlib.Data.List.Pairwise
import Mathlib.Data.List.TakeWhile
import Mathlib.Order.Basic
import Mathlib.Tactic.Common

namespace OpenClaw.Data

variable {ι : Type} (first last : ι → Nat)

inductive Piece (ι : Type) where
  | opens (range : ι)
  | closes (range : ι)
  | text (start stop : Nat)

/-- From a point and a stack of open ranges, the pieces lead to the point `stop` with all of them closed. -/
inductive WellNested : Nat → List ι → List (Piece ι) → Nat → Prop where
  | done (pos : Nat) : WellNested pos [] [] pos
  | text {pos next stop : Nat} {stack : List ι} {rest : List (Piece ι)} (hlt : pos < next)
      (h : WellNested next stack rest stop) : WellNested pos stack (.text pos next :: rest) stop
  | opens {range : ι} {stop : Nat} {stack : List ι} {rest : List (Piece ι)}
      (h : WellNested (first range) (range :: stack) rest stop) :
      WellNested (first range) stack (.opens range :: rest) stop
  | closes {range : ι} {stop : Nat} {stack : List ι} {rest : List (Piece ι)}
      (h : WellNested (last range) stack rest stop) :
      WellNested (last range) (range :: stack) (.closes range :: rest) stop

/-- `a` begins first and ends inside `b`. -/
def Crosses (a b : ι) : Prop := first a < first b ∧ first b < last a ∧ last a < last b

/-- The ranges that pieces open, in order. -/
def opened (pieces : List (Piece ι)) : List ι :=
  pieces.filterMap fun
    | .opens range => some range
    | _ => none

/-- The parts of the line that pieces write, in order. -/
def texts (pieces : List (Piece ι)) : List (Nat × Nat) :=
  pieces.filterMap fun
    | .text start stop => some (start, stop)
    | _ => none

@[simp] theorem opened_opens (range : ι) (rest : List (Piece ι)) :
    opened (.opens range :: rest) = range :: opened rest := rfl

@[simp] theorem opened_closes (range : ι) (rest : List (Piece ι)) : opened (.closes range :: rest) = opened rest := rfl

theorem opened_append (front back : List (Piece ι)) : opened (front ++ back) = opened front ++ opened back :=
  List.filterMap_append

theorem texts_append (front back : List (Piece ι)) : texts (front ++ back) = texts front ++ texts back :=
  List.filterMap_append

theorem opened_map_opens (ranges : List ι) : opened (ranges.map Piece.opens) = ranges := by
  induction ranges with
  | nil => rfl
  | cons range ranges ih => rw [List.map_cons, opened_opens, ih]

theorem opened_map_closes (ranges : List ι) : opened (ranges.map Piece.closes) = [] := by
  induction ranges with
  | nil => rfl
  | cons range ranges ih => rw [List.map_cons, opened_closes, ih]

/-! ## Well nested ranges do not cross -/

section Nested

variable {first last} {pos stop : Nat} {stack : List ι} {pieces : List (Piece ι)}

/-- What is open ends later, and what was opened last ends first. -/
theorem WellNested.stack_ends (h : WellNested first last pos stack pieces stop) :
    (∀ range ∈ stack, pos ≤ last range) ∧ stack.Pairwise (last · ≤ last ·) := by
  induction h with
  | done pos => exact ⟨fun range hrange => absurd hrange List.not_mem_nil, .nil⟩
  | text hlt h ih => exact ⟨fun range hrange => Nat.le_trans (Nat.le_of_lt hlt) (ih.1 range hrange), ih.2⟩
  | opens h ih => exact ⟨fun range hrange => ih.1 range (List.mem_cons_of_mem _ hrange), ih.2.of_cons⟩
  | closes h ih =>
    refine ⟨fun range hrange => ?_, List.pairwise_cons.mpr ⟨ih.1, ih.2⟩⟩
    rcases List.mem_cons.mp hrange with rfl | hrange
    · exact Nat.le_refl _
    · exact ih.1 range hrange

theorem WellNested.le_first (h : WellNested first last pos stack pieces stop)
    (hle : ∀ range ∈ opened pieces, first range ≤ last range) : ∀ range ∈ opened pieces, pos ≤ first range := by
  induction h with
  | done pos => exact fun range hrange => absurd hrange List.not_mem_nil
  | text hlt h ih => exact fun range hrange => Nat.le_trans (Nat.le_of_lt hlt) (ih hle range hrange)
  | opens h ih =>
    intro range hrange
    rcases List.mem_cons.mp hrange with rfl | hrange
    · exact Nat.le_refl _
    · exact ih (fun range hrange => hle range (List.mem_cons_of_mem _ hrange)) range hrange
  | closes h ih => exact ih hle

/-- **Well nested ranges do not cross**: those opened later lie inside or behind the open ones. -/
theorem WellNested.not_crosses (h : WellNested first last pos stack pieces stop)
    (hle : ∀ range ∈ opened pieces, first range ≤ last range) :
    (∀ a ∈ stack, ∀ b ∈ opened pieces, last a ≤ first b ∨ last b ≤ last a) ∧
      ∀ a ∈ opened pieces, ∀ b ∈ opened pieces, ¬ Crosses first last a b := by
  induction h with
  | done pos => refine ⟨fun a ha => absurd ha List.not_mem_nil, fun a ha => absurd ha List.not_mem_nil⟩
  | text hlt h ih => exact ih hle
  | @opens range stop stack rest h ih =>
    have hrest : ∀ range ∈ opened rest, first range ≤ last range :=
      fun range hrange => hle range (List.mem_cons_of_mem _ hrange)
    obtain ⟨hstack, hopened⟩ := ih hrest
    have hends := (List.pairwise_cons.mp h.stack_ends.2).1
    have hfirst := h.le_first hrest
    have hinside := hstack range List.mem_cons_self
    constructor
    · intro a ha b hb
      rcases List.mem_cons.mp hb with rfl | hb
      · exact .inr (hends a ha)
      · exact hstack a (List.mem_cons_of_mem _ ha) b hb
    · intro a ha b hb hcross
      rcases List.mem_cons.mp ha with rfl | ha' <;> rcases List.mem_cons.mp hb with rfl | hb'
      · exact absurd hcross.1 (Nat.lt_irrefl _)
      · have := hinside b hb'
        have := hcross.2
        omega
      · exact absurd hcross.1 (Nat.not_lt.mpr (hfirst a ha'))
      · exact hopened a ha' b hb' hcross
  | @closes range stop stack rest h ih =>
    obtain ⟨hstack, hopened⟩ := ih hle
    refine ⟨fun a ha b hb => ?_, hopened⟩
    rcases List.mem_cons.mp ha with rfl | ha
    · exact .inl (h.le_first hle b hb)
    · exact hstack a ha b hb

end Nested

/-! ## The sweep -/

variable (opening : Nat → List ι)

/-- The pieces of a sweep over points. -/
def sweep : List Nat → List ι → List (Piece ι)
  | [], _ => []
  | pos :: rest, stack =>
    (stack.takeWhile (last · = pos)).map .closes ++ ((opening pos).map .opens ++
      ((rest.head?.map (Piece.text pos ·)).toList ++
        sweep rest ((opening pos).reverse ++ stack.dropWhile (last · = pos))))

variable {first last opening}

/-- A sweep opens what begins at its points. -/
theorem opened_sweep {points : List Nat} : ∀ {stack : List ι},
    opened (sweep last opening points stack) = points.flatMap opening := by
  induction points with
  | nil =>
    intro stack
    rfl
  | cons pos rest ih =>
    intro stack
    have htext : opened ((rest.head?.map (Piece.text (ι := ι) pos ·)).toList) = [] := by
      cases rest.head? <;> rfl
    rw [sweep, opened_append, opened_append, opened_append, opened_map_closes, opened_map_opens, htext, ih,
      List.nil_append, List.nil_append, List.flatMap_cons]

/-- A sweep writes the line from point to point. -/
theorem texts_sweep {points : List Nat} : ∀ {stack : List ι},
    texts (sweep last opening points stack) = points.zip points.tail := by
  induction points with
  | nil =>
    intro stack
    rfl
  | cons pos rest ih =>
    intro stack
    have hcloses : texts ((stack.takeWhile (last · = pos)).map Piece.closes) = [] := by
      induction stack.takeWhile (last · = pos) with
      | nil => rfl
      | cons range ranges ih => exact ih
    have hopens : texts ((opening pos).map Piece.opens) = [] := by
      induction opening pos with
      | nil => rfl
      | cons range ranges ih => exact ih
    rw [sweep, texts_append, texts_append, texts_append, hcloses, hopens, ih, List.nil_append, List.nil_append]
    cases rest with
    | nil => rfl
    | cons next rest => rfl

/-! ## Ranges that do not cross are well nested -/

/-- What opens at the points: ranges that begin there, the longest first, each with its end among the points. -/
structure Opens (first last : ι → Nat) (opening : Nat → List ι) (ranges : List ι) (points : List Nat) : Prop where
  mem : ∀ pos ∈ points, ∀ range ∈ opening pos, range ∈ ranges
  first_eq : ∀ pos ∈ points, ∀ range ∈ opening pos, first range = pos
  nonempty : ∀ pos ∈ points, ∀ range ∈ opening pos, pos < last range
  last_mem : ∀ pos ∈ points, ∀ range ∈ opening pos, last range ∈ points
  longest : ∀ pos ∈ points, (opening pos).Pairwise (last · ≥ last ·)

theorem Opens.tail {ranges : List ι} {pos : Nat} {rest : List Nat} (h : Opens first last opening ranges (pos :: rest))
    (hsorted : (pos :: rest).Pairwise (· < ·)) : Opens first last opening ranges rest where
  mem p hp := h.mem p (List.mem_cons_of_mem _ hp)
  first_eq p hp := h.first_eq p (List.mem_cons_of_mem _ hp)
  nonempty p hp := h.nonempty p (List.mem_cons_of_mem _ hp)
  longest p hp := h.longest p (List.mem_cons_of_mem _ hp)
  last_mem p hp range hrange := by
    have hlt := (List.pairwise_cons.mp hsorted).1 p hp
    have hlast := h.nonempty p (List.mem_cons_of_mem _ hp) range hrange
    rcases List.mem_cons.mp (h.last_mem p (List.mem_cons_of_mem _ hp) range hrange) with heq | hrest
    · omega
    · exact hrest

theorem wellNested_closes {pos stop : Nat} {stack : List ι} {pieces : List (Piece ι)}
    (h : WellNested first last pos stack pieces stop) : ∀ {closed : List ι}, (∀ range ∈ closed, last range = pos) →
      WellNested first last pos (closed ++ stack) (closed.map .closes ++ pieces) stop := by
  intro closed
  induction closed with
  | nil => exact fun _ => h
  | cons range closed ih =>
    intro hclosed
    obtain ⟨hrange, hrest⟩ := List.forall_mem_cons.mp hclosed
    have hinner := ih hrest
    rw [← hrange] at hinner
    rw [← hrange]
    exact .closes hinner

theorem wellNested_opens {pos stop : Nat} {pieces : List (Piece ι)} : ∀ {ranges stack : List ι},
    (∀ range ∈ ranges, first range = pos) → WellNested first last pos (ranges.reverse ++ stack) pieces stop →
      WellNested first last pos stack (ranges.map .opens ++ pieces) stop := by
  intro ranges
  induction ranges with
  | nil => exact fun _ h => h
  | cons range ranges ih =>
    intro stack hranges h
    obtain ⟨hrange, hrest⟩ := List.forall_mem_cons.mp hranges
    rw [List.reverse_cons, List.append_assoc, List.singleton_append] at h
    have hinner := ih hrest h
    rw [← hrange] at hinner
    rw [← hrange]
    exact .opens hinner

/-- What stays on a sorted stack ends later. -/
theorem lt_of_mem_dropWhile {pos : Nat} : ∀ {stack : List ι}, stack.Pairwise (last · ≤ last ·) →
    (∀ range ∈ stack, pos ≤ last range) → ∀ range ∈ stack.dropWhile (last · = pos), pos < last range := by
  intro stack
  induction stack with
  | nil => exact fun _ _ range hrange => absurd hrange List.not_mem_nil
  | cons top stack ih =>
    intro hsorted hle range hrange
    obtain ⟨htop, hrest⟩ := List.pairwise_cons.mp hsorted
    rw [List.dropWhile_cons] at hrange
    split at hrange
    · exact ih hrest (fun range hrange => hle range (List.mem_cons_of_mem _ hrange)) range hrange
    · rename_i hne
      have hlt : pos < last top := Nat.lt_of_le_of_ne (hle top List.mem_cons_self) fun h => hne (decide_eq_true h.symm)
      rcases List.mem_cons.mp hrange with rfl | hrange
      · exact hlt
      · exact Nat.lt_of_lt_of_le hlt (htop range hrange)

/-- The stack in front of a point: ranges that began before it and end at it or later, the shortest on top. -/
structure Stacked (first last : ι → Nat) (ranges : List ι) (points : List Nat) (pos : Nat) (stack : List ι) :
    Prop where
  mem : ∀ range ∈ stack, range ∈ ranges
  first_lt : ∀ range ∈ stack, first range < pos
  last_mem : ∀ range ∈ stack, last range ∈ points
  sorted : stack.Pairwise (last · ≤ last ·)

/-- What is on the stack behind a point. -/
def stackBehind (last : ι → Nat) (opening : Nat → List ι) (pos : Nat) (stack : List ι) : List ι :=
  (opening pos).reverse ++ stack.dropWhile (last · = pos)

/-- **One point of the sweep**: when no ranges cross, the stack stays sorted, and what it has left ends later. -/
theorem Stacked.step {ranges : List ι} (hcross : ∀ a ∈ ranges, ∀ b ∈ ranges, ¬ Crosses first last a b) {pos : Nat}
    {rest : List Nat} {stack : List ι} (hsorted : (pos :: rest).Pairwise (· < ·))
    (hopens : Opens first last opening ranges (pos :: rest)) (h : Stacked first last ranges (pos :: rest) pos stack) :
    (∀ range ∈ stackBehind last opening pos stack, range ∈ ranges ∧ first range ≤ pos ∧ last range ∈ rest) ∧
      (stackBehind last opening pos stack).Pairwise (last · ≤ last ·) := by
  have hle : ∀ range ∈ stack, pos ≤ last range := by
    intro range hrange
    rcases List.mem_cons.mp (h.last_mem range hrange) with heq | hrest
    · exact Nat.le_of_eq heq.symm
    · exact Nat.le_of_lt ((List.pairwise_cons.mp hsorted).1 _ hrest)
  have hlater := lt_of_mem_dropWhile h.sorted hle
  have hkept : ∀ range ∈ stack.dropWhile (last · = pos), range ∈ stack := List.dropWhile_subset _
  have hhere := hopens.first_eq pos List.mem_cons_self
  have hends := hopens.nonempty pos List.mem_cons_self
  have hbehind {range : ι} (hmem : last range ∈ pos :: rest) (hlt : pos < last range) : last range ∈ rest := by
    rcases List.mem_cons.mp hmem with heq | hrest
    · omega
    · exact hrest
  constructor
  · intro range hrange
    rcases List.mem_append.mp hrange with hnew | hold
    · rw [List.mem_reverse] at hnew
      exact ⟨hopens.mem pos List.mem_cons_self range hnew, Nat.le_of_eq (hhere range hnew),
        hbehind (hopens.last_mem pos List.mem_cons_self range hnew) (hends range hnew)⟩
    · exact ⟨h.mem range (hkept range hold), Nat.le_of_lt (h.first_lt range (hkept range hold)),
        hbehind (h.last_mem range (hkept range hold)) (hlater range hold)⟩
  · refine List.pairwise_append.mpr ⟨List.pairwise_reverse.mpr (hopens.longest pos List.mem_cons_self),
      h.sorted.sublist (List.dropWhile_sublist _), ?_⟩
    intro new hnew old hold
    rw [List.mem_reverse] at hnew
    by_contra hlonger
    refine hcross old (h.mem old (hkept old hold)) new (hopens.mem pos List.mem_cons_self new hnew) ⟨?_, ?_, ?_⟩
    · rw [hhere new hnew]
      exact h.first_lt old (hkept old hold)
    · rw [hhere new hnew]
      exact hlater old hold
    · exact Nat.not_le.mp hlonger

/-- The closings and openings of a point lead to the stack behind it. -/
theorem wellNested_point {pos stop : Nat} {stack : List ι} {pieces : List (Piece ι)}
    (hfirst : ∀ range ∈ opening pos, first range = pos)
    (h : WellNested first last pos (stackBehind last opening pos stack) pieces stop) : WellNested first last pos stack
      ((stack.takeWhile (last · = pos)).map .closes ++ ((opening pos).map .opens ++ pieces)) stop := by
  have hopened := wellNested_opens hfirst h
  have hclosed : ∀ range ∈ stack.takeWhile (last · = pos), last range = pos := by
    intro range hrange
    simpa using List.mem_takeWhile_imp hrange
  have hpoint := wellNested_closes hopened hclosed
  rwa [List.takeWhile_append_dropWhile] at hpoint

/-- **A sweep over ranges that do not cross is well nested.** -/
theorem sweep_wellNested {ranges : List ι} (hcross : ∀ a ∈ ranges, ∀ b ∈ ranges, ¬ Crosses first last a b)
    {stop : Nat} : ∀ {rest : List Nat} {pos : Nat} {stack : List ι}, (pos :: rest).Pairwise (· < ·) →
      Opens first last opening ranges (pos :: rest) → Stacked first last ranges (pos :: rest) pos stack →
      (pos :: rest).getLast? = some stop →
      WellNested first last pos stack (sweep last opening (pos :: rest) stack) stop := by
  intro rest
  induction rest with
  | nil =>
    intro pos stack hsorted hopens hstacked hstop
    obtain rfl : pos = stop := Option.some.inj hstop
    obtain ⟨hbehind, -⟩ := hstacked.step hcross hsorted hopens
    -- nothing ends behind the last point
    have hempty : stackBehind last opening pos stack = [] := by
      apply List.eq_nil_iff_forall_not_mem.mpr
      intro range hrange
      exact absurd (hbehind range hrange).2.2 List.not_mem_nil
    have hend : WellNested first last pos (stackBehind last opening pos stack) [] pos := by
      rw [hempty]
      exact .done pos
    exact wellNested_point (hopens.first_eq pos List.mem_cons_self) hend
  | cons next rest ih =>
    intro pos stack hsorted hopens hstacked hstop
    obtain ⟨hbehind, hstack⟩ := hstacked.step hcross hsorted hopens
    obtain ⟨hlater, hsortedRest⟩ := List.pairwise_cons.mp hsorted
    have hlt : pos < next := hlater next List.mem_cons_self
    have hnext : Stacked first last ranges (next :: rest) next (stackBehind last opening pos stack) :=
      ⟨fun range hrange => (hbehind range hrange).1,
        fun range hrange => Nat.lt_of_le_of_lt (hbehind range hrange).2.1 hlt,
        fun range hrange => (hbehind range hrange).2.2, hstack⟩
    have hrest := ih hsortedRest (hopens.tail hsorted) hnext (by rwa [List.getLast?_cons_cons] at hstop)
    exact wellNested_point (hopens.first_eq pos List.mem_cons_self) (.text hlt hrest)

/-- **Exactly then.** -/
theorem sweep_wellNested_iff {ranges : List ι} {rest : List Nat} {pos stop : Nat}
    (hsorted : (pos :: rest).Pairwise (· < ·)) (hopens : Opens first last opening ranges (pos :: rest))
    (hall : ∀ range ∈ ranges, first range ∈ pos :: rest ∧ range ∈ opening (first range))
    (hstop : (pos :: rest).getLast? = some stop) :
    WellNested first last pos [] (sweep last opening (pos :: rest) []) stop ↔
      ∀ a ∈ ranges, ∀ b ∈ ranges, ¬ Crosses first last a b := by
  constructor
  · intro h a ha b hb
    have hopened {range : ι} (hrange : range ∈ ranges) :
        range ∈ opened (sweep last opening (pos :: rest) []) := by
      rw [opened_sweep]
      exact List.mem_flatMap.mpr ⟨first range, (hall range hrange).1, (hall range hrange).2⟩
    refine (h.not_crosses ?_).2 a (hopened ha) b (hopened hb)
    intro range hrange
    rw [opened_sweep] at hrange
    obtain ⟨p, hp, hrange⟩ := List.mem_flatMap.mp hrange
    rw [hopens.first_eq p hp range hrange]
    exact Nat.le_of_lt (hopens.nonempty p hp range hrange)
  · intro hcross
    refine sweep_wellNested hcross hsorted hopens ?_ hstop
    exact ⟨fun range hrange => absurd hrange List.not_mem_nil, fun range hrange => absurd hrange List.not_mem_nil,
      fun range hrange => absurd hrange List.not_mem_nil, .nil⟩

end OpenClaw.Data
