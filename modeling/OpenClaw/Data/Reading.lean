/-
# OpenClaw.Data.Reading -- reading a text that may go on

A reader that looks at a list from some place either decides before the end of the list, and then decides the same
on every longer list, or runs into the end.  Three readers are enough for hand-written scanners: skipping a run of
elements, reading at most so many of them, and comparing with a literal, which the end can cut short.
-/
import Mathlib.Data.List.Infix
import Mathlib.Data.List.TakeWhile

namespace OpenClaw.Data

variable {α : Type} {p : α → Bool} {text more : List α} {start : Nat}

/-- `text.slice(start, end)` -/
def slice (text : List α) (start stop : Nat) : List α := (text.drop start).take (stop - start)

/-- The place after the run of elements with `p`. -/
def skipWhile (p : α → Bool) (text : List α) (start : Nat) : Nat := start + ((text.drop start).takeWhile p).length

/-- The place after the run, and after at most `limit` elements of it. -/
def runEnd (p : α → Bool) (limit : Nat) (text : List α) (start : Nat) : Nat :=
  start + (((text.drop start).takeWhile p).take limit).length

section Literals

variable [DecidableEq α]

def startsAt (literal text : List α) (start : Nat) : Bool := literal.isPrefixOf (text.drop start)

/-- The text ends inside the literal. -/
def cutAt (literal text : List α) (start : Nat) : Bool :=
  (text.drop start).length < literal.length && (text.drop start).isPrefixOf literal

end Literals

/-! ## Slices -/

theorem drop_append (h : start ≤ text.length) : (text ++ more).drop start = text.drop start ++ more :=
  List.drop_append_of_le_length h

theorem slice_append {stop : Nat} (hstop : stop ≤ text.length) : slice (text ++ more) start stop = slice text start stop := by
  unfold slice
  rcases Nat.le_total start text.length with hstart | hstart
  · rw [drop_append hstart, List.take_append_of_le_length]
    rw [List.length_drop]
    omega
  · have hzero : stop - start = 0 := by omega
    rw [hzero, List.take_zero, List.take_zero]

theorem slice_length (start : Nat) {stop : Nat} (hstop : stop ≤ text.length) : (slice text start stop).length = stop - start := by
  rw [slice, List.length_take, List.length_drop]
  omega

theorem length_takeWhile_le (p : α → Bool) (l : List α) : (l.takeWhile p).length ≤ l.length :=
  (List.takeWhile_prefix p).length_le

theorem takeWhile_append_of_lt {l : List α} (h : (l.takeWhile p).length < l.length) :
    (l ++ more).takeWhile p = l.takeWhile p := by
  rw [List.takeWhile_append, if_neg (Nat.ne_of_lt h)]

theorem takeWhile_prefix_append (p : α → Bool) (more : List α) (l : List α) : l.takeWhile p <+: (l ++ more).takeWhile p := by
  rw [List.takeWhile_append]
  split
  · exact (List.takeWhile_prefix p).trans (List.prefix_append _ _)
  · exact List.prefix_refl _

theorem le_skipWhile (p : α → Bool) (text : List α) (start : Nat) : start ≤ skipWhile p text start := by
  unfold skipWhile
  omega

theorem skipWhile_le (h : start ≤ text.length) : skipWhile p text start ≤ text.length := by
  have hlength := length_takeWhile_le p (text.drop start)
  rw [List.length_drop] at hlength
  unfold skipWhile
  omega

theorem skipWhile_append (h : skipWhile p text start < text.length) :
    skipWhile p (text ++ more) start = skipWhile p text start := by
  have hstart := le_skipWhile p text start
  unfold skipWhile at h ⊢
  rw [drop_append (by omega), takeWhile_append_of_lt]
  rw [List.length_drop]
  omega

theorem skipWhile_eq_length_iff (h : start ≤ text.length) :
    skipWhile p text start = text.length ↔ ∀ x ∈ text.drop start, p x = true := by
  rw [← List.takeWhile_eq_self_iff]
  have hpre := List.takeWhile_prefix (l := text.drop start) p
  constructor
  · intro hend
    apply hpre.eq_of_length
    rw [List.length_drop]
    unfold skipWhile at hend
    omega
  · intro hall
    rw [skipWhile, hall, List.length_drop]
    omega

theorem le_runEnd (p : α → Bool) (limit : Nat) (text : List α) (start : Nat) : start ≤ runEnd p limit text start := by
  unfold runEnd
  omega

theorem runEnd_le {limit : Nat} (h : start ≤ text.length) : runEnd p limit text start ≤ text.length := by
  have hlength := length_takeWhile_le p (text.drop start)
  rw [List.length_drop] at hlength
  rw [runEnd, List.length_take]
  omega

theorem runEnd_le_limit (p : α → Bool) (limit : Nat) (text : List α) (start : Nat) :
    runEnd p limit text start ≤ start + limit := by
  rw [runEnd, List.length_take]
  omega

/-- Where the limit has not stopped the reader the run has ended. -/
theorem skipWhile_of_runEnd {limit : Nat} (h : runEnd p limit text start < start + limit) :
    skipWhile p text start = runEnd p limit text start := by
  rw [runEnd, List.length_take] at h
  rw [skipWhile, runEnd, List.length_take]
  omega

theorem runEnd_append {limit : Nat}
    (h : runEnd p limit text start < text.length ∨ (runEnd p limit text start = start + limit ∧ start ≤ text.length)) :
    runEnd p limit (text ++ more) start = runEnd p limit text start := by
  have hstart : start ≤ text.length := h.elim (fun hlt => (le_runEnd p limit text start).trans hlt.le) (·.2)
  unfold runEnd at h ⊢
  rw [drop_append hstart]
  have hlength := length_takeWhile_le p (text.drop start)
  rw [List.length_drop] at hlength
  rcases Nat.lt_or_ge ((text.drop start).takeWhile p).length (text.drop start).length with hlt | hge
  · rw [takeWhile_append_of_lt hlt]
  · -- the run goes to the end of the text: the limit has stopped the reader
    obtain ⟨tail, htail⟩ := takeWhile_prefix_append p more (text.drop start)
    rw [List.length_drop] at hge
    rw [List.length_take] at h
    rw [← htail, List.take_append_of_le_length]
    omega

theorem slice_runEnd (p : α → Bool) (limit : Nat) (text : List α) (start : Nat) :
    slice text start (runEnd p limit text start) = ((text.drop start).takeWhile p).take limit := by
  have hpre : ((text.drop start).takeWhile p).take limit <+: text.drop start :=
    (List.take_prefix _ _).trans (List.takeWhile_prefix p)
  rw [slice, runEnd, Nat.add_sub_cancel_left]
  exact (List.prefix_iff_eq_take.mp hpre).symm

theorem slice_runEnd_append (p : α → Bool) (limit : Nat) (more : List α) (h : start ≤ text.length) :
    slice text start (runEnd p limit text start) <+:
      slice (text ++ more) start (runEnd p limit (text ++ more) start) := by
  rw [slice_runEnd, slice_runEnd, drop_append h]
  exact (takeWhile_prefix_append _ _ _).take limit

/-! ## Literals -/

section Literals

variable [DecidableEq α] {literal : List α}

theorem startsAt_iff : startsAt literal text start = true ↔ literal <+: text.drop start := by
  simp [startsAt]

theorem startsAt_append (h : startsAt literal text start = true) : startsAt literal (text ++ more) start = true := by
  rw [startsAt_iff] at h ⊢
  rcases Nat.le_total start text.length with hstart | hstart
  · rw [drop_append hstart]
    exact h.trans (List.prefix_append _ _)
  · rw [List.drop_of_length_le hstart, List.prefix_nil] at h
    rw [h]
    exact List.nil_prefix

theorem startsAt_length (h : startsAt literal text start = true) (hne : literal ≠ []) :
    start + literal.length ≤ text.length := by
  have hlength := (Iff.mp startsAt_iff h).length_le
  have hpos := List.length_pos_iff.mpr hne
  rw [List.length_drop] at hlength
  omega

/-- A text that differs from the literal before it ends goes on differing. -/
theorem startsAt_append_of_not (more : List α) (hstart : start ≤ text.length) (hno : startsAt literal text start = false)
    (hcut : cutAt literal text start = false) :
    startsAt literal (text ++ more) start = false ∧ cutAt literal (text ++ more) start = false := by
  have hno' : ¬literal <+: text.drop start := by
    rw [← startsAt_iff, hno]
    nofun
  have hcut' : ¬text.drop start <+: literal := by
    intro hpre
    rcases Nat.lt_or_ge (text.drop start).length literal.length with hlt | hge
    · have hyes : cutAt literal text start = true :=
        Bool.and_eq_true_iff.mpr ⟨decide_eq_true hlt, List.isPrefixOf_iff_prefix.mpr hpre⟩
      rw [hcut] at hyes
      cases hyes
    · exact hno' (hpre.eq_of_length_le hge ▸ List.prefix_refl _)
  constructor
  · rw [← Bool.not_eq_true, startsAt_iff, drop_append hstart]
    intro hpre
    rcases List.prefix_or_prefix_of_prefix hpre (List.prefix_append _ _) with hleft | hright
    · exact hno' hleft
    · exact hcut' hright
  · rw [← Bool.not_eq_true]
    intro hpre
    obtain ⟨-, hpre⟩ := Bool.and_eq_true_iff.mp hpre
    rw [drop_append hstart, List.isPrefixOf_iff_prefix] at hpre
    exact hcut' ((List.prefix_append _ _).trans hpre)

/-- A text with another element at a place has neither the literal there nor a part of it. -/
theorem startsAt_of_head_ne (rest : List α) {x y : α} (hx : text[start]? = some x) (hne : y ≠ x) :
    startsAt (y :: rest) text start = false ∧ cutAt (y :: rest) text start = false := by
  have hdrop : text.drop start = x :: text.drop (start + 1) := by
    obtain ⟨hlt, rfl⟩ := List.getElem?_eq_some_iff.mp hx
    exact List.drop_eq_getElem_cons hlt
  unfold startsAt cutAt
  rw [hdrop]
  simp [List.isPrefixOf, hne, Ne.symm hne]

theorem cutAt_end (hne : literal ≠ []) (h : text.length ≤ start) : cutAt literal text start = true := by
  have hpos := List.length_pos_iff.mpr hne
  simp [cutAt, List.drop_of_length_le h, hpos]

end Literals

end OpenClaw.Data
