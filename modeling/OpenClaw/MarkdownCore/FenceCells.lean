/-
# OpenClaw.MarkdownCore.FenceCells -- a buffer as characters inside and outside of fences

The fence spans of a buffer say of every character whether it is in a fence.  `fenceCells` computes the same line
by line from the open fence alone, without offsets (`scanFenceSpans_cells`), and so it can be cut between two
lines, and inside of a line that is no fence line (`fenceCells_append`).
-/
import Mathlib.Data.List.Chain
import Mathlib.Tactic.Common
import OpenClaw.MarkdownCore.CodeSpans

namespace OpenClaw.MarkdownCore

open OpenClaw.Data

/-! ## Lines without offsets -/

/-- The fence that is open behind a line. -/
def fenceStep (atLineStart : Bool) (opener : Option FenceOpener) (raw : JsString) : Option FenceOpener :=
  (scanFenceLine 0 atLineStart (opener.map fun opener => (0, opener)) raw).2.map Prod.snd

/-- A line that opens or closes a fence is inside of it. -/
def lineInside (atLineStart : Bool) (opener : Option FenceOpener) (raw : JsString) : Bool :=
  opener.isSome || (fenceStep atLineStart opener raw).isSome

/-- A character and whether it is inside of a fence. -/
abbrev Cell := CodeUnit × Bool

/-- The characters of the lines and of the newlines between them, and the fence that is open behind them. -/
def fenceCells : Bool → Option FenceOpener → List JsString → List Cell × Option FenceOpener
  | _, opener, [] => ([], opener)
  | atLineStart, opener, [raw] =>
    (raw.map fun unit => (unit, lineInside atLineStart opener raw), fenceStep atLineStart opener raw)
  | atLineStart, opener, raw :: next :: rest =>
    let after := fenceStep atLineStart opener raw
    let scanned := fenceCells true after (next :: rest)
    ((raw.map fun unit => (unit, lineInside atLineStart opener raw)) ++ (newline, after.isSome) :: scanned.1, scanned.2)

/-- A text with what a predicate says of the indexes from `i` on. -/
def cellsFrom (inside : Nat → Bool) : Nat → JsString → List Cell
  | _, [] => []
  | i, unit :: rest => (unit, inside i) :: cellsFrom inside (i + 1) rest

/-! ## One line -/

section Line

variable {found : FenceLine} {raw : JsString}

theorem scanFenceLine_plain (h : matchFenceLine (dropReturn raw) = none) (offset : Nat) (atLineStart : Bool)
    (opened : Option (Nat × FenceOpener)) : scanFenceLine offset atLineStart opened raw = (none, opened) := by
  simp only [scanFenceLine, h]

theorem scanFenceLine_midLine (offset : Nat) (opened : Option (Nat × FenceOpener)) :
    scanFenceLine offset false opened raw = (none, opened) := by
  unfold scanFenceLine
  dsimp only
  split
  · rfl
  · rfl

variable (h : matchFenceLine (dropReturn raw) = some found)
include h

theorem scanFenceLine_opens (offset : Nat) : scanFenceLine offset true none raw =
      (none, some (offset, ⟨found.marker.take 1, found.marker.length, dropReturn raw, found.marker, found.indent⟩)) := by
  simp [scanFenceLine, h]

theorem scanFenceLine_closes {opener : FenceOpener} (hclose : closesFence opener found = true) (offset start : Nat) :
    scanFenceLine offset true (some (start, opener)) raw =
      (some ⟨start, offset + raw.length, opener.openLine, opener.marker, opener.indent⟩, none) := by
  simp [scanFenceLine, h, hclose]

theorem scanFenceLine_content {opener : FenceOpener} (hclose : ¬ closesFence opener found = true) (offset start : Nat) :
    scanFenceLine offset true (some (start, opener)) raw = (none, some (start, opener)) := by
  simp [scanFenceLine, h, hclose]

end Line

/-- **What one line can do**: nothing, open a fence at its own offset, or close the open one at its end. -/
theorem scanFenceLine_cases (offset : Nat) (atLineStart : Bool) (opened : Option (Nat × FenceOpener)) (raw : JsString) :
    (scanFenceLine offset atLineStart opened raw = (none, opened) ∧
        fenceStep atLineStart (opened.map Prod.snd) raw = opened.map Prod.snd) ∨
      (∃ opener, opened = none ∧ scanFenceLine offset atLineStart opened raw = (none, some (offset, opener)) ∧
        fenceStep atLineStart none raw = some opener) ∨ ∃ start opener span, opened = some (start, opener) ∧
        scanFenceLine offset atLineStart opened raw = (some span, none) ∧ span.start = start ∧
        span.stop = offset + raw.length ∧ fenceStep atLineStart (some opener) raw = none := by
  have hkept : ((opened.map Prod.snd).map fun opener => ((0 : Nat), opener)).map Prod.snd = opened.map Prod.snd := by
    cases opened with
    | none => rfl
    | some pair => rfl
  cases hmatch : matchFenceLine (dropReturn raw) with
  | none =>
    left
    refine ⟨scanFenceLine_plain hmatch _ _ _, ?_⟩
    rw [fenceStep, scanFenceLine_plain hmatch, hkept]
  | some found =>
    cases atLineStart with
    | false =>
      left
      refine ⟨scanFenceLine_midLine _ _, ?_⟩
      rw [fenceStep, scanFenceLine_midLine, hkept]
    | true =>
      cases opened with
      | none =>
        right; left
        refine ⟨_, rfl, scanFenceLine_opens hmatch offset, ?_⟩
        rw [fenceStep, Option.map_none, scanFenceLine_opens hmatch]
        rfl
      | some pair =>
        obtain ⟨start, opener⟩ := pair
        by_cases hclose : closesFence opener found = true
        · right; right
          refine ⟨start, opener, _, rfl, scanFenceLine_closes hmatch hclose offset start, rfl, rfl, ?_⟩
          rw [fenceStep, Option.map_some, scanFenceLine_closes hmatch hclose]
          rfl
        · left
          refine ⟨scanFenceLine_content hmatch hclose offset start, ?_⟩
          rw [fenceStep, Option.map_some, Option.map_some, scanFenceLine_content hmatch hclose]
          rfl

/-- The open fence behind a line, without its start. -/
theorem scanFenceLine_opener (offset : Nat) (atLineStart : Bool) (opened : Option (Nat × FenceOpener))
    (raw : JsString) :
    (scanFenceLine offset atLineStart opened raw).2.map Prod.snd = fenceStep atLineStart (opened.map Prod.snd) raw := by
  rcases scanFenceLine_cases offset atLineStart opened raw with
    ⟨hline, hstep⟩ | ⟨opener, rfl, hline, hstep⟩ | ⟨start, opener, span, rfl, hline, -, -, hstep⟩
  · rw [hline, hstep]
  · rw [hline, Option.map_none, hstep]
    rfl
  · rw [hline, Option.map_some, hstep]
    rfl

/-- It began in front of the next line. -/
theorem scanFenceLine_start {offset : Nat} {atLineStart : Bool} {opened : Option (Nat × FenceOpener)} {raw : JsString}
    (h : ∀ pair ∈ opened, pair.1 ≤ offset) :
    ∀ pair ∈ (scanFenceLine offset atLineStart opened raw).2, pair.1 ≤ offset := by
  rcases scanFenceLine_cases offset atLineStart opened raw with
    ⟨hline, -⟩ | ⟨opener, rfl, hline, -⟩ | ⟨start, opener, span, rfl, hline, -, -, -⟩
  · rw [hline]
    exact h
  · rw [hline]
    intro pair hpair
    obtain rfl := Option.some.inj hpair
    exact Nat.le_refl _
  · rw [hline]
    intro pair hpair
    cases hpair

/-! ## All spans of a buffer -/

theorem isInsideFenceSpan_append (i : Nat) (front back : List FenceSpan) :
    isInsideFenceSpan i (front ++ back) = (isInsideFenceSpan i front || isInsideFenceSpan i back) := List.any_append

/-- The spans of the lines, with the one that is open at the end of the buffer. -/
def spansOf (length offset : Nat) (atLineStart : Bool) (opened : Option (Nat × FenceOpener)) (lines : List JsString) :
    List FenceSpan :=
  let scanned := scanFenceLines offset atLineStart opened lines
  scanned.1 ++ lastSpan length scanned.2

theorem spansOf_cons (length offset : Nat) (atLineStart : Bool) (opened : Option (Nat × FenceOpener)) (raw : JsString)
    (rest : List JsString) : spansOf length offset atLineStart opened (raw :: rest) =
      (scanFenceLine offset atLineStart opened raw).1.toList ++
        spansOf length (offset + raw.length + 1) true (scanFenceLine offset atLineStart opened raw).2 rest := by
  simp [spansOf, scanFenceLines]

/-- In front of the lines a character is in a fence if it is in the open one. -/
theorem inside_before {length i : Nat} (hi : i < length) (lines : List JsString) :
    ∀ {offset atLineStart opened}, i < offset → isInsideFenceSpan i (spansOf length offset atLineStart opened lines) =
        opened.any fun pair => pair.1 ≤ i := by
  induction lines with
  | nil =>
    intro offset atLineStart opened _
    cases opened with
    | none => rfl
    | some pair => simp [spansOf, scanFenceLines, lastSpan, isInsideFenceSpan, hi]
  | cons raw rest ih =>
    intro offset atLineStart opened hoffset
    have hnext : i < offset + raw.length + 1 := by omega
    rw [spansOf_cons, isInsideFenceSpan_append]
    rcases scanFenceLine_cases offset atLineStart opened raw with
      ⟨hline, -⟩ | ⟨opener, rfl, hline, -⟩ | ⟨start, opener, span, rfl, hline, hstart, hstop, -⟩
    · rw [hline, ih hnext]
      rfl
    · rw [hline, ih hnext]
      have hlate : ¬ offset ≤ i := by omega
      simp [isInsideFenceSpan, hlate]
    · have hearly : i < offset + raw.length := by omega
      rw [hline, ih hnext]
      simp [isInsideFenceSpan, hstart, hstop, hearly]

/-- Inside of a line, and on its newline. -/
theorem inside_line {length offset i : Nat} {atLineStart : Bool} {opened : Option (Nat × FenceOpener)} {raw : JsString}
    {rest : List JsString} (hstart : ∀ pair ∈ opened, pair.1 ≤ offset) (hlength : i < length) (hoffset : offset ≤ i)
    (hi : i ≤ offset + raw.length) : isInsideFenceSpan i (spansOf length offset atLineStart opened (raw :: rest)) =
      if i < offset + raw.length then lineInside atLineStart (opened.map Prod.snd) raw
      else (fenceStep atLineStart (opened.map Prod.snd) raw).isSome := by
  have hnext : i < offset + raw.length + 1 := by omega
  rw [spansOf_cons, isInsideFenceSpan_append]
  rcases scanFenceLine_cases offset atLineStart opened raw with
    ⟨hline, hstep⟩ | ⟨opener, rfl, hline, hstep⟩ | ⟨start, opener, span, rfl, hline, hspan, hstop, hstep⟩
  · rw [hline, inside_before hlength rest hnext, lineInside, hstep, Bool.or_self, ite_self]
    cases opened with
    | none => rfl
    | some pair =>
      have := hstart pair rfl
      simp [isInsideFenceSpan]
      omega
  · rw [hline, inside_before hlength rest hnext, lineInside]
    simp [isInsideFenceSpan, hstep, hoffset]
  · have hbefore : start ≤ i := Nat.le_trans (hstart _ rfl) hoffset
    rw [hline, inside_before hlength rest hnext, lineInside]
    simp [isInsideFenceSpan, hstep, hspan, hstop, hbefore]

/-- Behind a line only the rest counts. -/
theorem inside_after {length offset i : Nat} {atLineStart : Bool} {opened : Option (Nat × FenceOpener)} {raw : JsString}
    {rest : List JsString} (hi : offset + raw.length < i) :
    isInsideFenceSpan i (spansOf length offset atLineStart opened (raw :: rest)) = isInsideFenceSpan i
        (spansOf length (offset + raw.length + 1) true (scanFenceLine offset atLineStart opened raw).2 rest) := by
  rw [spansOf_cons, isInsideFenceSpan_append]
  rcases scanFenceLine_cases offset atLineStart opened raw with
    ⟨hline, -⟩ | ⟨opener, rfl, hline, -⟩ | ⟨start, opener, span, rfl, hline, -, hstop, -⟩
  · rw [hline]
    rfl
  · rw [hline]
    rfl
  · have hlate : ¬ i < offset + raw.length := by omega
    rw [hline]
    simp [isInsideFenceSpan, hstop, hlate]

/-! ## Cells -/

theorem cellsFrom_append (inside : Nat → Bool) (front back : JsString) : ∀ i,
    cellsFrom inside i (front ++ back) = cellsFrom inside i front ++ cellsFrom inside (i + front.length) back := by
  induction front with
  | nil =>
    intro i
    rfl
  | cons unit front ih =>
    intro i
    rw [List.cons_append, cellsFrom, ih, List.length_cons, Nat.add_right_comm i 1, Nat.add_assoc i]
    rfl

theorem cellsFrom_congr {inside inside' : Nat → Bool} (text : JsString) : ∀ {i},
    (∀ j, i ≤ j → j < i + text.length → inside j = inside' j) → cellsFrom inside i text = cellsFrom inside' i text := by
  induction text with
  | nil =>
    intro i _
    rfl
  | cons unit text ih =>
    intro i h
    rw [List.length_cons] at h
    rw [cellsFrom, cellsFrom, h i (Nat.le_refl i) (by omega), ih fun j hj hlt => h j (by omega) (by omega)]

theorem cellsFrom_const {inside : Nat → Bool} {value : Bool} (text : JsString) {i : Nat}
    (h : ∀ j, i ≤ j → j < i + text.length → inside j = value) :
    cellsFrom inside i text = text.map fun unit => (unit, value) := by
  rw [cellsFrom_congr text h]
  clear h
  induction text generalizing i with
  | nil => rfl
  | cons unit text ih => rw [cellsFrom, ih, List.map_cons]

/-- The spans say of every character what the cells do. -/
theorem cellsFrom_spansOf (lines : List JsString) : ∀ {length offset atLineStart opened}, lines ≠ [] →
    (∀ pair ∈ opened, pair.1 ≤ offset) → length = offset + ([newline].intercalate lines).length →
    cellsFrom (fun i => isInsideFenceSpan i (spansOf length offset atLineStart opened lines)) offset
        ([newline].intercalate lines) = (fenceCells atLineStart (opened.map Prod.snd) lines).1 := by
  induction lines with
  | nil =>
    intro _ _ _ _ h
    exact absurd rfl h
  | cons raw rest ih =>
    intro length offset atLineStart opened _ hstart hlength
    have hline : ∀ i, offset ≤ i → i < offset + raw.length → i < length →
        isInsideFenceSpan i (spansOf length offset atLineStart opened (raw :: rest)) =
          lineInside atLineStart (opened.map Prod.snd) raw := by
      intro i hlow hhigh hi
      rw [inside_line hstart hi hlow (Nat.le_of_lt hhigh), if_pos hhigh]
    cases rest with
    | nil =>
      rw [List.intercalate_singleton] at hlength ⊢
      exact cellsFrom_const raw fun i hlow hhigh => hline i hlow hhigh (by omega)
    | cons next rest =>
      rw [List.intercalate_cons_cons, List.append_assoc, List.singleton_append] at hlength ⊢
      rw [List.length_append, List.length_cons] at hlength
      rw [fenceCells, cellsFrom_append, cellsFrom, cellsFrom_const raw fun i hlow hhigh => hline i hlow hhigh (by omega)]
      have hnewline : isInsideFenceSpan (offset + raw.length)
          (spansOf length offset atLineStart opened (raw :: next :: rest)) =
            (fenceStep atLineStart (opened.map Prod.snd) raw).isSome := by
        rw [inside_line hstart (by omega) (Nat.le_add_right offset raw.length) (Nat.le_refl _),
          if_neg (Nat.lt_irrefl _)]
      have hstarts : ∀ pair ∈ (scanFenceLine offset atLineStart opened raw).2, pair.1 ≤ offset + raw.length + 1 :=
        fun pair hpair => Nat.le_trans (scanFenceLine_start hstart pair hpair) (by omega)
      have hrest : cellsFrom
          (fun i => isInsideFenceSpan i (spansOf length offset atLineStart opened (raw :: next :: rest)))
          (offset + raw.length + 1) ([newline].intercalate (next :: rest)) =
          cellsFrom (fun i => isInsideFenceSpan i (spansOf length (offset + raw.length + 1) true
            (scanFenceLine offset atLineStart opened raw).2 (next :: rest)))
            (offset + raw.length + 1) ([newline].intercalate (next :: rest)) := by
        apply cellsFrom_congr
        intro i hlow _
        exact inside_after (by omega)
      rw [hnewline, hrest, ih (List.cons_ne_nil _ _) hstarts (by omega), scanFenceLine_opener]

/-- The state behind the lines. -/
theorem scanFenceLines_opener (lines : List JsString) : ∀ {offset atLineStart opened},
    (scanFenceLines offset atLineStart opened lines).2.map Prod.snd =
      (fenceCells atLineStart (opened.map Prod.snd) lines).2 := by
  induction lines with
  | nil =>
    intro offset atLineStart opened
    rfl
  | cons raw rest ih =>
    intro offset atLineStart opened
    rw [scanFenceLines, ih, scanFenceLine_opener]
    cases rest with
    | nil => rfl
    | cons next rest => rfl

/-! ## Buffers -/

/-- What a state says of the next piece. -/
def startsLine (state : Option FenceScanState) : Bool := (state.bind FenceScanState.atLineStart).getD true

def openerOf (state : Option FenceScanState) : Option FenceOpener := state.bind FenceScanState.opener

/-- The cells of a buffer, and the state that is returned. -/
theorem scanFenceSpans_cells (buffer : JsString) (state : Option FenceScanState) :
    cellsFrom (fun i => isInsideFenceSpan i (scanFenceSpans buffer state).1) 0 buffer =
        (fenceCells (startsLine state) (openerOf state) (buffer.splitOn newline)).1 ∧
      (scanFenceSpans buffer state).2.opener =
        (fenceCells (startsLine state) (openerOf state) (buffer.splitOn newline)).2 := by
  have hopener : ((openerOf state).map fun opener => ((0 : Nat), opener)).map Prod.snd = openerOf state := by
    cases openerOf state with
    | none => rfl
    | some opener => rfl
  have hjoin : [newline].intercalate (buffer.splitOn newline) = buffer := List.intercalate_splitOn _
  constructor
  · have hcells := @cellsFrom_spansOf (buffer.splitOn newline) buffer.length 0 (startsLine state)
      ((openerOf state).map fun opener => (0, opener)) (List.splitOn_ne_nil _ _) (by simp) (by rw [hjoin, Nat.zero_add])
    rw [hopener, hjoin] at hcells
    exact hcells
  · have hstate := @scanFenceLines_opener (buffer.splitOn newline) 0 (startsLine state)
      ((openerOf state).map fun opener => (0, opener))
    rw [hopener] at hstate
    exact hstate

/-! ## Fence lines -/

/-- At most three spaces and a fence marker begin the line. -/
def BeginsWithFence (line : JsString) : Prop :=
  ∃ indent char rest, line = indent ++ List.replicate 3 char ++ rest ∧ indent.length ≤ 3 ∧
    (∀ unit ∈ indent, unit = unitOf ' ') ∧ (char = tick ∨ char = wave)

theorem BeginsWithFence.append {line : JsString} (h : BeginsWithFence line) (more : JsString) :
    BeginsWithFence (line ++ more) := by
  obtain ⟨indent, char, rest, rfl, hindent⟩ := h
  exact ⟨indent, char, rest ++ more, by simp, hindent⟩

theorem takeWhile_eq_replicate (char : CodeUnit) (text : JsString) :
    text.takeWhile (· = char) = List.replicate (text.takeWhile (· = char)).length char := by
  apply List.eq_replicate_iff.mpr
  refine ⟨rfl, ?_⟩
  intro unit hunit
  simpa using List.mem_takeWhile_imp hunit

/-- What is matched begins with a fence. -/
theorem beginsWithFence_of_match {line : JsString} {found : FenceLine} (h : matchFenceLine line = some found) :
    BeginsWithFence line := by
  unfold matchFenceLine at h
  dsimp only at h
  split at h
  case h_1 => simp at h
  case h_2 char rest hrest =>
    split at h
    case isFalse => simp at h
    case isTrue hshape =>
      simp only [Bool.and_eq_true, Bool.or_eq_true, decide_eq_true_eq] at hshape
      obtain ⟨⟨⟨hindent, hchar⟩, hmarker⟩, -⟩ := hshape
      refine ⟨line.takeWhile (· = unitOf ' '), char,
        ((line.dropWhile (· = unitOf ' ')).takeWhile (· = char)).drop 3 ++
          (line.dropWhile (· = unitOf ' ')).dropWhile (· = char), ?_, hindent, ?_, hchar⟩
      · have htake : List.replicate 3 char = ((line.dropWhile (· = unitOf ' ')).takeWhile (· = char)).take 3 := by
          rw [takeWhile_eq_replicate, List.take_replicate, Nat.min_eq_left (hrest ▸ hmarker)]
        rw [htake, List.append_assoc, ← List.append_assoc (List.take 3 _), List.take_append_drop,
          List.takeWhile_append_dropWhile, List.takeWhile_append_dropWhile]
      · intro unit hunit
        simpa using List.mem_takeWhile_imp hunit

theorem dropReturn_prefix (raw : JsString) : ∃ more, raw = dropReturn raw ++ more := by
  unfold dropReturn
  split
  case isTrue hlast =>
    obtain ⟨front, rfl⟩ := List.getLast?_eq_some_iff.mp hlast
    exact ⟨[unitOf '\r'], by rw [List.dropLast_concat]⟩
  case isFalse => exact ⟨[], (List.append_nil raw).symm⟩

/-- A line that no fence marker begins changes nothing, and neither does the rest of a line. -/
theorem fenceStep_plain {atLineStart : Bool} {opener : Option FenceOpener} {raw : JsString}
    (h : atLineStart = false ∨ ¬ BeginsWithFence raw) : fenceStep atLineStart opener raw = opener := by
  have hkept : (opener.map fun opener => ((0 : Nat), opener)).map Prod.snd = opener := by
    cases opener with
    | none => rfl
    | some opener => rfl
  rcases h with rfl | hplain
  · rw [fenceStep, scanFenceLine_midLine, hkept]
  · have hmatch : matchFenceLine (dropReturn raw) = none := by
      cases hmatch : matchFenceLine (dropReturn raw) with
      | none => rfl
      | some found =>
        obtain ⟨more, hraw⟩ := dropReturn_prefix raw
        exact absurd (hraw ▸ (beginsWithFence_of_match hmatch).append more) hplain
    rw [fenceStep, scanFenceLine_plain hmatch, hkept]

theorem lineInside_plain {atLineStart : Bool} {opener : Option FenceOpener} {raw : JsString}
    (h : atLineStart = false ∨ ¬ BeginsWithFence raw) : lineInside atLineStart opener raw = opener.isSome := by
  rw [lineInside, fenceStep_plain h, Bool.or_self]

/-! ## Cutting a text -/

def lastLine (text : JsString) : JsString := (text.splitOn newline).getLastD []

def firstLine (text : JsString) : JsString := (text.splitOn newline).headD []

theorem splitOn_newline_cons (rest : JsString) : (newline :: rest).splitOn newline = [] :: rest.splitOn newline := by
  rw [List.splitOn_cons_eq_if_modifyHead, if_pos (by simp)]

theorem splitOn_unit_cons {unit : CodeUnit} (h : unit ≠ newline) (rest : JsString) :
    (unit :: rest).splitOn newline = (rest.splitOn newline).modifyHead (unit :: ·) := by
  rw [List.splitOn_cons_eq_if_modifyHead, if_neg (by simpa using h)]

theorem firstLine_split (text : JsString) : ∃ others, text.splitOn newline = firstLine text :: others := by
  unfold firstLine
  cases h : text.splitOn newline with
  | nil => exact absurd h (List.splitOn_ne_nil _ _)
  | cons first others => exact ⟨others, rfl⟩

/-- The line at the cut is put together from both sides. -/
theorem splitOn_append (x y : JsString) : ∃ before after, x.splitOn newline = before ++ [lastLine x] ∧
    y.splitOn newline = firstLine y :: after ∧
    (x ++ y).splitOn newline = before ++ (lastLine x ++ firstLine y) :: after := by
  obtain ⟨after, hafter⟩ := firstLine_split y
  induction x with
  | nil => exact ⟨[], after, rfl, hafter, hafter⟩
  | cons unit x ih =>
    obtain ⟨before, after', hx, hy, hxy⟩ := ih
    by_cases hunit : unit = newline
    · have hlast : lastLine (unit :: x) = lastLine x := by
        rw [lastLine, hunit, splitOn_newline_cons, hx, ← List.cons_append, List.getLastD_concat]
      refine ⟨[] :: before, after', ?_, hy, ?_⟩
      · rw [hlast, hunit, splitOn_newline_cons, hx, List.cons_append]
      · rw [hlast, hunit, List.cons_append, splitOn_newline_cons, hxy, List.cons_append]
    · cases before with
      | nil =>
        have hlast : lastLine (unit :: x) = unit :: lastLine x := by
          rw [lastLine, splitOn_unit_cons hunit, hx]
          rfl
        refine ⟨[], after', ?_, hy, ?_⟩
        · rw [hlast, splitOn_unit_cons hunit, hx]
          rfl
        · rw [hlast, List.cons_append, splitOn_unit_cons hunit, hxy]
          rfl
      | cons first before =>
        have hlast : lastLine (unit :: x) = lastLine x := by
          rw [lastLine, splitOn_unit_cons hunit, hx, List.cons_append, List.modifyHead_cons, ← List.cons_append,
            List.getLastD_concat]
        refine ⟨(unit :: first) :: before, after', ?_, hy, ?_⟩
        · rw [hlast, splitOn_unit_cons hunit, hx]
          rfl
        · rw [hlast, List.cons_append, splitOn_unit_cons hunit, hxy]
          rfl

/-- A text that is not empty ends at a line start exactly if it ends with a newline. -/
theorem lastLine_eq_nil {text : JsString} (hne : text ≠ []) : lastLine text = [] ↔ text.getLast? = some newline := by
  obtain ⟨front, last, rfl⟩ := (List.eq_nil_or_concat text).resolve_left hne
  obtain ⟨before, after, -, hlast, hboth⟩ := splitOn_append front [last]
  rw [List.concat_eq_append, List.getLast?_concat, lastLine, hboth]
  by_cases hnewline : last = newline
  · subst hnewline
    have hsplit : [newline].splitOn newline = [[], []] := by decide
    rw [hsplit] at hlast
    obtain ⟨-, rfl⟩ := List.cons.inj hlast
    simp
  · have hsplit : [last].splitOn newline = [[last]] := by
      rw [splitOn_unit_cons hnewline, List.splitOn_nil]
      rfl
    rw [hsplit] at hlast
    obtain ⟨hfirst, rfl⟩ := List.cons.inj hlast
    rw [← hfirst]
    simp [hnewline]

/-- The cut of a line is harmless if one side is empty or if no fence marker begins the line. -/
def HarmlessCut (left right : JsString) : Prop := left = [] ∨ right = [] ∨ ¬ BeginsWithFence (left ++ right)

theorem fenceCells_cons (atLineStart : Bool) (opener : Option FenceOpener) (raw : JsString) {rest : List JsString}
    (h : rest ≠ []) : fenceCells atLineStart opener (raw :: rest) =
      ((raw.map fun unit => (unit, lineInside atLineStart opener raw)) ++
          (newline, (fenceStep atLineStart opener raw).isSome) ::
            (fenceCells true (fenceStep atLineStart opener raw) rest).1,
        (fenceCells true (fenceStep atLineStart opener raw) rest).2) := by
  obtain ⟨next, others, rfl⟩ := List.exists_cons_of_ne_nil h
  rfl

theorem not_beginsWithFence_nil : ¬ BeginsWithFence [] := by
  rintro ⟨indent, char, rest, hline, -⟩
  simp at hline

theorem fenceCells_cut {left right : JsString} (h : HarmlessCut left right) (opener : Option FenceOpener)
    (after : List JsString) : fenceCells true opener ((left ++ right) :: after) =
      ((fenceCells true opener [left]).1 ++
          (fenceCells (decide (left = [])) (fenceCells true opener [left]).2 (right :: after)).1,
        (fenceCells (decide (left = [])) (fenceCells true opener [left]).2 (right :: after)).2) := by
  by_cases hleft : left = []
  · -- the right side begins the line
    subst hleft
    have hempty : fenceCells true opener [[]] = ([], opener) := by
      rw [fenceCells, fenceStep_plain (Or.inr not_beginsWithFence_nil)]
      rfl
    rw [hempty]
    rfl
  · have hflag : decide (left = []) = false := decide_eq_false hleft
    have hfront : fenceCells true opener [left] =
        (left.map fun unit => (unit, lineInside true opener left), fenceStep true opener left) := rfl
    have hright : ∀ opener, fenceStep false opener right = opener := fun _ => fenceStep_plain (Or.inl rfl)
    have hinside : ∀ opener, lineInside false opener right = opener.isSome := fun _ => lineInside_plain (Or.inl rfl)
    -- the whole line leads to the state behind the left side, and the right side is inside as that state says
    have hline : fenceStep true opener (left ++ right) = fenceStep true opener left ∧
        ((left ++ right).map fun unit => (unit, lineInside true opener (left ++ right))) =
          (left.map fun unit => (unit, lineInside true opener left)) ++
            right.map fun unit => (unit, (fenceStep true opener left).isSome) := by
      rcases h with hnil | rfl | hplain
      · exact absurd hnil hleft
      · simp
      · have hleftPlain : ¬ BeginsWithFence left := fun hbegins => hplain (hbegins.append right)
        rw [fenceStep_plain (Or.inr hplain), fenceStep_plain (Or.inr hleftPlain), lineInside_plain (Or.inr hplain),
          lineInside_plain (Or.inr hleftPlain), List.map_append]
        exact ⟨rfl, rfl⟩
    rw [hflag, hfront]
    cases after with
    | nil =>
      rw [fenceCells, fenceCells, hline.1, hline.2, hright, hinside]
    | cons next after =>
      rw [fenceCells_cons _ _ _ (List.cons_ne_nil next after), fenceCells_cons _ _ _ (List.cons_ne_nil next after),
        hline.1, hline.2, hright, hinside, List.append_assoc]

theorem fenceCells_append {left right : JsString} (h : HarmlessCut left right) (after before : List JsString) :
    ∀ opener, fenceCells true opener (before ++ (left ++ right) :: after) =
      ((fenceCells true opener (before ++ [left])).1 ++
          (fenceCells (decide (left = [])) (fenceCells true opener (before ++ [left])).2 (right :: after)).1,
        (fenceCells (decide (left = [])) (fenceCells true opener (before ++ [left])).2 (right :: after)).2) := by
  induction before with
  | nil => exact fun opener => fenceCells_cut h opener after
  | cons raw before ih =>
    intro opener
    rw [List.cons_append, List.cons_append, fenceCells_cons _ _ _ (by simp), fenceCells_cons _ _ _ (by simp), ih,
      List.append_assoc, List.cons_append]

/-- The cells of a buffer that is scanned from a state, and the open fence behind it. -/
def bufferCells (state : Option FenceScanState) (buffer : JsString) : List Cell × Option FenceOpener :=
  fenceCells (startsLine state) (openerOf state) (buffer.splitOn newline)

/-- The state behind a buffer that begins a line. -/
theorem scanFenceSpans_state {state : Option FenceScanState} (hstart : startsLine state = true) (buffer : JsString) :
    (scanFenceSpans buffer state).2 = ⟨some (decide (lastLine buffer = [])), (bufferCells state buffer).2⟩ := by
  have hline : (if buffer = [] then startsLine state else decide (buffer.getLast? = some newline)) =
      decide (lastLine buffer = []) := by
    by_cases hnil : buffer = []
    · subst hnil
      rw [if_pos rfl, hstart]
      rfl
    · rw [if_neg hnil, decide_eq_decide]
      exact (lastLine_eq_nil hnil).symm
  have hopener := (scanFenceSpans_cells buffer state).2
  rw [bufferCells, ← hopener, ← hline]
  rfl

theorem bufferCells_append {state : Option FenceScanState} (hstart : startsLine state = true) {x y : JsString}
    (h : HarmlessCut (lastLine x) (firstLine y)) : bufferCells state (x ++ y) =
      ((bufferCells state x).1 ++ (bufferCells (some (scanFenceSpans x state).2) y).1,
        (bufferCells (some (scanFenceSpans x state).2) y).2) := by
  obtain ⟨before, after, hx, hy, hxy⟩ := splitOn_append x y
  have hfront : bufferCells state x = fenceCells true (openerOf state) (before ++ [lastLine x]) := by
    rw [bufferCells, hstart, hx]
  rw [scanFenceSpans_state hstart, hfront, bufferCells, bufferCells, hstart, hy, hxy, fenceCells_append h]
  rfl

/-- A text in two pieces leads to the state that the whole text leads to. -/
theorem scanFenceSpans_append {state : Option FenceScanState} (hstart : startsLine state = true) {x y : JsString}
    (h : HarmlessCut (lastLine x) (firstLine y)) :
    (scanFenceSpans (x ++ y) state).2 = (scanFenceSpans y (some (scanFenceSpans x state).2)).2 := by
  have hopener : (scanFenceSpans (x ++ y) state).2.opener =
      (scanFenceSpans y (some (scanFenceSpans x state).2)).2.opener := by
    rw [(scanFenceSpans_cells (x ++ y) state).2, (scanFenceSpans_cells y _).2]
    have hcells := congrArg Prod.snd (bufferCells_append hstart h)
    exact hcells
  have hline : (scanFenceSpans (x ++ y) state).2.atLineStart =
      (scanFenceSpans y (some (scanFenceSpans x state).2)).2.atLineStart := by
    by_cases hnil : y = []
    · subst hnil
      rw [List.append_nil, scanFenceSpans_state hstart]
      rfl
    · have hlast : (x ++ y).getLast? = y.getLast? := List.getLast?_append_of_ne_nil x hnil
      simp only [scanFenceSpans, List.append_eq_nil_iff, hnil, and_false, if_false, hlast]
  exact FenceScanState.ext hline hopener

end OpenClaw.MarkdownCore
