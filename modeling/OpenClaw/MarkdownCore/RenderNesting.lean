/-
# OpenClaw.MarkdownCore.RenderNesting -- when rendered markers are well nested

The output of `renderMarkdownWithMarkers` is written from the pieces of a sweep over the rendered ranges.  The
sweep closes only what is on top of its stack, so a range that another one crosses is never closed: the output
is well nested exactly when no two ranges cross (`rendered_iff`).
-/
import Mathlib.Data.List.Perm.Lattice
import Mathlib.Order.Basic
import OpenClaw.Data.RangeSweep
import OpenClaw.MarkdownCore.Render

namespace OpenClaw.MarkdownCore

open OpenClaw.Data

/-! ## Rendered ranges -/

/-- A range of the text with its markers. -/
structure MarkedRange where
  start : Nat
  stop : Nat
  openText : JsString
  close : JsString

variable (ir : MarkdownIR) (options : RenderOptions)

def linkRange (link : RenderLink) : MarkedRange := ⟨link.start, link.stop, link.openText, link.close⟩

/-- The range of a span, if its style has a marker. -/
def styleRange (span : MarkdownStyleSpan) : Option MarkedRange :=
  (options.styleMarkers span.style).map fun marker => ⟨span.start, span.stop, marker.openText span, marker.close⟩

/-- Everything that is rendered: the links that are built, and the spans with markers. -/
def markedRanges : List MarkedRange :=
  (renderedLinks ir options).map linkRange ++ ir.styles.filterMap (styleRange options)

/-- The spans and links are ranges within the text that are not empty, and so is every link that is built. -/
structure InRange : Prop where
  styles : ∀ span ∈ ir.styles, span.start < span.stop ∧ span.stop ≤ ir.text.length
  links : ∀ link ∈ ir.links, link.start < link.stop ∧ link.stop ≤ ir.text.length
  built : ∀ link ∈ renderedLinks ir options, link.start < link.stop ∧ link.stop ≤ ir.text.length

/-- What a piece writes. -/
def writePiece : Piece MarkedRange → JsString
  | .opens range => range.openText
  | .closes range => range.close
  | .text start stop => options.escapeText (slice ir.text start stop)

/-- **Well rendered**: the output is written from pieces that are well nested from the start of the text to its
end; they open every rendered range once, each over its own characters, and their text pieces are the whole
text in order. -/
def WellRendered : Prop :=
  ∃ pieces : List (Piece MarkedRange),
    renderMarkdownWithMarkers ir options = pieces.flatMap (writePiece ir options) ∧
    WellNested MarkedRange.start MarkedRange.stop 0 [] pieces ir.text.length ∧
    (opened pieces).Perm (markedRanges ir options) ∧
    (texts pieces).flatMap (fun part => slice ir.text part.1 part.2) = ir.text

/-- No range begins first and ends inside another one. -/
def NoCrossing (ranges : List MarkedRange) : Prop :=
  ∀ a ∈ ranges, ∀ b ∈ ranges, ¬ Crosses MarkedRange.start MarkedRange.stop a b

/-! ## What opens at a boundary -/

def OpeningItem.range (pos : Nat) (item : OpeningItem) : MarkedRange := ⟨pos, item.stop, item.openText, item.close⟩

def openingRanges (pos : Nat) : List MarkedRange := (openingAt ir options pos).map (OpeningItem.range pos)

variable {ir options}

theorem compareItems_trans (a b c : OpeningItem) (hab : decide (compareItems a b ≤ 0) = true)
    (hbc : decide (compareItems b c ≤ 0) = true) : decide (compareItems a c ≤ 0) = true := by
  rw [decide_eq_true_eq] at hab hbc ⊢
  unfold compareItems at hab hbc ⊢
  cases ha : a.kind <;> cases hb : b.kind <;> cases hc : c.kind <;> simp only [ha, hb, hc] at hab hbc ⊢ <;>
    split at hab <;> split at hbc <;> split <;> omega

theorem compareItems_total (a b : OpeningItem) :
    (decide (compareItems a b ≤ 0) || decide (compareItems b a ≤ 0)) = true := by
  rw [Bool.or_eq_true, decide_eq_true_eq, decide_eq_true_eq]
  unfold compareItems
  cases ha : a.kind <;> cases hb : b.kind <;> simp only <;> split <;> split <;> omega

theorem stop_of_compareItems {a b : OpeningItem} (h : compareItems a b ≤ 0) : b.stop ≤ a.stop := by
  unfold compareItems at h
  split at h
  · omega
  · omega

/-- The items of a boundary, the longest first. -/
theorem openingRanges_longest (pos : Nat) : (openingRanges ir options pos).Pairwise (·.stop ≥ ·.stop) := by
  rw [openingRanges, List.pairwise_map]
  refine (List.pairwise_mergeSort compareItems_trans compareItems_total _).imp ?_
  intro a b h
  exact stop_of_compareItems (of_decide_eq_true h)

/-- An index that a function drops does not matter. -/
theorem map_mapIdx_of_eq {α β γ : Type} {f : Nat → α → β} {g : β → γ} {k : α → γ} (h : ∀ i a, g (f i a) = k a)
    (l : List α) : (l.mapIdx f).map g = l.map k := by
  apply List.ext_getElem?
  intro i
  rw [List.getElem?_map, List.getElem?_mapIdx, List.getElem?_map]
  cases l[i]? with
  | none => rfl
  | some a => exact congrArg some (h i a)

theorem map_linkItem (pos : Nat) : ((linkStarts ir options pos).mapIdx linkItem).map (OpeningItem.range pos) =
      ((renderedLinks ir options).map linkRange).filter (·.start = pos) := by
  have hrange : ∀ link ∈ linkStarts ir options pos, (linkItem 0 link).range pos = linkRange link := by
    intro link hlink
    have hstart : link.start = pos := by simpa using (List.mem_filter.mp hlink).2
    rw [← hstart]
    rfl
  have hindex (i : Nat) (link : RenderLink) : (linkItem i link).range pos = (linkItem 0 link).range pos := rfl
  rw [map_mapIdx_of_eq hindex, List.map_congr_left hrange, List.filter_map]
  rfl

theorem map_styleItem (pos : Nat) (spans : List MarkdownStyleSpan) (hpos : ∀ span ∈ spans, span.start = pos) :
    ((spans.mapIdx (styleItem options)).filterMap id).map (OpeningItem.range pos) =
      spans.filterMap (styleRange options) := by
  have hrange : ∀ span ∈ spans, (styleItem options 0 span).map (OpeningItem.range pos) = styleRange options span := by
    intro span hspan
    rw [← hpos span hspan, styleItem, styleRange, Option.map_map]
    rfl
  have hindex (i : Nat) (span : MarkdownStyleSpan) : (styleItem options i span).map (OpeningItem.range pos) =
      (styleItem options 0 span).map (OpeningItem.range pos) := by
    rw [styleItem, styleItem, Option.map_map, Option.map_map]
    rfl
  calc ((spans.mapIdx (styleItem options)).filterMap id).map (OpeningItem.range pos)
      = ((spans.mapIdx (styleItem options)).map (Option.map (OpeningItem.range pos))).filterMap id := by
        rw [List.map_filterMap, List.filterMap_map]
        rfl
    _ = (spans.map fun span => (styleItem options 0 span).map (OpeningItem.range pos)).filterMap id := by
        rw [map_mapIdx_of_eq hindex]
    _ = spans.filterMap (styleRange options) := by
        rw [List.map_congr_left hrange, List.filterMap_map]
        rfl

/-- The spans that open at a boundary, whatever their order. -/
theorem startsAt_perm (h : InRange ir options) (pos : Nat) :
    ((startsAt ir options pos).filterMap (styleRange options)).Perm
      ((ir.styles.filterMap (styleRange options)).filter (·.start = pos)) := by
  have hspans : (startsAt ir options pos).Perm ((((ir.styles.filter fun span =>
      (options.styleMarkers span.style).isSome)).filter fun span => span.start ≠ span.stop).filter
        fun span => span.start = pos) :=
    (List.mergeSort_perm _ _).trans (((List.mergeSort_perm _ _).filter _).filter _)
  refine (hspans.filterMap _).trans (List.Perm.of_eq ?_)
  rw [List.filterMap_filter, List.filterMap_filter, List.filterMap_filter, List.filter_filterMap]
  apply List.filterMap_congr
  intro span hspan
  have hne : span.start ≠ span.stop := Nat.ne_of_lt (h.styles span hspan).1
  unfold styleRange
  cases options.styleMarkers span.style with
  | none => rfl
  | some marker => simp [hne, Option.filter]

/-- **What opens at a boundary** are the rendered ranges that start there. -/
theorem openingRanges_perm (h : InRange ir options) (pos : Nat) :
    (openingRanges ir options pos).Perm ((markedRanges ir options).filter (·.start = pos)) := by
  have hstarts : ∀ span ∈ startsAt ir options pos, span.start = pos := by
    intro span hspan
    have hmem := (List.mergeSort_perm _ _).mem_iff.mp hspan
    simpa using (List.mem_filter.mp hmem).2
  have hitems : (openingRanges ir options pos).Perm ((openingItems ir options pos).map (OpeningItem.range pos)) :=
    (List.mergeSort_perm _ _).map _
  refine hitems.trans ?_
  rw [openingItems, List.map_append, map_linkItem, map_styleItem pos _ hstarts, markedRanges, List.filter_append]
  exact (startsAt_perm h pos).append_left _

/-! ## The points -/

theorem points_perm : (points ir options).Perm (boundaries ir options).dedup := List.mergeSort_perm _ _

theorem mem_points {pos : Nat} : pos ∈ points ir options ↔ pos ∈ boundaries ir options := by
  rw [points_perm.mem_iff, List.mem_dedup]

theorem points_sorted : (points ir options).Pairwise (· < ·) := by
  have hle : (points ir options).Pairwise fun a b => decide (a ≤ b) = true := by
    apply List.pairwise_mergeSort
    · intro a b c hab hbc
      exact decide_eq_true (Nat.le_trans (of_decide_eq_true hab) (of_decide_eq_true hbc))
    · intro a b
      rw [Bool.or_eq_true, decide_eq_true_eq, decide_eq_true_eq]
      exact Nat.le_total a b
  have hne : (points ir options).Pairwise (· ≠ ·) := points_perm.nodup_iff.mpr (List.nodup_dedup _)
  exact hle.imp₂ (fun a b hab hne => Nat.lt_of_le_of_ne (of_decide_eq_true hab) hne) hne

theorem mem_styledSpans {span : MarkdownStyleSpan} (h : span ∈ styledSpans ir options) : span ∈ ir.styles := by
  have hsorted := (List.mem_filter.mp h).1
  exact (List.mem_filter.mp ((List.mergeSort_perm _ _).mem_iff.mp hsorted)).1

theorem points_le (h : InRange ir options) : ∀ pos ∈ points ir options, pos ≤ ir.text.length := by
  intro pos hpos
  rw [mem_points, boundaries] at hpos
  simp only [List.mem_append, List.mem_cons, List.not_mem_nil, or_false, List.mem_flatMap] at hpos
  rcases hpos with ((rfl | rfl) | ⟨span, hspan, rfl | rfl⟩) | ⟨link, hlink, rfl | rfl⟩
  · exact Nat.zero_le _
  · exact Nat.le_refl _
  · have hrange := h.styles span (mem_styledSpans hspan)
    omega
  · exact (h.styles span (mem_styledSpans hspan)).2
  · have hrange := h.built link hlink
    omega
  · exact (h.built link hlink).2

/-- The points go from the start of the text to its end. -/
theorem points_ends (h : InRange ir options) :
    ∃ rest, points ir options = 0 :: rest ∧ (0 :: rest).getLast? = some ir.text.length := by
  have hsorted := @points_sorted ir options
  have hzero : 0 ∈ points ir options := mem_points.mpr (by simp [boundaries])
  have hlast : ir.text.length ∈ points ir options := mem_points.mpr (by simp [boundaries])
  have hle := points_le h
  cases hpoints : points ir options with
  | nil =>
    rw [hpoints] at hzero
    cases hzero
  | cons first rest =>
    rw [hpoints] at hsorted hzero hlast hle
    obtain ⟨hfirst, -⟩ := List.pairwise_cons.mp hsorted
    have hstart : first = 0 := by
      rcases List.mem_cons.mp hzero with hzero | hzero
      · exact hzero.symm
      · exact absurd (hfirst 0 hzero) (Nat.not_lt_zero _)
    subst hstart
    refine ⟨rest, rfl, ?_⟩
    obtain ⟨front, stop, hfront⟩ := List.eq_nil_or_concat (0 :: rest) |>.resolve_left (List.cons_ne_nil _ _)
    have hstop : stop = ir.text.length := by
      rw [List.concat_eq_append] at hfront
      rw [hfront] at hsorted hlast hle
      have hend := hle stop (List.mem_append_right _ (List.mem_singleton_self stop))
      rcases List.mem_append.mp hlast with hmem | hmem
      · have hlt := (List.pairwise_append.mp hsorted).2.2 _ hmem stop (List.mem_singleton_self stop)
        omega
      · exact (List.mem_singleton.mp hmem).symm
    rw [hfront, List.concat_eq_append, List.getLast?_concat, hstop]

theorem range_of_mem (h : InRange ir options) {range : MarkedRange} (hmem : range ∈ markedRanges ir options) :
    range.start < range.stop ∧ range.start ∈ points ir options ∧ range.stop ∈ points ir options := by
  rw [mem_points, mem_points, boundaries]
  rcases List.mem_append.mp hmem with hleft | hright
  · obtain ⟨link, hlink, rfl⟩ := List.mem_map.mp hleft
    refine ⟨(h.built link hlink).1, ?_, ?_⟩
    · exact List.mem_append_right _ (List.mem_flatMap.mpr ⟨link, hlink, List.mem_cons_self⟩)
    · exact List.mem_append_right _ (List.mem_flatMap.mpr ⟨link, hlink, List.mem_cons_of_mem _ List.mem_cons_self⟩)
  · obtain ⟨span, hspan, hrange⟩ := List.mem_filterMap.mp hright
    obtain ⟨marker, hmarker, rfl⟩ := Option.map_eq_some_iff.mp hrange
    have hin := h.styles span hspan
    have hstyled : span ∈ styledSpans ir options := by
      refine List.mem_filter.mpr ⟨(List.mergeSort_perm _ _).mem_iff.mpr (List.mem_filter.mpr ⟨hspan, ?_⟩), ?_⟩
      · rw [hmarker]
        rfl
      · exact decide_eq_true (Nat.ne_of_lt hin.1)
    refine ⟨hin.1, ?_, ?_⟩
    · exact List.mem_append_left _ (List.mem_append_right _
        (List.mem_flatMap.mpr ⟨span, hstyled, List.mem_cons_self⟩))
    · exact List.mem_append_left _ (List.mem_append_right _
        (List.mem_flatMap.mpr ⟨span, hstyled, List.mem_cons_of_mem _ List.mem_cons_self⟩))

theorem mem_openingRanges (h : InRange ir options) {pos : Nat} {range : MarkedRange} :
    range ∈ openingRanges ir options pos ↔ range ∈ markedRanges ir options ∧ range.start = pos := by
  rw [(openingRanges_perm h pos).mem_iff, List.mem_filter, decide_eq_true_eq]

/-- The openings are as the sweep needs them. -/
theorem opens_openingRanges (h : InRange ir options) :
    Opens MarkedRange.start MarkedRange.stop (openingRanges ir options) (markedRanges ir options)
      (points ir options) where
  mem pos _ range hrange := ((mem_openingRanges h).mp hrange).1
  first_eq pos _ range hrange := ((mem_openingRanges h).mp hrange).2
  nonempty pos _ range hrange := by
    obtain ⟨hmem, rfl⟩ := (mem_openingRanges h).mp hrange
    exact (range_of_mem h hmem).1
  last_mem pos _ range hrange := (range_of_mem h ((mem_openingRanges h).mp hrange).1).2.2
  longest pos _ := openingRanges_longest pos

/-- Every rendered range is opened once. -/
theorem flatMap_filter_perm {α : Type} (f : α → Nat) : ∀ {positions : List Nat} {l : List α}, positions.Nodup →
    (∀ x ∈ l, f x ∈ positions) → (positions.flatMap fun pos => l.filter fun x => f x = pos).Perm l := by
  intro positions
  induction positions with
  | nil =>
    intro l _ hl
    have hempty : l = [] := List.eq_nil_iff_forall_not_mem.mpr fun x hx => absurd (hl x hx) List.not_mem_nil
    rw [hempty]
    exact .refl _
  | cons pos rest ih =>
    intro l hnodup hl
    obtain ⟨hpos, hrest⟩ := List.nodup_cons.mp hnodup
    have hothers : (rest.flatMap fun p => l.filter fun x => f x = p) =
        rest.flatMap fun p => (l.filter fun x => !(decide (f x = pos))).filter fun x => f x = p := by
      apply List.flatMap_congr
      intro p hp
      rw [List.filter_filter]
      apply List.filter_congr
      intro x _
      by_cases hx : f x = p
      · have hne : f x ≠ pos := fun heq => hpos (heq ▸ hx ▸ hp)
        simp [hx, hx ▸ hne]
      · simp [hx]
    rw [List.flatMap_cons, hothers]
    refine (List.Perm.append_left _ (ih hrest ?_)).trans (List.filter_append_perm _ l)
    intro x hx
    obtain ⟨hmem, hne⟩ := List.mem_filter.mp hx
    rcases List.mem_cons.mp (hl x hmem) with heq | hin
    · simp [heq] at hne
    · exact hin

/-! ## The loop writes the pieces of the sweep -/

def MarkedRange.stackItem (range : MarkedRange) : StackItem := ⟨range.close, range.stop⟩

theorem closeEnded_eq (pos : Nat) (stack : List MarkedRange) : closeEnded pos (stack.map MarkedRange.stackItem) =
    (((stack.takeWhile (·.stop = pos)).map Piece.closes).flatMap (writePiece ir options),
      (stack.dropWhile (·.stop = pos)).map MarkedRange.stackItem) := by
  induction stack with
  | nil => rfl
  | cons top stack ih =>
    rw [List.map_cons, closeEnded, ih]
    by_cases h : top.stop = pos
    · have hitem : top.stackItem.stop = pos := h
      rw [if_pos hitem, List.takeWhile_cons_of_pos (by simpa using h), List.dropWhile_cons_of_pos (by simpa using h)]
      rfl
    · have hitem : ¬ top.stackItem.stop = pos := h
      rw [if_neg hitem, List.takeWhile_cons_of_neg (by simpa using h), List.dropWhile_cons_of_neg (by simpa using h)]
      rfl

theorem pushed_eq (pos : Nat) : ∀ (items : List OpeningItem) (stack : List MarkedRange),
    items.foldl (fun stack item => (⟨item.close, item.stop⟩ : StackItem) :: stack) (stack.map MarkedRange.stackItem) =
      ((items.map (OpeningItem.range pos)).reverse ++ stack).map MarkedRange.stackItem := by
  intro items
  induction items with
  | nil => exact fun _ => rfl
  | cons item items ih =>
    intro stack
    have hpush : (⟨item.close, item.stop⟩ : StackItem) :: stack.map MarkedRange.stackItem =
        (item.range pos :: stack).map MarkedRange.stackItem := rfl
    rw [List.foldl_cons, hpush, ih, List.map_cons, List.reverse_cons, List.append_assoc]
    rfl

theorem write_opens (pos : Nat) : ((openingRanges ir options pos).map Piece.opens).flatMap (writePiece ir options) =
    (openingAt ir options pos).flatMap (·.openText) := by
  rw [openingRanges, List.map_map, List.flatMap_map]
  rfl

/-- **The loop writes what the sweep has as pieces.** -/
theorem renderFrom_eq : ∀ {positions : List Nat}, positions.Pairwise (· < ·) → ∀ stack : List MarkedRange,
    renderFrom ir options positions (stack.map MarkedRange.stackItem) =
      (sweep MarkedRange.stop (openingRanges ir options) positions stack).flatMap (writePiece ir options) := by
  intro positions
  induction positions with
  | nil => exact fun _ _ => rfl
  | cons pos rest ih =>
    intro hsorted stack
    obtain ⟨hlater, hrest⟩ := List.pairwise_cons.mp hsorted
    have hclosed := @closeEnded_eq ir options pos stack
    cases rest with
    | nil =>
      rw [renderFrom, hclosed, sweep, List.flatMap_append, List.flatMap_append, write_opens]
      simp [sweep]
    | cons next rest =>
      have hlt : pos < next := hlater next List.mem_cons_self
      rw [renderFrom, hclosed, sweep, List.flatMap_append, List.flatMap_append, List.flatMap_append, write_opens]
      have htext : ((next :: rest).head?.map (Piece.text pos ·)).toList.flatMap (writePiece ir options) =
          options.escapeText (slice ir.text pos next) := by simp [writePiece]
      dsimp only
      rw [pushed_eq pos, if_pos hlt, ih hrest, List.append_assoc, htext]
      rfl

/-! ## The text pieces -/

theorem slice_trans (text : JsString) {start middle stop : Nat} (h : start ≤ middle) (h' : middle ≤ stop) :
    slice text start middle ++ slice text middle stop = slice text start stop := by
  unfold slice
  have hsplit : stop - start = (middle - start) + (stop - middle) := by omega
  rw [hsplit, List.take_add, List.drop_drop]
  congr 3
  omega

/-- Between the first point and the last, the text pieces are the text. -/
theorem flatMap_slices (text : JsString) : ∀ {rest : List Nat} {pos stop : Nat}, (pos :: rest).Pairwise (· < ·) →
    (pos :: rest).getLast? = some stop →
    ((pos :: rest).zip rest).flatMap (fun part => slice text part.1 part.2) = slice text pos stop := by
  intro rest
  induction rest with
  | nil =>
    intro pos stop _ hstop
    obtain rfl : pos = stop := Option.some.inj hstop
    simp [slice]
  | cons next rest ih =>
    intro pos stop hsorted hstop
    obtain ⟨hlater, hrest⟩ := List.pairwise_cons.mp hsorted
    rw [List.getLast?_cons_cons] at hstop
    have hle : next ≤ stop := by
      have hmem := List.mem_of_getLast? hstop
      rcases List.mem_cons.mp hmem with rfl | hmem
      · exact Nat.le_refl _
      · exact Nat.le_of_lt ((List.pairwise_cons.mp hrest).1 stop hmem)
    rw [List.zip_cons_cons, List.flatMap_cons, ih hrest hstop]
    exact slice_trans text (Nat.le_of_lt (hlater next List.mem_cons_self)) hle

/-! ## When the output is well nested -/

/-- Well nested pieces that open the rendered ranges show that none cross. -/
theorem noCrossing_of_wellRendered (h : InRange ir options) (hrendered : WellRendered ir options) :
    NoCrossing (markedRanges ir options) := by
  obtain ⟨pieces, -, hnested, hopened, -⟩ := hrendered
  have hle : ∀ range ∈ opened pieces, range.start ≤ range.stop := by
    intro range hrange
    exact Nat.le_of_lt (range_of_mem h (hopened.mem_iff.mp hrange)).1
  intro a ha b hb
  exact (hnested.not_crosses hle).2 a (hopened.mem_iff.mpr ha) b (hopened.mem_iff.mpr hb)

/-- **The output is well rendered exactly when no two ranges cross**, for spans, links and built links that are
ranges within the text. -/
theorem rendered_iff (h : InRange ir options) : WellRendered ir options ↔ NoCrossing (markedRanges ir options) := by
  constructor
  · exact noCrossing_of_wellRendered h
  · intro hcross
    by_cases hempty : ir.text = []
    · -- an empty text has no ranges
      have hnone : markedRanges ir options = [] := by
        apply List.eq_nil_iff_forall_not_mem.mpr
        intro range hrange
        obtain ⟨hlt, -, hstop⟩ := range_of_mem h hrange
        have hle := points_le h _ hstop
        rw [hempty, List.length_nil] at hle
        omega
      refine ⟨[], if_pos hempty, ?_, ?_, ?_⟩
      · rw [hempty]
        exact .done 0
      · rw [hnone]
        exact .refl _
      · exact hempty.symm
    · obtain ⟨rest, hpoints, hlast⟩ := points_ends h
      have hsorted := @points_sorted ir options
      have hopens := opens_openingRanges h
      rw [hpoints] at hsorted hopens
      refine ⟨sweep MarkedRange.stop (openingRanges ir options) (0 :: rest) [], ?_, ?_, ?_, ?_⟩
      · rw [renderMarkdownWithMarkers, if_neg hempty, hpoints]
        exact renderFrom_eq hsorted []
      · refine (sweep_wellNested_iff hsorted hopens ?_ hlast).mpr hcross
        intro range hrange
        rw [← hpoints]
        exact ⟨(range_of_mem h hrange).2.1, (mem_openingRanges h).mpr ⟨hrange, rfl⟩⟩
      · rw [opened_sweep]
        have hbuckets : ((0 :: rest).flatMap (openingRanges ir options)).Perm
            ((0 :: rest).flatMap fun pos => (markedRanges ir options).filter fun range => range.start = pos) := by
          apply List.Perm.flatMap_left
          intro pos _
          exact openingRanges_perm h pos
        refine hbuckets.trans (flatMap_filter_perm MarkedRange.start (hsorted.imp fun hlt => Nat.ne_of_lt hlt) ?_)
        intro range hrange
        rw [← hpoints]
        exact (range_of_mem h hrange).2.1
      · rw [texts_sweep, List.tail_cons, flatMap_slices ir.text hsorted hlast]
        simp [slice]

/-! ## Bold text and a spoiler -/

/-- `*` for bold and `||` for spoilers. -/
def chatMarkers : RenderOptions where
  styleMarkers style :=
    if style = .bold then some ⟨fun _ => units "*", units "*"⟩
    else if style = .spoiler then some ⟨fun _ => units "||", units "||"⟩
    else none
  escapeText text := text
  buildLink := none

/-- What `**ab ||cd** ef||` is read as: a spoiler that begins inside the bold text and ends behind it. -/
def crossingIR : MarkdownIR := ⟨units "ab cd ef", [⟨0, 5, .bold, none⟩, ⟨3, 8, .spoiler, none⟩], []⟩

theorem crossingIR_inRange : InRange crossingIR chatMarkers := by
  refine ⟨?_, ?_, ?_⟩
  · decide
  · decide
  · decide

/-- The bold text is never closed. -/
theorem crossing_unclosed : InRange crossingIR chatMarkers ∧ ¬ WellRendered crossingIR chatMarkers := by
  refine ⟨crossingIR_inRange, ?_⟩
  intro hrendered
  have hranges : markedRanges crossingIR chatMarkers =
      [⟨0, 5, units "*", units "*"⟩, ⟨3, 8, units "||", units "||"⟩] := rfl
  have hcross := noCrossing_of_wellRendered crossingIR_inRange hrendered
  rw [hranges] at hcross
  apply hcross ⟨0, 5, units "*", units "*"⟩ (by simp) ⟨3, 8, units "||", units "||"⟩ (by simp)
  refine ⟨?_, ?_, ?_⟩
  · decide
  · decide
  · decide

/-- A spoiler inside bold text. -/
def nestedIR : MarkdownIR := ⟨units "ab cd ef", [⟨0, 8, .bold, none⟩, ⟨3, 8, .spoiler, none⟩], []⟩

/-- `rendered_iff` for a spoiler inside bold text. -/
theorem rendered_iff_nested : WellRendered nestedIR chatMarkers ↔ NoCrossing (markedRanges nestedIR chatMarkers) :=
  rendered_iff ⟨by decide, by decide, by decide⟩

end OpenClaw.MarkdownCore
