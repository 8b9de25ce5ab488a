/-
# OpenClaw.MarkdownCore.CodeSpanPieces -- scanning in pieces is scanning the whole text

The loop of `parseInlineCodeSpans` jumps over fences and over runs of backticks.  `codeBits` goes over the cells one
by one instead, with the length of the run it is in, and settles the run behind it; it is the same
(`scanInline_bits`), and it goes on at a cut where no run is cut.  With the cells of the fences this gives
`feedPieces_whole`: the pieces of a text are classified like the text, and lead to the same states.
-/
import OpenClaw.MarkdownCore.FenceCells

namespace OpenClaw.MarkdownCore

open OpenClaw.Data

/-! ## Cell by cell -/

/-- An inline state inside of a run of `run` backticks. -/
structure TickScan where
  isOpen : Bool
  ticks : Nat
  run : Nat

/-- What the run behind the scan means: it opens a span, closes the open one, or neither. -/
def TickScan.settle (scan : TickScan) : TickScan :=
  if scan.run = 0 then scan
  else if !scan.isOpen then ⟨true, scan.run, 0⟩
  else if scan.run = scan.ticks then ⟨false, 0, 0⟩
  else ⟨scan.isOpen, scan.ticks, 0⟩

/-- The class of one cell, and the scan behind it. -/
def tickStep (scan : TickScan) (cell : Cell) : Bool × TickScan :=
  if cell.2 then (true, scan.settle)
  else if cell.1 = tick then (true, ⟨scan.isOpen, scan.ticks, scan.run + 1⟩)
  else (scan.settle.isOpen, scan.settle)

def codeBits : TickScan → List Cell → List Bool × TickScan
  | scan, [] => ([], scan.settle)
  | scan, cell :: rest =>
    let step := tickStep scan cell
    let scanned := codeBits step.2 rest
    (step.1 :: scanned.1, scanned.2)

attribute [grind =] codeBits

@[simp] theorem settle_run (scan : TickScan) : scan.settle.run = 0 := by
  unfold TickScan.settle
  split
  · assumption
  · split
    · rfl
    · split
      · rfl
      · rfl

@[simp] theorem settle_settle (scan : TickScan) : scan.settle.settle = scan.settle := if_pos (settle_run scan)

/-- A backtick outside of the fences. -/
def plainTick : Cell := (tick, false)

/-- Every other cell settles the run. -/
theorem tickStep_other (scan : TickScan) {cell : Cell} (h : cell ≠ plainTick) :
    tickStep scan cell = (cell.2 || scan.settle.isOpen, scan.settle) := by
  unfold tickStep
  by_cases hinside : cell.2 = true
  · rw [if_pos hinside, hinside, Bool.true_or]
  · have htick : cell.1 ≠ tick := by
      intro hcell
      rw [Bool.not_eq_true] at hinside
      exact h (Prod.ext hcell hinside)
    rw [if_neg hinside, if_neg htick, Bool.not_eq_true _ |>.mp hinside, Bool.false_or]

/-- The run may be settled before the next cell, unless that goes on with it. -/
theorem codeBits_settle (scan : TickScan) {cells : List Cell} (h : cells.head? ≠ some plainTick) :
    codeBits scan.settle cells = codeBits scan cells := by
  cases cells with
  | nil => rw [codeBits, codeBits, settle_settle]
  | cons cell rest =>
    have hcell : cell ≠ plainTick := fun hcell => h (congrArg some hcell)
    rw [codeBits, codeBits, tickStep_other scan hcell, tickStep_other scan.settle hcell, settle_settle]

/-- **The scan goes on at a cut** that cuts no run. -/
theorem codeBits_append (front back : List Cell) : ∀ scan,
    ¬ (front.getLast? = some plainTick ∧ back.head? = some plainTick) → (front = [] → scan.run = 0) →
    codeBits scan (front ++ back) =
      ((codeBits scan front).1 ++ (codeBits (codeBits scan front).2 back).1, (codeBits (codeBits scan front).2 back).2) := by
  induction front with
  | nil =>
    intro scan _ hrun
    have hsettle : scan.settle = scan := if_pos (hrun rfl)
    rw [codeBits, hsettle]
    rfl
  | cons cell front ih =>
    intro scan hcut _
    cases front with
    | nil =>
      by_cases hcell : cell = plainTick
      · have hback : back.head? ≠ some plainTick := fun hhead => hcut ⟨congrArg some hcell, hhead⟩
        rw [List.singleton_append, codeBits, codeBits, codeBits, codeBits_settle _ hback]
        rfl
      · have hsettled : (tickStep scan cell).2.settle = (tickStep scan cell).2 := by
          rw [tickStep_other scan hcell, settle_settle]
        rw [List.singleton_append, codeBits, codeBits, codeBits, hsettled]
        rfl
    | cons next front =>
      rw [List.getLast?_cons_cons] at hcut
      rw [List.cons_append, codeBits, ih _ hcut (fun hnil => absurd hnil (List.cons_ne_nil _ _)), codeBits]
      rfl

/-! ## Blocks of cells -/

theorem codeBits_inside {block : List Cell} (h : ∀ cell ∈ block, cell.2 = true) (rest : List Cell) {scan : TickScan}
    (hrun : scan.run = 0) :
    codeBits scan (block ++ rest) = (List.replicate block.length true ++ (codeBits scan rest).1, (codeBits scan rest).2) := by
  induction block with
  | nil => rfl
  | cons cell block ih =>
    obtain ⟨hcell, hblock⟩ := List.forall_mem_cons.mp h
    have hsettle : scan.settle = scan := if_pos hrun
    have hstep : tickStep scan cell = (true, scan) := by rw [tickStep, if_pos hcell, hsettle]
    rw [List.cons_append, codeBits, hstep, ih hblock]
    rfl

theorem codeBits_run (n : Nat) (rest : List Cell) : ∀ scan : TickScan,
    codeBits scan (List.replicate n plainTick ++ rest) =
      (List.replicate n true ++ (codeBits ⟨scan.isOpen, scan.ticks, scan.run + n⟩ rest).1,
        (codeBits ⟨scan.isOpen, scan.ticks, scan.run + n⟩ rest).2) := by
  induction n with
  | zero => exact fun _ => rfl
  | succ n ih =>
    intro scan
    have hstep : tickStep scan plainTick = (true, ⟨scan.isOpen, scan.ticks, scan.run + 1⟩) := rfl
    rw [List.replicate_succ, List.cons_append, codeBits, hstep, ih, Nat.add_right_comm, Nat.add_assoc]
    rfl

/-! ## The loop -/

variable {inside : Nat → Bool}

section Loop

variable {fences : List FenceSpan}

theorem scanInline_skip (text : JsString) : ∀ {i skip scan}, scanInline fences i skip scan text =
      scanInline fences (i + min skip text.length) 0 scan (text.drop (min skip text.length)) := by
  induction text with
  | nil =>
    intro i skip scan
    simp [scanInline]
  | cons unit rest ih =>
    intro i skip scan
    cases skip with
    | zero => simp
    | succ skip =>
      rw [scanInline, ih, List.length_cons, Nat.add_min_add_right, List.drop_succ_cons]
      congr 1
      omega

/-- A fence at an index covers all up to its end. -/
theorem findFence_some {i : Nat} {fence : FenceSpan} (h : findFenceSpanAtInclusive fences i = some fence) :
    i < fence.stop ∧ ∀ j, i ≤ j → j < fence.stop → isInsideFenceSpan j fences = true := by
  have hmem := List.mem_of_find?_eq_some h
  have hin := List.find?_some h
  simp only [Bool.and_eq_true, decide_eq_true_eq] at hin
  refine ⟨hin.2, ?_⟩
  intro j hlow hhigh
  rw [isInsideFenceSpan, List.any_eq_true]
  refine ⟨fence, hmem, ?_⟩
  simp only [Bool.and_eq_true, decide_eq_true_eq]
  exact ⟨Nat.le_trans hin.1 hlow, hhigh⟩

theorem findFence_none {i : Nat} (h : findFenceSpanAtInclusive fences i = none) : isInsideFenceSpan i fences = false := by
  rw [isInsideFenceSpan, List.any_eq_false]
  exact List.find?_eq_none.mp h

/-- No fence begins inside of a run of backticks. -/
def NoJump (left right : Cell) : Prop := ¬ (left = plainTick ∧ right = (tick, true))

/-- So a run is outside of the fences if its first backtick is. -/
theorem cellsFrom_run (n : Nat) (rest : JsString) : ∀ {i}, inside i = false →
      (cellsFrom inside i (List.replicate (n + 1) tick ++ rest)).IsChain NoJump →
      cellsFrom inside i (List.replicate (n + 1) tick ++ rest) = List.replicate (n + 1) plainTick ++
      cellsFrom inside (i + (n + 1)) rest := by
  induction n with
  | zero =>
    intro i hi _
    simp [cellsFrom, hi, plainTick]
  | succ n ih =>
    intro i hi hchain
    rw [List.replicate_succ, List.cons_append, cellsFrom] at hchain ⊢
    have hnext : inside (i + 1) = false := by
      rw [List.replicate_succ, List.cons_append, cellsFrom] at hchain
      have hpair := (List.isChain_cons_cons.mp hchain).1
      cases hin : inside (i + 1) with
      | false => rfl
      | true => exact absurd ⟨by rw [hi]; rfl, by rw [hin]⟩ hpair
    rw [ih hnext hchain.tail, hi, Nat.add_assoc i 1, Nat.add_comm 1, List.replicate_succ]
    rfl

theorem run_split {text : JsString} (h : text.head? = some tick) :
    ∃ n rest, text = List.replicate (n + 1) tick ++ rest ∧ (text.takeWhile (· = tick)).length = n + 1 ∧
      rest.head? ≠ some tick := by
  cases text with
  | nil => simp at h
  | cons unit text =>
    obtain rfl : unit = tick := by simpa using h
    have htake : (tick :: text).takeWhile (· = tick) = tick :: text.takeWhile (· = tick) :=
      List.takeWhile_cons_of_pos (by simp)
    refine ⟨(text.takeWhile (· = tick)).length, text.dropWhile (· = tick), ?_, ?_, ?_⟩
    · rw [List.replicate_succ, ← takeWhile_eq_replicate, List.cons_append, List.takeWhile_append_dropWhile]
    · rw [htake, List.length_cons]
    · intro hhead
      have hnot := List.head?_dropWhile_not (· = tick) text
      rw [hhead] at hnot
      simp at hnot

variable (fences) in
/-- What the loop returns from index `i` on, next to the cells: the state; the span that is open, in front of `i`;
and the classes behind. -/
structure Reads (i : Nat) (scan : InlineScan) (text : JsString) (result : List (Nat × Nat) × InlineCodeState) :
    Prop where
  state : result.2 = ⟨(codeBits ⟨scan.isOpen, scan.ticks, 0⟩ (cellsFrom (isInsideFenceSpan · fences) i text)).2.isOpen,
    (codeBits ⟨scan.isOpen, scan.ticks, 0⟩ (cellsFrom (isInsideFenceSpan · fences) i text)).2.ticks⟩
  before : ∀ j, j < i → isInsideInlineSpan j result.1 = (scan.isOpen && decide (scan.openStart ≤ j))
  bits : (codeBits ⟨scan.isOpen, scan.ticks, 0⟩ (cellsFrom (isInsideFenceSpan · fences) i text)).1 =
    (List.range' i text.length).map fun j => isInsideFenceSpan j fences || isInsideInlineSpan j result.1

theorem cellsFrom_mem (text : JsString) : ∀ {i cell}, cell ∈ cellsFrom inside i text → ∃ j, i ≤ j ∧
      j < i + text.length ∧ cell.2 = inside j := by
  induction text with
  | nil =>
    intro i cell hcell
    exact absurd hcell List.not_mem_nil
  | cons unit rest ih =>
    intro i cell hcell
    rw [cellsFrom, List.mem_cons] at hcell
    rw [List.length_cons]
    rcases hcell with rfl | hrest
    · exact ⟨i, Nat.le_refl i, by omega, rfl⟩
    · obtain ⟨j, hlow, hhigh, hcell⟩ := ih hrest
      exact ⟨j, by omega, by omega, hcell⟩

theorem cellsFrom_length (text : JsString) : ∀ i, (cellsFrom inside i text).length = text.length := by
  induction text with
  | nil => exact fun _ => rfl
  | cons unit rest ih =>
    intro i
    rw [cellsFrom, List.length_cons, List.length_cons, ih]

/-- A block of characters that are all in a fence or in a span. -/
theorem map_true {f : Nat → Bool} {i n : Nat} (h : ∀ j, i ≤ j → j < i + n → f j = true) :
    (List.range' i n).map f = List.replicate n true := by
  apply List.eq_replicate_iff.mpr
  refine ⟨by simp, ?_⟩
  intro value hvalue
  obtain ⟨j, hj, rfl⟩ := List.mem_map.mp hvalue
  rw [List.mem_range'_1] at hj
  exact h j hj.1 hj.2

/-- Over the characters of a fence, which the loop jumps over. -/
theorem Reads.fence {i : Nat} {scan : InlineScan} {block rest : JsString}
    {result : List (Nat × Nat) × InlineCodeState} (h : Reads fences (i + block.length) scan rest result)
    (hinside : ∀ j, i ≤ j → j < i + block.length → isInsideFenceSpan j fences = true) :
    Reads fences i scan (block ++ rest) result := by
  have hcells : ∀ cell ∈ cellsFrom (isInsideFenceSpan · fences) i block, cell.2 = true := by
    intro cell hcell
    obtain ⟨j, hlow, hhigh, hj⟩ := cellsFrom_mem block hcell
    rw [hj]
    exact hinside j hlow hhigh
  have hblock := codeBits_inside hcells (cellsFrom (isInsideFenceSpan · fences) (i + block.length) rest)
    (show (⟨scan.isOpen, scan.ticks, 0⟩ : TickScan).run = 0 from rfl)
  rw [← cellsFrom_append, cellsFrom_length] at hblock
  refine ⟨?_, ?_, ?_⟩
  · rw [hblock]
    exact h.state
  · intro j hj
    exact h.before j (by omega)
  · have hfront : (List.range' i block.length).map
        (fun j => isInsideFenceSpan j fences || isInsideInlineSpan j result.1) = List.replicate block.length true := by
      apply map_true
      intro j hlow hhigh
      rw [hinside j hlow hhigh, Bool.true_or]
    rw [hblock, List.length_append, ← List.range'_append_1, List.map_append, hfront, ← h.bits]

/-- Over a character that is neither in a fence nor a backtick. -/
theorem Reads.plain {i : Nat} {scan : InlineScan} {unit : CodeUnit} {rest : JsString}
    {result : List (Nat × Nat) × InlineCodeState} (h : Reads fences (i + 1) scan rest result)
    (hstart : scan.isOpen = true → scan.openStart ≤ i) (hunit : unit ≠ tick)
    (hinside : isInsideFenceSpan i fences = false) : Reads fences i scan (unit :: rest) result := by
  have hcell : (unit, isInsideFenceSpan i fences) ≠ plainTick := fun heq => hunit (congrArg Prod.fst heq)
  have hsettle : (⟨scan.isOpen, scan.ticks, 0⟩ : TickScan).settle = ⟨scan.isOpen, scan.ticks, 0⟩ := rfl
  have hcells : codeBits ⟨scan.isOpen, scan.ticks, 0⟩ (cellsFrom (isInsideFenceSpan · fences) i (unit :: rest)) =
      (scan.isOpen ::
          (codeBits ⟨scan.isOpen, scan.ticks, 0⟩ (cellsFrom (isInsideFenceSpan · fences) (i + 1) rest)).1,
        (codeBits ⟨scan.isOpen, scan.ticks, 0⟩ (cellsFrom (isInsideFenceSpan · fences) (i + 1) rest)).2) := by
    rw [cellsFrom, codeBits, tickStep_other _ hcell, hsettle, hinside, Bool.false_or]
  have hopen : isInsideInlineSpan i result.1 = scan.isOpen := by
    rw [h.before i (Nat.lt_succ_self i)]
    cases hscan : scan.isOpen with
    | false => rfl
    | true => simp [hstart hscan]
  refine ⟨?_, ?_, ?_⟩
  · rw [hcells]
    exact h.state
  · intro j hj
    exact h.before j (by omega)
  · rw [hcells, h.bits, List.length_cons, List.range'_succ, List.map_cons, hinside, hopen, Bool.false_or]

/-- Over a run of backticks; `next` is the scan behind it. -/
theorem Reads.run {i n : Nat} {scan next : InlineScan} {rest : JsString}
    {result whole : List (Nat × Nat) × InlineCodeState} (h : Reads fences (i + (n + 1)) next rest result)
    (hinside : isInsideFenceSpan i fences = false) (hrest : rest.head? ≠ some tick)
    (hchain : (cellsFrom (isInsideFenceSpan · fences) i (List.replicate (n + 1) tick ++ rest)).IsChain NoJump)
    (hnext : (⟨scan.isOpen, scan.ticks, n + 1⟩ : TickScan).settle = ⟨next.isOpen, next.ticks, 0⟩)
    (hstate : whole.2 = result.2)
    (hbefore : ∀ j, j < i → isInsideInlineSpan j whole.1 = (scan.isOpen && decide (scan.openStart ≤ j)))
    (hrun : ∀ j, i ≤ j → j < i + (n + 1) → isInsideInlineSpan j whole.1 = true)
    (hafter : ∀ j, i + (n + 1) ≤ j → isInsideInlineSpan j whole.1 = isInsideInlineSpan j result.1) :
    Reads fences i scan (List.replicate (n + 1) tick ++ rest) whole := by
  have hhead : (cellsFrom (isInsideFenceSpan · fences) (i + (n + 1)) rest).head? ≠ some plainTick := by
    cases rest with
    | nil => simp [cellsFrom]
    | cons unit rest =>
      intro heq
      exact hrest (congrArg some (congrArg Prod.fst (Option.some.inj heq)))
  have hcells := codeBits_run (n + 1) (cellsFrom (isInsideFenceSpan · fences) (i + (n + 1)) rest)
    ⟨scan.isOpen, scan.ticks, 0⟩
  rw [Nat.zero_add, ← cellsFrom_run n rest hinside hchain, ← codeBits_settle _ hhead, hnext] at hcells
  refine ⟨?_, hbefore, ?_⟩
  · rw [hcells, hstate]
    exact h.state
  · have hfront : (List.range' i (n + 1)).map
        (fun j => isInsideFenceSpan j fences || isInsideInlineSpan j whole.1) = List.replicate (n + 1) true := by
      apply map_true
      intro j hlow hhigh
      rw [hrun j hlow hhigh, Bool.or_true]
    have hback : (List.range' (i + (n + 1)) rest.length).map
        (fun j => isInsideFenceSpan j fences || isInsideInlineSpan j whole.1) =
        (List.range' (i + (n + 1)) rest.length).map
          fun j => isInsideFenceSpan j fences || isInsideInlineSpan j result.1 := by
      apply List.map_congr_left
      intro j hj
      rw [List.mem_range'_1] at hj
      rw [hafter j hj.1]
    rw [hcells, List.length_append, List.length_replicate, ← List.range'_append_1, List.map_append, hfront, hback,
      ← h.bits]

theorem isInsideInlineSpan_cons (j : Nat) (span : Nat × Nat) (spans : List (Nat × Nat)) :
    isInsideInlineSpan j (span :: spans) = ((span.1 ≤ j && j < span.2) || isInsideInlineSpan j spans) := rfl

/-- The loop at a run of backticks: it opens a span, closes the open one, or goes on. -/
theorem scanInline_run {i n : Nat} {scan : InlineScan} {rest : JsString} (hfence : findFenceSpanAtInclusive fences i = none)
    (hrest : rest.head? ≠ some tick) : scanInline fences i 0 scan (List.replicate (n + 1) tick ++ rest) =
      if !scan.isOpen then scanInline fences (i + (n + 1)) 0 ⟨true, n + 1, i⟩ rest else if n + 1 = scan.ticks then
        ((scan.openStart, i + (n + 1)) :: (scanInline fences (i + (n + 1)) 0 ⟨false, 0, 0⟩ rest).1,
          (scanInline fences (i + (n + 1)) 0 ⟨false, 0, 0⟩ rest).2)
      else scanInline fences (i + (n + 1)) 0 scan rest := by
  have htake : rest.takeWhile (· = tick) = [] := by
    cases rest with
    | nil => rfl
    | cons unit rest => exact List.takeWhile_cons_of_neg (by simpa using hrest)
  have hlength : ((List.replicate (n + 1) tick ++ rest).takeWhile (· = tick)).length = n + 1 := by
    rw [List.takeWhile_append_of_pos (by simp), htake, List.append_nil, List.length_replicate]
  have hskip : ∀ next, scanInline fences (i + 1) (n + 1 - 1) next (List.replicate n tick ++ rest) =
      scanInline fences (i + (n + 1)) 0 next rest := by
    intro next
    have hmin : min (n + 1 - 1) (List.replicate n tick ++ rest).length = n := by
      rw [List.length_append, List.length_replicate]
      omega
    rw [scanInline_skip, hmin, Nat.add_assoc, Nat.add_comm 1, List.drop_left' (List.length_replicate ..)]
  rw [List.replicate_succ, List.cons_append] at hlength ⊢
  rw [scanInline, hfence]
  dsimp only
  rw [if_neg (by simp), hlength, hskip, hskip, hskip]

/-- The loop reads a run of backticks if it reads what is behind it. -/
theorem scanInline_reads_run {i n : Nat} {scan : InlineScan} {rest : JsString}
    (hfence : findFenceSpanAtInclusive fences i = none) (hrest : rest.head? ≠ some tick)
    (hstart : scan.isOpen = true → scan.openStart ≤ i)
    (hchain : (cellsFrom (isInsideFenceSpan · fences) i (List.replicate (n + 1) tick ++ rest)).IsChain NoJump)
    (hbehind : ∀ next : InlineScan, (next.isOpen = true → next.openStart ≤ i + (n + 1)) →
      Reads fences (i + (n + 1)) next rest (scanInline fences (i + (n + 1)) 0 next rest)) :
    Reads fences i scan (List.replicate (n + 1) tick ++ rest)
      (scanInline fences i 0 scan (List.replicate (n + 1) tick ++ rest)) := by
  have hinside := findFence_none hfence
  rw [scanInline_run hfence hrest]
  cases hopen : scan.isOpen with
  | false =>
    -- the run opens a span
    have hread := hbehind ⟨true, n + 1, i⟩ fun _ => Nat.le_add_right _ _
    rw [Bool.not_false, if_pos rfl]
    apply hread.run hinside hrest hchain
    · simp [TickScan.settle, hopen]
    · rfl
    · intro j hj
      rw [hread.before j (by omega), hopen]
      simp
      omega
    · intro j hlow hhigh
      rw [hread.before j hhigh]
      simp [hlow]
    · exact fun _ _ => rfl
  | true =>
    rw [if_neg (by simp)]
    by_cases hticks : n + 1 = scan.ticks
    · -- the run closes the open span
      have hread := hbehind ⟨false, 0, 0⟩ fun h => absurd h (by simp)
      have hstartLe := hstart hopen
      rw [if_pos hticks]
      apply hread.run hinside hrest hchain
      · simp [TickScan.settle, hopen, hticks]
        omega
      · rfl
      · intro j hj
        rw [isInsideInlineSpan_cons, hread.before j (by omega), hopen]
        simp
        omega
      · intro j hlow hhigh
        rw [isInsideInlineSpan_cons]
        simp
        omega
      · intro j hlow
        rw [isInsideInlineSpan_cons]
        simp
        omega
    · -- a run of another length
      have hread := hbehind scan fun h => Nat.le_trans (hstart h) (Nat.le_add_right _ _)
      have hstartLe := hstart hopen
      rw [if_neg hticks]
      apply hread.run hinside hrest hchain
      · simp [TickScan.settle, hopen, hticks]
      · rfl
      · intro j hj
        exact hread.before j (by omega)
      · intro j hlow hhigh
        rw [hread.before j hhigh, hopen]
        simp
        omega
      · exact fun _ _ => rfl

theorem Reads.nil {i : Nat} {scan : InlineScan} : Reads fences i scan [] (scanInline fences i 0 scan []) := by
  refine ⟨rfl, ?_, rfl⟩
  intro j hj
  rw [scanInline]
  cases scan.isOpen with
  | false => rfl
  | true => simp [isInsideInlineSpan, hj]

theorem cellsFrom_chain_right {i : Nat} {front back : JsString} (h : (cellsFrom inside i (front ++
    back)).IsChain NoJump) : (cellsFrom inside (i + front.length) back).IsChain NoJump := by
  rw [cellsFrom_append] at h
  exact h.right_of_append

/-- **The loop reads the cells**, by induction on how much text is left. -/
theorem scanInline_bits (n : Nat) : ∀ (text : JsString) (i : Nat) (scan : InlineScan), text.length ≤ n →
    (scan.isOpen = true → scan.openStart ≤ i) → (cellsFrom (isInsideFenceSpan · fences) i text).IsChain NoJump →
    Reads fences i scan text (scanInline fences i 0 scan text) := by
  induction n with
  | zero =>
    intro text i scan hn _ _
    obtain rfl := List.length_eq_zero_iff.mp (Nat.le_zero.mp hn)
    exact Reads.nil
  | succ n ih =>
    intro text i scan hn hstart hchain
    cases text with
    | nil => exact Reads.nil
    | cons unit rest =>
      rw [List.length_cons] at hn
      cases hfence : findFenceSpanAtInclusive fences i with
      | some fence =>
        obtain ⟨hlt, hcover⟩ := findFence_some hfence
        obtain ⟨m, hm⟩ : ∃ m, m = min (fence.stop - i - 1) rest.length := ⟨_, rfl⟩
        have hblock : (unit :: rest.take m).length = m + 1 := by
          rw [List.length_cons, List.length_take]
          omega
        have htext : unit :: rest = (unit :: rest.take m) ++ rest.drop m := by
          rw [List.cons_append, List.take_append_drop]
        have hloop : scanInline fences i 0 scan (unit :: rest) =
            scanInline fences (i + (unit :: rest.take m).length) 0 scan (rest.drop m) := by
          rw [scanInline, hfence]
          dsimp only
          rw [scanInline_skip, ← hm, hblock, Nat.add_assoc, Nat.add_comm 1]
        rw [htext] at hchain
        rw [hloop, htext]
        apply Reads.fence
        · apply ih
          · rw [List.length_drop]
            omega
          · intro hopen
            have := hstart hopen
            omega
          · exact cellsFrom_chain_right hchain
        · intro j hlow hhigh
          exact hcover j hlow (by omega)
      | none =>
        have hinside := findFence_none hfence
        by_cases hunit : unit = tick
        · obtain ⟨k, after, htext, -, hafter⟩ := @run_split (unit :: rest) (congrArg some hunit)
          rw [htext] at hchain ⊢
          have hlength : after.length ≤ n := by
            have := congrArg List.length htext
            rw [List.length_append, List.length_replicate, List.length_cons] at this
            omega
          have hright := cellsFrom_chain_right hchain
          rw [List.length_replicate] at hright
          exact scanInline_reads_run hfence hafter hstart hchain fun next hnext => ih after _ next hlength hnext hright
        · have hread := ih rest (i + 1) scan (by omega) (fun h => Nat.le_trans (hstart h) (Nat.le_succ i)) hchain.tail
          have hloop : scanInline fences i 0 scan (unit :: rest) = scanInline fences (i + 1) 0 scan rest := by
            rw [scanInline, hfence]
            dsimp only
            rw [if_pos hunit]
          rw [hloop]
          exact hread.plain hstart hunit hinside

end Loop

/-! ## One call -/

/-- The scan that an inline state stands for. -/
def InlineCodeState.scan (state : InlineCodeState) : TickScan := ⟨state.isOpen, state.ticks, 0⟩

/-- The state behind a settled scan. -/
def TickScan.state (scan : TickScan) : InlineCodeState := ⟨scan.isOpen, scan.ticks⟩

theorem state_scan {scan : TickScan} (h : scan.run = 0) : scan.state.scan = scan := by
  cases scan
  subst h
  rfl

theorem chain_const (value : Bool) (raw : JsString) : (raw.map fun unit => (unit, value)).IsChain NoJump := by
  have hpair : ∀ left right : CodeUnit, NoJump (left, value) (right, value) := by
    rintro left right ⟨hleft, hright⟩
    have hfalse : value = false := congrArg Prod.snd hleft
    have htrue : value = true := congrArg Prod.snd hright
    rw [hfalse] at htrue
    contradiction
  apply List.Pairwise.isChain
  rw [List.pairwise_map]
  exact List.pairwise_of_forall hpair

/-- A newline stands between a fence and what is in front of it. -/
theorem fenceCells_chain (lines : List JsString) : ∀ atLineStart opener,
    (fenceCells atLineStart opener lines).1.IsChain NoJump := by
  have hnewline : newline ≠ tick := by decide
  induction lines with
  | nil => exact fun _ _ => List.isChain_nil
  | cons raw rest ih =>
    intro atLineStart opener
    cases rest with
    | nil => exact chain_const _ raw
    | cons next rest =>
      rw [fenceCells, List.isChain_append, List.isChain_cons]
      refine ⟨chain_const _ raw, ⟨?_, ih _ _⟩, ?_⟩
      · rintro right - ⟨hleft, -⟩
        exact hnewline (congrArg Prod.fst hleft)
      · rintro left - right hright ⟨-, htick⟩
        obtain rfl : (newline, _) = right := by simpa using hright
        exact hnewline (congrArg Prod.fst htick)

theorem codeBits_settled (cells : List Cell) : ∀ scan, (codeBits scan cells).2.run = 0 := by
  induction cells with
  | nil => exact settle_run
  | cons cell rest ih => exact fun scan => ih _

/-- **One call**: the classes and the inline state are those of the cells. -/
theorem buildCodeSpanIndex_bits (text : JsString) (inlineState : Option InlineCodeState)
    (fenceState : Option FenceScanState) : (buildCodeSpanIndex text inlineState fenceState).classes text =
        (codeBits (inlineState.getD createInlineCodeState).scan (bufferCells fenceState text).1).1 ∧
      (buildCodeSpanIndex text inlineState fenceState).inlineState =
        (codeBits (inlineState.getD createInlineCodeState).scan (bufferCells fenceState text).1).2.state := by
  have hcells := (scanFenceSpans_cells text fenceState).1
  have hread := @scanInline_bits (scanFenceSpans text fenceState).1 text.length text 0
    ⟨(inlineState.getD createInlineCodeState).isOpen, (inlineState.getD createInlineCodeState).ticks, 0⟩ (Nat.le_refl _)
    (fun _ => Nat.le_refl 0) (by rw [hcells]; exact fenceCells_chain _ _ _)
  have hbits := hread.bits
  have hstate := hread.state
  rw [hcells] at hbits hstate
  constructor
  · rw [CodeSpanIndex.classes, List.range_eq_range']
    exact hbits.symm
  · exact hstate

/-! ## Two calls -/

theorem bufferCells_text (state : Option FenceScanState) (text : JsString) :
    (bufferCells state text).1.map Prod.fst = text := by
  have hmap : ∀ (inside : Nat → Bool) (text : JsString) (i : Nat), (cellsFrom inside i text).map Prod.fst = text := by
    intro inside text
    induction text with
    | nil => exact fun _ => rfl
    | cons unit rest ih =>
      intro i
      rw [cellsFrom, List.map_cons, ih]
  rw [bufferCells, ← (scanFenceSpans_cells text state).1, hmap]

/-- A cut that falls neither into a run of backticks nor into a line that a fence marker begins. -/
structure GoodCut (x y : JsString) : Prop where
  run : ¬ (x.getLast? = some tick ∧ y.head? = some tick)
  line : HarmlessCut (lastLine x) (firstLine y)

/-- Two calls, the second with the states of the first, are one on the whole text. -/
theorem buildCodeSpanIndex_append {inlineState : Option InlineCodeState} {fenceState : Option FenceScanState}
    (hstart : startsLine fenceState = true) {x y : JsString} (h : GoodCut x y) :
    let first := buildCodeSpanIndex x inlineState fenceState
    let second := buildCodeSpanIndex y (some first.inlineState) (some first.fenceState)
    let whole := buildCodeSpanIndex (x ++ y) inlineState fenceState
    whole.classes (x ++ y) = first.classes x ++ second.classes y ∧ whole.inlineState = second.inlineState ∧
      whole.fenceState = second.fenceState := by
  intro first second whole
  obtain ⟨hfirst, hfirstState⟩ := buildCodeSpanIndex_bits x inlineState fenceState
  obtain ⟨hsecond, hsecondState⟩ := buildCodeSpanIndex_bits y (some first.inlineState) (some first.fenceState)
  obtain ⟨hwhole, hwholeState⟩ := buildCodeSpanIndex_bits (x ++ y) inlineState fenceState
  have hcut : ¬ ((bufferCells fenceState x).1.getLast? = some plainTick ∧
      (bufferCells (some first.fenceState) y).1.head? = some plainTick) := by
    rintro ⟨hlast, hhead⟩
    apply h.run
    rw [← bufferCells_text fenceState x, ← bufferCells_text (some first.fenceState) y, List.getLast?_map, hlast,
      List.head?_map, hhead]
    exact ⟨rfl, rfl⟩
  have hscan := codeBits_append _ _ (inlineState.getD createInlineCodeState).scan hcut fun _ => rfl
  have hcells : (bufferCells fenceState (x ++ y)).1 =
      (bufferCells fenceState x).1 ++ (bufferCells (some first.fenceState) y).1 := by
    rw [bufferCells_append hstart h.line]
    rfl
  have hbehind : first.inlineState.scan = (codeBits (inlineState.getD createInlineCodeState).scan
      (bufferCells fenceState x).1).2 := by
    rw [hfirstState, state_scan (codeBits_settled _ _)]
  rw [hcells, hscan, ← hbehind] at hwhole hwholeState
  refine ⟨?_, ?_, ?_⟩
  · rw [hwhole, hfirst, hsecond]
    rfl
  · exact hwholeState.trans hsecondState.symm
  · exact scanFenceSpans_append hstart h.line

/-! ## Pieces -/

/-- No cut of the text falls into a run of backticks or into a line that a fence marker begins.  A line goes up to
its newline; the carriage return in front of one belongs to it. -/
def GoodSplit (pieces : List JsString) : Prop :=
  ∀ before after, pieces = before ++ after → GoodCut before.flatten after.flatten

theorem firstLine_append_prefix (x y : JsString) : ∃ more, firstLine (x ++ y) = firstLine x ++ more := by
  obtain ⟨before, after, hx, -, hxy⟩ := splitOn_append x y
  cases before with
  | nil =>
    have hfirst : firstLine x = lastLine x := by
      rw [firstLine, hx]
      rfl
    refine ⟨firstLine y, ?_⟩
    rw [hfirst, firstLine, hxy]
    rfl
  | cons first before =>
    have hfirst : firstLine x = first := by
      rw [firstLine, hx]
      rfl
    refine ⟨[], ?_⟩
    rw [hfirst, firstLine, hxy, List.append_nil]
    rfl

/-- A cut stays good when the text behind it ends earlier. -/
theorem GoodCut.shorten {x y z : JsString} (h : GoodCut x (y ++ z)) : GoodCut x y := by
  refine ⟨?_, ?_⟩
  · rintro ⟨hlast, hhead⟩
    refine h.run ⟨hlast, ?_⟩
    rw [List.head?_append, hhead]
    rfl
  · obtain ⟨more, hmore⟩ := firstLine_append_prefix y z
    rcases h.line with hleft | hright | hplain
    · exact Or.inl hleft
    · rw [hmore] at hright
      exact Or.inr (Or.inl (List.append_eq_nil_iff.mp hright).1)
    · refine Or.inr (Or.inr ?_)
      intro hbegins
      apply hplain
      rw [hmore, ← List.append_assoc]
      exact hbegins.append more

theorem GoodSplit.init {pieces : List JsString} {last : JsString} (h : GoodSplit (pieces ++ [last])) : GoodSplit pieces := by
  intro before after hpieces
  have hcut := h before (after ++ [last]) (by rw [hpieces, List.append_assoc])
  rw [List.flatten_append] at hcut
  exact hcut.shorten

theorem feedPieces_append (front : List JsString) (last : JsString) : ∀ inlineState fenceState,
    feedPieces inlineState fenceState (front ++ [last]) =
      let fed := feedPieces inlineState fenceState front
      let index := buildCodeSpanIndex last fed.2.1 fed.2.2
      (fed.1 ++ index.classes last, some index.inlineState, some index.fenceState) := by
  induction front with
  | nil =>
    intro inlineState fenceState
    simp [feedPieces]
  | cons piece front ih =>
    intro inlineState fenceState
    simp only [List.cons_append, feedPieces, ih, List.append_assoc]

/-- **Scanning a text in pieces is scanning it whole**: the classes of all characters are the same, and so are the
states at the end. -/
theorem feedPieces_whole {first : JsString} {rest : List JsString} (h : GoodSplit (first :: rest)) :
    feedPieces none none (first :: rest) =
      let text := (first :: rest).flatten
      let index := buildCodeSpanIndex text none none
      (index.classes text, some index.inlineState, some index.fenceState) := by
  induction rest using List.reverseRecOn with
  | nil => simp [feedPieces]
  | append_singleton rest last ih =>
    have hcut := h (first :: rest) [last] rfl
    rw [List.flatten_singleton] at hcut
    have hboth := @buildCodeSpanIndex_append none none rfl (first :: rest).flatten last hcut
    have hfront := ih (GoodSplit.init h)
    rw [← List.cons_append, feedPieces_append, hfront, List.flatten_append, List.flatten_singleton]
    dsimp only at hboth ⊢
    rw [hboth.1, hboth.2.1, hboth.2.2]

/-! ## A text in three pieces -/

/-- A cut inside of an inline span, and one between the text of a fence line and its newline. -/
theorem goodSplit_example : GoodSplit [units "a `b", units "c`\n~~~", units "\nd\n~~~\n"] := by
  have hplain : ¬ BeginsWithFence (units "a `bc`") := by
    rintro ⟨indent, char, rest, hline, -, hindent, hchar⟩
    have hhead : (units "a `bc`").head? = some (unitOf 'a') := by decide
    cases indent with
    | nil =>
      rw [hline] at hhead
      obtain rfl : char = unitOf 'a' := by simpa using hhead
      revert hchar
      decide
    | cons unit indent =>
      rw [hline] at hhead
      obtain rfl : unit = unitOf 'a' := by simpa using hhead
      have hspace := hindent _ List.mem_cons_self
      revert hspace
      decide
  intro before after hpieces
  rcases before with _ | ⟨first, _ | ⟨second, _ | ⟨third, more⟩⟩⟩
  · exact ⟨fun h => absurd h.1 (by decide), Or.inl (by decide)⟩
  · obtain ⟨rfl, rfl⟩ := List.cons.inj hpieces
    exact ⟨fun h => absurd h.1 (by decide), Or.inr (Or.inr hplain)⟩
  · obtain ⟨rfl, hrest⟩ := List.cons.inj hpieces
    obtain ⟨rfl, rfl⟩ := List.cons.inj hrest
    exact ⟨fun h => absurd h.1 (by decide), Or.inr (Or.inl (by decide))⟩
  · obtain ⟨rfl, hrest⟩ := List.cons.inj hpieces
    obtain ⟨rfl, hlast⟩ := List.cons.inj hrest
    obtain ⟨rfl, hnil⟩ := List.cons.inj hlast
    obtain ⟨rfl, rfl⟩ := List.nil_eq_append_iff.mp hnil
    exact ⟨fun h => absurd h.2 (by decide), Or.inr (Or.inl (by decide))⟩

/-- `feedPieces_whole` for these pieces. -/
theorem feedPieces_whole_example :
    feedPieces none none [units "a `b", units "c`\n~~~", units "\nd\n~~~\n"] =
      let text := [units "a `b", units "c`\n~~~", units "\nd\n~~~\n"].flatten
      let index := buildCodeSpanIndex text none none
      (index.classes text, some index.inlineState, some index.fenceState) :=
  feedPieces_whole goodSplit_example

end OpenClaw.MarkdownCore
