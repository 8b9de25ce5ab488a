/-
# OpenClaw.MarkdownCore.ChunkText -- a text in pieces of bounded size

`chunkTextRanges` and `chunkText` cut a text into pieces of at most `limit` units.  Each looks for a readable place
to cut within the next `limit` units, and a cut that would come between two surrogates is moved.  Wherever the place
is, the cut is behind the start and at most `limit` units away (`avoid_spec`); so the loops end, and nothing is lost.

This follows `chunk-text.ts` and `avoidTrailingHighSurrogateBreak` of `utf16-slice.ts`.
-/
import Mathlib
import OpenClaw.Data.JsText
import OpenClaw.Data.Utf16Bytes
import OpenClaw.Logic.Loop

namespace OpenClaw.MarkdownCore

open OpenClaw.Data OpenClaw.Logic

/-! ## Cuts -/

/-- A position is a natural number, or any number that is used as one; `charCodeAt` reads the text there. -/
def avoidTrailingHighSurrogateBreak {α : Type} [LT α] [LE α] [DecidableLT α] [DecidableLE α] [Add α] [Sub α] [One α]
    (charCodeAt : α → Option CodeUnit) (length start stop : α) : α :=
  if stop ≤ start || length ≤ stop || !(charCodeAt (stop - 1)).any isLeadSurrogate ||
      !(charCodeAt stop).any isTrailSurrogate then stop
  else
    let adjusted := stop - 1
    if start < adjusted then adjusted else stop + 1

/-- The same for whole numbers. -/
def avoidBreak (text : JsString) (start stop : Nat) : Nat :=
  avoidTrailingHighSurrogateBreak (fun i => text[i]?) text.length start stop

/-- No surrogate pair is split at `i`. -/
def CutAt (text : JsString) (i : Nat) : Prop := Parted (text.take i) (text.drop i)

variable {text : JsString}

theorem cutAt_of_not_lead {i : Nat} (h : (text[i - 1]?).any isLeadSurrogate = false) : CutAt text i := by
  cases i with
  | zero => exact parted_nil_left _
  | succ i =>
    by_cases hlength : i < text.length
    · apply Parted.of_not_lead
      intro x hx
      have htake : (text.take (i + 1)).getLast? = some text[i] := by
        rw [List.take_add_one, List.getElem?_eq_getElem hlength, Option.toList_some, List.getLast?_concat]
      rw [htake] at hx
      rw [Nat.add_sub_cancel, List.getElem?_eq_getElem hlength, Option.any_some] at h
      exact (Option.some.inj hx) ▸ h
    · rw [CutAt, List.drop_of_length_le (by omega)]
      exact parted_nil_right _

theorem cutAt_of_not_trail {i : Nat} (h : (text[i]?).any isTrailSurrogate = false) : CutAt text i := by
  apply Parted.of_not_trail
  intro y hy
  rw [List.head?_drop] at hy
  rw [hy] at h
  exact h

theorem cutAt_of_end {i : Nat} (h : text.length ≤ i) : CutAt text i := by
  rw [CutAt, List.drop_of_length_le h]
  exact parted_nil_right _

theorem not_lead_of_trail {unit : CodeUnit} (h : isTrailSurrogate unit = true) : isLeadSurrogate unit = false := by
  cases hlead : isLeadSurrogate unit with
  | false => rfl
  | true =>
    rw [not_trail_of_lead hlead] at h
    contradiction

/-- **A moved cut** is behind the start, at the old cut or before it or two units from the start, and splits no
pair. -/
theorem avoid_spec {start stop : Nat} (hstart : start < stop) (hstop : stop ≤ text.length) :
    start < avoidBreak text start stop ∧ avoidBreak text start stop ≤ text.length ∧
      avoidBreak text start stop ≤ max stop (start + 2) ∧ CutAt text (avoidBreak text start stop) := by
  unfold avoidBreak avoidTrailingHighSurrogateBreak
  split
  case isTrue hkept =>
    refine ⟨hstart, hstop, Nat.le_max_left _ _, ?_⟩
    simp only [Bool.or_eq_true, decide_eq_true_eq, Bool.not_eq_true'] at hkept
    rcases hkept with ((hle | hend) | hlead) | htrail
    · omega
    · exact cutAt_of_end hend
    · exact cutAt_of_not_lead hlead
    · exact cutAt_of_not_trail htrail
  case isFalse hmoved =>
    simp only [Bool.or_eq_true, decide_eq_true_eq, Bool.not_eq_true', not_or, Bool.not_eq_false] at hmoved
    obtain ⟨⟨⟨-, hend⟩, hlead⟩, htrail⟩ := hmoved
    dsimp only
    split
    case isTrue hadjusted =>
      refine ⟨hadjusted, by omega, by omega, ?_⟩
      -- the unit behind the cut is the lead of the pair
      apply cutAt_of_not_trail
      obtain ⟨unit, hunit, hisLead⟩ := (Option.any_eq_true _ _).mp hlead
      rw [hunit, Option.any_some]
      exact not_trail_of_lead hisLead
    case isFalse hadjusted =>
      refine ⟨by omega, by omega, by omega, ?_⟩
      -- the unit before the cut is the trail of the pair
      apply cutAt_of_not_lead
      obtain ⟨unit, hunit, hisTrail⟩ := (Option.any_eq_true _ _).mp htrail
      rw [Nat.add_sub_cancel, hunit, Option.any_some]
      exact not_lead_of_trail hisTrail

/-! ## Ranges -/

structure TextChunkRange where
  start : Nat
  stop : Nat

inductive ChunkMode where
  | hard
  | preferred
  deriving DecidableEq

/-- The length of a match of `/\n[\t ]*\n+/` at the beginning. -/
def paragraphBreak : JsString → Option Nat
  | [] => none
  | first :: rest =>
    let blank := rest.takeWhile fun unit => unit = unitOf '\t' || unit = unitOf ' '
    let newlines := (rest.drop blank.length).takeWhile fun unit => unit = unitOf '\n'
    if first = unitOf '\n' && newlines ≠ [] then some (1 + blank.length + newlines.length) else none

/-- The end of the last match; `skip` units belong to the match before. -/
def lastParagraphEnd : Nat → Nat → JsString → Option Nat → Option Nat
  | _, _, [], last => last
  | skip + 1, offset, _ :: rest, last => lastParagraphEnd skip (offset + 1) rest last
  | 0, offset, unit :: rest, last =>
    match paragraphBreak (unit :: rest) with
    | some length => lastParagraphEnd (length - 1) (offset + 1) rest (some (offset + length))
    | none => lastParagraphEnd 0 (offset + 1) rest last

/-- `text.lastIndexOf("\n", stop - 1)` -/
def lastNewlineBefore (text : JsString) : Nat → Option Nat
  | 0 => none
  | index + 1 => if text[index]? = some (unitOf '\n') then some index else lastNewlineBefore text index

/-- The loop from `stop - 1` down to `start`. -/
def lastWhitespaceEnd (text : JsString) (start : Nat) : Nat → Option Nat
  | 0 => none
  | index + 1 =>
    if start < index then
      if (text[index]?).any isWhiteUnit then some (index + 1) else lastWhitespaceEnd text start index
    else none

def findPreferredRangeEnd (text : JsString) (start stop : Nat) : Option Nat :=
  match lastParagraphEnd 0 0 ((text.take stop).drop start) none with
  | some paragraphEnd => some (start + paragraphEnd)
  | none =>
    match lastNewlineBefore text stop with
    | some newlineIndex => if start ≤ newlineIndex then some (newlineIndex + 1) else lastWhitespaceEnd text start stop
    | none => lastWhitespaceEnd text start stop

/-- The place that is chosen for the next cut. -/
def candidateEnd (text : JsString) (limit : Nat) (mode : ChunkMode) (start : Nat) : Nat :=
  let maxEnd := min text.length (start + limit)
  let preferredEnd :=
    if mode = .preferred && maxEnd < text.length then findPreferredRangeEnd text start maxEnd else none
  match preferredEnd with
  | some preferredEnd => if start < preferredEnd then preferredEnd else maxEnd
  | none => maxEnd

/-- One turn of the loop; the state is `start` and `ranges`. -/
def rangeTurn (text : JsString) (limit : Nat) (mode : ChunkMode) (state : Nat × List TextChunkRange) :
    Turn (Nat × List TextChunkRange) (List TextChunkRange) :=
  let (start, ranges) := state
  if start < text.length then
    let stop := avoidBreak text start (candidateEnd text limit mode start)
    .goOn (stop, ranges ++ [⟨start, stop⟩])
  else .leave ranges

def chunkTextRanges (text : JsString) (limit : Nat) (mode : ChunkMode) (n : Nat) : Option (List TextChunkRange) :=
  if text = [] then some []
  else if limit = 0 || text.length ≤ limit then some [⟨0, text.length⟩]
  else turns (rangeTurn text limit mode) n (0, [])

/-- **The ranges tile the text** from `start` on: each begins where the one before stops, has at most `limit` units,
and stops where no pair is split. -/
inductive TilesFrom (text : JsString) (limit : Nat) : Nat → List TextChunkRange → Prop
  | done : TilesFrom text limit text.length []
  | range {start stop : Nat} {rest : List TextChunkRange} (hstart : start < stop) (hsize : stop ≤ start + limit)
      (hcut : CutAt text stop) (hrest : TilesFrom text limit stop rest) : TilesFrom text limit start (⟨start, stop⟩ :: rest)

theorem lastParagraphEnd_le (text : JsString) : ∀ {skip offset : Nat} {last : Option Nat} {found : Nat},
    (∀ e ∈ last, e ≤ offset + text.length) → lastParagraphEnd skip offset text last = some found →
    found ≤ offset + text.length := by
  induction text with
  | nil =>
    intro skip offset last found hlast h
    have hlast' : lastParagraphEnd skip offset [] last = last := by cases skip <;> rfl
    rw [hlast'] at h
    exact hlast found h
  | cons unit rest ih =>
    intro skip offset last found hlast h
    rw [List.length_cons] at hlast ⊢
    cases skip with
    | succ skip =>
      rw [lastParagraphEnd] at h
      have hfound := ih (fun e he => by have := hlast e he; omega) h
      omega
    | zero =>
      rw [lastParagraphEnd] at h
      split at h
      case h_1 length hlength =>
        have hfits : length ≤ rest.length + 1 := by
          unfold paragraphBreak at hlength
          dsimp only at hlength
          split at hlength
          · have hblank := (List.takeWhile_sublist (p := fun unit => unit = unitOf '\t' || unit = unitOf ' ')
              (l := rest)).length_le
            obtain rfl := Option.some.inj hlength
            have hnewlines := (List.takeWhile_sublist (p := fun unit => decide (unit = unitOf '\n'))
              (l := rest.drop (rest.takeWhile fun unit => unit = unitOf '\t' || unit = unitOf ' ').length)).length_le
            rw [List.length_drop] at hnewlines
            omega
          · contradiction
        have hfound := ih (fun e he => by obtain rfl := Option.some.inj he; omega) h
        omega
      case h_2 =>
        have hfound := ih (fun e he => by have := hlast e he; omega) h
        omega

theorem lastNewlineBefore_lt {stop index : Nat} (h : lastNewlineBefore text stop = some index) : index < stop := by
  induction stop with
  | zero => contradiction
  | succ stop ih =>
    rw [lastNewlineBefore] at h
    split at h
    · obtain rfl := Option.some.inj h
      exact Nat.lt_succ_self _
    · exact Nat.lt_succ_of_lt (ih h)

theorem lastWhitespaceEnd_le {start stop found : Nat} (h : lastWhitespaceEnd text start stop = some found) :
    found ≤ stop := by
  induction stop with
  | zero => contradiction
  | succ stop ih =>
    rw [lastWhitespaceEnd] at h
    split at h
    · split at h
      · obtain rfl := Option.some.inj h
        exact Nat.le_refl _
      · exact Nat.le_succ_of_le (ih h)
    · contradiction

theorem findPreferredRangeEnd_le {start stop found : Nat} (hstart : start ≤ stop) (hstop : stop ≤ text.length)
    (h : findPreferredRangeEnd text start stop = some found) : found ≤ stop := by
  unfold findPreferredRangeEnd at h
  split at h
  case h_1 paragraphEnd hparagraph =>
    have hle := lastParagraphEnd_le _ (fun e he => by contradiction) hparagraph
    rw [List.length_drop, List.length_take, Nat.min_eq_left hstop] at hle
    obtain rfl := Option.some.inj h
    omega
  case h_2 =>
    split at h
    case h_1 newlineIndex hnewline =>
      split at h
      · obtain rfl := Option.some.inj h
        exact lastNewlineBefore_lt hnewline
      · exact lastWhitespaceEnd_le h
    case h_2 => exact lastWhitespaceEnd_le h

theorem candidateEnd_spec {limit : Nat} (hlimit : 0 < limit) (mode : ChunkMode) {start : Nat}
    (hstart : start < text.length) : start < candidateEnd text limit mode start ∧
      candidateEnd text limit mode start ≤ min text.length (start + limit) := by
  have hmax : start < min text.length (start + limit) := by omega
  unfold candidateEnd
  dsimp only
  split
  case h_1 preferredEnd hpreferred =>
    split at hpreferred
    · have hle := findPreferredRangeEnd_le hmax.le (Nat.min_le_left _ _) hpreferred
      split
      case isTrue hbehind => exact ⟨hbehind, hle⟩
      case isFalse => exact ⟨hmax, Nat.le_refl _⟩
    · contradiction
  case h_2 => exact ⟨hmax, Nat.le_refl _⟩

/-- **`chunkTextRanges` returns, and its ranges tile the text.** -/
theorem chunkTextRanges_tiles (text : JsString) {limit : Nat} (hlimit : 2 ≤ limit) (mode : ChunkMode) :
    ∃ ranges, Returns (chunkTextRanges text limit mode) ranges ∧ TilesFrom text limit 0 ranges := by
  by_cases hempty : text = []
  · refine ⟨[], ⟨0, if_pos hempty⟩, ?_⟩
    rw [hempty]
    exact .done
  · by_cases hshort : text.length ≤ limit
    · refine ⟨[⟨0, text.length⟩], ⟨0, ?_⟩, ?_⟩
      · rw [chunkTextRanges, if_neg hempty, if_pos]
        rw [Bool.or_eq_true, decide_eq_true_eq, decide_eq_true_eq]
        exact Or.inr hshort
      · exact .range (List.length_pos_iff.mpr hempty) (by omega) (cutAt_of_end (Nat.le_refl _)) .done
    · have hloop := @ends_of_variant _ _ (rangeTurn text limit mode) (fun state => state.1 ≤ text.length)
        (fun state ranges => ∃ more, ranges = state.2 ++ more ∧ TilesFrom text limit state.1 more)
        (fun state => text.length - state.1) ?_ ?_ (0, []) (Nat.zero_le _)
      · obtain ⟨ranges, ⟨n, hn⟩, more, hranges, htiles⟩ := hloop
        refine ⟨ranges, ⟨n, ?_⟩, ?_⟩
        · rw [chunkTextRanges, if_neg hempty, if_neg]
          · exact hn
          · rw [Bool.or_eq_true, decide_eq_true_eq, decide_eq_true_eq]
            omega
        · rw [hranges]
          exact htiles
      · rintro ⟨start, ranges⟩ result hstart hturn
        unfold rangeTurn at hturn
        dsimp only at hturn hstart
        split at hturn
        · contradiction
        case isFalse hend =>
          obtain rfl := Turn.leave.inj hturn
          refine ⟨[], (List.append_nil _).symm, ?_⟩
          rw [show start = text.length by omega]
          exact .done
      · rintro ⟨start, ranges⟩ next hstart hturn
        unfold rangeTurn at hturn
        dsimp only at hturn hstart
        split at hturn
        case isTrue hmore =>
          obtain rfl := Turn.goOn.inj hturn
          obtain ⟨hbehind, hwithin⟩ := candidateEnd_spec (show 0 < limit by omega) mode hmore
          have hcandidate : candidateEnd text limit mode start ≤ text.length := hwithin.trans (Nat.min_le_left _ _)
          obtain ⟨hprogress, hinside, hnear, hcut⟩ := avoid_spec hbehind hcandidate
          refine ⟨hinside, by dsimp only; omega, ?_⟩
          rintro result ⟨more, hresult, htiles⟩
          refine ⟨_, ?_, .range hprogress (by omega) hcut htiles⟩
          rw [hresult, List.append_assoc]
          rfl
        · contradiction

/-! ## Chunks -/

/-- **The chunks are the text** but for white space in front of a chunk or behind the last one.  Each has at most
`limit` units, and no pair is split behind it; in front of it stands white space or the chunk before. -/
inductive ChunksOf (limit : Nat) : JsString → List JsString → Prop
  | done {gap : JsString} (hgap : gap.all isWhiteUnit = true) : ChunksOf limit gap []
  | chunk {gap chunk rest : JsString} {chunks : List JsString} (hgap : gap.all isWhiteUnit = true)
      (hsize : chunk.length ≤ limit) (hcut : Parted chunk rest) (hrest : ChunksOf limit rest chunks) :
      ChunksOf limit (gap ++ (chunk ++ rest)) (chunk :: chunks)

/-- White space may stand in front. -/
theorem ChunksOf.space {limit : Nat} {text white : JsString} {chunks : List JsString} (h : ChunksOf limit text chunks)
    (hwhite : white.all isWhiteUnit = true) : ChunksOf limit (white ++ text) chunks := by
  cases h with
  | done hgap =>
    apply ChunksOf.done
    rw [List.all_append, hwhite, hgap, Bool.and_self]
  | chunk hgap hsize hcut hrest =>
    rw [← List.append_assoc]
    apply ChunksOf.chunk _ hsize hcut hrest
    rw [List.all_append, hwhite, hgap, Bool.and_self]

/-- A text that is short enough is its own chunk. -/
theorem ChunksOf.whole {limit : Nat} (h : text.length ≤ limit) : ChunksOf limit text [text] := by
  have hchunk := @ChunksOf.chunk limit [] text [] [] rfl h (parted_nil_right text) (.done rfl)
  rw [List.nil_append, List.append_nil] at hchunk
  exact hchunk

theorem parted_of_append {a b c : JsString} (h : Parted (a ++ b) c) : Parted b c := by
  intro x hx
  apply h x
  rw [Option.mem_def] at hx ⊢
  rw [List.getLast?_append, hx]
  rfl

theorem all_takeWhile {α : Type} {p : α → Bool} (l : List α) : (l.takeWhile p).all p = true := by
  rw [List.all_eq_true]
  intro x hx
  exact List.mem_takeWhile_imp hx

/-! ### `chunkText` -/

structure Breakpoints where
  lastNewline : Int := -1
  lastWhitespace : Int := -1

/-- The loop from `i` on, `depth` parentheses deep. -/
def scanBreakpoints : Nat → Nat → Breakpoints → JsString → Breakpoints
  | _, _, found, [] => found
  | i, depth, found, char :: rest =>
    if char = unitOf '(' then scanBreakpoints (i + 1) (depth + 1) found rest
    else if char = unitOf ')' && 0 < depth then scanBreakpoints (i + 1) (depth - 1) found rest
    else if depth ≠ 0 then scanBreakpoints (i + 1) depth found rest
    else if char = unitOf '\n' then scanBreakpoints (i + 1) depth { found with lastNewline := i } rest
    else if isWhiteUnit char then scanBreakpoints (i + 1) depth { found with lastWhitespace := i } rest
    else scanBreakpoints (i + 1) depth found rest

def scanParenAwareBreakpoints (text : JsString) : Breakpoints := scanBreakpoints 0 0 {} text

/-- The place that is chosen for the end of the next chunk. -/
def breakEnd (text : JsString) (limit cursor : Nat) : Nat :=
  let windowEnd := min text.length (cursor + limit)
  let found := scanParenAwareBreakpoints ((text.take windowEnd).drop cursor)
  let breakOffset := if 0 < found.lastNewline then found.lastNewline else found.lastWhitespace
  if 0 < breakOffset then cursor + breakOffset.toNat else windowEnd

/-- One turn of the loop; the state is `cursor` and `chunks`. -/
def chunkTurn (text : JsString) (limit : Nat) (state : Nat × List JsString) :
    Turn (Nat × List JsString) (List JsString) :=
  let (cursor, chunks) := state
  if cursor < text.length then
    if text.length - cursor ≤ limit then .leave (chunks ++ [text.drop cursor])
    else
      let stop := avoidBreak text cursor (breakEnd text limit cursor)
      .goOn (stop + ((text.drop stop).takeWhile isWhiteUnit).length, chunks ++ [(text.take stop).drop cursor])
  else .leave chunks

def resolveChunkEarlyReturn (text : JsString) (limit : Nat) : Option (List JsString) :=
  if text = [] then some []
  else if limit = 0 then some [text]
  else if text.length ≤ limit then some [text]
  else none

def chunkText (text : JsString) (limit n : Nat) : Option (List JsString) :=
  match resolveChunkEarlyReturn text limit with
  | some early => some early
  | none => turns (chunkTurn text limit) n (0, [])

theorem scanBreakpoints_lt (window : JsString) : ∀ {i depth : Nat} {found : Breakpoints},
    found.lastNewline < i → found.lastWhitespace < i →
    (scanBreakpoints i depth found window).lastNewline < i + window.length ∧
      (scanBreakpoints i depth found window).lastWhitespace < i + window.length := by
  induction window with
  | nil =>
    intro i depth found hnewline hwhite
    rw [scanBreakpoints, List.length_nil]
    omega
  | cons char rest ih =>
    intro i depth found hnewline hwhite
    have hnext : ∀ {depth' : Nat} {found' : Breakpoints}, found'.lastNewline < (i + 1 : Nat) →
        found'.lastWhitespace < (i + 1 : Nat) →
        (scanBreakpoints (i + 1) depth' found' rest).lastNewline < i + (char :: rest).length ∧
          (scanBreakpoints (i + 1) depth' found' rest).lastWhitespace < i + (char :: rest).length := by
      intro depth' found' hnewline' hwhite'
      have hrest := @ih (i + 1) depth' found' hnewline' hwhite'
      rw [List.length_cons]
      push_cast at hrest ⊢
      omega
    rw [scanBreakpoints]
    split
    · exact hnext (by omega) (by omega)
    · split
      · exact hnext (by omega) (by omega)
      · split
        · exact hnext (by omega) (by omega)
        · split
          · exact hnext (by dsimp only; omega) (by dsimp only; omega)
          · split
            · exact hnext (by dsimp only; omega) (by dsimp only; omega)
            · exact hnext (by omega) (by omega)

theorem breakEnd_spec {limit cursor : Nat} (hlimit : 0 < limit) (hcursor : cursor < text.length) :
    cursor < breakEnd text limit cursor ∧ breakEnd text limit cursor ≤ min text.length (cursor + limit) := by
  obtain ⟨window, hwindow⟩ : ∃ window, window = (text.take (min text.length (cursor + limit))).drop cursor := ⟨_, rfl⟩
  have hlength : window.length = min text.length (cursor + limit) - cursor := by
    rw [hwindow, List.length_drop, List.length_take]
    omega
  obtain ⟨hnewline, hwhite⟩ :
      (scanParenAwareBreakpoints window).lastNewline < (0 : Nat) + window.length ∧
        (scanParenAwareBreakpoints window).lastWhitespace < (0 : Nat) + window.length :=
    scanBreakpoints_lt window (by decide) (by decide)
  unfold breakEnd
  dsimp only
  rw [← hwindow]
  obtain ⟨offset, hoffset⟩ : ∃ offset, offset = if 0 < (scanParenAwareBreakpoints window).lastNewline
      then (scanParenAwareBreakpoints window).lastNewline else (scanParenAwareBreakpoints window).lastWhitespace :=
    ⟨_, rfl⟩
  have hinside : offset < window.length := by
    rw [hoffset]
    split
    · omega
    · omega
  rw [← hoffset]
  split
  · omega
  · omega

/-- **`chunkText` returns, and its chunks are the text.** -/
theorem chunkText_chunks (text : JsString) {limit : Nat} (hlimit : 2 ≤ limit) :
    ∃ chunks, Returns (chunkText text limit) chunks ∧ ChunksOf limit text chunks := by
  by_cases hempty : text = []
  · refine ⟨[], ⟨0, ?_⟩, ?_⟩
    · rw [chunkText, resolveChunkEarlyReturn, if_pos hempty]
    · rw [hempty]
      exact .done rfl
  · by_cases hshort : text.length ≤ limit
    · refine ⟨[text], ⟨0, ?_⟩, .whole hshort⟩
      rw [chunkText, resolveChunkEarlyReturn, if_neg hempty, if_pos hshort, ite_self]
    · have hlate : resolveChunkEarlyReturn text limit = none := by
        rw [resolveChunkEarlyReturn, if_neg hempty, if_neg (by omega), if_neg hshort]
      have hloop := @ends_of_variant _ _ (chunkTurn text limit) (fun state => state.1 ≤ text.length)
        (fun state chunks => ∃ more, chunks = state.2 ++ more ∧ ChunksOf limit (text.drop state.1) more)
        (fun state => text.length - state.1) ?_ ?_ (0, []) (Nat.zero_le _)
      · obtain ⟨chunks, ⟨n, hn⟩, more, hchunks, hof⟩ := hloop
        refine ⟨chunks, ⟨n, ?_⟩, ?_⟩
        · rw [chunkText, hlate]
          exact hn
        · rw [hchunks]
          exact hof
      · rintro ⟨cursor, chunks⟩ result hcursor hturn
        unfold chunkTurn at hturn
        dsimp only at hturn hcursor
        split at hturn
        · split at hturn
          case isTrue hrest =>
            obtain rfl := Turn.leave.inj hturn
            refine ⟨_, rfl, .whole ?_⟩
            rw [List.length_drop]
            exact hrest
          case isFalse => contradiction
        · obtain rfl := Turn.leave.inj hturn
          refine ⟨[], (List.append_nil _).symm, ?_⟩
          rw [List.drop_of_length_le (by dsimp only; omega)]
          exact .done rfl
      · rintro ⟨cursor, chunks⟩ next hcursor hturn
        unfold chunkTurn at hturn
        dsimp only at hturn hcursor
        split at hturn
        case isTrue hmore =>
          split at hturn
          · contradiction
          case isFalse hlong =>
            obtain rfl := Turn.goOn.inj hturn
            obtain ⟨hbehind, hwithin⟩ := breakEnd_spec (show 0 < limit by omega) hmore
            have hbreak : breakEnd text limit cursor ≤ text.length := hwithin.trans (Nat.min_le_left _ _)
            obtain ⟨hprogress, hinside, hnear, hcut⟩ := avoid_spec hbehind hbreak
            obtain ⟨stop, hstop⟩ : ∃ stop, stop = avoidBreak text cursor (breakEnd text limit cursor) := ⟨_, rfl⟩
            rw [← hstop] at hprogress hinside hnear hcut ⊢
            have hspace := (List.takeWhile_sublist (p := isWhiteUnit) (l := text.drop stop)).length_le
            rw [List.length_drop] at hspace
            refine ⟨by dsimp only; omega, by dsimp only; omega, ?_⟩
            rintro result ⟨more, hresult, hof⟩
            refine ⟨(text.take stop).drop cursor :: more, ?_, ?_⟩
            · rw [hresult, List.append_assoc]
              rfl
            · have htext : text.drop cursor = [] ++ ((text.take stop).drop cursor ++ text.drop stop) := by
                rw [List.nil_append, ← List.drop_append_of_le_length, List.take_append_drop]
                rw [List.length_take]
                omega
              have hbehindStop : text.drop stop = (text.drop stop).takeWhile isWhiteUnit ++
                  text.drop (stop + ((text.drop stop).takeWhile isWhiteUnit).length) := by
                rw [← List.drop_drop]
                exact (List.prefix_iff_eq_append.mp (List.takeWhile_prefix isWhiteUnit)).symm
              dsimp only
              rw [htext]
              refine .chunk rfl ?_ ?_ ?_
              · rw [List.length_drop, List.length_take]
                omega
              · rw [CutAt, ← List.take_append_drop cursor (text.take stop)] at hcut
                exact parted_of_append hcut
              · rw [hbehindStop]
                exact hof.space (all_takeWhile _)
        · contradiction

end OpenClaw.MarkdownCore
