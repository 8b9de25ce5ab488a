/-
# OpenClaw.Harness.Truncation -- what is kept is the most that fits

The loops add up the bytes of the lines and their separators one by one; the sum is the length of the joined
lines (`byteLength_joinLines`).  Both loops therefore stop at the longest list of lines within the limits, and
what they report about it is exact (`truncation_exact`).
-/
import OpenClaw.Harness.TruncatedLine

namespace OpenClaw.Harness

open OpenClaw.Data

/-! ## Lines -/

theorem newline_not_lead : isLeadSurrogate newline = false := by decide

theorem newline_not_trail : isTrailSurrogate newline = false := by decide

theorem newline_bytes : byteLength [newline] = 1 := by
  rw [byteLength_unit]
  decide

/-- The bytes of lines with a separator between any two. -/
def weight (lines : List JsString) : Nat := (lines.map byteLength).sum + (lines.length - 1)

theorem byteLength_separated (front rest : JsString) :
    byteLength (front ++ newline :: rest) = byteLength front + 1 + byteLength rest := by
  have hfront : Parted front (newline :: rest) := by
    apply Parted.of_not_trail
    intro y hy
    obtain rfl : newline = y := Option.some.inj hy
    exact newline_not_trail
  have hrest : Parted [newline] rest := by
    apply Parted.of_not_lead
    intro x hx
    obtain rfl : newline = x := Option.some.inj hx
    exact newline_not_lead
  have hline : byteLength (newline :: rest) = 1 + byteLength rest := by
    rw [← newline_bytes]
    exact byteLength_append hrest
  rw [byteLength_append hfront, hline]
  omega

/-- **The bytes of joined lines** are those of the lines and of the separators. -/
theorem byteLength_joinLines : ∀ lines : List JsString, byteLength (joinLines lines) = weight lines
  | [] => rfl
  | [line] => by simp [joinLines, weight]
  | line :: next :: rest => by
    have ih := byteLength_joinLines (next :: rest)
    rw [joinLines] at ih
    rw [joinLines, List.intercalate_cons_cons, List.append_assoc, List.singleton_append, byteLength_separated, ih]
    simp only [weight, List.map_cons, List.sum_cons, List.length_cons]
    omega

theorem weight_append_le (lines more : List JsString) : weight lines ≤ weight (lines ++ more) := by
  simp only [weight, List.map_append, List.sum_append, List.length_append]
  omega

theorem weight_concat (lines : List JsString) (line : JsString) :
    weight (lines ++ [line]) = weight lines + (byteLength line + if lines.length > 0 then 1 else 0) := by
  simp only [weight, List.map_append, List.sum_append, List.length_append, List.map_singleton, List.sum_singleton,
    List.length_singleton]
  split <;> omega

theorem weight_reverse (lines : List JsString) : weight lines.reverse = weight lines := by
  rw [weight, weight, List.map_reverse, List.sum_reverse, List.length_reverse]

/-- A text is its lines, joined, and a final newline if it has one. -/
theorem content_eq (content : JsString) : content = joinLines (splitLinesForCounting content) ++
    if content.getLast? = some newline then [newline] else [] := by
  unfold splitLinesForCounting
  by_cases hempty : content = []
  · subst hempty
    rfl
  · rw [if_neg hempty]
    by_cases hlast : content.getLast? = some newline
    · obtain ⟨front, rfl⟩ := List.getLast?_eq_some_iff.mp hlast
      rw [if_pos hlast, if_pos hlast, List.splitOn_append_cons_self, List.splitOn_nil, List.dropLast_concat, joinLines,
        List.intercalate_splitOn]
    · rw [if_neg hlast, if_neg hlast, joinLines, List.intercalate_splitOn, List.append_nil]

theorem weight_le_content (content : JsString) : weight (splitLinesForCounting content) ≤ byteLength content := by
  have hcontent := content_eq content
  rw [← byteLength_joinLines]
  by_cases hlast : content.getLast? = some newline
  · rw [if_pos hlast] at hcontent
    have hbytes := congrArg byteLength hcontent
    rw [byteLength_separated] at hbytes
    omega
  · rw [if_neg hlast, List.append_nil] at hcontent
    exact (congrArg byteLength hcontent).ge

theorem not_mem_of_mem_splitOn {c : CodeUnit} : ∀ {text line : JsString}, line ∈ text.splitOn c → c ∉ line := by
  intro text
  induction text with
  | nil =>
    intro line hline
    rw [List.splitOn_nil, List.mem_singleton] at hline
    subst hline
    exact List.not_mem_nil
  | cons x text ih =>
    intro line hline
    rw [List.splitOn_cons_eq_if_modifyHead] at hline
    split at hline
    · rcases List.mem_cons.mp hline with rfl | hrest
      · exact List.not_mem_nil
      · exact ih hrest
    · rename_i hx
      cases hsplit : text.splitOn c with
      | nil => exact absurd hsplit (List.splitOn_ne_nil _ _)
      | cons first rest =>
        rw [hsplit] at hline ih
        rcases List.mem_cons.mp hline with rfl | hrest
        · have hfirst := ih List.mem_cons_self
          intro hmem
          rcases List.mem_cons.mp hmem with rfl | hmem
          · exact hx BEq.rfl
          · exact hfirst hmem
        · exact ih (List.mem_cons_of_mem _ hrest)

theorem newline_not_mem {content line : JsString} (h : line ∈ splitLinesForCounting content) : newline ∉ line := by
  unfold splitLinesForCounting at h
  split at h
  · cases h
  · dsimp only at h
    split at h
    · exact not_mem_of_mem_splitOn (List.dropLast_subset _ h)
    · exact not_mem_of_mem_splitOn h

/-- Joined lines count as no more lines than they are. -/
theorem countedLines_le {lines : List JsString} (h : ∀ line ∈ lines, newline ∉ line) :
    (splitLinesForCounting (joinLines lines)).length ≤ lines.length := by
  by_cases hempty : lines = []
  · subst hempty
    exact Nat.le_refl _
  · have hsplit : (joinLines lines).splitOn newline = lines := List.splitOn_intercalate newline h hempty
    unfold splitLinesForCounting
    split
    · exact Nat.zero_le _
    · rw [hsplit]
      dsimp only
      split
      · rw [List.length_dropLast]
        omega
      · exact Nat.le_refl _

/-! ## The loops -/

variable {runtime : Runtime}

/-- What has been collected adds up and fits. -/
structure Fits (maxBytes : Nat) (out : Collected) : Prop where
  count : out.outputBytesCount = weight out.outputLinesArr
  bytes : out.outputBytesCount ≤ maxBytes

/-- What a line adds to the count. -/
def lineCost (out : Collected) (line : JsString) : Nat :=
  byteLength line + if out.outputLinesArr.length > 0 then 1 else 0

/-- **The loop over the first lines** takes lines from the front until one does not fit. -/
theorem collectHead_spec (hdoc : runtime.Documented) {maxBytes : Nat} : ∀ {lines : List JsString} {out : Collected},
    Fits maxBytes out → ∃ more rest, lines = more ++ rest ∧
      (collectHead runtime maxBytes lines out).outputLinesArr = out.outputLinesArr ++ more ∧
      Fits maxBytes (collectHead runtime maxBytes lines out) ∧
      (collectHead runtime maxBytes lines out).lastLinePartial = out.lastLinePartial ∧
      (rest = [] ∧ (collectHead runtime maxBytes lines out).truncatedBy = out.truncatedBy ∨
        (collectHead runtime maxBytes lines out).truncatedBy = .bytes ∧
          ∃ line ∈ rest.head?, maxBytes < weight (out.outputLinesArr ++ more ++ [line])) := by
  intro lines
  induction lines with
  | nil =>
    intro out hout
    exact ⟨[], [], rfl, (List.append_nil _).symm, hout, rfl, .inl ⟨rfl, rfl⟩⟩
  | cons line lines ih =>
    intro out hout
    have hcount := hout.count
    by_cases hfull : out.outputBytesCount + lineCost out line > maxBytes
    · have hstep : collectHead runtime maxBytes (line :: lines) out = { out with truncatedBy := .bytes } := by
        rw [collectHead, utf8ByteLength_eq hdoc]
        exact if_pos hfull
      rw [hstep]
      refine ⟨[], line :: lines, rfl, (List.append_nil _).symm, ⟨hout.count, hout.bytes⟩, rfl,
        .inr ⟨rfl, line, rfl, ?_⟩⟩
      rw [List.append_nil, weight_concat, ← hout.count]
      exact hfull
    · have hstep : collectHead runtime maxBytes (line :: lines) out = collectHead runtime maxBytes lines
          { out with
            outputLinesArr := out.outputLinesArr ++ [line]
            outputBytesCount := out.outputBytesCount + lineCost out line } := by
        rw [collectHead, utf8ByteLength_eq hdoc]
        exact if_neg hfull
      have hnext : Fits maxBytes
          { out with
            outputLinesArr := out.outputLinesArr ++ [line]
            outputBytesCount := out.outputBytesCount + lineCost out line } :=
        ⟨by rw [weight_concat, hout.count, lineCost], Nat.not_lt.mp hfull⟩
      obtain ⟨more, rest, rfl, harr, hend, hpartial, hstop⟩ := ih hnext
      rw [hstep]
      refine ⟨line :: more, rest, rfl, ?_, hend, hpartial, ?_⟩
      · rw [harr, List.append_assoc]
        rfl
      · simpa using hstop

/-- With its lines the other way round. -/
def Collected.reversed (out : Collected) : Collected := { out with outputLinesArr := out.outputLinesArr.reverse }

theorem Fits.reversed {maxBytes : Nat} {out : Collected} (h : Fits maxBytes out) : Fits maxBytes out.reversed :=
  ⟨h.count.trans (weight_reverse _).symm, h.bytes⟩

/-- **The loop over the last lines** is the loop over the first lines of the reversed text, unless its first line does
not fit. -/
theorem collectTail_eq (hdoc : runtime.Documented) {maxLines maxBytes : Nat} : ∀ {lines : List JsString}
    {out : Collected}, (out.outputLinesArr = [] → ∀ line ∈ lines.head?, 0 < maxLines →
      out.outputBytesCount + byteLength line ≤ maxBytes) →
    collectTail runtime maxLines maxBytes lines out.reversed =
      (collectHead runtime maxBytes (lines.take (maxLines - out.outputLinesArr.length)) out).reversed := by
  intro lines
  induction lines with
  | nil =>
    intro out _
    rw [List.take_nil]
    rfl
  | cons line lines ih =>
    intro out hfirst
    have hlength : out.reversed.outputLinesArr.length = out.outputLinesArr.length := List.length_reverse
    by_cases henough : maxLines ≤ out.outputLinesArr.length
    · rw [collectTail, hlength, if_pos henough, Nat.sub_eq_zero_of_le henough]
      rfl
    · obtain ⟨room, hroom⟩ : ∃ room, maxLines - out.outputLinesArr.length = room + 1 :=
        Nat.exists_eq_succ_of_ne_zero (by omega)
      rw [collectTail, hlength, if_neg henough, hroom, List.take_succ_cons, collectHead, utf8ByteLength_eq hdoc]
      dsimp only [Collected.reversed]
      by_cases hfull : out.outputBytesCount + lineCost out line > maxBytes
      · -- the first line that is looked at fits
        have hsome : ¬ out.outputLinesArr.length = 0 := by
          intro hnone
          have hfits := hfirst (List.length_eq_zero_iff.mp hnone) line rfl (by omega)
          rw [lineCost, hnone] at hfull
          exact absurd hfull (not_lt.mpr hfits)
        rw [lineCost] at hfull
        rw [if_neg hsome, if_pos hfull]
        exact if_pos hfull
      · have hnext := @ih
          { out with
            outputLinesArr := out.outputLinesArr ++ [line]
            outputBytesCount := out.outputBytesCount + lineCost out line } (fun h => absurd h (by simp))
        have hleft : maxLines - (out.outputLinesArr ++ [line]).length = room := by
          rw [List.length_append, List.length_singleton]
          omega
        rw [hleft, Collected.reversed, List.reverse_concat] at hnext
        rw [lineCost] at hfull
        rw [if_neg hfull]
        exact (if_neg hfull).trans hnext

/-- The last line alone is too long: its end is kept. -/
theorem collectTail_partial (hdoc : runtime.Documented) {maxLines maxBytes : Nat} {line : JsString}
    {lines : List JsString} {blame : TruncatedBy} (hlines : 0 < maxLines) (hlong : maxBytes < byteLength line) :
    collectTail runtime maxLines maxBytes (line :: lines) ⟨[], 0, blame, false⟩ =
      ⟨[truncateStringToBytesFromEnd line maxBytes],
        byteLength (truncateStringToBytesFromEnd line maxBytes), .bytes, true⟩ := by
  have hroom : ¬ maxLines ≤ ([] : List JsString).length := by
    rw [List.length_nil]
    omega
  have hfull : 0 + (byteLength line + if ([] : List JsString).length > 0 then 1 else 0) > maxBytes := by
    simp only [List.length_nil, gt_iff_lt, lt_irrefl, if_false]
    omega
  rw [collectTail, utf8ByteLength_eq hdoc, if_neg hroom]
  dsimp only
  rw [if_pos hfull, if_pos List.length_nil, utf8ByteLength_eq hdoc]

/-! ## What a result reports -/

def TruncationOptions.lineLimit (options : TruncationOptions) : Nat := options.maxLines.getD defaultMaxLines

def TruncationOptions.byteLimit (options : TruncationOptions) : Nat := options.maxBytes.getD defaultMaxBytes

/-- `kept` is within both limits, and no other such part of the lines is longer. -/
structure Longest (options : TruncationOptions) (Part : List JsString → Prop) (kept : List JsString) : Prop where
  part : Part kept
  lines : kept.length ≤ options.lineLimit
  bytes : byteLength (joinLines kept) ≤ options.byteLimit
  longest : ∀ other, Part other → other.length ≤ options.lineLimit →
    byteLength (joinLines other) ≤ options.byteLimit → other.length ≤ kept.length

/-- The result is the text itself or the kept lines, and its numbers and flags are those of its content. -/
structure Reported (content : JsString) (options : TruncationOptions) (kept : List JsString)
    (result : TruncationResult) : Prop where
  content_eq : result.content = if result.truncated then joinLines kept else content
  truncated : result.truncated = true ↔ result.content ≠ content
  outputLines : result.outputLines = kept.length
  outputBytes : result.outputBytes = byteLength result.content
  bytes_le : byteLength result.content ≤ options.byteLimit
  lines_le : kept.length ≤ options.lineLimit
  counted_le : (splitLinesForCounting result.content).length ≤ options.lineLimit
  totalLines : result.totalLines = (splitLinesForCounting content).length
  totalBytes : result.totalBytes = byteLength content
  blamed : result.truncatedBy = none ↔ result.truncated = false
  lines_blamed : result.truncatedBy = some .lines → options.lineLimit < (splitLinesForCounting content).length
  bytes_blamed : result.truncatedBy = some .bytes → options.byteLimit < byteLength content

/-- The text is within both limits. -/
def InLimits (content : JsString) (options : TruncationOptions) : Prop :=
  (splitLinesForCounting content).length ≤ options.lineLimit ∧ byteLength content ≤ options.byteLimit

variable {content : JsString} {options : TruncationOptions}

theorem reported_untruncated (hdoc : runtime.Documented) (h : InLimits content options) :
    Reported content options (splitLinesForCounting content)
      (untruncated runtime (resolveTruncationInput runtime content options) content) where
  content_eq := rfl
  truncated := iff_of_false Bool.false_ne_true fun hne => hne rfl
  outputLines := rfl
  outputBytes := utf8ByteLength_eq hdoc content
  bytes_le := h.2
  lines_le := h.1
  counted_le := h.1
  totalLines := rfl
  totalBytes := utf8ByteLength_eq hdoc content
  blamed := iff_of_true rfl rfl
  lines_blamed hblame := absurd hblame (Option.some_ne_none _).symm
  bytes_blamed hblame := absurd hblame (Option.some_ne_none _).symm

/-- The limits that a loop may blame are the ones that the text exceeds. -/
structure Blame (content : JsString) (options : TruncationOptions) (blame : TruncatedBy) : Prop where
  lines : blame = .lines → options.lineLimit < (splitLinesForCounting content).length
  bytes : blame = .bytes → options.byteLimit < byteLength content

theorem blame_bytes (h : options.byteLimit < byteLength content) : Blame content options .bytes where
  lines hblame := absurd hblame (by decide)
  bytes _ := h

theorem blame_lines (h : options.lineLimit < (splitLinesForCounting content).length) :
    Blame content options .lines where
  lines _ := h
  bytes hblame := absurd hblame (by decide)

theorem blame_start (h : ¬ InLimits content options) :
    Blame content options (nothingCollected (resolveTruncationInput runtime content options)).truncatedBy := by
  by_cases hlines : options.lineLimit < (splitLinesForCounting content).length
  · have hblame : (nothingCollected (resolveTruncationInput runtime content options)).truncatedBy = .lines :=
      if_pos hlines
    rw [hblame]
    exact blame_lines hlines
  · have hblame : (nothingCollected (resolveTruncationInput runtime content options)).truncatedBy = .bytes :=
      if_neg hlines
    rw [hblame]
    apply blame_bytes
    by_contra hbytes
    exact h ⟨Nat.not_lt.mp hlines, Nat.not_lt.mp hbytes⟩

/-- A content within the limits is not a text that exceeds them. -/
theorem ne_of_inLimits {kept : List JsString} (h : ¬ InLimits content options)
    (hlines : kept.length ≤ options.lineLimit) (hbytes : byteLength (joinLines kept) ≤ options.byteLimit)
    (hfree : ∀ line ∈ kept, newline ∉ line) : joinLines kept ≠ content := by
  rintro rfl
  exact h ⟨(countedLines_le hfree).trans hlines, hbytes⟩

theorem reported_truncatedTo (hdoc : runtime.Documented) {out : Collected} (h : ¬ InLimits content options)
    (hfits : Fits options.byteLimit out) (hlines : out.outputLinesArr.length ≤ options.lineLimit)
    (hfree : ∀ line ∈ out.outputLinesArr, newline ∉ line) (hblame : Blame content options out.truncatedBy) :
    Reported content options out.outputLinesArr
      (truncatedTo runtime (resolveTruncationInput runtime content options) out) := by
  have hbytes : byteLength (joinLines out.outputLinesArr) ≤ options.byteLimit := by
    rw [byteLength_joinLines, ← hfits.count]
    exact hfits.bytes
  have hreached : Blame content options
      (limitReached (resolveTruncationInput runtime content options) out) := by
    unfold limitReached
    split
    · rename_i hreached
      exact blame_lines hreached.1
    · exact hblame
  constructor
  case content_eq => rfl
  case truncated => exact iff_of_true rfl (ne_of_inLimits h hlines hbytes hfree)
  case outputLines => rfl
  case outputBytes => exact utf8ByteLength_eq hdoc _
  case bytes_le => exact hbytes
  case lines_le => exact hlines
  case counted_le => exact (countedLines_le hfree).trans hlines
  case totalLines => rfl
  case totalBytes => exact utf8ByteLength_eq hdoc content
  case blamed => exact iff_of_false (Option.some_ne_none _) (Bool.false_ne_true ∘ Eq.symm)
  case lines_blamed => exact fun hlimit => hreached.lines (Option.some.inj hlimit)
  case bytes_blamed => exact fun hlimit => hreached.bytes (Option.some.inj hlimit)

/-! ## The first lines -/

theorem fits_nothing (input : ResolvedTruncationInput) (maxBytes : Nat) : Fits maxBytes (nothingCollected input) :=
  ⟨rfl, Nat.zero_le _⟩

/-- A list of lines that stops before one that does not fit is the longest. -/
theorem longest_of_stop {lines more rest : List JsString} {line : JsString} (hlines : lines = more ++ rest)
    (hline : line ∈ rest.head?) (hfull : options.byteLimit < weight (more ++ [line])) {other : List JsString}
    (hother : other <+: lines) (hbytes : byteLength (joinLines other) ≤ options.byteLimit) :
    other.length ≤ more.length := by
  by_contra hlong
  obtain ⟨rest, rfl⟩ : ∃ tail, rest = line :: tail := by
    cases rest with
    | nil => cases hline
    | cons first tail => exact ⟨tail, by rw [Option.some.inj hline]⟩
  have hbegins : more ++ [line] <+: other := by
    apply List.prefix_of_prefix_length_le _ hother
    · rw [List.length_append, List.length_singleton]
      omega
    · rw [hlines]
      exact ⟨rest, by simp⟩
  obtain ⟨after, rfl⟩ := hbegins
  have hmono := weight_append_le (more ++ [line]) after
  rw [byteLength_joinLines] at hbytes
  omega

theorem weight_prefix_le {kept lines : List JsString} (h : kept <+: lines) : weight kept ≤ weight lines := by
  obtain ⟨more, rfl⟩ := h
  exact weight_append_le kept more

theorem joinLines_le_content {kept : List JsString} (h : kept <+: splitLinesForCounting content) :
    weight kept ≤ byteLength content :=
  (weight_prefix_le h).trans (weight_le_content content)

/-- A text within the limits is kept as a whole. -/
theorem longest_all {Part : List JsString → Prop} (h : InLimits content options)
    (hall : Part (splitLinesForCounting content))
    (hpart : ∀ other, Part other → other.length ≤ (splitLinesForCounting content).length) :
    Longest options Part (splitLinesForCounting content) where
  part := hall
  lines := h.1
  bytes := by
    rw [byteLength_joinLines]
    exact (weight_le_content content).trans h.2
  longest other hother _ _ := hpart other hother

/-- **What the loop collects** of the lines, in either order, is the longest list that fits. -/
theorem collectHead_longest (hdoc : runtime.Documented) {lines : List JsString} (hin : ¬ InLimits content options)
    (hcontent : weight lines ≤ byteLength content) :
    let out := collectHead runtime options.byteLimit (lines.take options.lineLimit)
      (nothingCollected (resolveTruncationInput runtime content options))
    Longest options (· <+: lines) out.outputLinesArr ∧ Fits options.byteLimit out ∧ out.lastLinePartial = false ∧
      Blame content options out.truncatedBy := by
  obtain ⟨more, rest, htake, harr, hfits, hflag, hstop⟩ := @collectHead_spec _ hdoc _ (lines.take options.lineLimit) _
    (fits_nothing (resolveTruncationInput runtime content options) options.byteLimit)
  have hmore : (collectHead runtime options.byteLimit (lines.take options.lineLimit)
      (nothingCollected (resolveTruncationInput runtime content options))).outputLinesArr = more := harr
  have htaken : more <+: lines.take options.lineLimit := ⟨rest, htake.symm⟩
  dsimp only
  refine ⟨?_, hfits, hflag, ?_⟩
  · rw [hmore]
    refine ⟨htaken.trans (List.take_prefix _ _), htaken.length_le.trans (List.length_take_le _ _), ?_, ?_⟩
    · rw [byteLength_joinLines, ← hmore, ← hfits.count]
      exact hfits.bytes
    · intro other hother hlength hbytes
      have hotherTaken : other <+: lines.take options.lineLimit := List.prefix_take_iff.mpr ⟨hother, hlength⟩
      rcases hstop with ⟨rfl, -⟩ | ⟨-, line, hline, hfull⟩
      · rw [htake, List.append_nil] at hotherTaken
        exact hotherTaken.length_le
      · exact longest_of_stop htake hline hfull hotherTaken hbytes
  · rcases hstop with ⟨-, hsame⟩ | ⟨hbytes, line, hline, hfull⟩
    · rw [hsame]
      exact blame_start hin
    · rw [hbytes]
      apply blame_bytes
      obtain ⟨after, rfl⟩ := List.head?_eq_some_iff.mp hline
      have hmoreLine : more ++ [line] <+: lines := by
        refine List.IsPrefix.trans ⟨after, ?_⟩ (List.take_prefix options.lineLimit _)
        rw [htake]
        simp
      exact hfull.trans_le ((weight_prefix_le hmoreLine).trans hcontent)

/-- The longest list from the end is the longest one of the reversed lines. -/
theorem Longest.reverse {lines kept : List JsString} (h : Longest options (· <+: lines.reverse) kept) :
    Longest options (· <:+ lines) kept.reverse where
  part := by
    rw [← List.reverse_prefix, List.reverse_reverse]
    exact h.part
  lines := by
    rw [List.length_reverse]
    exact h.lines
  bytes := by
    rw [byteLength_joinLines, weight_reverse, ← byteLength_joinLines]
    exact h.bytes
  longest other hother hlength hbytes := by
    rw [byteLength_joinLines, ← weight_reverse, ← byteLength_joinLines] at hbytes
    rw [← List.length_reverse] at hlength
    have hle := h.longest other.reverse (List.reverse_prefix.mpr hother) hlength hbytes
    rwa [List.length_reverse, ← kept.length_reverse] at hle

/-- What both functions ask first. -/
theorem resolved_inLimits (hdoc : runtime.Documented) (content : JsString) (options : TruncationOptions) :
    (resolveTruncationInput runtime content options).totalLines ≤
        (resolveTruncationInput runtime content options).maxLines ∧
      (resolveTruncationInput runtime content options).totalBytes ≤
        (resolveTruncationInput runtime content options).maxBytes ↔ InLimits content options := by
  rw [InLimits, ← utf8ByteLength_eq hdoc content]
  rfl

/-- **`truncateHead` keeps the longest list of first lines**, and reports it. -/
theorem truncateHead_longest (hdoc : runtime.Documented) (content : JsString) (options : TruncationOptions) :
    ∃ kept, Longest options (· <+: splitLinesForCounting content) kept ∧
      Reported content options kept (truncateHead runtime content options) ∧
      ((truncateHead runtime content options).firstLineExceedsLimit = true ↔
        ∃ line ∈ (splitLinesForCounting content).head?, options.byteLimit < byteLength line) := by
  have hinput := resolved_inLimits hdoc content options
  by_cases hin : InLimits content options
  · have hresult : truncateHead runtime content options =
        untruncated runtime (resolveTruncationInput runtime content options) content := if_pos (hinput.mpr hin)
    rw [hresult]
    refine ⟨_, longest_all hin (List.prefix_refl _) fun other hother => hother.length_le,
      reported_untruncated hdoc hin, iff_of_false Bool.false_ne_true ?_⟩
    rintro ⟨line, hline, hlong⟩
    -- a first line that is too long makes the text too long
    have hfirst : [line] <+: splitLinesForCounting content := by
      obtain ⟨rest, hrest⟩ := List.head?_eq_some_iff.mp hline
      exact ⟨rest, hrest.symm⟩
    have hweight := joinLines_le_content hfirst
    have hbytes := hin.2
    simp only [weight, List.map_singleton, List.sum_singleton, List.length_singleton] at hweight
    omega
  · have hany : ((resolveTruncationInput runtime content options).lines.head?.any fun firstLine =>
        (resolveTruncationInput runtime content options).maxBytes < utf8ByteLength runtime firstLine) = true ↔
        ∃ line ∈ (splitLinesForCounting content).head?, options.byteLimit < byteLength line := by
      simp only [Option.any_eq_true, decide_eq_true_eq, utf8ByteLength_eq hdoc]
      rfl
    have hout := truncateHead.eq_1 runtime content options
    rw [if_neg (fun h => hin (hinput.mp h))] at hout
    by_cases hfirst : ∃ line ∈ (splitLinesForCounting content).head?, options.byteLimit < byteLength line
    · rw [if_pos (hany.mpr hfirst)] at hout
      rw [hout]
      obtain ⟨line, hline, hlong⟩ := hfirst
      have hfull : options.byteLimit < weight ([] ++ [line]) := by simpa [weight] using hlong
      have hkept : Longest options (· <+: splitLinesForCounting content) [] :=
        ⟨List.nil_prefix, Nat.zero_le _, Nat.zero_le _,
          fun other hother _ hbytes => longest_of_stop (List.nil_append _).symm hline hfull hother hbytes⟩
      have hbytes : options.byteLimit < byteLength content := by
        obtain ⟨rest, hrest⟩ := List.head?_eq_some_iff.mp hline
        have hweight : weight [line] ≤ byteLength content := joinLines_le_content ⟨rest, hrest.symm⟩
        exact hlong.trans_le (by simpa [weight] using hweight)
      refine ⟨[], hkept, ?_, iff_of_true rfl ⟨line, hline, hlong⟩⟩
      constructor
      case content_eq => rfl
      case truncated =>
        exact iff_of_true rfl (ne_of_inLimits hin hkept.lines hkept.bytes fun line hline => absurd hline List.not_mem_nil)
      case outputLines => rfl
      case outputBytes => rfl
      case bytes_le => exact Nat.zero_le _
      case lines_le => exact Nat.zero_le _
      case counted_le => exact Nat.zero_le _
      case totalLines => rfl
      case totalBytes => exact utf8ByteLength_eq hdoc content
      case blamed => exact iff_of_false (Option.some_ne_none _) (Bool.false_ne_true ∘ Eq.symm)
      case lines_blamed =>
        intro hblame
        cases hblame
      case bytes_blamed => exact fun _ => hbytes
    · rw [if_neg (fun h => hfirst (hany.mp h))] at hout
      rw [hout]
      obtain ⟨hkept, hfits, -, hblame⟩ := collectHead_longest hdoc hin (weight_le_content content)
      exact ⟨_, hkept, reported_truncatedTo hdoc hin hfits hkept.lines
        (fun line hline => newline_not_mem (hkept.part.subset hline)) hblame, iff_of_false Bool.false_ne_true hfirst⟩

/-! ## The last lines -/

/-- What `truncateTail` keeps: the longest list of last lines, or the end of the last line when not even that
one fits. -/
structure KeptTail (content : JsString) (options : TruncationOptions) (kept : List JsString) (lastLinePartial : Bool) :
    Prop where
  partial_iff : lastLinePartial = true ↔ 0 < options.lineLimit ∧
    ∃ line ∈ (splitLinesForCounting content).getLast?, options.byteLimit < byteLength line
  whole : lastLinePartial = false → Longest options (· <:+ splitLinesForCounting content) kept
  cut : lastLinePartial = true → ∀ line ∈ (splitLinesForCounting content).getLast?,
    ∃ part, LongestEnd options.byteLimit line part ∧ kept = [repaired part]

theorem newline_not_mem_repaired {s : JsString} (h : newline ∉ s) : newline ∉ repaired s := by
  have hreplacement : newline ∉ charUnits replacementCharacter := by decide
  intro hmem
  obtain ⟨point, hpoint, hunit⟩ := List.mem_flatMap.mp hmem
  cases point with
  | char c =>
    apply h
    rw [← units_codePoints s]
    exact List.mem_flatMap.mpr ⟨_, hpoint, hunit⟩
  | lone unit => exact hreplacement hunit

theorem weight_suffix_le {kept lines : List JsString} (h : kept <:+ lines) : weight kept ≤ weight lines := by
  have hmono := weight_prefix_le (List.reverse_prefix.mpr h)
  rwa [weight_reverse, weight_reverse] at hmono

/-- The last line is longer than the text may be only in a text that is too long. -/
theorem last_le_content {line : JsString} (h : line ∈ (splitLinesForCounting content).getLast?) :
    byteLength line ≤ byteLength content := by
  obtain ⟨front, hfront⟩ := List.getLast?_eq_some_iff.mp h
  have hsuffix : [line] <:+ splitLinesForCounting content := ⟨front, hfront.symm⟩
  have hweight := (weight_suffix_le hsuffix).trans (weight_le_content content)
  simpa [weight] using hweight

/-- **`truncateTail` keeps the longest list of last lines**, or the longest end of the last line, and reports
it. -/
theorem truncateTail_longest (hdoc : runtime.Documented) (content : JsString) (options : TruncationOptions) :
    ∃ kept, KeptTail content options kept (truncateTail runtime content options).lastLinePartial ∧
      Reported content options kept (truncateTail runtime content options) := by
  have hinput := resolved_inLimits hdoc content options
  have hout := truncateTail.eq_1 runtime content options
  by_cases hin : InLimits content options
  · rw [if_pos (hinput.mpr hin)] at hout
    rw [hout]
    refine ⟨_, ⟨iff_of_false Bool.false_ne_true ?_, fun _ => ?_, fun h => absurd h Bool.false_ne_true⟩,
      reported_untruncated hdoc hin⟩
    · rintro ⟨-, line, hline, hlong⟩
      have hle := last_le_content hline
      have hbytes := hin.2
      omega
    · exact longest_all hin (List.suffix_refl _) fun other hother => hother.length_le
  · rw [if_neg (fun h => hin (hinput.mp h))] at hout
    rw [hout]
    by_cases hpartial : 0 < options.lineLimit ∧
        ∃ line ∈ (splitLinesForCounting content).getLast?, options.byteLimit < byteLength line
    · obtain ⟨hroom, line, hline, hlong⟩ := hpartial
      obtain ⟨front, hfront⟩ := List.getLast?_eq_some_iff.mp hline
      obtain ⟨part, hpart, hcut⟩ := truncateStringToBytesFromEnd_eq line options.byteLimit
      have hloop : collectTail runtime options.lineLimit options.byteLimit (splitLinesForCounting content).reverse
          (nothingCollected (resolveTruncationInput runtime content options)) =
          ⟨[repaired part], byteLength (repaired part), .bytes, true⟩ := by
        rw [hfront, List.reverse_append, List.reverse_singleton, List.singleton_append, ← hcut]
        exact collectTail_partial hdoc hroom hlong
      have hkept : Fits options.byteLimit ⟨[repaired part], byteLength (repaired part), .bytes, true⟩ := by
        refine ⟨by simp [weight], ?_⟩
        rw [byteLength_repaired]
        exact hpart.bytes
      have hfree : newline ∉ part := by
        obtain ⟨before, hbefore, -⟩ := hpart.isEnd
        intro hmem
        refine @newline_not_mem content line ?_ ?_
        · rw [hfront]
          exact List.mem_append_right _ (List.mem_singleton_self line)
        · rw [hbefore]
          exact List.mem_append_right _ hmem
      have hlen : ([repaired part] : List JsString).length ≤ options.lineLimit := hroom
      have hreport := @reported_truncatedTo _ content _ hdoc _ hin hkept hlen
        (fun other hother => List.mem_singleton.mp hother ▸ newline_not_mem_repaired hfree)
        (blame_bytes (hlong.trans_le (last_le_content hline)))
      have hresult : (truncatedTo runtime (resolveTruncationInput runtime content options)
          (collectTail runtime options.lineLimit options.byteLimit (splitLinesForCounting content).reverse
            (nothingCollected (resolveTruncationInput runtime content options)))) =
          truncatedTo runtime (resolveTruncationInput runtime content options)
            ⟨[repaired part], byteLength (repaired part), .bytes, true⟩ := by rw [hloop]
      refine ⟨[repaired part], ⟨?_, ?_, ?_⟩, hresult ▸ hreport⟩
      · exact iff_of_true (congrArg TruncationResult.lastLinePartial hresult) ⟨hroom, line, hline, hlong⟩
      · intro hwhole
        have hflag := congrArg TruncationResult.lastLinePartial hresult
        exact absurd (hflag.symm.trans hwhole) (Bool.false_ne_true ∘ Eq.symm)
      · intro _ other hother
        obtain rfl := Option.some.inj (hline.symm.trans hother)
        exact ⟨part, hpart, rfl⟩
    · obtain ⟨hkept, hfits, hflag, hblame⟩ := @collectHead_longest runtime content options hdoc
        (splitLinesForCounting content).reverse hin ((weight_reverse _).trans_le (weight_le_content content))
      have hloop := @collectTail_eq runtime hdoc options.lineLimit options.byteLimit
        (splitLinesForCounting content).reverse
        (nothingCollected (resolveTruncationInput runtime content options)) (by
          intro _ line hline hroom
          rw [List.head?_reverse] at hline
          by_contra hlong
          rw [not_le] at hlong
          exact hpartial ⟨hroom, line, hline, by simpa [nothingCollected] using hlong⟩)
      have hlongest := hkept.reverse
      have hreport := reported_truncatedTo hdoc hin hfits.reversed hlongest.lines
        (fun line hline => newline_not_mem (hlongest.part.subset hline)) hblame
      have hresult := congrArg (truncatedTo runtime (resolveTruncationInput runtime content options)) hloop
      have hwhole := (congrArg TruncationResult.lastLinePartial hresult).trans hflag
      exact ⟨_, ⟨iff_of_false (fun hcut => Bool.false_ne_true (hwhole.symm.trans hcut)) hpartial, fun _ => hlongest,
        fun hcut => absurd (hwhole.symm.trans hcut) Bool.false_ne_true⟩, hresult ▸ hreport⟩

/-! ## Both -/

/-- **Truncation keeps the most that fits**: `truncateHead` the longest list of leading lines within both limits,
`truncateTail` the longest list of trailing lines or, when not even the last line fits, its longest end; the
content is within the limits, and the numbers and flags of the result are exact. -/
theorem truncation_exact (hdoc : runtime.Documented) (content : JsString) (options : TruncationOptions) :
    (∃ kept, Longest options (· <+: splitLinesForCounting content) kept ∧
      Reported content options kept (truncateHead runtime content options) ∧
      ((truncateHead runtime content options).firstLineExceedsLimit = true ↔
        ∃ line ∈ (splitLinesForCounting content).head?, options.byteLimit < byteLength line)) ∧
    ∃ kept, KeptTail content options kept (truncateTail runtime content options).lastLinePartial ∧
      Reported content options kept (truncateTail runtime content options) :=
  ⟨truncateHead_longest hdoc content options, truncateTail_longest hdoc content options⟩

theorem noBuffer_documented : Runtime.Documented ⟨none⟩ := by
  intro count hcount
  cases hcount

/-- Two lines, the last with a surrogate on its own. -/
def loneText : JsString := units "a\nb" ++ [unitOfNat 0xD800, unitOf 'c']

def loneOptions : TruncationOptions := ⟨some 1, some 4⟩

/-- `truncation_exact` without `Buffer`, for a last line that is cut in front of a lone surrogate. -/
theorem truncation_exact_lone : (∃ kept, Longest loneOptions (· <+: splitLinesForCounting loneText) kept ∧
      Reported loneText loneOptions kept (truncateHead ⟨none⟩ loneText loneOptions) ∧
      ((truncateHead ⟨none⟩ loneText loneOptions).firstLineExceedsLimit = true ↔
        ∃ line ∈ (splitLinesForCounting loneText).head?, loneOptions.byteLimit < byteLength line)) ∧
    ∃ kept, KeptTail loneText loneOptions kept (truncateTail ⟨none⟩ loneText loneOptions).lastLinePartial ∧
      Reported loneText loneOptions kept (truncateTail ⟨none⟩ loneText loneOptions) :=
  truncation_exact noBuffer_documented loneText loneOptions

end OpenClaw.Harness
