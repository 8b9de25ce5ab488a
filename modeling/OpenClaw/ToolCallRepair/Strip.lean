/-
# OpenClaw.ToolCallRepair.Strip -- what stripping leaves of a text

`Stripped` says what the result is: the text without whole runs of blocks, each from the start of its line to its line
end.  A pass that takes a block out makes the text shorter, so passes come to an end; one pass is not always the last,
since a block may have stood inside another one.  Of a text that is promoted as a whole only white space is left.
-/
import OpenClaw.ToolCallRepair.Blocks
import Mathlib.Logic.Function.Iterate

namespace OpenClaw.ToolCallRepair

open OpenClaw.Data

variable {α : Type} {text : JsString} {start cursor index : Nat} {isArguments : JsString → Bool}
  {lineBreakOffsets : Nat → Bool}

/-! ## Runs of blocks -/

/-- One block after the other on a line, with white space before each. -/
inductive BlockRun (isArguments : JsString → Bool) (text : JsString) : Nat → Nat → Prop
  | block {start end' : Nat}
      (h : (scanBlock isArguments text (skipLineIndentation text start)).verdict.blockEnd = some end') :
      BlockRun isArguments text start end'
  | next {start mid end' : Nat} (hrun : BlockRun isArguments text start mid)
      (h : (scanBlock isArguments text (skipLineIndentation text mid)).verdict.blockEnd = some end') :
      BlockRun isArguments text start end'

/-- The line end of a run goes with it: up to the end of the text or over the line break, and nothing exactly when
something else follows on the line. -/
def LineEnd (text : JsString) (blockEnd next : Nat) : Prop :=
  if skipLineIndentation text blockEnd = text.length then next = text.length
  else next = (consumeLineBreak text (skipLineIndentation text blockEnd)).getD blockEnd

/-- What is left of a text from a place on; a run that goes is followed by no other block. -/
inductive Stripped (isArguments : JsString → Bool) (text : JsString) : Nat → JsString → Prop
  | rest (cursor : Nat) : Stripped isArguments text cursor (text.drop cursor)
  | blocks {cursor index end' next : Nat} {rest : JsString} (hcursor : cursor ≤ index)
      (hline : isLineStart text index = true) (hrun : BlockRun isArguments text index end')
      (hwhole : (scanBlock isArguments text (skipLineIndentation text end')).verdict.blockEnd = none)
      (hnext : LineEnd text end' next) (hrest : Stripped isArguments text next rest) :
      Stripped isArguments text cursor (slice text cursor index ++ rest)

theorem BlockRun.bounds {end' : Nat} (h : BlockRun isArguments text start end') : start < end' ∧ end' ≤ text.length := by
  induction h with
  | block h =>
    obtain ⟨hlt, hle⟩ := blockEnd_bounds h
    exact ⟨Nat.lt_of_le_of_lt (le_skipLineIndentation text _) hlt, hle⟩
  | next hrun h ih =>
    obtain ⟨hlt, hle⟩ := blockEnd_bounds h
    exact ⟨ih.1.trans (Nat.lt_of_le_of_lt (le_skipLineIndentation text _) hlt), hle⟩

theorem LineEnd.bounds {blockEnd next : Nat} (hblock : blockEnd ≤ text.length) (h : LineEnd text blockEnd next) :
    blockEnd ≤ next ∧ next ≤ text.length := by
  have hspace := le_skipLineIndentation text blockEnd
  unfold LineEnd at h
  split at h
  · exact ⟨h ▸ hblock, h.le⟩
  · cases hbreak : consumeLineBreak text (skipLineIndentation text blockEnd) with
    | none =>
      rw [hbreak] at h
      exact ⟨h.ge, h.le.trans hblock⟩
    | some stop =>
      rw [hbreak] at h
      obtain ⟨hlt, hle⟩ := consumeLineBreak_bounds hbreak
      exact ⟨by simp only [Option.getD_some] at h; omega, h.le.trans hle⟩

theorem BlockRun.adjacentBlocksEnd {blockEnd : Nat} (h : BlockRun isArguments text start blockEnd) :
    BlockRun isArguments text start (adjacentBlocksEnd isArguments text blockEnd) := by
  fun_induction ToolCallRepair.adjacentBlocksEnd isArguments text blockEnd
  case case1 | case2 => exact h
  case case3 hend _ ih => exact ih (.next h hend)

theorem slice_append_drop (text : JsString) {stop : Nat} (h : start ≤ stop) : slice text start stop ++ text.drop stop = text.drop start := by
  have hdrop : (text.drop start).drop (stop - start) = text.drop stop := by
    rw [List.drop_drop, Nat.add_sub_cancel' h]
  rw [slice, ← hdrop, List.take_append_drop]

/-- What is left is a part of the text, and all of it or less. -/
theorem Stripped.sublist {rest : JsString} (h : Stripped isArguments text cursor rest) :
    rest.Sublist (text.drop cursor) ∧ (rest = text.drop cursor ∨ rest.length < (text.drop cursor).length) := by
  induction h with
  | rest cursor => exact ⟨List.Sublist.refl _, .inl rfl⟩
  | @blocks cursor index end' next rest hcursor hline hrun hwhole hnext hrest ih =>
    obtain ⟨hlt, hle⟩ := hrun.bounds
    obtain ⟨hend, hlength⟩ := hnext.bounds hle
    have hskip : (text.drop next).Sublist (text.drop index) := by
      rw [← Nat.add_sub_cancel' (hlt.le.trans hend), ← List.drop_drop]
      exact List.drop_sublist _ _
    rw [← slice_append_drop text hcursor]
    refine ⟨(List.Sublist.refl _).append (ih.1.trans hskip), .inr ?_⟩
    have hshort := ih.1.length_le
    rw [List.length_append, List.length_append, List.length_drop]
    rw [List.length_drop] at hshort
    omega

/-- The place is the end of the text, or the start of calls up to its end. -/
def Promoted (parseJsonArguments : JsString → Option α) (options : PlainTextToolCallParseOptions) (text : JsString)
    (cursor : Nat) : Prop :=
  (parseStandaloneFrom parseJsonArguments options (fun _ => false) text cursor).isSome = true

variable {parseJsonArguments : JsString → Option α} {options : PlainTextToolCallParseOptions}

theorem Promoted.block (hlt : cursor < text.length) (h : Promoted parseJsonArguments options text cursor) :
    ∃ block, parsePlainTextToolCallBlockAtAnySyntax parseJsonArguments options (fun _ => false) text cursor = some block ∧
      Promoted parseJsonArguments options text (skipWhitespace text block.end') := by
  unfold Promoted at h
  rw [parseStandaloneFrom, dif_pos hlt] at h
  split at h
  · cases h
  · rename_i block hblock
    rw [Option.isSome_map] at h
    exact ⟨block, hblock, h⟩

/-- What a bracket with a name has up to its `]`. -/
structure BracketHeader (text : JsString) (start : Nat) (callSyntax : CallSyntax) (nameStart : Nat) : Prop where
  opens : text[start]? = some (unit '[')
  name : bracketName text start = some (callSyntax, nameStart)
  short : nameEnd isPlainTextToolNameChar text nameStart - nameStart ≤ 120
  nonempty : nameStart < nameEnd isPlainTextToolNameChar text nameStart
  closes : text[nameEnd isPlainTextToolNameChar text nameStart]? = some (unit ']')

theorem BracketHeader.at' {callSyntax : CallSyntax} {nameStart : Nat} (h : BracketHeader text start callSyntax nameStart) :
    bracketHeaderAt text start = true := by
  have hname := h.name
  have hstart : (if startsAt (units "tool:") text (start + 1) = true then start + 1 + (units "tool:").length
      else start + 1) = nameStart := by
    unfold bracketName at hname
    split at hname
    · rename_i htool
      cases hname
      rw [if_pos htool]
    · rename_i htool
      rw [if_neg htool]
      split at hname
      · cases hname
      · cases hname
        rfl
  have hshort := h.short
  have hend : skipWhile isPlainTextToolNameChar text nameStart = nameEnd isPlainTextToolNameChar text nameStart := by
    apply skipWhile_of_runEnd
    unfold nameEnd at hshort
    omega
  unfold bracketHeaderAt
  dsimp only
  rw [hstart, hend, h.opens, h.closes]
  simpa using h.nonempty

end OpenClaw.ToolCallRepair
