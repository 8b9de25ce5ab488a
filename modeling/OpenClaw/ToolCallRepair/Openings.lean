/-
# OpenClaw.ToolCallRepair.Openings -- the names of calls in a longer text, and brackets for both scanners

A name that stops before the end of the text is the name in every longer text, and one that goes up to the end is a
part of the longer text's.  The two scanners read a bracket in the same way up to its `]`.
-/
import OpenClaw.ToolCallRepair.Payload

namespace OpenClaw.ToolCallRepair

open OpenClaw.Data

variable {text more : JsString} {start cursor : Nat}

theorem le_skipWhitespace (text : JsString) (start : Nat) : start ≤ skipWhitespace text start :=
  le_skipWhile isSpace text start

theorem le_skipHorizontalWhitespace (text : JsString) (start : Nat) : start ≤ skipHorizontalWhitespace text start :=
  le_skipWhile isBlank text start

/-! ## Names -/

/-- The same name when it was complete, and otherwise a name that goes on from it. -/
def SameName (text text' : JsString) (value value' : Candidate) : Prop :=
  if value.nameComplete then
    value'.nameComplete = true ∧
      slice text' value'.name.start value'.name.end' = slice text value.name.start value.name.end'
  else slice text value.name.start value.name.end' <+: slice text' value'.name.start value'.name.end'

/-- The scan of the longer text found no name, or goes on with this one. -/
def CarriesOn (text text' : JsString) (value : Candidate) (scan : ToolCallScan) : Prop :=
  (∃ at', scan = .invalid at' none) ∨ ∃ value', scan.value = some value' ∧ SameName text text' value value'

theorem nameEnd_append (more : JsString) {isNameChar : CodeUnit → Bool} (hstart : start ≤ text.length)
    (h : nameEnd isNameChar text start < text.length ∨ nameEnd isNameChar text start - start > 120) :
    nameEnd isNameChar (text ++ more) start = nameEnd isNameChar text start := by
  refine runEnd_append (h.imp_right fun hlong => ⟨?_, hstart⟩)
  have hlimit := runEnd_le_limit isNameChar 121 text start
  unfold nameEnd at hlong
  omega

theorem le_nameEnd (isNameChar : CodeUnit → Bool) (text : JsString) (start : Nat) :
    start ≤ nameEnd isNameChar text start := le_runEnd isNameChar 121 text start

theorem nameEnd_le (isNameChar : CodeUnit → Bool) (hstart : start ≤ text.length) :
    nameEnd isNameChar text start ≤ text.length := runEnd_le hstart

/-- The name of a candidate that was read from the same place in a text and in a longer one. -/
theorem sameName {isNameChar : CodeUnit → Bool} {value value' : Candidate} (hstart : start ≤ text.length)
    (hname : value.name = ⟨start, nameEnd isNameChar text start⟩)
    (hname' : value'.name = ⟨start, nameEnd isNameChar (text ++ more) start⟩)
    (hcomplete : value.nameComplete = true → nameEnd isNameChar text start < text.length ∧ value'.nameComplete = true) :
    SameName text (text ++ more) value value' := by
  unfold SameName
  split
  · rename_i h
    obtain ⟨hlt, h'⟩ := hcomplete h
    refine ⟨h', ?_⟩
    rw [hname, hname', nameEnd_append _ hstart (.inl hlt), slice_append (nameEnd_le _ hstart)]
  · rw [hname, hname']
    exact slice_runEnd_append _ _ _ hstart

/-! ## Brackets -/

/-- `tool:` is there, may be going to be there, or the bracket has a name of its own. -/
def bracketName (text : JsString) (start : Nat) : Option (CallSyntax × Nat) :=
  if startsAt (units "tool:") text (start + 1) then some (.toolBracket, start + 1 + (units "tool:").length)
  else if cutAt (units "tool:") text (start + 1) then none
  else some (.namedBracket, start + 1)

theorem scanBracketOpening_eq (lineBreakOffsets : Nat → Bool) (text : JsString) (start : Nat) :
    scanBracketOpening lineBreakOffsets text start =
      match bracketName text start with
      | none => .error (.incomplete none none)
      | some (callSyntax, nameStart) => scanBracketName lineBreakOffsets text callSyntax nameStart := by
  unfold scanBracketOpening bracketName
  dsimp only
  by_cases htool : startsAt (units "tool:") text (start + 1) = true
  · rw [if_pos htool, if_pos htool]
  · rw [if_neg htool, if_neg htool]
    by_cases hcut : cutAt (units "tool:") text (start + 1) = true
    · rw [if_pos hcut, if_pos hcut]
    · rw [if_neg hcut, if_neg hcut]

theorem getElem?_drop_cons {rest : JsString} {u : CodeUnit} (h : text.drop start = u :: rest) :
    text[start]? = some u := by
  have hget : (text.drop start)[0]? = text[start + 0]? := List.getElem?_drop
  rw [h] at hget
  simpa using hget.symm

theorem tool_units : units "tool" = [unit 't', unit 'o', unit 'o', unit 'l'] := by decide

theorem toolColon_units : units "tool:" = units "tool" ++ [unit ':'] := by decide

theorem tool_nameChars : ∀ u ∈ units "tool", isPlainTextToolNameChar u = true := by
  have hall : (units "tool").all isPlainTextToolNameChar = true := by decide
  exact List.all_eq_true.mp hall

theorem colon_not_nameChar : isPlainTextToolNameChar (unit ':') = false := by decide

/-- A bracket from the start of its name on, as the XML-ish scanner reads it. -/
def scanXmlishBracketName (lineBreakOffsets : Nat → Bool) (text : JsString) (callSyntax : CallSyntax)
    (nameStart : Nat) : Except ToolCallScan (Nat × CallSyntax × Span) :=
  if nameEnd isPlainTextToolNameChar text nameStart - nameStart > 120 then
    .error (.invalid (nameEnd isPlainTextToolNameChar text nameStart) none)
  else
    scanBracketEnd lineBreakOffsets text callSyntax ⟨nameStart, nameEnd isPlainTextToolNameChar text nameStart⟩

/-- Up to its name a bracket is read in the same way by the XML-ish scanner. -/
theorem scanXmlishBracketOpening_eq (lineBreakOffsets : Nat → Bool) (hstart : start < text.length) :
    scanXmlishBracketOpening lineBreakOffsets text start =
      match bracketName text start with
      | none => .error (.incomplete none none)
      | some (callSyntax, nameStart) => scanXmlishBracketName lineBreakOffsets text callSyntax nameStart := by
  have hslice := slice_runEnd isPlainTextToolNameChar 121 text (start + 1)
  unfold scanXmlishBracketOpening bracketName scanXmlishBracketName
  by_cases htool : startsAt (units "tool:") text (start + 1) = true
  · -- the name is `tool`, and a colon follows
    obtain ⟨tail, htail⟩ := startsAt_iff.mp htool
    have htake : (text.drop (start + 1)).takeWhile isPlainTextToolNameChar = units "tool" := by
      rw [← htail, toolColon_units, List.append_assoc, List.takeWhile_append_of_pos tool_nameChars]
      simp [colon_not_nameChar]
    have hend : nameEnd isPlainTextToolNameChar text (start + 1) = start + 1 + 4 := by
      unfold nameEnd runEnd
      rw [htake]
      rfl
    have hname : slice text (start + 1) (nameEnd isPlainTextToolNameChar text (start + 1)) = units "tool" := by
      unfold nameEnd
      rw [hslice, htake]
      rfl
    have hcolon : text[start + 1 + 4]? = some (unit ':') := by
      have hdrop : text.drop (start + 1 + 4) = unit ':' :: tail := by
        rw [← List.drop_drop, ← htail, toolColon_units, List.append_assoc]
        rfl
      exact getElem?_drop_cons hdrop
    have hlt : start + 1 + 4 < text.length := (List.getElem?_eq_some_iff.mp hcolon).1
    have hlength : (units "tool:").length = 5 := by decide
    simp only [htool, if_true, hend, hcolon, hlength]
    rw [if_neg (by omega), if_neg (by simp; omega), ← hend, hname]
    simp only [hend, decide_true, Bool.and_self, if_true]
  · rw [if_neg htool]
    by_cases hcut : cutAt (units "tool:") text (start + 1) = true
    · -- what is left of the text is a part of `tool`
      rw [if_pos hcut]
      obtain ⟨hshort, hpre⟩ := Bool.and_eq_true_iff.mp hcut
      have hshort' : (text.drop (start + 1)).length ≤ (units "tool").length := by
        rw [toolColon_units, List.length_append] at hshort
        exact Nat.le_of_lt_succ (of_decide_eq_true hshort)
      have hpre' : text.drop (start + 1) <+: units "tool" := by
        rw [List.isPrefixOf_iff_prefix, toolColon_units] at hpre
        exact List.prefix_of_prefix_length_le hpre (List.prefix_append _ _) hshort'
      have htake : (text.drop (start + 1)).takeWhile isPlainTextToolNameChar = text.drop (start + 1) := by
        rw [List.takeWhile_eq_self_iff]
        exact fun u hu => tool_nameChars u (hpre'.subset hu)
      have hfour : (units "tool").length = 4 := by rw [tool_units]; rfl
      have hlength := List.length_drop (l := text) (i := start + 1)
      have hend : nameEnd isPlainTextToolNameChar text (start + 1) = text.length := by
        rw [nameEnd, runEnd, htake, List.length_take]
        omega
      have hname : slice text (start + 1) (nameEnd isPlainTextToolNameChar text (start + 1)) = text.drop (start + 1) := by
        rw [nameEnd, hslice, htake, List.take_of_length_le (by omega)]
      dsimp only
      rw [hname, hend, if_neg (by omega), if_pos]
      simpa using hpre'
    · rw [if_neg hcut]
      have hend_le : nameEnd isPlainTextToolNameChar text (start + 1) ≤ text.length := nameEnd_le _ hstart
      have hstart_le : start + 1 ≤ nameEnd isPlainTextToolNameChar text (start + 1) :=
        le_runEnd isPlainTextToolNameChar 121 text (start + 1)
      have hpre : slice text (start + 1) (nameEnd isPlainTextToolNameChar text (start + 1)) <+: text.drop (start + 1) :=
        List.take_prefix _ _
      have hlength := slice_length (start + 1) hend_le
      dsimp only
      by_cases hlong : nameEnd isPlainTextToolNameChar text (start + 1) - (start + 1) > 120
      · rw [if_pos hlong, if_pos hlong]
      rw [if_neg hlong, if_neg hlong, if_neg, if_neg]
      · -- a name `tool` with a colon would be `tool:`
        rw [Bool.and_eq_true, decide_eq_true_eq, decide_eq_true_eq]
        rintro ⟨hcolon, hname⟩
        apply htool
        rw [startsAt_iff, toolColon_units]
        rw [hname] at hpre hlength
        obtain ⟨tail, htail⟩ := hpre
        have hcolon' : tail[0]? = some (unit ':') := by
          have hget : (text.drop (start + 1))[(units "tool").length]? = text[start + 1 + (units "tool").length]? :=
            List.getElem?_drop
          rw [← htail, List.getElem?_append_right (Nat.le_refl _), Nat.sub_self] at hget
          rw [hget, ← hcolon]
          congr 1
          omega
        cases tail with
        | nil => cases hcolon'
        | cons u tail =>
          rw [← htail]
          cases hcolon'
          exact ⟨tail, by simp⟩
      · -- a part of `tool` at the end of the text would be one of `tool:`
        rw [Bool.and_eq_true, decide_eq_true_eq, List.isPrefixOf_iff_prefix]
        rintro ⟨hend, hname⟩
        apply hcut
        have hrest : slice text (start + 1) (nameEnd isPlainTextToolNameChar text (start + 1)) = text.drop (start + 1) :=
          hpre.eq_of_length_le (by rw [hlength, List.length_drop, hend])
        rw [hrest] at hname
        have hshort := hname.length_le
        rw [cutAt, Bool.and_eq_true, decide_eq_true_eq, List.isPrefixOf_iff_prefix, toolColon_units]
        refine ⟨?_, hname.trans (List.prefix_append _ _)⟩
        rw [List.length_append, List.length_singleton]
        omega

end OpenClaw.ToolCallRepair
