/-
# OpenClaw.OcPaths.JsonlParse -- the lines of a JSON-Lines text

`parseJsonl` of `jsonl/parse.ts` drops the final line break, takes CRLF for LF, cuts the text at the line
breaks and reads each line as JSON.  The second half of this module is about texts that are put together
from lines: what `parseJsonl` makes of each of them again.
-/
import OpenClaw.OcPaths.JsonText

namespace OpenClaw.OcPaths

open OpenClaw.Data

variable {ν : Type}

/-- `raw.match(/\r\n/g)`, counted. -/
def crlfCount : Text → Nat
  | '\r' :: '\n' :: rest => crlfCount rest + 1
  | _ :: rest => crlfCount rest
  | [] => 0

def detectLineEnding (raw : Text) : LineEnding :=
  if 0 < crlfCount raw ∧ raw.count '\n' ≤ crlfCount raw * 2 then .crlf else .lf

/-- The text without its final line break. -/
def trimFinalNewline (raw : Text) : Text :=
  if ['\r', '\n'] <:+ raw then raw.dropLast.dropLast
  else if ['\n'] <:+ raw then raw.dropLast
  else raw

/-- `body.replace(/\r\n/g, "\n")` -/
def normalizeCrlf : Text → Text
  | '\r' :: '\n' :: rest => '\n' :: normalizeCrlf rest
  | c :: rest => c :: normalizeCrlf rest
  | [] => []

/-- What the loop makes of one line. -/
def parseLine (parser : JsoncParser ν) (lineNo : Nat) (lineText : Text) : JsonlLine ν :=
  if isBlankText lineText then .blank lineNo lineText
  else
    match (parseJsonc parser lineText).root with
    | none => .malformed lineNo lineText
    | some value => .value lineNo value lineText

def malformedDiagnostic (ln : JsonlLine ν) : Option Diagnostic :=
  match ln with
  | .malformed lineNo _ => some
      { line := lineNo
        message := "line ".toList ++ decimalText lineNo ++ " could not be parsed as JSON".toList
        severity := .warning
        code := "OC_JSONL_LINE_MALFORMED".toList }
  | _ => none

structure JsonlParseResult (ν : Type) where
  ast : JsonlAst ν
  diagnostics : List Diagnostic

def bodyLines (parser : JsoncParser ν) (body : Text) : List (JsonlLine ν) :=
  if body = [] then []
  else (body.splitOn '\n').mapIdx fun idx lineText => parseLine parser (idx + 1) lineText

def parseJsonl (parser : JsoncParser ν) (raw : Text) : JsonlParseResult ν :=
  let lines := bodyLines parser (normalizeCrlf (trimFinalNewline raw))
  { ast := { raw, lines, lineEnding := some (detectLineEnding raw) }
    diagnostics := lines.filterMap malformedDiagnostic }

/-! ## Lines and line breaks -/

/-- A text on one line. -/
def OneLine (text : Text) : Prop := '\n' ∉ text

/-- The text without a carriage return at its end. -/
def dropCr (text : Text) : Text := if text.getLast? = some '\r' then text.dropLast else text

/-- What is left of a line in front of a line break. -/
def cutLine : LineEnding → Text → Text
  | .crlf, text => text
  | .lf, text => dropCr text

theorem normalizeCrlf_cons {c : Char} {rest : Text} (h : c = '\r' → rest.head? ≠ some '\n') :
    normalizeCrlf (c :: rest) = c :: normalizeCrlf rest := by
  refine normalizeCrlf.eq_2 c rest fun rest' hc hrest => h hc ?_
  rw [hrest]
  rfl

variable {text : Text}

theorem normalizeCrlf_oneLine (h : OneLine text) : normalizeCrlf text = text := by
  induction text with
  | nil => rfl
  | cons c rest ih =>
    have hrest : OneLine rest := fun hmem => h (List.mem_cons_of_mem c hmem)
    rw [normalizeCrlf_cons fun _ hhead => hrest (List.mem_of_head? hhead), ih hrest]

theorem dropCr_append_cr (text : Text) : dropCr (text ++ ['\r']) = text := by
  simp [dropCr]

theorem dropCr_cons {c : Char} {rest : Text} (h : rest ≠ []) : dropCr (c :: rest) = c :: dropCr rest := by
  unfold dropCr
  rw [List.getLast?_cons_of_ne_nil h, List.dropLast_cons_of_ne_nil h]
  split <;> rfl

/-- A line in front of a line feed. -/
theorem normalizeCrlf_line (h : OneLine text) (rest : Text) : normalizeCrlf (text ++ '\n' :: rest) = dropCr text ++
      '\n' :: normalizeCrlf rest := by
  induction text with
  | nil => exact normalizeCrlf_cons fun h => absurd h (by decide)
  | cons c tail ih =>
    have htail : OneLine tail := fun hmem => h (List.mem_cons_of_mem c hmem)
    cases tail with
    | nil =>
      by_cases hc : c = '\r'
      · subst hc
        rfl
      · have hdrop : dropCr [c] = [c] := by simp [dropCr, hc]
        rw [List.singleton_append, normalizeCrlf_cons fun h => absurd h hc,
          normalizeCrlf_cons fun h => absurd h (by decide), hdrop]
        rfl
    | cons d tail' =>
      rw [List.cons_append, normalizeCrlf_cons, ih htail, dropCr_cons (List.cons_ne_nil _ _)]
      · rfl
      · intro _ hhead
        rw [List.cons_append, List.head?_cons, Option.some.injEq] at hhead
        exact htail (hhead ▸ List.mem_cons_self)

/-- A line in front of a line break. -/
theorem normalizeCrlf_break (h : OneLine text) (ending : LineEnding) (rest : Text) :
    normalizeCrlf (text ++ ending.text ++ rest) = cutLine ending text ++ '\n' :: normalizeCrlf rest := by
  cases ending with
  | lf =>
    rw [List.append_assoc]
    exact normalizeCrlf_line h rest
  | crlf =>
    have hline : OneLine (text ++ ['\r']) := by
      intro hmem
      rcases List.mem_append.mp hmem with hmem | hmem
      · exact h hmem
      · exact absurd (List.mem_singleton.mp hmem) (by decide)
    have hsplit : text ++ LineEnding.crlf.text ++ rest = (text ++ ['\r']) ++ '\n' :: rest := by
      simp [LineEnding.text]
    rw [hsplit, normalizeCrlf_line hline, dropCr_append_cr]
    rfl

/-- The lines of `init` in front of line breaks, and `last` at the end. -/
theorem normalizeCrlf_join {init : List Text} {last : Text} (hinit : ∀ text ∈ init, OneLine text)
    (hlast : OneLine last) (ending : LineEnding) : normalizeCrlf (join ending.text (init ++ [last])) =
      join ['\n'] (init.map (cutLine ending) ++ [last]) := by
  induction init with
  | nil =>
    rw [List.nil_append, List.map_nil, List.nil_append, join_singleton, join_singleton]
    exact normalizeCrlf_oneLine hlast
  | cons text rest ih =>
    rw [List.cons_append, List.map_cons, List.cons_append, join_cons _ _ (by simp),
      join_cons _ _ (by simp), normalizeCrlf_break (hinit text List.mem_cons_self),
      ih fun other hother => hinit other (List.mem_cons_of_mem text hother)]
    simp

theorem join_concat (sep last : Text) {init : List Text} (h : init ≠ []) :
    join sep (init ++ [last]) = join sep init ++ sep ++ last := by
  induction init with
  | nil => exact absurd rfl h
  | cons first rest ih =>
    cases rest with
    | nil => rw [List.singleton_append, join_cons _ _ (by simp), join_singleton, join_singleton]
    | cons second rest' =>
      rw [List.cons_append, join_cons sep first (by simp), ih (List.cons_ne_nil _ _),
        join_cons sep first (List.cons_ne_nil second rest')]
      simp

/-- What the texts in front of the last one, and the last one, are cut to. -/
def cutTexts (ending : LineEnding) (init : List Text) (last : Text) : List Text :=
  if last = [] then init.map (cutLine ending) else init.map (cutLine ending) ++ [last]

theorem getLast?_append_ne_nil {xs ys : Text} (h : ys ≠ []) : (xs ++ ys).getLast? = ys.getLast? := by
  rw [List.getLast?_append, List.getLast?_eq_getLast_of_ne_nil h]
  rfl

theorem trimFinalNewline_of_last {raw : Text} (h : raw.getLast? ≠ some '\n') : trimFinalNewline raw = raw := by
  have hnone : ∀ text : Text, ¬ (text ++ ['\n']) <:+ raw := by
    rintro text ⟨lead, rfl⟩
    rw [← List.append_assoc, List.getLast?_concat] at h
    exact h rfl
  unfold trimFinalNewline
  rw [if_neg (show ¬ ['\r', '\n'] <:+ raw from hnone ['\r']),
    if_neg (show ¬ ['\n'] <:+ raw from hnone [])]

/-- A final CRLF goes, and so does a final LF with the carriage return that happens to be before it. -/
theorem trimFinalNewline_break (text : Text) (ending : LineEnding) :
    trimFinalNewline (text ++ ending.text) = cutLine ending text := by
  cases ending with
  | crlf =>
    have hsuffix : ['\r', '\n'] <:+ text ++ LineEnding.crlf.text := List.suffix_append text _
    rw [trimFinalNewline, if_pos hsuffix]
    simp [LineEnding.text, cutLine]
  | lf =>
    have hsuffix : ['\n'] <:+ text ++ LineEnding.lf.text := List.suffix_append text _
    have hcrlf : ['\r', '\n'] <:+ text ++ LineEnding.lf.text ↔ text.getLast? = some '\r' := by
      rw [show (['\r', '\n'] : Text) = ['\r'] ++ LineEnding.lf.text from rfl, List.suffix_append_inj_of_length_eq rfl]
      constructor
      · rintro ⟨⟨lead, rfl⟩, -⟩
        exact List.getLast?_concat
      · intro h
        obtain ⟨lead, hlead⟩ := List.getLast?_eq_some_iff.mp h
        exact ⟨⟨lead, hlead.symm⟩, rfl⟩
    rw [trimFinalNewline, cutLine, dropCr]
    by_cases hcr : text.getLast? = some '\r'
    · rw [if_pos (hcrlf.mpr hcr), if_pos hcr]
      simp [LineEnding.text]
    · rw [if_neg (fun h => hcr (hcrlf.mp h)), if_pos hsuffix, if_neg hcr]
      simp [LineEnding.text]

theorem oneLine_last (h : OneLine text) : text.getLast? ≠ some '\n' := fun hlast => h (List.mem_of_getLast? hlast)

theorem oneLine_cutLine (h : OneLine text) (ending : LineEnding) : OneLine (cutLine ending text) := by
  cases ending with
  | crlf => exact h
  | lf =>
    rw [cutLine, dropCr]
    split
    · exact fun hmem => h (List.mem_of_mem_dropLast hmem)
    · exact h

theorem dropCr_append {xs ys : Text} (h : xs.getLast? ≠ some '\r') : dropCr (xs ++ ys) = xs ++ dropCr ys := by
  by_cases hempty : ys = []
  · subst hempty
    rw [List.append_nil, dropCr, if_neg h]
    exact (List.append_nil xs).symm
  · rw [dropCr, dropCr, getLast?_append_ne_nil hempty, List.dropLast_append_of_ne_nil hempty]
    split <;> rfl

/-- Only the last line is cut. -/
theorem cutLine_join (ending : LineEnding) (lead : List Text) (text : Text) :
    cutLine ending (join ending.text (lead ++ [text])) = join ending.text (lead ++ [cutLine ending text]) := by
  by_cases hlead : lead = []
  · rw [hlead, List.nil_append, List.nil_append, join_singleton, join_singleton]
  · rw [join_concat _ _ hlead, join_concat _ _ hlead]
    cases ending with
    | crlf => rfl
    | lf =>
      rw [cutLine, dropCr_append]
      · rfl
      · rw [LineEnding.text, List.getLast?_concat]
        decide

/-- **The body of a text that was put together from lines.** -/
theorem normalizeCrlf_trim_join {init : List Text} {last : Text} (hinit : ∀ text ∈ init, OneLine text)
    (hlast : OneLine last) (ending : LineEnding) :
    normalizeCrlf (trimFinalNewline (join ending.text (init ++ [last]))) = join ['\n'] (cutTexts ending init last) := by
  by_cases hempty : last = []
  · subst hempty
    rw [cutTexts, if_pos rfl]
    induction init using List.reverseRecOn with
    | nil => rfl
    | append_singleton lead text _ =>
      -- The final line break is the one behind `text`.
      have htext : OneLine text := hinit text (by simp)
      have hlead : ∀ other ∈ lead, OneLine other := fun other hother => hinit other (by simp [hother])
      have hraw : join ending.text ((lead ++ [text]) ++ [[]]) = join ending.text (lead ++ [text]) ++ ending.text := by
        rw [join_concat _ _ (by simp), List.append_nil]
      have htrim : trimFinalNewline (join ending.text (lead ++ [text]) ++ ending.text) =
          join ending.text (lead ++ [cutLine ending text]) := by
        rw [trimFinalNewline_break, cutLine_join]
      rw [hraw, htrim, normalizeCrlf_join hlead (oneLine_cutLine htext ending), List.map_append]
      rfl
  · rw [cutTexts, if_neg hempty, trimFinalNewline_of_last, normalizeCrlf_join hinit hlast]
    by_cases hinit' : init = []
    · rw [hinit', List.nil_append, join_singleton]
      exact oneLine_last hlast
    · rw [join_concat _ _ hinit', getLast?_append_ne_nil hempty]
      exact oneLine_last hlast

/-- The text that a line is read from again: its own text at the end, what is left in front of a break. -/
def rereadText (ending : LineEnding) (texts : List Text) (k : Nat) (text : Text) : Text :=
  if k + 1 = texts.length then text else cutLine ending text

theorem isBlankText_dropCr (h : isBlankText text = false) : isBlankText (dropCr text) = false := by
  unfold dropCr
  split
  · rename_i hlast
    obtain ⟨lead, rfl⟩ := List.getLast?_eq_some_iff.mp hlast
    have hcr : isJsWhitespace '\r' = true := by decide
    simpa [isBlankText, List.dropLast_concat, hcr] using h
  · exact h

theorem isBlankText_cutLine (h : isBlankText text = false) (ending : LineEnding) :
    isBlankText (cutLine ending text) = false := by
  cases ending with
  | crlf => exact h
  | lf => exact isBlankText_dropCr h

theorem ne_nil_of_not_blank (h : isBlankText text = false) : text ≠ [] := by
  rintro rfl
  cases h

/-- **A line that is not blank is read again in its place.** -/
theorem parseJsonl_join (parser : JsoncParser ν) (ending : LineEnding) {texts : List Text}
    (hlines : ∀ text ∈ texts, OneLine text) {k : Nat} (htext : texts[k]? = some text)
    (hvisible : isBlankText text = false) : (parseJsonl parser (join ending.text texts)).ast.lines[k]? =
      some (parseLine parser (k + 1) (rereadText ending texts k text)) := by
  obtain ⟨hlt, hget⟩ := List.getElem?_eq_some_iff.mp htext
  obtain ⟨init, last, rfl⟩ : ∃ init last, texts = init ++ [last] :=
    ⟨texts.dropLast, texts.getLast (List.ne_nil_of_length_pos (by omega)), (List.dropLast_append_getLast _).symm⟩
  have hinit : ∀ text ∈ init, OneLine text := fun text h => hlines text (List.mem_append_left _ h)
  have hbody := normalizeCrlf_trim_join hinit (hlines last (by simp)) ending
  -- The line that is cut from the body at `k`.
  have hcut : (cutTexts ending init last)[k]? = some (rereadText ending (init ++ [last]) k text) := by
    have hbound : k < init.length + 1 := by simpa using hlt
    rw [rereadText, List.length_append, List.length_singleton, cutTexts]
    by_cases hk : k < init.length
    · rw [List.getElem?_append_left hk] at htext
      rw [if_neg (show ¬ k + 1 = init.length + 1 by omega)]
      by_cases hempty : last = []
      · rw [if_pos hempty, List.getElem?_map, htext]
        rfl
      · rw [if_neg hempty, List.getElem?_append_left (by simpa using hk), List.getElem?_map, htext]
        rfl
    · obtain rfl : k = init.length := by omega
      rw [List.getElem?_concat_length, Option.some.injEq] at htext
      rw [htext, if_neg (ne_nil_of_not_blank hvisible), if_pos rfl]
      simp
  have hreread : isBlankText (rereadText ending (init ++ [last]) k text) = false := by
    unfold rereadText
    split
    · exact hvisible
    · exact isBlankText_cutLine hvisible ending
  have hne : cutTexts ending init last ≠ [] := by
    intro hnil
    rw [hnil] at hcut
    cases hcut
  have honeLine : ∀ text ∈ cutTexts ending init last, '\n' ∉ text := by
    intro other hother
    unfold cutTexts at hother
    have hmap : ∀ other ∈ init.map (cutLine ending), OneLine other := by
      intro other hother
      obtain ⟨source, hsource, rfl⟩ := List.mem_map.mp hother
      exact oneLine_cutLine (hinit source hsource) ending
    split at hother
    · exact hmap other hother
    · rcases List.mem_append.mp hother with hother | hother
      · exact hmap other hother
      · rw [List.mem_singleton.mp hother]
        exact hlines last (by simp)
  have hsplit : (join ['\n'] (cutTexts ending init last)).splitOn '\n' = cutTexts ending init last :=
    List.splitOn_intercalate '\n' honeLine hne
  have hnonempty : join ['\n'] (cutTexts ending init last) ≠ [] := by
    intro hnil
    rw [hnil, List.splitOn_nil] at hsplit
    rw [← hsplit] at hcut
    have hmem := List.mem_of_getElem? hcut
    exact ne_nil_of_not_blank hreread (List.mem_singleton.mp hmem)
  rw [parseJsonl]
  dsimp only
  rw [hbody, bodyLines, if_neg hnonempty, hsplit, List.getElem?_mapIdx, hcut]
  rfl

end OpenClaw.OcPaths
