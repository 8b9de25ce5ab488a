/-
# OpenClaw.OcPaths.JsonlReparse -- an edited document, parsed again

An edit renders every line anew.  `Survives` says which documents come through: their value lines can be
written and read as JSON, and no malformed line in front of an LF ends with a carriage return.  Exactly
those are parsed again as they were.
-/
import OpenClaw.Logic.Fallible
import OpenClaw.OcPaths.JsonlEditTarget
import OpenClaw.OcPaths.JsonlParse

namespace OpenClaw.OcPaths

open OpenClaw.Data OpenClaw.Logic

/-! ## Edits -/

inductive JsonlEdit (ν : Type) where
  | set (path : OcPath) (value : JsoncValue ν)
  | append (value : JsoncValue ν)

def JsonlEditResult.ast? {ν : Type} : JsonlEditResult ν → Option (JsonlAst ν)
  | .ok ast => some ast
  | .refused _ => none

def applyEdit {ν : Type} (numberText : ν → Text) (ast : JsonlAst ν) :
    JsonlEdit ν → Except OcError (Option (JsonlAst ν))
  | .set path value => (setJsonlOcPath numberText ast path value).map (·.ast?)
  | .append value => (appendJsonlOcPath numberText ast value).map some

def JsonlLine.parts {ν : Type} : JsonlLine ν → Option (Nat × JsoncValue ν × Text)
  | .value line node raw => some (line, node, raw)
  | _ => none

/-- The lines with a new value at the place that a path addresses. -/
def linesSet {ν : Type} (ast : JsonlAst ν) (path : OcPath) (newValue : JsoncValue ν) :
    Option (List (JsonlLine ν)) := do
  let head ← path.section
  let i ← pickLineIndex ast head
  let (line, old, raw) ← ast.lines[i]?.bind (·.parts)
  let segments ← (slotSegments path).toOption
  let new ← replaceAt old newValue segments
  return ast.lines.set i (.value line new raw)

/-- **The lines of the edited document.** -/
def editedLines {ν : Type} (ast : JsonlAst ν) : JsonlEdit ν → List (JsonlLine ν)
  | .set path value => (linesSet ast path value).getD ast.lines
  | .append value => ast.lines ++ [.value (ast.lines.getLast?.elim 1 fun last => last.line + 1) value []]

variable {δ : Type}

def IsFinite : JsNumber δ → Prop
  | .finite _ => True
  | _ => False

/-! ## The parser of a line -/

/-- The literals of finite doubles. -/
def finiteLiteral (decimal : δ → Text) (text : Text) (n : JsNumber δ) : Prop := ∃ d, n = .finite d ∧ text = decimal d

/-- What is written for numbers, `Infinity` among it. -/
def writtenLiteral (decimal : δ → Text) (text : Text) (n : JsNumber δ) : Prop := text = numberText decimal n

/-- The parser reports an error in the text, or finds no tree. -/
def Refuses (parser : JsoncParser (JsNumber δ)) (text : Text) : Prop :=
  ∀ node, (parser.parseTree text).1 = some node → ∃ error ∈ (parser.parseTree text).2,
    error.error ≠ jsoncParseEndOfFileExpected ∧
      (error.error = jsoncParseInvalidSymbol → error.offset < node.span.offset + node.span.length)

/-- **The parser implements JSON on this text**: it reads the value that the text names, without errors;
and a text with `Infinity` or `NaN` where a number should stand is no JSON. -/
structure ImplementsJsonOn (parser : JsoncParser (JsNumber δ)) (decimal : δ → Text) (text : Text) :
    Prop where
  reads : ∀ value, JsonText (finiteLiteral decimal) text value →
    ∃ node, parser.parseTree text = (some node, []) ∧ node.plain = value
  refuses : ∀ value, JsonText (writtenLiteral decimal) text value → ¬ AllNumbers IsFinite value → Refuses parser text

/-- Decimal texts of doubles: digits, signs, points and exponents. -/
structure DecimalNumerals (decimal : δ → Text) : Prop where
  printable : ∀ d, Printable (decimal d)
  visible : ∀ d, StartsVisible (decimal d)

/-- **A value that a line can hold**: its numbers are finite, it is not nested too deep, and its text is
not too long. -/
structure Writable (decimal : δ → Text) (value : JsoncValue (JsNumber δ)) : Prop where
  finite : AllNumbers IsFinite value
  depth : DepthOk 0 value
  length : ∀ guardPath text, renderValue (numberText decimal) guardPath [] value = .ok text →
    text.jsLength ≤ maxJsoncInputBytes

variable {parser : JsoncParser ν} {text : Text} {value : JsoncValue (JsNumber δ)} {ν : Type} {decimal : δ → Text}

theorem printable_of_all (h : text.all (fun c => 0x20 ≤ c.toNat) = true) : Printable text := fun c hc => of_decide_eq_true (List.all_eq_true.mp h c hc)

theorem writtenLiteral_printable (h : DecimalNumerals decimal) (text : Text) (n : JsNumber δ)
    (hliteral : writtenLiteral decimal text n) : Printable text := by
  rw [hliteral]
  cases n with
  | finite d => exact h.printable d
  | infinity | negInfinity | nan => exact printable_of_all rfl

theorem writtenLiteral_visible (h : DecimalNumerals decimal) (text : Text) (n : JsNumber δ)
    (hliteral : writtenLiteral decimal text n) : StartsVisible text := by
  rw [hliteral]
  cases n with
  | finite d => exact h.visible d
  | infinity => exact ⟨'I', "nfinity".toList, rfl, by decide⟩
  | negInfinity => exact ⟨'-', "Infinity".toList, rfl, by decide⟩
  | nan => exact ⟨'N', "aN".toList, rfl, by decide⟩

theorem StartsVisible.parseSource_eq (h : StartsVisible text) : parseSource text = text := by
  obtain ⟨c, rest, rfl, hvisible⟩ := h
  refine if_neg fun hmark => ?_
  rw [List.head?_cons, Option.some.injEq] at hmark
  rw [hmark] at hvisible
  exact absurd hvisible (by decide)

theorem StartsVisible.not_blank (h : StartsVisible text) : isBlankText text = false := by
  obtain ⟨c, rest, rfl, hvisible⟩ := h
  simp [isBlankText, hvisible]

/-- The numbers of a value are those of the value apart from its lines. -/
theorem allNumbers_plain {P : ν → Prop} {value : JsoncValue ν} : AllNumbers P value.plain ↔ AllNumbers P value := by
  unfold AllNumbers
  simp only [nodeAt_plain]
  constructor
  · intro h position n line hnode
    refine h position n none ?_
    rw [hnode]
    rfl
  · intro h position n line hnode
    obtain ⟨node, hsource, hplain⟩ := Option.map_eq_some_iff.mp hnode
    cases node with
    | number m mline =>
      cases hplain
      exact h position _ mline hsource
    | object | array | string | boolean | null => cases hplain

theorem renderValue_written (decimal : δ → Text) {guardPath text : Text}
    (h : renderValue (numberText decimal) guardPath [] value = .ok text) :
    JsonText (writtenLiteral decimal) text value.plain :=
  renderValue_jsonText guardPath [] value (fun _ _ _ _ => rfl) h

theorem renderValue_finite (decimal : δ → Text) {guardPath text : Text} (hfinite : AllNumbers IsFinite value)
    (h : renderValue (numberText decimal) guardPath [] value = .ok text) :
    JsonText (finiteLiteral decimal) text value.plain := by
  refine renderValue_jsonText guardPath [] value (fun position n line hnode => ?_) h
  have hn := hfinite position n line hnode
  cases n with
  | finite d => exact ⟨d, rfl, rfl⟩
  | infinity | negInfinity | nan => exact hn.elim

theorem accepted_nil : accepted [] = true := rfl

theorem not_accepted_of_refuses {parser : JsoncParser (JsNumber δ)} {text raw : Text}
    {node : ParserNode (JsNumber δ)} (h : Refuses parser text) (hnode : (parser.parseTree text).1 = some node) :
    accepted ((parser.parseTree text).2.map (toDiagnostic parser raw (some node))) = false := by
  obtain ⟨error, herror, hcode, hoffset⟩ := h node hnode
  rw [accepted, List.all_eq_false]
  refine ⟨_, List.mem_map_of_mem herror, ?_⟩
  have hinside : ¬ (error.error = jsoncParseEndOfFileExpected ∨
      ((some node).isSome ∧ error.error = jsoncParseInvalidSymbol ∧
        (some node).elim 0 (fun node => node.span.offset + node.span.length) ≤ error.offset)) := by
    rintro (hend | ⟨-, hsymbol, hle⟩)
    · exact hcode hend
    · exact absurd (hoffset hsymbol) (Nat.not_lt.mpr hle)
  simp only [toDiagnostic, if_neg hinside]
  simp

/-- **A rendered value is read again exactly if it is writable.** -/
theorem parseJsonc_rendered {parser : JsoncParser (JsNumber δ)} (hdecimal : DecimalNumerals decimal)
    (hparser : ImplementsJsonOn parser decimal text) {guardPath : Text} (hrender :
    renderValue (numberText decimal) guardPath [] value = .ok text) : (Writable decimal value ∧
      ∃ value', (parseJsonc parser text).root = some value' ∧ value'.plain = value.plain) ∨
      (¬ Writable decimal value ∧ (parseJsonc parser text).root = none) := by
  have hwritten := renderValue_written decimal hrender
  have hvisible := hwritten.startsVisible (writtenLiteral_visible hdecimal)
  have hblank : ¬ isBlankText text = true := by
    rw [hvisible.not_blank]
    decide
  rw [parseJsonc, if_neg hblank]
  by_cases hlength : maxJsoncInputBytes < text.jsLength
  · rw [if_pos hlength]
    refine .inr ⟨fun hwritable => ?_, rfl⟩
    have := hwritable.length guardPath text hrender
    omega
  · rw [if_neg hlength, hvisible.parseSource_eq]
    by_cases hfinite : AllNumbers IsFinite value
    · obtain ⟨node, htree, hplain⟩ := hparser.reads _ (renderValue_finite decimal hfinite hrender)
      rw [htree]
      dsimp only
      rw [List.map_nil, if_pos accepted_nil]
      rcases nodeToJsoncValue_converts (lineForOffset text) 0 node with
        ⟨hdepth, value', hvalue', hplain'⟩ | ⟨hdeep, message, herror⟩
      · rw [hvalue']
        rw [hplain, depthOk_plain] at hdepth
        refine .inl ⟨⟨hfinite, hdepth, fun g text' h => ?_⟩, value', rfl, hplain'.trans hplain⟩
        obtain rfl : text' = text := Except.ok.inj (h.symm.trans (renderValue_anywhere _ _ value hrender))
        omega
      · rw [herror]
        rw [hplain, depthOk_plain] at hdeep
        exact .inr ⟨fun hwritable => hdeep hwritable.depth, rfl⟩
    · refine .inr ⟨fun hwritable => hfinite hwritable.finite, ?_⟩
      have hrefuses := hparser.refuses _ hwritten fun h => hfinite (allNumbers_plain.mp h)
      cases htree : (parser.parseTree text).1 with
      | none => rfl
      | some node =>
        dsimp only
        rw [not_accepted_of_refuses hrefuses htree]
        rfl

/-! ## Documents -/

theorem oneLine_of_mem_splitOn (text : Text) : ∀ line ∈ text.splitOn '\n', OneLine line := by
  induction text with
  | nil =>
    intro line hline
    rw [List.splitOn_nil, List.mem_singleton] at hline
    rw [hline]
    exact List.not_mem_nil
  | cons c rest ih =>
    intro line hline
    rw [List.splitOn_cons_eq_if_modifyHead] at hline
    split at hline
    · rcases List.mem_cons.mp hline with rfl | hrest
      · exact List.not_mem_nil
      · exact ih line hrest
    · rename_i hc
      cases hsplit : rest.splitOn '\n' with
      | nil => exact absurd hsplit (List.splitOn_ne_nil _ _)
      | cons first others =>
        rw [hsplit] at hline ih
        rcases List.mem_cons.mp hline with rfl | hother
        · intro hmem
          rcases List.mem_cons.mp hmem with rfl | hmem
          · exact hc (by decide)
          · exact ih first List.mem_cons_self hmem
        · exact ih line (List.mem_cons_of_mem _ hother)

/-- The line at `k` is read from a text, or a value was put there. -/
def LineAt {ν : Type} (parser : JsoncParser ν) (k : Nat) (ln : JsonlLine ν) : Prop :=
  (∃ text, OneLine text ∧ ln = parseLine parser (k + 1) text) ∨ ∃ value raw, ln = .value (k + 1) value raw

theorem LineAt.line {parser : JsoncParser ν} {k : Nat} {ln : JsonlLine ν} (h : LineAt parser k ln) :
    ln.line = k + 1 := by
  rcases h with ⟨text, -, rfl⟩ | ⟨value, raw, rfl⟩
  · unfold parseLine
    split
    · rfl
    · split <;> rfl
  · rfl

def LinesAt {ν : Type} (parser : JsoncParser ν) (lines : List (JsonlLine ν)) : Prop :=
  ∀ k ln, lines[k]? = some ln → LineAt parser k ln

theorem parseJsonl_linesAt (parser : JsoncParser ν) (raw : Text) :
    LinesAt parser (parseJsonl parser raw).ast.lines := by
  intro k ln hln
  rw [parseJsonl] at hln
  dsimp only at hln
  unfold bodyLines at hln
  split at hln
  · cases hln
  · rw [List.getElem?_mapIdx] at hln
    obtain ⟨text, htext, rfl⟩ := Option.map_eq_some_iff.mp hln
    exact .inl ⟨text, oneLine_of_mem_splitOn _ text (List.mem_of_getElem? htext), rfl⟩

theorem LinesAt.set {parser : JsoncParser ν} {lines : List (JsonlLine ν)} (h : LinesAt parser lines) {i line : Nat}
    {old new : JsoncValue ν} {raw : Text} (hline : lines[i]? = some (.value line old raw)) :
    LinesAt parser (lines.set i (.value line new raw)) := by
  intro k ln hln
  obtain ⟨hlt, -⟩ := List.getElem?_eq_some_iff.mp hline
  by_cases hik : i = k
  · subst hik
    rw [List.getElem?_set_self hlt] at hln
    cases hln
    have hnumber : line = i + 1 := (h i _ hline).line
    exact .inr ⟨new, raw, by rw [hnumber]⟩
  · rw [List.getElem?_set_ne hik] at hln
    exact h k ln hln

theorem LinesAt.append {parser : JsoncParser ν} {lines : List (JsonlLine ν)} (h : LinesAt parser lines)
    (value : JsoncValue ν) : LinesAt parser (lines ++
      [.value (lines.getLast?.elim 1 fun last => last.line + 1) value []]) := by
  have hnext : (lines.getLast?.elim 1 fun last => last.line + 1) = lines.length + 1 := by
    rw [List.getLast?_eq_getElem?]
    cases hlast : lines[lines.length - 1]? with
    | none =>
      have hle := List.getElem?_eq_none_iff.mp hlast
      have hzero : lines.length = 0 := by omega
      rw [hzero]
      rfl
    | some last =>
      obtain ⟨hlt, -⟩ := List.getElem?_eq_some_iff.mp hlast
      have hline := (h _ _ hlast).line
      rw [Option.elim_some, hline]
      omega
  intro k ln hln
  by_cases hk : k < lines.length
  · rw [List.getElem?_append_left hk] at hln
    exact h k ln hln
  · have hbound := (List.getElem?_eq_some_iff.mp hln).1
    rw [List.length_append, List.length_singleton] at hbound
    obtain rfl : k = lines.length := by omega
    rw [List.getElem?_concat_length, Option.some.injEq] at hln
    exact .inr ⟨value, [], by rw [← hln, hnext]⟩

/-- What a successful edit wrote. -/
structure Wrote {ν : Type} (numberText : ν → Text) (ast ast' : JsonlAst ν) (lines : List (JsonlLine ν))
    (opts : JsonlEmitOptions) (texts : List Text) : Prop where
  accepts : opts.acceptPreExistingSentinel = true
  rendered : lines.mapM (renderLine numberText opts) = .ok texts
  result : ast' = { raw := join (ast.lineEnding.getD .lf).text texts, lines, lineEnding := ast.lineEnding }

theorem Addresses.linesSet_eq {ast : JsonlAst ν} {path : OcPath} {i line : Nat} {value new newValue : JsoncValue ν}
    {raw : Text} {segments : List Text} (h : Addresses ast path i line value raw segments)
    (hnew : replaceAt value newValue segments = some new) : linesSet ast path newValue =
      some (ast.lines.set i (.value line new raw)) := by
  obtain ⟨⟨head, hhead, hpick⟩, hvalue, hsegments⟩ := h
  simp only [linesSet, hhead, hpick, hvalue, hsegments, hnew, JsonlLine.parts, Except.toOption,
    Option.bind_some, bind, pure]

/-- **A successful edit wrote the edited lines.** -/
theorem applyEdit_wrote {numberText : ν → Text} {parser : JsoncParser ν} {ast ast' : JsonlAst ν} {edit : JsonlEdit ν}
    (hlines : LinesAt parser ast.lines) (h : applyEdit numberText ast edit = .ok (some ast')) :
    LinesAt parser (editedLines ast edit) ∧ ∃ opts texts,
      Wrote numberText ast ast' (editedLines ast edit) opts texts := by
  cases edit with
  | append value =>
    refine ⟨hlines.append value, { mode := .render }, ?_⟩
    rw [applyEdit, appendJsonlOcPath, emitJsonl] at h
    dsimp only at h
    cases htexts : (editedLines ast (.append value)).mapM (renderLine numberText { mode := .render }) with
    | error e =>
      rw [editedLines] at htexts
      rw [htexts] at h
      cases h
    | ok texts =>
      rw [editedLines] at htexts
      rw [htexts] at h
      cases h
      exact ⟨texts, rfl, htexts, rfl⟩
  | set path value =>
    have hset : setJsonlOcPath numberText ast path value = .ok (.ok ast') := by
      rw [applyEdit] at h
      cases hresult : setJsonlOcPath numberText ast path value with
      | error e =>
        rw [hresult] at h
        cases h
      | ok result =>
        rw [hresult] at h
        cases result with
        | ok found =>
          cases h
          rfl
        | refused reason => cases h
    rcases addresses_or_not numberText ast path with ⟨i, line, old, raw, segments, haddress⟩ | ⟨-, hnever⟩
    · rw [haddress.setJsonlOcPath_eq] at hset
      cases hnew : replaceAt old value segments with
      | none =>
        rw [hnew] at hset
        cases hset
      | some new =>
        rw [hnew] at hset
        dsimp only at hset
        have hedited : editedLines ast (.set path value) = ast.lines.set i (.value line new raw) := by
          rw [editedLines, haddress.linesSet_eq hnew, Option.getD_some]
        rw [hedited]
        refine ⟨hlines.set haddress.value, { mode := .render, fileNameForGuard := some path.file }, ?_⟩
        rw [finalize, emitJsonl] at hset
        dsimp only at hset
        cases htexts : (ast.lines.set i (.value line new raw)).mapM
            (renderLine numberText { mode := .render, fileNameForGuard := some path.file }) with
        | error e =>
          rw [htexts] at hset
          cases hset
        | ok texts =>
          rw [htexts] at hset
          cases hset
          exact ⟨texts, rfl, htexts, rfl⟩
    · exact absurd hset (hnever value ast')

/-- Each line has its text. -/
theorem mapM_getElem? {α β ε : Type} {f : α → Except ε β} : ∀ {xs : List α} {ys : List β},
    xs.mapM f = .ok ys → ys.length = xs.length ∧
      ∀ (k : Nat) (x : α), xs[k]? = some x → ∃ y, ys[k]? = some y ∧ f x = .ok y
  | [], ys, h => by
    rw [List.mapM_nil, pure_eq_ok] at h
    subst h
    exact ⟨rfl, fun k x hx => by simp at hx⟩
  | x :: rest, ys, h => by
    simp only [List.mapM_cons, bind_eq_ok, pure_eq_ok] at h
    obtain ⟨y, hy, ys', hrest, rfl⟩ := h
    obtain ⟨hlength, hget⟩ := mapM_getElem? hrest
    refine ⟨by rw [List.length_cons, List.length_cons, hlength], fun k x' hx' => ?_⟩
    cases k with
    | zero =>
      cases hx'
      exact ⟨y, rfl, hy⟩
    | succ k => exact hget k x' hx'

/-- **A document that comes through**: its values can be written, and no malformed line that an LF
follows ends with a carriage return. -/
structure Survives (decimal : δ → Text) (ending : LineEnding) (lines : List (JsonlLine (JsNumber δ))) :
    Prop where
  values : ∀ line value raw, JsonlLine.value line value raw ∈ lines → Writable decimal value
  malformed : ∀ (k : Nat) line raw, lines[k]? = some (.malformed line raw) → k + 1 ≠ lines.length →
    ending = .lf → raw.getLast? ≠ some '\r'

/-- **The document is parsed again as it is**: at every value line the value, and at every malformed line
the text. -/
structure Reparses {ν : Type} (parser : JsoncParser ν) (ast : JsonlAst ν) : Prop where
  values : ∀ (k : Nat) line value raw, ast.lines[k]? = some (.value line value raw) →
    ∃ value' raw', (parseJsonl parser ast.raw).ast.lines[k]? = some (.value line value' raw') ∧
      value'.plain = value.plain
  malformed : ∀ (k : Nat) line raw, ast.lines[k]? = some (.malformed line raw) →
    (parseJsonl parser ast.raw).ast.lines[k]? = some (.malformed line raw)

/-- A line of a document that was read and edited has its text on one line. -/
theorem oneLine_renderLine (hdecimal : DecimalNumerals decimal) {parser : JsoncParser (JsNumber δ)}
    {opts : JsonlEmitOptions} {k : Nat} {ln : JsonlLine (JsNumber δ)} (hln : LineAt parser k ln)
    (haccepts : opts.acceptPreExistingSentinel = true) (h : renderLine (numberText decimal) opts ln = .ok text) :
    OneLine text := by
  have hraw : ∀ {source : Text} {ln : JsonlLine (JsNumber δ)}, OneLine source →
      ln = parseLine parser (k + 1) source → ln.isValue = false →
      renderLine (numberText decimal) opts ln = .ok text → OneLine text := by
    intro source ln hsource hparse hnovalue h
    rw [hparse] at h hnovalue
    unfold parseLine at h hnovalue
    split at h
    · rw [renderLine, haccepts] at h
      cases h
      exact hsource
    · split at h
      · rw [renderLine, haccepts] at h
        cases h
        exact hsource
      · rename_i hblank _ _ hroot
        rw [if_neg hblank, hroot] at hnovalue
        cases hnovalue
  cases ln with
  | value line value raw =>
    have hprintable := (renderValue_written decimal h).printable (writtenLiteral_printable hdecimal)
    exact fun hmem => absurd (hprintable _ hmem) (by decide)
  | blank line raw =>
    rcases hln with ⟨source, hsource, hparse⟩ | ⟨_, _, heq⟩
    · exact hraw hsource hparse rfl h
    · cases heq
  | malformed line raw =>
    rcases hln with ⟨source, hsource, hparse⟩ | ⟨_, _, heq⟩
    · exact hraw hsource hparse rfl h
    · cases heq

/-- A malformed line was read from its own text. -/
theorem malformed_source {parser : JsoncParser ν} {k line : Nat} {raw : Text}
    (h : LineAt parser k (.malformed line raw)) : line = k + 1 ∧ isBlankText raw = false ∧
      parseLine parser (k + 1) raw = .malformed (k + 1) raw := by
  rcases h with ⟨text, -, hparse⟩ | ⟨_, _, heq⟩
  · have hsource := hparse
    unfold parseLine at hparse
    split at hparse
    · cases hparse
    · rename_i hblank
      split at hparse
      · cases hparse
        exact ⟨rfl, Bool.not_eq_true _ ▸ hblank, hsource.symm⟩
      · cases hparse
  · cases heq

/-- A malformed line keeps the text it was read from. -/
theorem parseLine_malformed {parser : JsoncParser ν} {lineNo line : Nat} {text raw : Text}
    (h : parseLine parser lineNo text = .malformed line raw) : raw = text := by
  unfold parseLine at h
  split at h
  · cases h
  · split at h
    · cases h
      rfl
    · cases h

theorem dropCr_of_not (h : text.getLast? ≠ some '\r') : dropCr text = text := if_neg h

theorem dropCr_ne (h : text.getLast? = some '\r') : dropCr text ≠ text := by
  obtain ⟨lead, rfl⟩ := List.getLast?_eq_some_iff.mp h
  rw [dropCr_append_cr]
  intro heq
  have hlength := congrArg List.length heq
  rw [List.length_append, List.length_singleton] at hlength
  omega

theorem rereadText_of_printable (h : Printable text) (ending : LineEnding) (texts : List Text) (k : Nat) :
    rereadText ending texts k text = text := by
  have hcut : cutLine ending text = text := by
    cases ending with
    | crlf => rfl
    | lf => exact dropCr_of_not fun hlast => absurd (h _ (List.mem_of_getLast? hlast)) (by decide)
  rw [rereadText, hcut, ite_self]

/-- A text is read again as itself, unless an LF follows the carriage return at its end. -/
theorem rereadText_eq_iff {ending : LineEnding} {texts : List Text} {k : Nat} :
    rereadText ending texts k text = text ↔ (k + 1 ≠ texts.length → ending = .lf → text.getLast? ≠ some '\r') := by
  unfold rereadText
  by_cases hlast : k + 1 = texts.length
  · rw [if_pos hlast]
    exact ⟨fun _ h => absurd hlast h, fun _ => rfl⟩
  · rw [if_neg hlast]
    cases ending with
    | crlf => exact ⟨fun _ _ h => (by cases h), fun _ => rfl⟩
    | lf =>
      constructor
      · exact fun heq _ _ hcr => dropCr_ne hcr heq
      · exact fun h => dropCr_of_not (h hlast rfl)

/-- **An edit comes through exactly if the edited document can be written.**  Parsing the new text gives
every value line its value and every malformed line its text, if and only if the values of the edited
document can be written as JSON and no malformed line of it loses a carriage return. -/
theorem jsonl_edit_reparses_iff {parser : JsoncParser (JsNumber δ)} {decimal : δ → Text}
    (hdecimal : DecimalNumerals decimal) (raw : Text) (edit : JsonlEdit (JsNumber δ)) {ast' : JsonlAst (JsNumber δ)}
    (hedit : applyEdit (numberText decimal) (parseJsonl parser raw).ast edit = .ok (some ast'))
    (hparser : ∀ line value source, JsonlLine.value line value source ∈ editedLines (parseJsonl parser raw).ast edit →
      ∀ text, renderValue (numberText decimal) [] [] value = .ok text → ImplementsJsonOn parser decimal text) :
    Reparses parser ast' ↔ Survives decimal (detectLineEnding raw) (editedLines (parseJsonl parser raw).ast edit) := by
  obtain ⟨hlines, opts, texts, hwrote⟩ := applyEdit_wrote (parseJsonl_linesAt parser raw) hedit
  obtain ⟨hlength, htexts⟩ := mapM_getElem? hwrote.rendered
  obtain ⟨lines, hlinesEq⟩ : ∃ lines, editedLines (parseJsonl parser raw).ast edit = lines := ⟨_, rfl⟩
  have hending : (parseJsonl parser raw).ast.lineEnding = some (detectLineEnding raw) := rfl
  obtain rfl := hwrote.result
  rw [hlinesEq] at hlines hlength htexts hparser ⊢
  rw [hending, Option.getD_some]
  have honeLine : ∀ text ∈ texts, OneLine text := by
    intro text htext
    obtain ⟨k, hk, rfl⟩ := List.mem_iff_getElem.mp htext
    have hline := List.getElem?_eq_getElem (hlength ▸ hk : k < lines.length)
    obtain ⟨text', htext', hrender⟩ := htexts k _ hline
    obtain rfl : texts[k] = text' := Option.some.inj ((List.getElem?_eq_getElem hk).symm.trans htext')
    exact oneLine_renderLine hdecimal (hlines k _ hline) hwrote.accepts hrender
  -- Every line that is not blank is read again in its place.
  have hreread := fun {k text} (htext : texts[k]? = some text) hvisible =>
    parseJsonl_join parser (detectLineEnding raw) honeLine htext hvisible
  -- What becomes of a value line.
  have hvalue : ∀ (k : Nat) line value source, lines[k]? = some (.value line value source) →
      (Writable decimal value ↔ ∃ value' raw',
        (parseJsonl parser (join (detectLineEnding raw).text texts)).ast.lines[k]? =
          some (.value line value' raw') ∧ value'.plain = value.plain) := by
    intro k line value source hk
    obtain ⟨text, htext, hrender⟩ := htexts k _ hk
    have hwritten := renderValue_written decimal hrender
    have hvisible := (hwritten.startsVisible (writtenLiteral_visible hdecimal)).not_blank
    have hprintable := hwritten.printable (writtenLiteral_printable hdecimal)
    have hblank : ¬ isBlankText text = true := by
      rw [hvisible]
      decide
    have hnumber : line = k + 1 := (hlines k _ hk).line
    rw [hreread htext hvisible, rereadText_of_printable hprintable, parseLine, if_neg hblank, hnumber]
    have hon := hparser line value source (List.mem_of_getElem? hk) text (renderValue_anywhere _ _ value hrender)
    rcases parseJsonc_rendered hdecimal hon hrender with ⟨hwritable, value', hroot, hplain⟩ | ⟨hbad, hroot⟩
    · rw [hroot]
      exact ⟨fun _ => ⟨value', text, rfl, hplain⟩, fun _ => hwritable⟩
    · rw [hroot]
      exact ⟨fun h => absurd h hbad, fun ⟨_, _, h, _⟩ => by cases h⟩
  -- What becomes of a malformed line.
  have hmalformed : ∀ (k : Nat) line source, lines[k]? = some (.malformed line source) →
      ((parseJsonl parser (join (detectLineEnding raw).text texts)).ast.lines[k]? =
          some (.malformed line source) ↔
        (k + 1 ≠ lines.length → detectLineEnding raw = .lf → source.getLast? ≠ some '\r')) := by
    intro k line source hk
    obtain ⟨text, htext, hrender⟩ := htexts k _ hk
    obtain ⟨hnumber, hvisible, hsource⟩ := malformed_source (hlines k _ hk)
    obtain rfl : source = text := by
      rw [renderLine, hwrote.accepts] at hrender
      exact Except.ok.inj hrender
    rw [hreread htext hvisible, ← hlength, ← rereadText_eq_iff, hnumber]
    constructor
    · intro h
      exact (parseLine_malformed (Option.some.inj h)).symm
    · intro h
      rw [h, hsource]
  constructor
  · intro h
    refine ⟨fun line value source hmem => ?_, fun k line source hk => ?_⟩
    · obtain ⟨k, hk⟩ := List.mem_iff_getElem?.mp hmem
      exact (hvalue k line value source hk).mpr (h.values k line value source hk)
    · exact (hmalformed k line source hk).mp (h.malformed k line source hk)
  · intro h
    refine ⟨fun k line value source hk => ?_, fun k line source hk => ?_⟩
    · exact (hvalue k line value source hk).mp (h.values line value source (List.mem_of_getElem? hk))
    · exact (hmalformed k line source hk).mpr (h.malformed k line source hk)

/-! ## A small parser -/

/-- Two doubles, `0` and `1`. -/
def bitDecimal (bit : Bool) : Text := if bit then ['1'] else ['0']

theorem bitDecimal_numerals : DecimalNumerals bitDecimal where
  printable := by
    intro bit
    cases bit with
    | true | false => exact printable_of_all rfl
  visible := by
    intro bit
    cases bit with
    | true => exact ⟨'1', [], rfl, by decide⟩
    | false => exact ⟨'0', [], rfl, by decide⟩

/-- It reads the two doubles and a literal that overflows, and finds an invalid symbol in other texts. -/
def bitParser : JsoncParser (JsNumber Bool) where
  parseTree text :=
    if text = ['0'] then (some (.number ⟨0, 1⟩ (.finite false)), [])
    else if text = ['1'] then (some (.number ⟨0, 1⟩ (.finite true)), [])
    else if text = ['1', 'e', '4', '0', '0'] then (some (.number ⟨0, 5⟩ .infinity), [])
    else (none, [⟨jsoncParseInvalidSymbol, 0⟩])
  printParseErrorCode _ := "InvalidSymbol".toList

/-- A text that starts as no other value does names a number. -/
theorem JsonText.number_of_head {ν : Type} {literal : Text → ν → Prop} {c : Char} {rest : Text}
    {value : JsoncValue ν} (h : JsonText literal (c :: rest) value)
    (hhead : c ∉ ['{', '[', '"', 't', 'f', 'n']) : ∃ n, value = .number n none ∧ literal (c :: rest) n := by
  generalize htext : c :: rest = text at h
  have hne : ∀ d ∈ ['{', '[', '"', 't', 'f', 'n'], text.head? ≠ some d := by
    intro d hd heq
    rw [← htext, List.head?_cons, Option.some.injEq] at heq
    exact hhead (heq ▸ hd)
  cases h with
  | number hliteral => exact ⟨_, rfl, hliteral⟩
  | object => exact absurd rfl (hne '{' (by simp))
  | array => exact absurd rfl (hne '[' (by simp))
  | string => exact absurd rfl (hne '"' (by simp))
  | true => exact absurd rfl (hne 't' (by simp))
  | false => exact absurd rfl (hne 'f' (by simp))
  | null => exact absurd rfl (hne 'n' (by simp))

theorem bitParser_bit (bit : Bool) : ImplementsJsonOn bitParser bitDecimal (bitDecimal bit) := by
  have hhead : ∃ c, bitDecimal bit = [c] ∧ c ∉ ['{', '[', '"', 't', 'f', 'n'] := by
    cases bit with
    | true => exact ⟨'1', rfl, by decide⟩
    | false => exact ⟨'0', rfl, by decide⟩
  obtain ⟨c, hc, hplain⟩ := hhead
  refine ⟨fun value h => ?_, fun value h hinfinite => ?_⟩
  · rw [hc] at h
    obtain ⟨n, rfl, d, rfl, hd⟩ := h.number_of_head hplain
    rw [hc, hd]
    cases d with
    | true | false => exact ⟨_, rfl, rfl⟩
  · rw [hc] at h
    obtain ⟨n, rfl, hn⟩ := h.number_of_head hplain
    refine absurd (fun position m line hnode => ?_) hinfinite
    cases position with
    | cons => cases hnode
    | nil =>
      cases hnode
      cases n with
      | finite => trivial
      | infinity | negInfinity | nan => cases hn

theorem bitParser_infinity : ImplementsJsonOn bitParser bitDecimal "Infinity".toList := by
  refine ⟨fun value h => ?_, fun value h hinfinite node hnode => by cases hnode⟩
  obtain ⟨n, -, d, -, hd⟩ := @JsonText.number_of_head _ _ 'I' "nfinity".toList _ h (by decide)
  cases d with
  | true | false => cases hd

/-- `L2` is set to `0`. -/
def secondToZero : JsonlEdit (JsNumber Bool) :=
  .set { file := "log.jsonl".toList, «section» := some "L2".toList } (.number (.finite false) none)

/-- An edit that comes through. -/
theorem jsonl_edit_reparses_iff_bits : ∃ ast',
    applyEdit (numberText bitDecimal) (parseJsonl bitParser ['1', '\n', '1']).ast secondToZero = .ok (some ast') ∧
    (Reparses bitParser ast' ↔ Survives bitDecimal (detectLineEnding ['1', '\n', '1'])
      (editedLines (parseJsonl bitParser ['1', '\n', '1']).ast secondToZero)) := by
  refine ⟨_, rfl, jsonl_edit_reparses_iff bitDecimal_numerals _ _ rfl fun line value source hmem text h => ?_⟩
  have hlines : editedLines (parseJsonl bitParser ['1', '\n', '1']).ast secondToZero =
      [.value 1 (.number (.finite true) (some 1)) ['1'], .value 2 (.number (.finite false) none) ['1']] := rfl
  rw [hlines, List.mem_cons, List.mem_singleton] at hmem
  rcases hmem with heq | heq
  · cases heq
    cases h
    exact bitParser_bit true
  · cases heq
    cases h
    exact bitParser_bit false

def overflowText : Text := ['1', 'e', '4', '0', '0', '\n', '1']

/-- **An overflowing number is lost** by an edit of another line: `1e400` is written `Infinity`. -/
theorem overflow_line_lost : ∃ ast',
    applyEdit (numberText bitDecimal) (parseJsonl bitParser overflowText).ast secondToZero = .ok (some ast') ∧
    (∀ line value source, JsonlLine.value line value source ∈
        editedLines (parseJsonl bitParser overflowText).ast secondToZero →
      ∀ text, renderValue (numberText bitDecimal) [] [] value = .ok text →
        ImplementsJsonOn bitParser bitDecimal text) ∧ ¬ Reparses bitParser ast' := by
  refine ⟨_, rfl, fun line value source hmem text h => ?_, fun h => ?_⟩
  · have hlines : editedLines (parseJsonl bitParser overflowText).ast secondToZero =
        [.value 1 (.number .infinity (some 1)) ['1', 'e', '4', '0', '0'],
          .value 2 (.number (.finite false) none) ['1']] := rfl
    rw [hlines, List.mem_cons, List.mem_singleton] at hmem
    rcases hmem with heq | heq
    · cases heq
      cases h
      exact bitParser_infinity
    · cases heq
      cases h
      exact bitParser_bit false
  · obtain ⟨value', raw', hline, -⟩ := h.values 0 _ _ _ rfl
    cases hline

end OpenClaw.OcPaths
