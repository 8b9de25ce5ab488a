/-
# OpenClaw.ToolCallRepair.Blocks -- promoting and stripping the tool calls of a text

`parseStandalonePlainTextToolCallBlocks` reads a text that has nothing but calls in it; it tries the JSON syntaxes at
each place before the XML-ish one.  `stripPlainTextToolCallBlocks` takes whole calls at line starts out of a text.
Both depend on `JSON.parse`, which is a parameter: the value of the arguments, or whether there is one.
-/
import OpenClaw.Data.Json
import OpenClaw.ToolCallRepair.Verdicts

namespace OpenClaw.ToolCallRepair

open OpenClaw.Data

variable {α : Type} {text : JsString} {start : Nat} {lineBreakOffsets : Nat → Bool}

/-! ## Where a call ends -/

/-- The end of a call stands in the text, and not before the start of its body. -/
def EndsIn (text : JsString) (bodyStart : Nat) : ToolCallScan → Prop
  | .complete _ _ end' => bodyStart ≤ end' ∧ end' ≤ text.length
  | .incomplete _ (some completeEnd) => bodyStart ≤ completeEnd ∧ completeEnd ≤ text.length
  | _ => True

theorem scanParameters_endsIn (text : JsString) (callSyntax : CallSyntax) (name : Span) (bodyStart cursor : Nat)
    (parameters : List ParameterSpan) (lastParameterEnd : Option Nat) (hbody : bodyStart ≤ cursor)
    (hlast : ∀ last ∈ lastParameterEnd, bodyStart ≤ last ∧ last ≤ text.length) :
    EndsIn text bodyStart (scanParameters text callSyntax name bodyStart cursor parameters lastParameterEnd) := by
  have hopen : ∀ {last : Nat} {lastParameterEnd : Option Nat},
      (if callSyntax = .toolBracket then lastParameterEnd else none) = some last → lastParameterEnd = some last := by
    intro last lastParameterEnd h
    split at h
    · exact h
    · cases h
  have hwaits : ∀ {candidate : Option Candidate} {lastParameterEnd : Option Nat},
      (∀ last ∈ lastParameterEnd, bodyStart ≤ last ∧ last ≤ text.length) →
      EndsIn text bodyStart (.incomplete candidate (if callSyntax = .toolBracket then lastParameterEnd else none)) := by
    intro candidate lastParameterEnd hlast
    cases hend : (if callSyntax = .toolBracket then lastParameterEnd else none) with
    | none => trivial
    | some last => exact hlast last (hopen hend)
  fun_induction scanParameters text callSyntax name bodyStart cursor parameters lastParameterEnd
  case case1 | case12 => exact hlast _ (hopen ‹_ = some _›)
  case case2 | case3 | case6 | case8 | case13 => trivial
  case case5 | case7 | case9 | case11 => exact hwaits hlast
  case case4 cursor _ _ _ _ markerStart _ hclose _ =>
    have hroom := startsWith_length functionClose_ne_nil hclose
    have hspace : cursor ≤ markerStart := le_skipWhitespace text cursor
    exact ⟨by omega, hroom⟩
  case case10 cursor _ _ markerStart _ _ _ _ nameStart end' _ _ _ closeStart hclose ih =>
    have hspace : cursor ≤ markerStart := le_skipWhitespace text cursor
    have hname : markerStart + parameterOpen.length ≤ end' := le_nameEnd isXmlishNameChar text nameStart
    obtain ⟨hfound, hstarts⟩ := indexOf_eq_some hclose
    have hend : bodyStart ≤ closeStart + parameterClose.length := by omega
    apply ih hend
    intro last hlast
    cases hlast
    exact ⟨hend, startsWith_length parameterClose_ne_nil hstarts⟩

theorem scanXmlish_endsIn (lineBreakOffsets : Nat → Bool) (hstart : start < text.length) :
    EndsIn text (start + 1) (scanXmlishToolCall lineBreakOffsets text start) := by
  cases hread : scanXmlishOpening lineBreakOffsets text start with
  | error scan =>
    rw [scanXmlish_error hread]
    rcases scanXmlishOpening_error hread with ⟨at', rfl⟩ | ⟨candidate, rfl⟩
    · trivial
    · trivial
  | ok read =>
    obtain ⟨cursor, callSyntax, name⟩ := read
    obtain ⟨hcursor, hlength, -⟩ := scanXmlishOpening_bounds hstart hread
    rw [scanXmlish_ok hread]
    have hends := scanParameters_endsIn text callSyntax name cursor cursor [] none (Nat.le_refl _) nofun
    cases hscan : scanParameters text callSyntax name cursor cursor [] none with
    | invalid at' candidate => trivial
    | complete value payload end' =>
      rw [hscan] at hends
      exact ⟨Nat.le_trans hcursor hends.1, hends.2⟩
    | incomplete candidate completeEnd =>
      rw [hscan] at hends
      cases completeEnd with
      | none => trivial
      | some completeEnd => exact ⟨Nat.le_trans hcursor hends.1, hends.2⟩

theorem findClosing_found_le {markerStart end' : Nat} {closings : List JsString}
    (hne : ∀ closing ∈ closings, closing ≠ [])
    (h : findClosing text markerStart closings = .found end') : end' ≤ text.length := by
  induction closings with
  | nil => cases h
  | cons closing rest ih =>
    unfold findClosing at h
    split at h
    · rename_i hstarts
      cases h
      exact startsAt_length hstarts (hne closing (List.mem_cons_self ..))
    · split at h
      · cases h
      · exact ih (fun other hmem => hne other (List.mem_cons_of_mem _ hmem)) h

theorem closings_ne_nil (text : JsString) (name : Span) :
    ∀ closing ∈ [harmonyCallMarker, endToolRequest, namedClosing text name], closing ≠ [] := by
  have hcall : harmonyCallMarker ≠ [] := by decide
  have hend : endToolRequest ≠ [] := by decide
  intro closing hmem
  simp only [List.mem_cons, List.not_mem_nil, or_false] at hmem
  rcases hmem with rfl | rfl | rfl
  · exact hcall
  · exact hend
  · intro hnil
    have hlength := congrArg List.length hnil
    simp only [namedClosing, List.length_append, List.length_nil] at hlength
    have hbracket : (units "]").length = 1 := by decide
    omega

theorem scanClosing_complete_le {value value' : Candidate} {payload payload' : Span} {state : JsonState} {end' : Nat}
    (hpayload : payload.end' ≤ text.length)
    (h : scanClosing text value payload state = .complete value' payload' end') : end' ≤ text.length := by
  have hne := closings_ne_nil text value.name
  unfold scanClosing at h
  dsimp only at h
  split at h
  · split at h
    · cases h
      exact hpayload
    · split at h
      · rename_i hfound
        cases h
        exact findClosing_found_le hne hfound
      · cases h
      · cases h
        exact hpayload
  · split at h
    · cases h
    · split at h
      · rename_i hfound
        cases h
        exact findClosing_found_le (fun closing hmem => hne closing (List.mem_cons_of_mem _ hmem)) hfound
      · cases h
      · cases h

theorem scanJson_complete_le {value : Candidate} {payload : Span} {end' : Nat} (hstart : start < text.length)
    (h : scanPlainTextJsonToolCall lineBreakOffsets text start = .complete value payload end') :
    start < end' ∧ end' ≤ text.length := by
  have hpayload := scanJson_complete_payload hstart h
  obtain ⟨hle, hprogress⟩ := scanJson_object value hstart (by rw [h]; rfl) hpayload (by rw [h]; rfl)
  refine ⟨by rw [h] at hprogress; exact hprogress, ?_⟩
  obtain ⟨cursor, opened, hread, hbrace⟩ := scanJson_payload hstart (congrArg ToolCallScan.value h) hpayload
  have hlength := ((scanJsonOpening_sound _ hstart).2 cursor opened hread).2.1
  rcases scanJson_ok hlength hread with hincomplete | ⟨-, ⟨hno, -⟩ | ⟨-, stop, state, -, heq⟩⟩
  · rw [h] at hincomplete
    cases hincomplete
  · exact absurd hbrace hno
  · rw [h] at heq
    rw [scanClosing_payload heq.symm] at hle
    exact scanClosing_complete_le hle heq.symm

/-- The end of the call that a verdict has found, which may go on when it only waits. -/
def Verdict.blockEnd : Verdict → Option Nat
  | complete end' => some end'
  | incomplete completeEnd => completeEnd
  | invalid _ => none

theorem blockEnd_bounds {isArguments : JsString → Bool} {options : ScanOptions} {end' : Nat}
    (h : (scanPlainTextToolCall isArguments options text start).verdict.blockEnd = some end') :
    start < end' ∧ end' ≤ text.length := by
  rcases Nat.lt_or_ge start text.length with hstart | hend
  · have hxmlish := scanXmlish_endsIn options.lineBreakOffsets hstart
    unfold scanPlainTextToolCall at h
    dsimp only at h
    split at h
    · rename_i hcomplete
      cases h
      rw [hcomplete] at hxmlish
      exact hxmlish
    · rename_i hcomplete _
      split at h
      · cases h
        exact scanJson_complete_le hstart hcomplete
      · cases h
    · split at h
      · cases h
      · cases h
      · split at h
        · cases hscan : scanXmlishToolCall options.lineBreakOffsets text start with
          | invalid at' candidate =>
            rw [hscan] at h
            cases h
          | complete value payload end' =>
            rw [hscan] at h
            cases h
          | incomplete candidate completeEnd =>
            rw [hscan] at h hxmlish
            cases completeEnd with
            | none => cases h
            | some completeEnd =>
              cases h
              exact hxmlish
        · cases h
  · obtain ⟨hjson, hxmlish⟩ := scans_at_end options.lineBreakOffsets hend
    unfold scanPlainTextToolCall at h
    rw [hjson, hxmlish] at h
    cases h

/-! ## Promotion -/

structure PlainTextToolCallParseOptions where
  allowedToolNames : Option (List JsString) := none
  maxPayloadBytes : Nat := defaultMaxPlainTextToolPayloadBytes

/-- The arguments of a call: the object of a JSON one, or the members for the parameters of the other. -/
inductive ToolCallArguments (α : Type) where
  | json (value : α)
  | xmlish (members : List (JsString × JsString))

structure PlainTextToolCallBlock (α : Type) where
  arguments : ToolCallArguments α
  (name raw : JsString)
  (start end' : Nat)

/-- The name of a complete scan, when the options allow the call. -/
def allowedCall (options : PlainTextToolCallParseOptions) (text : JsString) (candidate : Candidate) (payload : Span) :
    Option JsString :=
  let name := slice text candidate.name.start candidate.name.end'
  if options.allowedToolNames.any fun names => !names.contains name then none
  else if (utf8ByteLengthWithinLimit text payload.start payload.end' options.maxPayloadBytes).isNone then none
  else some name

/-- `parseJsonArguments` makes the arguments of a payload, if it is the JSON text of an object. -/
def parsePlainTextToolCallBlockAt (parseJsonArguments : JsString → Option α) (options : PlainTextToolCallParseOptions)
    (lineBreakOffsets : Nat → Bool) (text : JsString) (start : Nat) : Option (PlainTextToolCallBlock α) :=
  match scanPlainTextJsonToolCall lineBreakOffsets text start with
  | .complete candidate payload end' =>
    (allowedCall options text candidate payload).bind fun name =>
      (parseJsonArguments (slice text payload.start payload.end')).map fun value =>
        { arguments := .json value, end', name, raw := slice text start end', start }
  | _ => none

/-- `value.replace(/(?:\r\n|[\r\n])$/u, "")` -/
def dropLastLineBreak (value : JsString) : JsString :=
  if units "\r\n" <:+ value then value.dropLast.dropLast
  else if value.getLast?.any isLineBreak then value.dropLast
  else value

def extractXmlishParameterValue (lineBreakOffsets : Nat → Bool) (text : JsString) (start stop : Nat) : JsString :=
  let value := slice text start stop
  let value :=
    if consumeLineBreak text (skipHorizontalWhitespace text start) = none then
      match consumeStructuralLineBreakAfterHorizontalWhitespace lineBreakOffsets text start with
      | some boundary => value.take (boundary - start) ++ units "\n" ++ value.drop (boundary - start)
      | none => value
    else value
  match consumeLineBreak value 0 with
  | none => value
  | some payloadStart => dropLastLineBreak (value.drop payloadStart)

def parseXmlishPlainTextToolCallBlockAt (options : PlainTextToolCallParseOptions) (lineBreakOffsets : Nat → Bool)
    (text : JsString) (start : Nat) : Option (PlainTextToolCallBlock α) :=
  match scanXmlishToolCall lineBreakOffsets text start with
  | .complete candidate payload end' =>
    (allowedCall options text candidate payload).map fun name =>
      let members := candidate.parameters.map fun parameter =>
        (slice text parameter.name.start parameter.name.end',
          extractXmlishParameterValue lineBreakOffsets text parameter.value.start parameter.value.end')
      { arguments := .xmlish (Json.ofMembers members), end', name, raw := slice text start end', start }
  | _ => none

def parsePlainTextToolCallBlockAtAnySyntax (parseJsonArguments : JsString → Option α)
    (options : PlainTextToolCallParseOptions) (lineBreakOffsets : Nat → Bool) (text : JsString) (start : Nat) :
    Option (PlainTextToolCallBlock α) :=
  (parsePlainTextToolCallBlockAt parseJsonArguments options lineBreakOffsets text start).or
    (parseXmlishPlainTextToolCallBlockAt options lineBreakOffsets text start)

/-- A block is what one of the scanners takes for a complete call. -/
theorem block_complete {parseJsonArguments : JsString → Option α} {options : PlainTextToolCallParseOptions}
    {block : PlainTextToolCallBlock α}
    (h : parsePlainTextToolCallBlockAtAnySyntax parseJsonArguments options lineBreakOffsets text start = some block) :
    (∃ candidate payload, scanPlainTextJsonToolCall lineBreakOffsets text start = .complete candidate payload block.end' ∧
        (parseJsonArguments (slice text payload.start payload.end')).isSome = true) ∨
      ∃ candidate payload, scanXmlishToolCall lineBreakOffsets text start = .complete candidate payload block.end' := by
  unfold parsePlainTextToolCallBlockAtAnySyntax at h
  rw [Option.or_eq_some_iff] at h
  rcases h with hjson | ⟨-, hxmlish⟩
  · left
    unfold parsePlainTextToolCallBlockAt at hjson
    split at hjson
    · rename_i candidate payload end' hscan
      obtain ⟨name, -, hblock⟩ := Option.bind_eq_some_iff.mp hjson
      obtain ⟨value, hvalue, rfl⟩ := Option.map_eq_some_iff.mp hblock
      refine ⟨candidate, payload, hscan, ?_⟩
      rw [hvalue]
      rfl
    · cases hjson
  · right
    unfold parseXmlishPlainTextToolCallBlockAt at hxmlish
    split at hxmlish
    · rename_i candidate payload end' hscan
      obtain ⟨name, -, rfl⟩ := Option.map_eq_some_iff.mp hxmlish
      exact ⟨candidate, payload, hscan⟩
    · cases hxmlish

theorem block_lt_end {parseJsonArguments : JsString → Option α} {options : PlainTextToolCallParseOptions}
    {block : PlainTextToolCallBlock α} (hstart : start < text.length)
    (h : parsePlainTextToolCallBlockAtAnySyntax parseJsonArguments options lineBreakOffsets text start = some block) :
    start < block.end' := by
  rcases block_complete h with ⟨candidate, payload, hscan, -⟩ | ⟨candidate, payload, hscan⟩
  · exact (scanJson_complete_le hstart hscan).1
  · have hends := scanXmlish_endsIn lineBreakOffsets hstart
    rw [hscan] at hends
    exact hends.1

/-- The loop over the blocks, from the place of the next one on. -/
def parseStandaloneFrom (parseJsonArguments : JsString → Option α) (options : PlainTextToolCallParseOptions)
    (lineBreakOffsets : Nat → Bool) (text : JsString) (cursor : Nat) : Option (List (PlainTextToolCallBlock α)) :=
  if _hcursor : cursor < text.length then
    match _hblock : parsePlainTextToolCallBlockAtAnySyntax parseJsonArguments options lineBreakOffsets text cursor with
    | none => none
    | some block =>
      (parseStandaloneFrom parseJsonArguments options lineBreakOffsets text (skipWhitespace text block.end')).map
        (block :: ·)
  else some []
termination_by text.length - cursor
decreasing_by
  have hend := block_lt_end _hcursor _hblock
  have hspace := le_skipWhitespace text block.end'
  omega

def isLineStart (text : JsString) (index : Nat) : Bool := index = 0 || (text[index - 1]?).any isLineBreak

/-- `/\[(?:tool:)?[A-Za-z0-9_-]+\]/` at a place -/
def bracketHeaderAt (text : JsString) (index : Nat) : Bool :=
  text[index]? = some (unit '[') &&
    let nameStart := if startsAt (units "tool:") text (index + 1) then index + 1 + (units "tool:").length else index + 1
    let nameEnd := skipWhile isPlainTextToolNameChar text nameStart
    nameStart < nameEnd && text[nameEnd]? = some (unit ']')

/-- The scan of a strip: every name counts, and no boundaries of text parts. -/
def scanBlock (isArguments : JsString → Bool) (text : JsString) (start : Nat) : PlainTextToolCallScan :=
  scanPlainTextToolCall isArguments {} text start

/-- The loop over adjacent blocks: the end of the last one. -/
def adjacentBlocksEnd (isArguments : JsString → Bool) (text : JsString) (blockEnd : Nat) : Nat :=
  match _hend : (scanBlock isArguments text (skipLineIndentation text blockEnd)).verdict.blockEnd with
  | none => blockEnd
  | some adjacentEnd => if adjacentEnd ≤ blockEnd then blockEnd else adjacentBlocksEnd isArguments text adjacentEnd
termination_by text.length - blockEnd
decreasing_by
  have hbounds := blockEnd_bounds _hend
  omega

attribute [grind =] adjacentBlocksEnd

theorem le_skipLineIndentation (text : JsString) (start : Nat) : start ≤ skipLineIndentation text start :=
  le_skipWhile _ text start

end OpenClaw.ToolCallRepair
