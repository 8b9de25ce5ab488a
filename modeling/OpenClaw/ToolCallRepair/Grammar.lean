/-
# OpenClaw.ToolCallRepair.Grammar -- XML-ish tool calls in plain text

Models write tool calls into their text: `<function=name>`, `[tool:name]` and `[name]` with parameters in tags.
`scanXmlishToolCall` says of a place in a text whether a call starts there, whether the text ends before that is
decided, or whether there is none.  Offsets count UTF-16 units, as in the source.

`toLowerCase` is ASCII lowering here: of the characters outside ASCII only the Kelvin sign and the dotted capital I
have a lower case with an ASCII letter, and no marker has a k or a dot above.
-/
import Mathlib.Algebra.Ring.Nat
import OpenClaw.Data.CodeUnits
import OpenClaw.Data.JsPrim
import OpenClaw.Data.Reading

namespace OpenClaw.ToolCallRepair

open OpenClaw.Data

/-- Some older models write it behind a JSON request. -/
def endToolRequest : JsString := units "[END_TOOL_REQUEST]"
def harmonyChannelMarker : JsString := units "<|channel|>"
def harmonyMessageMarker : JsString := units "<|message|>"
def harmonyCallMarker : JsString := units "<|call|>"

/-! ## Characters -/

/-- The unit of an ASCII character. -/
def unit (c : Char) : CodeUnit := unitOfNat c.toNat

def isAsciiAlnum (u : CodeUnit) : Bool :=
  (0x30 ≤ u.val && u.val ≤ 0x39) || (0x41 ≤ u.val && u.val ≤ 0x5A) || (0x61 ≤ u.val && u.val ≤ 0x7A)

/-- Only names that are safe as ids of a provider. -/
def isPlainTextToolNameChar (u : CodeUnit) : Bool := isAsciiAlnum u || u = unit '_' || u = unit '-'

/-- With the punctuation of namespaces. -/
def isXmlishNameChar (u : CodeUnit) : Bool :=
  isAsciiAlnum u || u = unit '_' || u = unit '.' || u = unit ':' || u = unit '-'

/-- `/\s/` -/
def isSpace (u : CodeUnit) : Bool := isJsWhitespace (Char.ofNat u.val)

def isLineBreak (u : CodeUnit) : Bool := u = unit '\r' || u = unit '\n'

def isBlank (u : CodeUnit) : Bool := u = unit ' ' || u = unit '\t'

/-- Spaces and tabs, so that line ends are kept. -/
def skipHorizontalWhitespace (text : JsString) (start : Nat) : Nat := skipWhile isBlank text start

/-- White space that does not leave the line. -/
def skipLineIndentation (text : JsString) (start : Nat) : Nat :=
  skipWhile (fun u => isSpace u && !isLineBreak u) text start

/-- All white space, where lines no longer matter. -/
def skipWhitespace (text : JsString) (start : Nat) : Nat := skipWhile isSpace text start

/-- The place behind a Unix or Windows line end. -/
def consumeLineBreak (text : JsString) (start : Nat) : Option Nat :=
  if text[start]? = some (unit '\r') then
    some (if text[start + 1]? = some (unit '\n') then start + 2 else start + 1)
  else if text[start]? = some (unit '\n') then some (start + 1)
  else none

/-- `lineBreakOffsets` are the boundaries of text parts that count as line breaks; there may be none. -/
def consumeStructuralLineBreakAfterHorizontalWhitespace (lineBreakOffsets : Nat → Bool) (text : JsString)
    (start : Nat) : Option Nat :=
  let right := skipHorizontalWhitespace text start
  (consumeLineBreak text right).or ((List.range' start (right + 1 - start)).find? lineBreakOffsets)

/-- The UTF-8 length of a string; a lone surrogate is encoded as U+FFFD. -/
def utf8ByteLength (s : JsString) : Nat :=
  ((codePoints s).map fun
    | .char c => c.utf8Size
    | .lone _ => 3).sum

/-- The bytes of a slice, unless they are too many. -/
def utf8ByteLengthWithinLimit (text : JsString) (start stop maxBytes : Nat) : Option Nat :=
  if stop - start > maxBytes then none
  else
    let byteLength := utf8ByteLength (slice text start stop)
    if byteLength ≤ maxBytes then some byteLength else none

/-! ## Markers -/

def functionOpen : JsString := units "<function="
def functionClose : JsString := units "</function>"
def parameterOpen : JsString := units "<parameter="
def parameterClose : JsString := units "</parameter>"

def asciiLower (u : CodeUnit) : CodeUnit := if 0x41 ≤ u.val && u.val ≤ 0x5A then unitOfNat (u.val + 0x20) else u

def startsWithAsciiMarkerIgnoreCase (text : JsString) (cursor : Nat) (marker : JsString) : Bool :=
  startsAt marker (text.map asciiLower) cursor

def isAsciiMarkerPrefixIgnoreCase (text : JsString) (cursor : Nat) (marker : JsString) : Bool :=
  cutAt marker (text.map asciiLower) cursor

def indexOfAsciiMarkerIgnoreCase (text marker : JsString) (start : Nat) : Option Nat :=
  (List.range' start (text.length - start)).find? fun cursor =>
    text[cursor]? = some (unit '<') && startsWithAsciiMarkerIgnoreCase text cursor marker

/-! ## Candidates -/

structure Span where
  (start end' : Nat)
  deriving DecidableEq

inductive CallSyntax where
  | function
  | harmony
  | namedBracket
  | toolBracket
  deriving DecidableEq

structure ParameterSpan where
  name : Span
  value : Span
  deriving DecidableEq

/-- Where the scan of a JSON object stands. -/
structure JsonState where
  depth : Int
  escaped : Bool
  inString : Bool
  deriving DecidableEq

/-- A candidate of either scanner; parameters are of the XML-ish one, the state of an object of the other. -/
structure Candidate where
  callSyntax : CallSyntax
  name : Span
  nameComplete : Bool
  payload : Option Span := none
  parameters : List ParameterSpan := []
  activeParameterOpenEnd : Option Nat := none
  json : Option JsonState := none
  deriving DecidableEq

/-- The text may go on so that a call is complete (`incomplete`; kind `prefix` in the source), and when a call
ends that is safe to strip though it may go on, `completeEnd` is its end. -/
inductive ToolCallScan where
  | invalid (at' : Nat) (candidate : Option Candidate)
  | incomplete (candidate : Option Candidate) (completeEnd : Option Nat)
  | complete (candidate : Candidate) (payload : Span) (end' : Nat)
  deriving DecidableEq

/-- The end of a name, or of its first 121 characters. -/
def nameEnd (isNameChar : CodeUnit → Bool) (text : JsString) (start : Nat) : Nat := runEnd isNameChar 121 text start

/-! ## The scan -/

/-- The part of `scanXmlishToolCall` before the parameters: the verdict, or the place where they start. -/
def scanFunctionOpening (text : JsString) (start : Nat) : Except ToolCallScan (Nat × CallSyntax × Span) :=
  if !startsWithAsciiMarkerIgnoreCase text start functionOpen &&
      !isAsciiMarkerPrefixIgnoreCase text start functionOpen then
    .error (.invalid start none)
  else if text.length - start < functionOpen.length then .error (.incomplete none none)
  else
    let nameStart := start + functionOpen.length
    let cursor := nameEnd isXmlishNameChar text nameStart
    let name : Span := ⟨nameStart, cursor⟩
    if cursor - nameStart > 120 then .error (.invalid cursor none)
    else if cursor = text.length then
      .error (.incomplete (some { callSyntax := .function, name, nameComplete := false }) none)
    else if cursor = nameStart || text[cursor]? ≠ some (unit '>') then .error (.invalid cursor none)
    else .ok (cursor + 1, .function, name)

/-- From the end of the name on. -/
def scanBracketEnd (lineBreakOffsets : Nat → Bool) (text : JsString) (callSyntax : CallSyntax) (name : Span) :
    Except ToolCallScan (Nat × CallSyntax × Span) :=
  let cursor := name.end'
  if cursor = text.length then .error (.incomplete (some { callSyntax, name, nameComplete := false }) none)
  else if name.start = name.end' || text[cursor]? ≠ some (unit ']') then .error (.invalid cursor none)
  else if callSyntax = .namedBracket then
    if cursor + 1 = text.length then
      .error (.incomplete (some { callSyntax, name, nameComplete := true }) none)
    else
      match consumeStructuralLineBreakAfterHorizontalWhitespace lineBreakOffsets text (cursor + 1) with
      | none => .error (.invalid (cursor + 1) none)
      | some afterLineBreak => .ok (afterLineBreak, callSyntax, name)
  else .ok (cursor + 1, callSyntax, name)

def scanXmlishBracketOpening (lineBreakOffsets : Nat → Bool) (text : JsString) (start : Nat) :
    Except ToolCallScan (Nat × CallSyntax × Span) :=
  let firstNameStart := start + 1
  let cursor := nameEnd isPlainTextToolNameChar text firstNameStart
  let firstName := slice text firstNameStart cursor
  if cursor - firstNameStart > 120 then .error (.invalid cursor none)
  else if cursor = text.length && firstName.isPrefixOf (units "tool") then .error (.incomplete none none)
  else if text[cursor]? = some (unit ':') && firstName = units "tool" then
    let nameStart := cursor + 1
    let cursor := nameEnd isPlainTextToolNameChar text nameStart
    if cursor - nameStart > 120 then .error (.invalid cursor none)
    else scanBracketEnd lineBreakOffsets text .toolBracket ⟨nameStart, cursor⟩
  else scanBracketEnd lineBreakOffsets text .namedBracket ⟨firstNameStart, cursor⟩

def scanXmlishOpening (lineBreakOffsets : Nat → Bool) (text : JsString) (start : Nat) :
    Except ToolCallScan (Nat × CallSyntax × Span) :=
  if text[start]? = some (unit '<') then scanFunctionOpening text start
  else if text[start]? = some (unit '[') then scanXmlishBracketOpening lineBreakOffsets text start
  else .error (.invalid start none)

theorem indexOf_eq_some {text marker : JsString} {start found : Nat}
    (h : indexOfAsciiMarkerIgnoreCase text marker start = some found) :
    start ≤ found ∧ startsWithAsciiMarkerIgnoreCase text found marker = true := by
  unfold indexOfAsciiMarkerIgnoreCase at h
  have hmem := List.mem_of_find?_eq_some h
  have hfound := List.find?_some h
  exact ⟨(List.mem_range'_1.mp hmem).1, (Bool.and_eq_true_iff.mp hfound).2⟩

theorem parameterClose_ne_nil : parameterClose ≠ [] := by simp [parameterClose]

theorem startsWith_length {text marker : JsString} {cursor : Nat} (hne : marker ≠ [])
    (h : startsWithAsciiMarkerIgnoreCase text cursor marker = true) : cursor + marker.length ≤ text.length := by
  simpa using startsAt_length h hne

/-- The loop over the parameters.  A call in tool brackets needs no closing tag: it is complete with its last
parameter when nothing that belongs to a call follows. -/
def scanParameters (text : JsString) (callSyntax : CallSyntax) (name : Span) (bodyStart cursor : Nat)
    (parameters : List ParameterSpan) (lastParameterEnd : Option Nat) : ToolCallScan :=
  let candidate (payloadEnd : Nat) (activeParameterOpenEnd : Option Nat) : Candidate :=
    { callSyntax, name, nameComplete := true, parameters, payload := some ⟨bodyStart, payloadEnd⟩,
      activeParameterOpenEnd }
  let openEnd := if callSyntax = .toolBracket then lastParameterEnd else none
  let incomplete (payloadEnd : Nat) (activeParameterOpenEnd : Option Nat) : ToolCallScan :=
    .incomplete (some (candidate payloadEnd activeParameterOpenEnd)) openEnd
  let complete (payloadEnd end' : Nat) : ToolCallScan :=
    .complete (candidate payloadEnd none) ⟨bodyStart, payloadEnd⟩ end'
  let markerStart := skipWhitespace text cursor
  if markerStart = text.length then
    match openEnd with
    | some last => complete last last
    | none => .incomplete (some (candidate text.length none)) none
  else if startsWithAsciiMarkerIgnoreCase text markerStart functionClose then
    if callSyntax ≠ .function && parameters.isEmpty then .invalid markerStart (some (candidate markerStart none))
    else complete markerStart (markerStart + functionClose.length)
  else if isAsciiMarkerPrefixIgnoreCase text markerStart functionClose then incomplete markerStart none
  else if startsWithAsciiMarkerIgnoreCase text markerStart parameterOpen then
    let nameStart := markerStart + parameterOpen.length
    let end' := nameEnd isXmlishNameChar text nameStart
    if end' - nameStart > 120 then .invalid markerStart (some (candidate markerStart none))
    else if end' = text.length then incomplete markerStart none
    else if end' = nameStart || text[end']? ≠ some (unit '>') then
      .invalid markerStart (some (candidate markerStart none))
    else
      match hclose : indexOfAsciiMarkerIgnoreCase text parameterClose (end' + 1) with
      | none => incomplete text.length (some (end' + 1))
      | some closeStart =>
        scanParameters text callSyntax name bodyStart (closeStart + parameterClose.length)
          (parameters ++ [⟨⟨nameStart, end'⟩, ⟨end' + 1, closeStart⟩⟩]) (some (closeStart + parameterClose.length))
  else if isAsciiMarkerPrefixIgnoreCase text markerStart parameterOpen then incomplete markerStart none
  else
    match openEnd with
    | some last => complete last last
    | none => .invalid markerStart (some (candidate markerStart none))
termination_by text.length - cursor
decreasing_by
  obtain ⟨hle, hstarts⟩ := indexOf_eq_some hclose
  have hlength := startsWith_length parameterClose_ne_nil hstarts
  have hpos := List.length_pos_iff.mpr parameterClose_ne_nil
  have hmarker : cursor ≤ markerStart := le_skipWhile isSpace text cursor
  have hname : markerStart + parameterOpen.length ≤ end' := le_runEnd isXmlishNameChar 121 text _
  omega

def scanXmlishToolCall (lineBreakOffsets : Nat → Bool) (text : JsString) (start : Nat) : ToolCallScan :=
  match scanXmlishOpening lineBreakOffsets text start with
  | .error scan => scan
  | .ok (cursor, callSyntax, name) => scanParameters text callSyntax name cursor cursor [] none

end OpenClaw.ToolCallRepair
