/-
# OpenClaw.ToolCallRepair.Payload -- JSON tool calls in plain text, and the verdict on a place

A call may carry its arguments as a JSON object: after `[name]` and a line break, after `[tool:name]`, or after a
Harmony header `commentary to=name code`.  `scanPlainTextToolCall` runs this scanner and the XML-ish one at a place
and makes one verdict of the two, with the names filtered by the tools that the request has.
-/
import OpenClaw.ToolCallRepair.Grammar

namespace OpenClaw.ToolCallRepair

open OpenClaw.Data

def harmonyChannels : List JsString := [units "commentary", units "analysis", units "final"]

/-- The end of a name; none when it has more than 120 characters. -/
def scanToolNameEnd (text : JsString) (start : Nat) : Option Nat :=
  let end' := nameEnd isPlainTextToolNameChar text start
  if end' - start > 120 then none else some end'

/-! ## Openings -/

/-- A name and what follows it: a unit that `endsName`, from which `afterName` reads on. -/
def scanName (text : JsString) (callSyntax : CallSyntax) (endsName : CodeUnit → Bool)
    (afterName : Nat → Candidate → Except ToolCallScan (Nat × Candidate)) (nameStart : Nat) :
    Except ToolCallScan (Nat × Candidate) :=
  match scanToolNameEnd text nameStart with
  | none => .error (.invalid (nameStart + 120) none)
  | some nameEnd =>
    let name : Span := ⟨nameStart, nameEnd⟩
    if nameEnd = text.length then
      .error (.incomplete
        (if nameStart = nameEnd then none else some { callSyntax, name, nameComplete := false }) none)
    else if nameStart = nameEnd || !(text[nameEnd]?).any endsName then .error (.invalid nameEnd none)
    else afterName nameEnd { callSyntax, name, nameComplete := true }

/-- An opening from its `]` on. -/
def scanAfterBracketName (lineBreakOffsets : Nat → Bool) (text : JsString) (nameEnd : Nat) (value : Candidate) :
    Except ToolCallScan (Nat × Candidate) :=
  let cursor := nameEnd + 1
  if value.callSyntax = .namedBracket then
    let horizontalEnd := skipHorizontalWhitespace text cursor
    if horizontalEnd = text.length then .error (.incomplete (some value) none)
    else
      match consumeStructuralLineBreakAfterHorizontalWhitespace lineBreakOffsets text cursor with
      | none => .error (.invalid horizontalEnd (some value))
      | some afterLineBreak => .ok (afterLineBreak, value)
  else .ok (cursor, value)

def scanBracketName (lineBreakOffsets : Nat → Bool) (text : JsString) (callSyntax : CallSyntax) (nameStart : Nat) :
    Except ToolCallScan (Nat × Candidate) :=
  scanName text callSyntax (· = unit ']') (scanAfterBracketName lineBreakOffsets text) nameStart

def scanBracketOpening (lineBreakOffsets : Nat → Bool) (text : JsString) (start : Nat) :
    Except ToolCallScan (Nat × Candidate) :=
  let cursor := start + 1
  if startsAt (units "tool:") text cursor then
    scanBracketName lineBreakOffsets text .toolBracket (cursor + (units "tool:").length)
  else if cutAt (units "tool:") text cursor then .error (.incomplete none none)
  else scanBracketName lineBreakOffsets text .namedBracket cursor

/-- A Harmony header from the end of the name on. -/
def scanAfterHarmonyName (text : JsString) (nameEnd : Nat) (value : Candidate) : Except ToolCallScan (Nat × Candidate) :=
  let cursor := skipHorizontalWhitespace text nameEnd
  if !startsAt (units "code") text cursor then
    if cutAt (units "code") text cursor then .error (.incomplete (some value) none)
    else .error (.invalid cursor (some value))
  else
    let cursor := skipWhitespace text (cursor + (units "code").length)
    if startsAt harmonyMessageMarker text cursor then
      .ok (skipWhitespace text (cursor + harmonyMessageMarker.length), value)
    else if cutAt harmonyMessageMarker text cursor then .error (.incomplete (some value) none)
    else if text[cursor]? = some (unit '<') then .error (.invalid cursor (some value))
    else .ok (cursor, value)

def scanHarmonyName (text : JsString) (nameStart : Nat) : Except ToolCallScan (Nat × Candidate) :=
  scanName text .harmony isBlank (scanAfterHarmonyName text) nameStart

/-- A Harmony header from the channel on. -/
def scanHarmonyChannel (text : JsString) (cursor : Nat) : Except ToolCallScan (Nat × Candidate) :=
  match harmonyChannels.find? fun channel => startsAt channel text cursor with
  | none =>
    if harmonyChannels.any fun channel => cutAt channel text cursor then .error (.incomplete none none)
    else .error (.invalid cursor none)
  | some channel =>
    let cursor := cursor + channel.length
    if cursor = text.length then .error (.incomplete none none)
    else if !(text[cursor]?).any isBlank then .error (.invalid cursor none)
    else
      let cursor := skipHorizontalWhitespace text cursor
      if !startsAt (units "to=") text cursor then
        if cutAt (units "to=") text cursor then .error (.incomplete none none) else .error (.invalid cursor none)
      else scanHarmonyName text (cursor + (units "to=").length)

def scanHarmonyOpening (text : JsString) (start : Nat) : Except ToolCallScan (Nat × Candidate) :=
  if startsAt harmonyChannelMarker text start then scanHarmonyChannel text (start + harmonyChannelMarker.length)
  else if cutAt harmonyChannelMarker text start then .error (.incomplete none none)
  else if text[start]? = some (unit '<') then .error (.invalid start none)
  else scanHarmonyChannel text start

/-! ## Objects and closings -/

/-- The loop of `scanJsonObject` on the rest of the text: whether the object was closed, where the loop has
stopped, and its state. -/
def scanJsonUnits : JsString → Nat → JsonState → Bool × Nat × JsonState
  | [], index, state => (false, index, state)
  | char :: rest, index, state =>
    if state.inString then
      if state.escaped then scanJsonUnits rest (index + 1) { state with escaped := false }
      else if char = unit '\\' then scanJsonUnits rest (index + 1) { state with escaped := true }
      else if char = unit '"' then scanJsonUnits rest (index + 1) { state with inString := false }
      else scanJsonUnits rest (index + 1) state
    else if char = unit '"' then scanJsonUnits rest (index + 1) { state with inString := true }
    else if char = unit '\x7b' then scanJsonUnits rest (index + 1) { state with depth := state.depth + 1 }
    else if char = unit '\x7d' then
      if state.depth - 1 = 0 then (true, index + 1, { state with depth := state.depth - 1 })
      else scanJsonUnits rest (index + 1) { state with depth := state.depth - 1 }
    else scanJsonUnits rest (index + 1) state

def scanJsonObject (text : JsString) (start : Nat) : Bool × Nat × JsonState :=
  scanJsonUnits (text.drop start) start ⟨0, false, false⟩

/-- What the closings of a call come to at a place: the first that is there or that the text may go on to. -/
inductive Closing where
  | found (end' : Nat)
  | cut
  | missing

def findClosing (text : JsString) (markerStart : Nat) : List JsString → Closing
  | [] => .missing
  | closing :: rest =>
    if startsAt closing text markerStart then .found (markerStart + closing.length)
    else if cutAt closing text markerStart then .cut
    else findClosing text markerStart rest

/-- `[/name]` -/
def namedClosing (text : JsString) (name : Span) : JsString :=
  units "[/" ++ slice text name.start name.end' ++ units "]"

/-- What follows the object: a named bracket has to be closed, the other calls may be. -/
def scanClosing (text : JsString) (value : Candidate) (payload : Span) (state : JsonState) : ToolCallScan :=
  let closingCandidate : Candidate := { value with payload := some payload, json := some state }
  let complete (end' : Nat) : ToolCallScan := .complete { value with payload := some payload } payload end'
  let markerStart := skipWhitespace text payload.end'
  if value.callSyntax ≠ .namedBracket then
    -- at the end of the text no closing is waited for
    if markerStart = text.length then complete payload.end'
    else
      match findClosing text markerStart [harmonyCallMarker, endToolRequest, namedClosing text value.name] with
      | .found end' => complete end'
      | .cut => .incomplete (some closingCandidate) none
      | .missing => complete payload.end'
  else if markerStart = text.length then .incomplete (some closingCandidate) none
  else
    match findClosing text markerStart [endToolRequest, namedClosing text value.name] with
    | .found end' => complete end'
    | .cut => .incomplete (some closingCandidate) none
    | .missing => .invalid markerStart (some closingCandidate)

def scanJsonOpening (lineBreakOffsets : Nat → Bool) (text : JsString) (start : Nat) :
    Except ToolCallScan (Nat × Candidate) :=
  if text[start]? = some (unit '[') then scanBracketOpening lineBreakOffsets text start
  else scanHarmonyOpening text start

def scanPlainTextJsonToolCall (lineBreakOffsets : Nat → Bool) (text : JsString) (start : Nat) : ToolCallScan :=
  match scanJsonOpening lineBreakOffsets text start with
  | .error scan => scan
  | .ok (cursor, value) =>
    let payloadStart := skipWhitespace text cursor
    if payloadStart = text.length then .incomplete (some value) none
    else if text[payloadStart]? ≠ some (unit '\x7b') then .invalid payloadStart (some value)
    else
      match scanJsonObject text payloadStart with
      | (false, end', state) =>
        .incomplete (some { value with payload := some ⟨payloadStart, end'⟩, json := some state }) none
      | (true, end', state) => scanClosing text value ⟨payloadStart, end'⟩ state

/-! ## The verdict -/

structure PlainTextToolCallNameMatcher where
  hasExactName : JsString → Bool
  hasNamePrefix : JsString → Bool

def defaultMaxPlainTextToolPayloadBytes : Nat := 256000

structure ScanOptions where
  matcher : Option PlainTextToolCallNameMatcher := none
  maxPayloadBytes : Nat := defaultMaxPlainTextToolPayloadBytes
  lineBreakOffsets : Nat → Bool := fun _ => false

inductive Verdict where
  | invalid (at' : Nat)
  | incomplete (completeEnd : Option Nat)
  | complete (end' : Nat)
  deriving DecidableEq

structure PlainTextToolCallScan where
  json : ToolCallScan
  xmlish : ToolCallScan
  matchesJson : Bool
  matchesXmlish : Bool
  verdict : Verdict
  next : Nat
  overCap : Bool
  payloadStart : Option Nat

def ToolCallScan.value : ToolCallScan → Option Candidate
  | invalid _ candidate => candidate
  | incomplete candidate _ => candidate
  | complete candidate _ _ => some candidate

def ToolCallScan.isIncomplete : ToolCallScan → Bool
  | incomplete _ _ => true
  | _ => false

/-- The name of a candidate, or what there is of it, is one that the matcher knows. -/
def nameMatches (matcher : Option PlainTextToolCallNameMatcher) (text : JsString) (value : Candidate) : Bool :=
  let name := slice text value.name.start value.name.end'
  match matcher with
  | none => true
  | some matcher => if value.nameComplete then matcher.hasExactName name else matcher.hasNamePrefix name

def accepted (matcher : Option PlainTextToolCallNameMatcher) (text : JsString) (scan : ToolCallScan) : Bool :=
  match scan.value with
  | none => scan.isIncomplete
  | some value => nameMatches matcher text value

/-- The payload of an accepted branch. -/
def acceptedPayload (matcher : Option PlainTextToolCallNameMatcher) (text : JsString) (scan : ToolCallScan) :
    Option Span :=
  if accepted matcher text scan then scan.value.bind (·.payload) else none

def payloadOverCap (text : JsString) (maxPayloadBytes : Nat) (payload : Option Span) : Bool :=
  payload.any fun payload => (utf8ByteLengthWithinLimit text payload.start payload.end' maxPayloadBytes).isNone

/-- How far a branch has read, for the place where the search goes on. -/
def ToolCallScan.progress (text : JsString) : ToolCallScan → Nat
  | invalid at' _ => at'
  | incomplete _ _ => text.length
  | complete _ _ end' => end'

/-- Where an invalid branch has stopped whose payload is too large. -/
def ToolCallScan.overCapAt (overCap : Bool) : ToolCallScan → Option Nat
  | invalid at' _ => if overCap then some at' else none
  | _ => none

/-- `isArguments` says of a payload that `JSON.parse` makes an object of it. -/
def scanPlainTextToolCall (isArguments : JsString → Bool) (options : ScanOptions) (text : JsString) (start : Nat) :
    PlainTextToolCallScan :=
  let xmlish := scanXmlishToolCall options.lineBreakOffsets text start
  let json := scanPlainTextJsonToolCall options.lineBreakOffsets text start
  let matchesXmlish := accepted options.matcher text xmlish
  let matchesJson := accepted options.matcher text json
  let xmlPayload := acceptedPayload options.matcher text xmlish
  let jsonPayload := acceptedPayload options.matcher text json
  let xmlOverCap := payloadOverCap text options.maxPayloadBytes xmlPayload
  let jsonOverCap := payloadOverCap text options.maxPayloadBytes jsonPayload
  let scan (verdict : Verdict) (next : Nat) (overCap : Bool) (payload : Option Span) : PlainTextToolCallScan :=
    { json, xmlish, matchesJson, matchesXmlish, verdict, next, overCap, payloadStart := payload.map (·.start) }
  match matchesXmlish, xmlish, matchesJson, json with
  | true, .complete _ payload end', _, _ => scan (.complete end') end' xmlOverCap (some payload)
  | _, _, true, .complete _ payload end' =>
    if jsonOverCap || isArguments (slice text payload.start payload.end') then
      scan (.complete end') end' jsonOverCap (some payload)
    else scan (.invalid end') end' false (some payload)
  | _, _, _, _ =>
    match xmlish.overCapAt xmlOverCap, json.overCapAt jsonOverCap with
    | some at', _ => scan (.invalid at') at' true xmlPayload
    | none, some at' => scan (.invalid at') at' true jsonPayload
    | none, none =>
      let xmlIncomplete := matchesXmlish && xmlish.isIncomplete
      if xmlIncomplete || (matchesJson && json.isIncomplete) then
        let payload := if xmlIncomplete then xmlPayload else jsonPayload
        let completeEnd :=
          match xmlish with
          | .incomplete _ completeEnd => completeEnd
          | _ => none
        scan (.incomplete completeEnd) text.length (payloadOverCap text options.maxPayloadBytes payload) payload
      else
        let next := max (start + 1) (if matchesXmlish then xmlish.progress text else 0)
        let next := max next (if matchesJson then json.progress text else 0)
        scan (.invalid next) next false none

end OpenClaw.ToolCallRepair
