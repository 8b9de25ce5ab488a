/-
# OpenClaw.OcPaths.JsonlDocument -- JSON-Lines documents: emit, resolve, edit

A document is its lines: values, blank lines and malformed lines.  An edit puts a new value into one
value line and renders the whole document again; a string that carries the redaction marker is never
rendered.  This module follows `jsonl/ast.ts`, `line.ts`, `emit.ts`, `resolve.ts` and `edit.ts`.

`numberText` is `String(n)` on the numbers of the document.
-/
import OpenClaw.OcPaths.JsoncResolve

namespace OpenClaw.OcPaths

open OpenClaw.Data

inductive LineEnding where
  | crlf
  | lf
  deriving DecidableEq

def LineEnding.text : LineEnding → Text
  | .crlf => ['\r', '\n']
  | .lf => ['\n']

inductive JsonlLine (ν : Type) where
  | value (line : Nat) (value : JsoncValue ν) (raw : Text)
  | blank (line : Nat) (raw : Text)
  | malformed (line : Nat) (raw : Text)

structure JsonlAst (ν : Type) where
  raw : Text
  lines : List (JsonlLine ν)
  lineEnding : Option LineEnding

variable {ν : Type}

namespace JsonlLine

def line : JsonlLine ν → Nat
  | value line _ _ => line
  | blank line _ => line
  | malformed line _ => line

def isValue : JsonlLine ν → Bool
  | value .. => true
  | _ => false

end JsonlLine

/-! ## Emitting -/

def redactedSentinel : Text := "__OPENCLAW_REDACTED__".toList

def hexDigit (n : Nat) : Char := "0123456789abcdef".toList.getD n '0'

/-- One character inside the quotes of `JSON.stringify`. -/
def jsonEscape (c : Char) : Text :=
  if c = '"' then ['\\', '"']
  else if c = '\\' then ['\\', '\\']
  else if c.toNat = 0x08 then ['\\', 'b']
  else if c.toNat = 0x0C then ['\\', 'f']
  else if c = '\n' then ['\\', 'n']
  else if c = '\r' then ['\\', 'r']
  else if c = '\t' then ['\\', 't']
  else if c.toNat < 0x20 then ['\\', 'u', '0', '0', hexDigit (c.toNat / 16), hexDigit (c.toNat % 16)]
  else [c]

/-- `JSON.stringify(text)` -/
def jsonString (text : Text) : Text := '"' :: text.flatMap jsonEscape ++ ['"']

/-- `parts.join(sep)` -/
def join (sep : Text) (parts : List Text) : Text := sep.intercalate parts

variable (numberText : ν → Text)

mutual

def renderValue (guardPath : Text) (walked : List Text) : JsoncValue ν → Except OcError Text
  | .object entries _ => (renderEntries guardPath walked entries).map fun parts => '{' :: join [','] parts ++ ['}']
  | .array items _ => (renderItems guardPath walked 0 items).map fun parts => '[' :: join [','] parts ++ [']']
  | .string value _ =>
    if value.includes redactedSentinel then
      .error (.emitSentinel (guardPath ++ ['/'] ++ join ['/'] walked))
    else .ok (jsonString value)
  | .number value _ => .ok (numberText value)
  | .boolean value _ => .ok (if value then "true".toList else "false".toList)
  | .null _ => .ok "null".toList

/-- `entries.map` of the object case. -/
def renderEntries (guardPath : Text) (walked : List Text) :
    List (JsoncEntry (JsoncValue ν)) → Except OcError (List Text)
  | [] => .ok []
  | ⟨key, value, _⟩ :: rest => do
    let part ← renderValue guardPath (walked ++ [key]) value
    let parts ← renderEntries guardPath walked rest
    return (jsonString key ++ [':'] ++ part) :: parts

/-- `items.map` of the array case, from the index `i` on. -/
def renderItems (guardPath : Text) (walked : List Text) (i : Nat) :
    List (JsoncValue ν) → Except OcError (List Text)
  | [] => .ok []
  | value :: rest => do
    let part ← renderValue guardPath (walked ++ [decimalText i]) value
    let parts ← renderItems guardPath walked (i + 1) rest
    return part :: parts

end

inductive EmitMode where
  | roundtrip
  | render
  deriving DecidableEq

structure JsonlEmitOptions where
  mode : EmitMode := .roundtrip
  fileNameForGuard : Option Text := none
  acceptPreExistingSentinel : Bool := true

def JsonlEmitOptions.guardPath (opts : JsonlEmitOptions) : Text := "oc://".toList ++ opts.fileNameForGuard.getD []

/-- The text of one line in render mode. -/
def renderLine (opts : JsonlEmitOptions) (ln : JsonlLine ν) : Except OcError Text :=
  let guardPath := opts.guardPath ++ "/L".toList ++ decimalText ln.line
  match ln with
  | .value _ value _ => renderValue numberText guardPath [] value
  | .blank _ raw | .malformed _ raw =>
    if !opts.acceptPreExistingSentinel && raw.includes redactedSentinel then
      .error (.emitSentinel guardPath)
    else .ok raw

def emitJsonl (ast : JsonlAst ν) (opts : JsonlEmitOptions) : Except OcError Text :=
  match opts.mode with
  | .roundtrip =>
    if !opts.acceptPreExistingSentinel && ast.raw.includes redactedSentinel then
      .error (.emitSentinel (opts.guardPath ++ "/[raw]".toList))
    else .ok ast.raw
  | .render =>
    (ast.lines.mapM (renderLine numberText opts)).map
      (join (ast.lineEnding.getD .lf).text)

/-! ## Line addresses -/

/-- `/^L(\d+)$/` -/
def lineDigits : Text → Option Text
  | 'L' :: digits => if isDigits digits then some digits else none
  | _ => none

def pickJsonlLine (ast : JsonlAst ν) (addr : Text) : Option (JsonlLine ν) :=
  if addr = posFirst then ast.lines.find? (·.isValue)
  else if addr = posLast then ast.lines.reverse.find? (·.isValue)
  else
    (lineDigits addr).bind fun digits => ast.lines.find? fun l => numberOfDigits digits = some l.line

def pickLineIndex (ast : JsonlAst ν) (addr : Text) : Option Nat :=
  if addr = posFirst then ast.lines.findIdx? (·.isValue)
  else if addr = posLast then
    -- The loop runs down from the last line.
    (ast.lines.reverse.findIdx? (·.isValue)).map fun i => ast.lines.length - 1 - i
  else
    (lineDigits addr).bind fun digits => ast.lines.findIdx? fun l => numberOfDigits digits = some l.line

/-! ## Resolving -/

inductive JsonlOcPathMatch (ν : Type) where
  | root (node : JsonlAst ν)
  | line (node : JsonlLine ν)
  | value (node : JsoncValue ν) (line : Nat) (path : List Text)
  | objectEntry (node : JsoncEntry (JsoncValue ν)) (line : Nat) (path : List Text)

/-- The match in a value as a match in the document. -/
def JsoncValueOcPathMatch.onLine (line : Nat) : JsoncValueOcPathMatch ν → JsonlOcPathMatch ν
  | .objectEntry node path => .objectEntry node line path
  | .value node path => .value node line path

/-- The sub-segments of the slots below the line address. -/
def slotSegments (path : OcPath) : Except OcError (List Text) := do
  let item ← match path.item with
    | some slot => splitRespectingBrackets slot '.' slot
    | none => pure []
  let field ← match path.field with
    | some slot => splitRespectingBrackets slot '.' slot
    | none => pure []
  return item ++ field

def resolveJsonlOcPath (ast : JsonlAst ν) (path : OcPath) : Except OcError (Option (JsonlOcPathMatch ν)) :=
  match path.section with
  | none => .ok (some (.root ast))
  | some head =>
    match pickJsonlLine ast head with
    | none => .ok none
    | some lineEntry =>
      if path.item = none ∧ path.field = none then .ok (some (.line lineEntry))
      else
        match lineEntry with
        | .value line value _ => do
          let segments ← slotSegments path
          return (resolveJsoncValueOcPath value (segments.map unquoteSeg)).map (·.onLine line)
        | _ => .ok none

/-! ## Editing -/

inductive JsonlRefusal where
  | unresolved
  | notAValueLine
  deriving DecidableEq

inductive JsonlEditResult (ν : Type) where
  | ok (ast : JsonlAst ν)
  | refused (reason : JsonlRefusal)

/-- The segment that is compared with the keys, or read as an index; `none` is no such element. -/
def editSeg (current : JsoncValue ν) (seg : Text) : Option Text :=
  if isPositionalSeg seg then positionalForJsonc current seg else some seg

def replaceAt (current : JsoncValue ν) (newValue : JsoncValue ν) : List Text → Option (JsoncValue ν)
  | [] => some newValue
  | seg :: rest =>
    if seg = [] then none
    else
      match current with
      | .object entries line =>
        match editSeg current seg with
        | none => none
        | some segNorm =>
          let lookupKey := unquoteSeg segNorm
          match entries.findIdx? fun entry => entry.key = lookupKey with
          | none => none
          | some idx =>
            match entries[idx]? with
            | none => none
            | some child =>
              (replaceAt child.value newValue rest).map fun replacedChild =>
                .object (entries.set idx { child with value := replacedChild }) line
      | .array items line =>
        match editSeg current seg with
        | none => none
        | some segNorm =>
          match parseArrayIndexSegment segNorm items.length with
          | none => none
          | some idx =>
            match items[idx]? with
            | none => none
            | some child =>
              (replaceAt child newValue rest).map fun replacedChild =>
                .array (items.set idx replacedChild) line
      | _ => none

def finalize (ast : JsonlAst ν) (lineIdx : Nat) (newLine : JsonlLine ν) (fileName : Text) :
    Except OcError (JsonlEditResult ν) := do
  let next : JsonlAst ν := { ast with raw := [], lines := ast.lines.set lineIdx newLine }
  let rendered ← emitJsonl numberText next { mode := .render, fileNameForGuard := some fileName }
  return .ok { next with raw := rendered }

def setJsonlOcPath (ast : JsonlAst ν) (path : OcPath) (newValue : JsoncValue ν) : Except OcError (JsonlEditResult ν) :=
  match path.section with
  | none => .ok (.refused .unresolved)
  | some head =>
    match pickLineIndex ast head with
    | none => .ok (.refused .unresolved)
    | some lineIdx =>
      match ast.lines[lineIdx]? with
      | none => .ok (.refused .unresolved)
      | some (.value line value raw) =>
        if path.item = none ∧ path.field = none then
          finalize numberText ast lineIdx (.value line newValue raw) path.file
        else do
          let segments ← slotSegments path
          match replaceAt value newValue segments with
          | none => return .refused .unresolved
          | some replaced => finalize numberText ast lineIdx (.value line replaced raw) path.file
      | some _ => .ok (.refused .notAValueLine)

def appendJsonlOcPath (ast : JsonlAst ν) (value : JsoncValue ν) : Except OcError (JsonlAst ν) := do
  let nextLineNo := ast.lines.getLast?.elim 1 fun last => last.line + 1
  let next : JsonlAst ν := { ast with raw := [], lines := ast.lines ++ [.value nextLineNo value []] }
  let rendered ← emitJsonl numberText next { mode := .render }
  return { next with raw := rendered }

end OpenClaw.OcPaths
