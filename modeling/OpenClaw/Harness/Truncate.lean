/-
# OpenClaw.Harness.Truncate -- the beginning or the end of an output

`truncateHead` keeps the first lines of a text and `truncateTail` the last ones, as many as fit in a number of
lines and a number of bytes.  When the last line alone has too many bytes, `truncateTail` keeps the end of it.

This follows `truncate.ts`.  `Buffer.byteLength` is a parameter where the runtime has it.
-/
import Mathlib.Data.List.SplitOn
import Mathlib.Tactic.Ring
import OpenClaw.Data.JsText
import OpenClaw.Data.Utf16Bytes

namespace OpenClaw.Harness

open OpenClaw.Data

/-! ## Counting -/

/-- `globalThis.Buffer`, if there is one. -/
structure Runtime where
  byteLength : Option (JsString → Nat)

/-- `Buffer.byteLength(content, "utf8")` is the length in UTF-8. -/
def Runtime.Documented (runtime : Runtime) : Prop := ∀ count ∈ runtime.byteLength, count = Data.byteLength

def newline : CodeUnit := unitOf '\n'

def splitLinesForCounting (content : JsString) : List JsString :=
  if content = [] then []
  else
    let lines := content.splitOn newline
    if content.getLast? = some newline then lines.dropLast else lines

def isAsciiUnit (unit : CodeUnit) : Bool := unit.val ≤ 0x7F

/-- The loop of `utf8ByteLength`. -/
def countBytes : JsString → Nat
  | [] => 0
  | [code] => if code.val ≤ 0x7F then 1 else if code.val ≤ 0x7FF then 2 else 3
  | code :: next :: rest =>
    if code.val ≤ 0x7F then 1 + countBytes (next :: rest)
    else if code.val ≤ 0x7FF then 2 + countBytes (next :: rest)
    else if isLeadSurrogate code && isTrailSurrogate next then 4 + countBytes rest
    else 3 + countBytes (next :: rest)

def utf8ByteLength (runtime : Runtime) (content : JsString) : Nat :=
  match runtime.byteLength with
  | some count => count content
  | none =>
    match content.findIdx? fun unit => !isAsciiUnit unit with
    | none => content.length
    | some firstNonAscii => firstNonAscii + countBytes (content.drop firstNonAscii)

def replaceUnpairedSurrogates : JsString → JsString
  | [] => []
  | [code] => if isSurrogate code then [unitOf replacementCharacter] else [code]
  | code :: next :: rest =>
    if isLeadSurrogate code then
      if isTrailSurrogate next then code :: next :: replaceUnpairedSurrogates rest
      else unitOf replacementCharacter :: replaceUnpairedSurrogates (next :: rest)
    else if isTrailSurrogate code then unitOf replacementCharacter :: replaceUnpairedSurrogates (next :: rest)
    else code :: replaceUnpairedSurrogates (next :: rest)

/-! ## The end of a line -/

/-- What the loop of `truncateStringToBytesFromEnd` has kept. -/
structure LineEnd where
  kept : JsString
  outputBytes : Nat
  needsReplacement : Bool

/-- The loop, over the units in front of what is kept, the nearest first. -/
def cutFromEnd (maxBytes : Nat) : JsString → LineEnd → LineEnd
  | [], cut => cut
  | [code], cut =>
    if cut.outputBytes + unitBytes code > maxBytes then cut
    else ⟨code :: cut.kept, cut.outputBytes + unitBytes code, cut.needsReplacement || isSurrogate code⟩
  | code :: previous :: rest, cut =>
    if isTrailSurrogate code && isLeadSurrogate previous then
      if cut.outputBytes + 4 > maxBytes then cut
      else cutFromEnd maxBytes rest ⟨previous :: code :: cut.kept, cut.outputBytes + 4, cut.needsReplacement⟩
    else if cut.outputBytes + unitBytes code > maxBytes then cut
    else cutFromEnd maxBytes (previous :: rest)
      ⟨code :: cut.kept, cut.outputBytes + unitBytes code, cut.needsReplacement || isSurrogate code⟩

def truncateStringToBytesFromEnd (str : JsString) (maxBytes : Nat) : JsString :=
  if maxBytes = 0 then []
  else
    let cut := cutFromEnd maxBytes str.reverse ⟨[], 0, false⟩
    if cut.needsReplacement then replaceUnpairedSurrogates cut.kept else cut.kept

/-! ## Truncation -/

inductive TruncatedBy where
  | lines
  | bytes
  deriving DecidableEq

structure TruncationResult where
  content : JsString
  truncated : Bool
  truncatedBy : Option TruncatedBy
  totalLines : Nat
  totalBytes : Nat
  outputLines : Nat
  outputBytes : Nat
  lastLinePartial : Bool
  firstLineExceedsLimit : Bool
  maxLines : Nat
  maxBytes : Nat

structure TruncationOptions where
  maxLines : Option Nat := none
  maxBytes : Option Nat := none

def defaultMaxLines : Nat := 2000

def defaultMaxBytes : Nat := 50 * 1024

structure ResolvedTruncationInput where
  lines : List JsString
  totalLines : Nat
  totalBytes : Nat
  maxLines : Nat
  maxBytes : Nat

variable (runtime : Runtime)

def resolveTruncationInput (content : JsString) (options : TruncationOptions) : ResolvedTruncationInput :=
  let lines := splitLinesForCounting content
  { lines
    totalLines := lines.length
    totalBytes := utf8ByteLength runtime content
    maxLines := options.maxLines.getD defaultMaxLines
    maxBytes := options.maxBytes.getD defaultMaxBytes }

/-- The fields of a result that depend on what is kept. -/
structure TruncationParams where
  content : JsString
  truncated : Bool
  truncatedBy : Option TruncatedBy
  outputLines : Nat
  outputBytes : Option Nat := none
  lastLinePartial : Bool := false
  firstLineExceedsLimit : Bool := false

def buildTruncationResult (input : ResolvedTruncationInput) (params : TruncationParams) : TruncationResult where
  content := params.content
  truncated := params.truncated
  truncatedBy := params.truncatedBy
  totalLines := input.totalLines
  totalBytes := input.totalBytes
  outputLines := params.outputLines
  outputBytes := params.outputBytes.getD (utf8ByteLength runtime params.content)
  lastLinePartial := params.lastLinePartial
  firstLineExceedsLimit := params.firstLineExceedsLimit
  maxLines := input.maxLines
  maxBytes := input.maxBytes

/-- What the loop over the lines has collected. -/
structure Collected where
  outputLinesArr : List JsString
  outputBytesCount : Nat
  truncatedBy : TruncatedBy
  lastLinePartial : Bool

def joinLines (lines : List JsString) : JsString := [newline].intercalate lines

/-- The loop of `truncateHead`, over the lines that the line limit leaves. -/
def collectHead (maxBytes : Nat) : List JsString → Collected → Collected
  | [], out => out
  | line :: rest, out =>
    let lineBytes := utf8ByteLength runtime line + if out.outputLinesArr.length > 0 then 1 else 0
    if out.outputBytesCount + lineBytes > maxBytes then { out with truncatedBy := .bytes }
    else collectHead maxBytes rest
      { out with
        outputLinesArr := out.outputLinesArr ++ [line]
        outputBytesCount := out.outputBytesCount + lineBytes }

/-- The loop of `truncateTail`, over the lines from the last one. -/
def collectTail (maxLines maxBytes : Nat) : List JsString → Collected → Collected
  | [], out => out
  | line :: rest, out =>
    if maxLines ≤ out.outputLinesArr.length then out
    else
      let lineBytes := utf8ByteLength runtime line + if out.outputLinesArr.length > 0 then 1 else 0
      if out.outputBytesCount + lineBytes > maxBytes then
        if out.outputLinesArr.length = 0 then
          let truncatedLine := truncateStringToBytesFromEnd line maxBytes
          ⟨[truncatedLine], utf8ByteLength runtime truncatedLine, .bytes, true⟩
        else { out with truncatedBy := .bytes }
      else collectTail maxLines maxBytes rest
        { out with
          outputLinesArr := line :: out.outputLinesArr
          outputBytesCount := out.outputBytesCount + lineBytes }

/-- Nothing collected; the line limit is to blame if there are too many lines. -/
def nothingCollected (input : ResolvedTruncationInput) : Collected :=
  ⟨[], 0, if input.maxLines < input.totalLines then .lines else .bytes, false⟩

/-- Which limit the loop reached. -/
def limitReached (input : ResolvedTruncationInput) (out : Collected) : TruncatedBy :=
  if input.maxLines < input.totalLines ∧ input.maxLines ≤ out.outputLinesArr.length ∧
      out.outputBytesCount ≤ input.maxBytes then .lines
  else out.truncatedBy

def untruncated (input : ResolvedTruncationInput) (content : JsString) : TruncationResult :=
  buildTruncationResult runtime input
    { content
      truncated := false
      truncatedBy := none
      outputLines := input.totalLines
      outputBytes := some input.totalBytes }

/-- The result of a loop. -/
def truncatedTo (input : ResolvedTruncationInput) (out : Collected) : TruncationResult :=
  buildTruncationResult runtime input
    { content := joinLines out.outputLinesArr
      truncated := true
      truncatedBy := some (limitReached input out)
      outputLines := out.outputLinesArr.length
      lastLinePartial := out.lastLinePartial }

def truncateHead (content : JsString) (options : TruncationOptions) : TruncationResult :=
  let input := resolveTruncationInput runtime content options
  if input.totalLines ≤ input.maxLines ∧ input.totalBytes ≤ input.maxBytes then untruncated runtime input content
  else if (input.lines.head?.any fun firstLine => input.maxBytes < utf8ByteLength runtime firstLine) then
    buildTruncationResult runtime input
      { content := []
        truncated := true
        truncatedBy := some .bytes
        outputLines := 0
        outputBytes := some 0
        firstLineExceedsLimit := true }
  else
    truncatedTo runtime input
      (collectHead runtime input.maxBytes (input.lines.take input.maxLines) (nothingCollected input))

def truncateTail (content : JsString) (options : TruncationOptions) : TruncationResult :=
  let input := resolveTruncationInput runtime content options
  if input.totalLines ≤ input.maxLines ∧ input.totalBytes ≤ input.maxBytes then untruncated runtime input content
  else
    truncatedTo runtime input
      (collectTail runtime input.maxLines input.maxBytes input.lines.reverse (nothingCollected input))

end OpenClaw.Harness
