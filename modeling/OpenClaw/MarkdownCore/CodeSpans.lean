/-
# OpenClaw.MarkdownCore.CodeSpans -- fenced and inline code, found piece by piece

`scanFenceSpans` finds the fenced blocks of a buffer line by line, and `parseInlineCodeSpans` the inline spans
outside of them.  Both carry a state, so that a text can be scanned in pieces: an open fence, an open inline span,
and whether the next piece begins a line.

This follows `fences.ts` and `code-spans.ts`.  The `end` of a span is `stop` here, the `open` of a fence state is
`opener`, and the `open` of an inline state `isOpen`.
-/
import OpenClaw.Data.JsText

namespace OpenClaw.MarkdownCore

open OpenClaw.Data

def newline : CodeUnit := unitOf '\n'

def tick : CodeUnit := unitOfNat 0x60

def wave : CodeUnit := unitOf '~'

/-! ## Fences -/

/-- A fenced code block, with what reopens it. -/
structure FenceSpan where
  start : Nat
  stop : Nat
  openLine : JsString
  marker : JsString
  indent : JsString

/-- The line that opened a block. -/
structure FenceOpener where
  markerChar : JsString
  markerLen : Nat
  openLine : JsString
  marker : JsString
  indent : JsString
  deriving DecidableEq

/-- What the scan of a text in pieces carries on. -/
@[ext] structure FenceScanState where
  atLineStart : Option Bool
  opener : Option FenceOpener
  deriving DecidableEq

/-- `line.replace(/\r$/, "")` -/
def dropReturn (raw : JsString) : JsString := if raw.getLast? = some (unitOf '\r') then raw.dropLast else raw

structure FenceLine where
  indent : JsString
  marker : JsString
  trailing : JsString

/-- `/^( {0,3})(`{3,}|~{3,})(.*)$/`; `.` matches no line terminator. -/
def matchFenceLine (line : JsString) : Option FenceLine :=
  let indent := line.takeWhile (· = unitOf ' ')
  let rest := line.dropWhile (· = unitOf ' ')
  match rest with
  | [] => none
  | char :: _ =>
    let marker := rest.takeWhile (· = char)
    let trailing := rest.dropWhile (· = char)
    if indent.length ≤ 3 && (char = tick || char = wave) && 3 ≤ marker.length && !trailing.any isLineTerminator then
      some ⟨indent, marker, trailing⟩
    else none

/-- Only spaces and tabs may stand behind a closing marker. -/
def closesFence (opener : FenceOpener) (found : FenceLine) : Bool :=
  opener.markerChar = found.marker.take 1 && opener.markerLen ≤ found.marker.length &&
    found.trailing.all fun unit => unit = unitOf ' ' || unit = unitOf '\t'

/-- One line that begins at `offset`; a line that does not begin at a line start is not matched.  The open fence
goes with its start. -/
def scanFenceLine (offset : Nat) (atLineStart : Bool) (opened : Option (Nat × FenceOpener)) (raw : JsString) :
    Option FenceSpan × Option (Nat × FenceOpener) :=
  let line := dropReturn raw
  match matchFenceLine line with
  | none => (none, opened)
  | some found =>
    if !atLineStart then (none, opened)
    else
      match opened with
      | none => (none, some (offset, ⟨found.marker.take 1, found.marker.length, line, found.marker, found.indent⟩))
      | some (start, opener) =>
        if closesFence opener found then
          (some ⟨start, offset + raw.length, opener.openLine, opener.marker, opener.indent⟩, none)
        else (none, opened)

/-- The loop over the lines of the buffer. -/
def scanFenceLines : Nat → Bool → Option (Nat × FenceOpener) → List JsString →
    List FenceSpan × Option (Nat × FenceOpener)
  | _, _, opened, [] => ([], opened)
  | offset, atLineStart, opened, raw :: rest =>
    let step := scanFenceLine offset atLineStart opened raw
    let scanned := scanFenceLines (offset + raw.length + 1) true step.2 rest
    (step.1.toList ++ scanned.1, scanned.2)

/-- The fence that is open at the end of the buffer. -/
def lastSpan (length : Nat) (opened : Option (Nat × FenceOpener)) : List FenceSpan :=
  match opened with
  | none => []
  | some (start, opener) => [⟨start, length, opener.openLine, opener.marker, opener.indent⟩]

/-- The fenced blocks of a piece, and the state to go on from. -/
def scanFenceSpans (buffer : JsString) (state : Option FenceScanState) : List FenceSpan × FenceScanState :=
  let startsAtLineStart := (state.bind FenceScanState.atLineStart).getD true
  let opened := (state.bind FenceScanState.opener).map fun opener => (0, opener)
  let scanned := scanFenceLines 0 startsAtLineStart opened (buffer.splitOn newline)
  let atLineStart := if buffer = [] then startsAtLineStart else buffer.getLast? = some newline
  (scanned.1 ++ lastSpan buffer.length scanned.2, ⟨some atLineStart, scanned.2.map Prod.snd⟩)

/-! ## Inline code -/

/-- Whether a span is open, and how many ticks opened it. -/
structure InlineCodeState where
  isOpen : Bool
  ticks : Nat
  deriving DecidableEq

def createInlineCodeState : InlineCodeState := ⟨false, 0⟩

/-- Where the loop stands; `openStart` is only read while a span is open. -/
structure InlineScan where
  isOpen : Bool
  ticks : Nat
  openStart : Nat

def findFenceSpanAtInclusive (spans : List FenceSpan) (index : Nat) : Option FenceSpan :=
  spans.find? fun span => span.start ≤ index && index < span.stop

def isInsideFenceSpan (index : Nat) (spans : List FenceSpan) : Bool :=
  spans.any fun span => span.start ≤ index && index < span.stop

def isInsideInlineSpan (index : Nat) (spans : List (Nat × Nat)) : Bool :=
  spans.any fun span => span.1 ≤ index && index < span.2

/-- The loop from index `i` on; `skip` units of what is left are behind it already. -/
def scanInline (fenceSpans : List FenceSpan) : Nat → Nat → InlineScan → JsString → List (Nat × Nat) × InlineCodeState
  | i, _, scan, [] => (if scan.isOpen then [(scan.openStart, i)] else [], ⟨scan.isOpen, scan.ticks⟩)
  | i, skip + 1, scan, _ :: rest => scanInline fenceSpans (i + 1) skip scan rest
  | i, 0, scan, unit :: rest =>
    match findFenceSpanAtInclusive fenceSpans i with
    | some fence => scanInline fenceSpans (i + 1) (fence.stop - i - 1) scan rest
    | none =>
      if unit ≠ tick then scanInline fenceSpans (i + 1) 0 scan rest
      else
        let runLength := ((unit :: rest).takeWhile (· = tick)).length
        if !scan.isOpen then scanInline fenceSpans (i + 1) (runLength - 1) ⟨true, runLength, i⟩ rest
        else if runLength = scan.ticks then
          let scanned := scanInline fenceSpans (i + 1) (runLength - 1) ⟨false, 0, 0⟩ rest
          ((scan.openStart, i + runLength) :: scanned.1, scanned.2)
        else scanInline fenceSpans (i + 1) (runLength - 1) scan rest

def parseInlineCodeSpans (text : JsString) (fenceSpans : List FenceSpan) (initialState : InlineCodeState) :
    List (Nat × Nat) × InlineCodeState :=
  scanInline fenceSpans 0 0 ⟨initialState.isOpen, initialState.ticks, 0⟩ text

/-! ## The index -/

/-- Where a piece is code, and the states to go on from. -/
structure CodeSpanIndex where
  inlineState : InlineCodeState
  fenceState : FenceScanState
  isInside : Nat → Bool

def buildCodeSpanIndex (text : JsString) (inlineState : Option InlineCodeState) (fenceState : Option FenceScanState) :
    CodeSpanIndex :=
  let fences := scanFenceSpans text fenceState
  let startState := inlineState.getD createInlineCodeState
  let inlines := parseInlineCodeSpans text fences.1 startState
  ⟨inlines.2, fences.2, fun index => isInsideFenceSpan index fences.1 || isInsideInlineSpan index inlines.1⟩

/-- The classes of all characters of the text. -/
def CodeSpanIndex.classes (index : CodeSpanIndex) (text : JsString) : List Bool :=
  (List.range text.length).map index.isInside

/-- The pieces one by one, each with the states that the one before returned. -/
def feedPieces : Option InlineCodeState → Option FenceScanState → List JsString →
    List Bool × Option InlineCodeState × Option FenceScanState
  | inlineState, fenceState, [] => ([], inlineState, fenceState)
  | inlineState, fenceState, piece :: rest =>
    let index := buildCodeSpanIndex piece inlineState fenceState
    let fed := feedPieces (some index.inlineState) (some index.fenceState) rest
    (index.classes piece ++ fed.1, fed.2)

end OpenClaw.MarkdownCore
