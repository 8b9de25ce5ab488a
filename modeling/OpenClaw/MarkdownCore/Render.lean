/-
# OpenClaw.MarkdownCore.Render -- Markdown with markers

`renderMarkdownWithMarkers` writes the text of a Markdown IR with the markers of its style spans and links: it
sweeps over the boundaries of all ranges with one stack of what is open.

This follows `render.ts`.  The `end` of a span is `stop` here, and the `open` of a marker is `openText`.
-/
import Mathlib.Data.List.Dedup
import OpenClaw.Data.CodeUnits
import OpenClaw.Data.Reading

namespace OpenClaw.MarkdownCore

open OpenClaw.Data

/-! ## The IR and the options -/

inductive MarkdownStyle where
  | bold
  | italic
  | strikethrough
  | code
  | codeBlock
  | spoiler
  | blockquote
  | heading1
  | heading2
  | heading3
  | heading4
  | heading5
  | heading6
  deriving DecidableEq

structure MarkdownStyleSpan where
  start : Nat
  stop : Nat
  style : MarkdownStyle
  language : Option JsString := none

structure MarkdownLinkSpan where
  start : Nat
  stop : Nat
  href : JsString

structure MarkdownIR where
  text : JsString
  styles : List MarkdownStyleSpan
  links : List MarkdownLinkSpan

/-- A marker; its opening text may depend on the span. -/
structure RenderStyleMarker where
  openText : MarkdownStyleSpan → JsString
  close : JsString

structure RenderLink where
  start : Nat
  stop : Nat
  openText : JsString
  close : JsString

structure RenderOptions where
  styleMarkers : MarkdownStyle → Option RenderStyleMarker
  escapeText : JsString → JsString
  buildLink : Option (MarkdownLinkSpan → JsString → Option RenderLink)

/-! ## Orders -/

def styleOrder : List MarkdownStyle :=
  [.blockquote, .codeBlock, .code, .heading1, .heading2, .heading3, .heading4, .heading5, .heading6, .bold,
    .italic, .strikethrough, .spoiler]

def styleRank (style : MarkdownStyle) : Int := ((styleOrder.findIdx? (· = style)).getD 0 : Nat)

/-- The comparison of `sortStyleSpans`. -/
def compareStyleSpans (a b : MarkdownStyleSpan) : Int :=
  if a.start ≠ b.start then (a.start : Int) - b.start
  else if a.stop ≠ b.stop then (b.stop : Int) - a.stop
  else styleRank a.style - styleRank b.style

def sortStyleSpans (spans : List MarkdownStyleSpan) : List MarkdownStyleSpan :=
  spans.mergeSort fun a b => compareStyleSpans a b ≤ 0

/-- The comparison of the spans with one start. -/
def compareBucket (a b : MarkdownStyleSpan) : Int :=
  if a.stop ≠ b.stop then (b.stop : Int) - a.stop else styleRank a.style - styleRank b.style

inductive ItemKind where
  | link
  | style (style : MarkdownStyle)
  deriving DecidableEq

structure OpeningItem where
  stop : Nat
  openText : JsString
  close : JsString
  kind : ItemKind
  index : Nat

/-- The comparison of what opens at one boundary. -/
def compareItems (a b : OpeningItem) : Int :=
  if a.stop ≠ b.stop then (b.stop : Int) - a.stop
  else
    match a.kind, b.kind with
    | .link, .style _ => -1
    | .style _, .link => 1
    | .style s, .style t => styleRank s - styleRank t
    | .link, .link => (a.index : Int) - b.index

/-! ## Boundaries -/

variable (ir : MarkdownIR) (options : RenderOptions)

def styledSpans : List MarkdownStyleSpan :=
  (sortStyleSpans (ir.styles.filter fun span => (options.styleMarkers span.style).isSome)).filter
    fun span => span.start ≠ span.stop

/-- `startsAt`, each bucket sorted. -/
def startsAt (pos : Nat) : List MarkdownStyleSpan :=
  ((styledSpans ir options).filter fun span => span.start = pos).mergeSort fun a b => compareBucket a b ≤ 0

def renderedLinks : List RenderLink :=
  match options.buildLink with
  | none => []
  | some buildLink => (ir.links.filter fun link => link.start ≠ link.stop).filterMap fun link => buildLink link ir.text

def linkStarts (pos : Nat) : List RenderLink := (renderedLinks ir options).filter fun link => link.start = pos

def boundaries : List Nat :=
  [0, ir.text.length] ++ (styledSpans ir options).flatMap (fun span => [span.start, span.stop]) ++
    (renderedLinks ir options).flatMap fun link => [link.start, link.stop]

def points : List Nat := (boundaries ir options).dedup.mergeSort fun a b => a ≤ b

/-! ## The sweep -/

def linkItem (index : Nat) (link : RenderLink) : OpeningItem := ⟨link.stop, link.openText, link.close, .link, index⟩

def styleItem (index : Nat) (span : MarkdownStyleSpan) : Option OpeningItem :=
  (options.styleMarkers span.style).map fun marker =>
    ⟨span.stop, marker.openText span, marker.close, .style span.style, index⟩

def openingItems (pos : Nat) : List OpeningItem :=
  (linkStarts ir options pos).mapIdx linkItem ++ ((startsAt ir options pos).mapIdx (styleItem options)).filterMap id

/-- Outer ranges first, so that what is opened last ends first. -/
def openingAt (pos : Nat) : List OpeningItem := (openingItems ir options pos).mergeSort fun a b => compareItems a b ≤ 0

structure StackItem where
  close : JsString
  stop : Nat

/-- What ends at a boundary on top of the stack: its closing markers, and the stack that is left. -/
def closeEnded (pos : Nat) : List StackItem → JsString × List StackItem
  | [] => ([], [])
  | top :: rest =>
    if top.stop = pos then (top.close ++ (closeEnded pos rest).1, (closeEnded pos rest).2) else ([], top :: rest)

/-- The loop over the points. -/
def renderFrom : List Nat → List StackItem → JsString
  | [], _ => []
  | pos :: rest, stack =>
    let opening := openingAt ir options pos
    let pushed := opening.foldl (fun stack item => ⟨item.close, item.stop⟩ :: stack) (closeEnded pos stack).2
    (closeEnded pos stack).1 ++ opening.flatMap (·.openText) ++
      match rest with
      | [] => []
      | next :: _ => (if pos < next then options.escapeText (slice ir.text pos next) else []) ++ renderFrom rest pushed

def renderMarkdownWithMarkers : JsString :=
  if ir.text = [] then [] else renderFrom ir options (points ir options) []

end OpenClaw.MarkdownCore
