/-
# OpenClaw.OcPaths.PathSegments -- the segments of an `oc://` path

A path has a file and up to three slots; a slot is cut at the dots outside quotes, brackets and braces.
This module has the scanner of `oc-path.ts` and the tokens that a sub-segment can be: quoted text, a
position, an array index.
-/
import OpenClaw.Data.JsNumeral

namespace OpenClaw.OcPaths

open OpenClaw.Data

inductive OcPathErrorCode where
  | notString | tooLong | missingScheme | controlChar | empty | emptySegment | absoluteFile
  | parentTraversal | reservedChar | tooDeep | unbalanced | emptySubSegment | unquotable | whitespace
  | malformedPredicate | malformedUnion | fileRequired | nesting
  deriving DecidableEq

/-- What the functions of the module throw. -/
inductive OcError where
  | path (message input : Text) (code : OcPathErrorCode)
  | emitSentinel (path : Text)
  deriving DecidableEq

structure OcPath where
  file : Text
  «section» : Option Text := none
  item : Option Text := none
  field : Option Text := none
  session : Option Text := none
  deriving DecidableEq

/-! ## The scanner -/

/-- The state of `scanBracketAware` between two characters. -/
structure ScanState where
  depthBracket : Int := 0
  depthBrace : Int := 0
  inQuote : Bool := false
  deriving DecidableEq

/-- `none` is an unbalanced bracket or brace. -/
def ScanState.shift (s : ScanState) (c : Char) : Option ScanState :=
  let next : ScanState :=
    { s with
      depthBracket := if c = '[' then s.depthBracket + 1 else if c = ']' then s.depthBracket - 1
        else s.depthBracket
      depthBrace := if c = '{' then s.depthBrace + 1 else if c = '}' then s.depthBrace - 1
        else s.depthBrace }
  if next.depthBracket < 0 ∨ next.depthBrace < 0 then none else some next

/-- One character: the state after it, and whether it stands at the top. -/
def scanChar (s : ScanState) (c : Char) : Option (ScanState × Bool) :=
  if s.inQuote then some ({ s with inQuote := c ≠ '"' }, false)
  else if c = '"' then some ({ s with inQuote := true }, false)
  else (s.shift c).map fun next => (next, next.depthBracket = 0 ∧ next.depthBrace = 0)

/-- Nothing is open at the end of the text. -/
def ScanState.closed (s : ScanState) : Bool := s.depthBracket = 0 && s.depthBrace = 0 && !s.inQuote

/-- `buf += c` on the first part of a split. -/
def consHead (c : Char) : List Text → List Text
  | [] => [[c]]
  | part :: rest => (c :: part) :: rest

/-- The parts of a text between the `delim` at its top; `none` is an unbalanced text. -/
def splitFrom (delim : Char) : ScanState → Text → Option (List Text)
  | s, [] => if s.closed then some [[]] else none
  | s, c :: rest =>
    match scanChar s c with
    | none => none
    | some (next, atTop) =>
      if atTop ∧ c = delim then (splitFrom delim next rest).map ([] :: ·)
      else (splitFrom delim next rest).map (consHead c)

attribute [grind =] splitFrom

def unbalancedError (ctx : Text) : OcError :=
  .path ("Unbalanced bracket/brace in oc:// path: ".toList ++ ctx) ctx .unbalanced

/-- `ctx` is the text the error names. -/
def splitRespectingBrackets (s : Text) (delim : Char) (ctx : Text) : Except OcError (List Text) :=
  match splitFrom delim {} s with
  | none => .error (unbalancedError ctx)
  | some parts => .ok parts

/-! ## Tokens -/

def isQuotedSeg (seg : Text) : Bool := 2 ≤ seg.length && seg.head? = some '"' && seg.getLast? = some '"'

/-- `seg.slice(1, -1)` -/
def inner (seg : Text) : Text := seg.tail.dropLast

def unquoteSeg (seg : Text) : Text := if isQuotedSeg seg then inner seg else seg

def posFirst : Text := "$first".toList

def posLast : Text := "$last".toList

def isPositionalSeg (seg : Text) : Bool := seg = posFirst || seg = posLast

/-- `/^(0|[1-9]\d*)$/` -/
def isIndexNumeral : Text → Bool
  | [] => false
  | c :: rest => if c = '0' then rest = [] else isDigit c && rest.all isDigit

def parseArrayIndexSegment (seg : Text) (length : Nat) : Option Nat :=
  if isIndexNumeral seg then
    (numberOfDigits seg).filter fun index => index ≤ maxSafeInteger.toNat && index < length
  else none

/-- Indexable containers provide their size, keyed ones their keys in order. -/
inductive PositionalContainer where
  | indexable (size : Nat)
  | keyed (keys : List Text)

def resolvePositionalSeg (seg : Text) : PositionalContainer → Option Text
  | .indexable size =>
    if size = 0 then none
    else if seg = posFirst then some "0".toList
    else if seg = posLast then some (decimalText (size - 1))
    else none
  | .keyed keys =>
    if seg = posFirst then keys.head?
    else if seg = posLast then keys.getLast?
    else none

theorem isQuotedSeg_positional {seg : Text} (h : isPositionalSeg seg = true) : isQuotedSeg seg = false := by
  rw [isPositionalSeg, Bool.or_eq_true, decide_eq_true_eq, decide_eq_true_eq] at h
  rcases h with rfl | rfl
  · decide
  · decide

/-- A text that is not quoted is its own content. -/
theorem unquoteSeg_of_not {seg : Text} (h : isQuotedSeg seg = false) : unquoteSeg seg = seg := by
  rw [unquoteSeg, h]
  rfl

end OpenClaw.OcPaths
