/-
# OpenClaw.Infra.ShellInlineCommand -- the command string of a POSIX shell wrapper

`resolveInlineCommandMatch` finds the text that a wrapper such as `sh -c` is given, so that the text can be
inspected before it runs.  The model is the call that the POSIX shells take: with the POSIX flags and
`allowCombinedC`, tokens are compared as they are written, and none of the tables for PowerShell is there.

This follows `shell-inline-command.ts`.
-/
import OpenClaw.Data.JsText

namespace OpenClaw.Infra

open OpenClaw.Data

/-! ## Tokens -/

def posixInlineCommandFlags : List JsString := [units "-lc", units "-c", units "--command"]

def posixShellOptionsWithSeparateValues : List JsString :=
  [units "--init-file", units "--rcfile", units "-O", units "-o", units "+O", units "+o"]

def dash : CodeUnit := unitOf '-'

def plus : CodeUnit := unitOf '+'

/-- `[A-Za-z]` -/
def isAsciiLetter (unit : CodeUnit) : Bool := isAsciiAlnum unit && !isAsciiDigit unit

def isSeparateValueChar (char : CodeUnit) : Bool := char = unitOf 'o' || char = unitOf 'O'

def countSeparateValueOptionChars (token : JsString) : Nat := (token.drop 1).countP isSeparateValueChar

structure CombinedCommandFlag where
  attachedCommand : Option JsString
  separateValueCount : Nat

def parseCombinedCommandFlag (token : JsString) : Option CombinedCommandFlag :=
  if token.length < 2 || token[0]? ≠ some dash || token[1]? = some dash then none
  else
    let optionChars := token.drop 1
    if !optionChars.contains (unitOf 'c') || optionChars.contains dash then none
    else
      let suffix := optionChars.drop (optionChars.idxOf (unitOf 'c') + 1)
      if suffix ≠ [] && !suffix.all isAsciiLetter then some ⟨some suffix, 0⟩
      else some ⟨none, countSeparateValueOptionChars token⟩

def combinedSeparateValueOptionCount (token : JsString) : Nat :=
  if token.length < 2 || (token[0]? ≠ some dash && token[0]? ≠ some plus) || token[1]? = some dash ||
      (token.drop 1).contains dash then 0
  else countSeparateValueOptionChars token

def consumesSeparateValue (token : JsString) : Bool := posixShellOptionsWithSeparateValues.contains token

/-- How many words an option takes, itself included. -/
def advancePosixInlineOptionScan (token : JsString) : Nat :=
  let combinedValueCount := combinedSeparateValueOptionCount token
  if 0 < combinedValueCount then 1 + combinedValueCount
  else if consumesSeparateValue token then 2
  else 1

/-! ## The scan -/

structure InlineCommandMatch where
  command : Option JsString
  valueTokenIndex : Option Nat
  deriving DecidableEq

/-- `command ? command : null` of a trimmed command. -/
def nonBlank (command : JsString) : Option JsString := if trimUnits command = [] then none else some (trimUnits command)

/-- What is matched at a token for a command, of the words behind it. -/
def matchCommandToken (i : Nat) (token : JsString) (rest : List JsString) : Option InlineCommandMatch :=
  if posixInlineCommandFlags.contains token then
    some ⟨rest[0]?.bind nonBlank, if rest = [] then none else some (i + 1)⟩
  else
    match parseCombinedCommandFlag token with
    | none => none
    | some ⟨some attached, _⟩ => some ⟨nonBlank attached, some i⟩
    | some ⟨none, count⟩ => some ⟨rest[count]?.bind nonBlank, some (i + 1 + count)⟩

def isOptionToken (token : JsString) : Bool := token[0]? = some dash || token[0]? = some plus

/-- The loop from word `i` on; `skip` words of what is left belong to the last option. -/
def scanInlineCommand : Nat → Nat → List JsString → InlineCommandMatch
  | _, _, [] => ⟨none, none⟩
  | i, skip + 1, _ :: rest => scanInlineCommand (i + 1) skip rest
  | i, 0, word :: rest =>
    let token := trimUnits word
    if token = [] then scanInlineCommand (i + 1) 0 rest
    else if token = units "--" then ⟨none, none⟩
    else
      match matchCommandToken i token rest with
      | some found => found
      | none =>
        if !isOptionToken token then ⟨none, none⟩
        else scanInlineCommand (i + 1) (advancePosixInlineOptionScan token - 1) rest

attribute [grind =] scanInlineCommand

def resolveInlineCommandMatch (argv : List JsString) : InlineCommandMatch := scanInlineCommand 1 0 (argv.drop 1)

end OpenClaw.Infra
