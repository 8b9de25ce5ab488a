/-
# OpenClaw.Data.JsNumeral -- texts, decimal numerals and the numbers they name

A text that is taken apart character by character is a list of characters, `Text`.  `Number(digits)`
rounds to the nearest double; an integer keeps its value up to `2 ^ 53`.
-/
import Mathlib.Algebra.Ring.Nat
import Mathlib.Data.List.Infix
import Mathlib.Data.Nat.Log
import OpenClaw.Data.JsStrings

namespace OpenClaw.Data

/-- A text as the list of its characters. -/
abbrev Text := List Char

/-- `text.includes(part)` -/
def Text.includes (text part : Text) : Bool := part <:+: text

/-- `text.length` -/
def Text.jsLength (text : Text) : Nat := (text.flatMap codeUnits).length

/-! ## Numerals -/

/-- The number a run of decimal digits names. -/
def digitsValue (digits : Text) : Nat := digits.foldl (fun n c => 10 * n + (c.toNat - '0'.toNat)) 0

/-- `/^\d+$/` -/
def isDigits (text : Text) : Bool := text ≠ [] && text.all isDigit

/-- `n / 2 ^ k`, to the nearest integer and to the even one of two. -/
def divRoundEven (n d : Nat) : Nat :=
  let q := n / d
  let r := n % d
  if 2 * r < d then q else if d < 2 * r then q + 1 else if q % 2 = 0 then q else q + 1

/-- `2 ^ 1024`, the first power of two that is no double. -/
def maxDouble : Nat := (2 ^ 256) ^ 4

/-- The double nearest to `n`; `none` is infinity. -/
def doubleOfNat (n : Nat) : Option Nat :=
  let ulp := 2 ^ (Nat.log 2 n - 52)
  let rounded := divRoundEven n ulp * ulp
  if rounded < maxDouble then some rounded else none

/-- `Number(digits)` for a run of decimal digits. -/
def numberOfDigits (digits : Text) : Option Nat := doubleOfNat (digitsValue digits)

/-- `String(n)` for an integer that prints without an exponent. -/
def decimalText (n : Nat) : Text := Nat.toDigits 10 n

end OpenClaw.Data
