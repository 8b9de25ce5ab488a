/-
# OpenClaw.Data.JsText -- single code units, trimming and line terminators
-/
import OpenClaw.Data.CodeUnits
import OpenClaw.Data.JsPrim

namespace OpenClaw.Data

/-- The code unit of a character of the basic plane. -/
def unitOf (c : Char) : CodeUnit := unitOfNat c.toNat

/-- What `\s` matches and `trim` removes. -/
def isWhiteUnit (unit : CodeUnit) : Bool := isJsWhitespace (Char.ofNat unit.val)

/-- `String.prototype.trim` -/
def trimUnits (text : JsString) : JsString := stripBoth isWhiteUnit text

/-- The units that `.` of a regular expression does not match. -/
def isLineTerminator (unit : CodeUnit) : Bool := unit.val ∈ [0xA, 0xD, 0x2028, 0x2029]

def isAsciiDigit (unit : CodeUnit) : Bool := 0x30 ≤ unit.val && unit.val ≤ 0x39

/-- `[0-9A-Za-z]` -/
def isAsciiAlnum (unit : CodeUnit) : Bool :=
  isAsciiDigit unit || (0x41 ≤ unit.val && unit.val ≤ 0x5A) || (0x61 ≤ unit.val && unit.val ≤ 0x7A)

/-- What is printed in ASCII is no white space. -/
theorem isWhiteUnit_printable {unit : CodeUnit} (hlow : 0x21 ≤ unit.val) (hhigh : unit.val ≤ 0x7E) :
    isWhiteUnit unit = false := by
  have hnat : (Char.ofNat unit.val).toNat = unit.val := by
    apply toNat_charOfNat
    exact Or.inl (by omega)
  simp only [isWhiteUnit, isJsWhitespace, hnat, List.mem_cons, List.not_mem_nil, or_false, Bool.or_eq_false_iff,
    decide_eq_false_iff_not, Bool.and_eq_false_iff]
  omega

end OpenClaw.Data
