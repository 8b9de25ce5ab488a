/-
# OpenClaw.Infra.SafeBinValidator -- which arguments a safe bin may be run with

`validateSafeBinArgv` reads the arguments of a safe bin as its profile describes its options, and accepts them if
all flags are allowed, all values and operands are harmless literals, and there are not too many operands.

This follows `exec-safe-bin-policy-validator.ts`, `exec-safe-bin-semantics.ts` and `parseExecArgvToken` of
`exec-command-resolution.ts`.  The functions that take one option say how many words it has, itself included.
-/
import OpenClaw.Infra.CommandCarriers
import OpenClaw.Infra.SafeBinProfiles

namespace OpenClaw.Infra

open OpenClaw.Data

/-! ## Literals -/

/-- `/^[A-Za-z]:[\\/]/` -/
def beginsWithDrive (value : JsString) : Bool :=
  hasDriveRoot value && (value[2]? = some (unitOf '/') || value[2]? = some (unitOf '\\'))

def isPathLikeToken (value : JsString) : Bool :=
  let trimmed := trimUnits value
  if trimmed = [] then false
  else if trimmed = [dash] then false
  else if (units "./").isPrefixOf trimmed || (units "../").isPrefixOf trimmed ||
      (units "~").isPrefixOf trimmed then true
  else if (units "/").isPrefixOf trimmed then true
  else beginsWithDrive trimmed

/-- `/[*?[\]]/` -/
def hasGlobToken (value : JsString) : Bool := value.any fun unit => unit.val ∈ [0x2A, 0x3F, 0x5B, 0x5D]

/-- `[A-Za-z0-9_@*?!$#-]`, or an opening brace, parenthesis or bracket. -/
def beginsExpansion (unit : CodeUnit) : Bool :=
  isNameUnit unit || unit.val ∈ [0x40, 0x2A, 0x3F, 0x21, 0x24, 0x23, 0x2D, 0x7B, 0x28, 0x5B]

def hasShellExpansionToken : JsString → Bool
  | [] => false
  | unit :: rest => (unit = unitOf '$' && rest.head?.any beginsExpansion) || hasShellExpansionToken rest

def isSafeLiteralToken (value : JsString) : Bool :=
  if value = [] || value = [dash] then true
  else !hasGlobToken value && !hasShellExpansionToken value && !isPathLikeToken value

def isInvalidValueToken : Option JsString → Bool
  | none => true
  | some value => value = [] || !isSafeLiteralToken value

/-! ## Tokens -/

inductive ExecArgvToken where
  | empty
  | terminator
  | stdin
  | positional (raw : JsString)
  | long (flag : JsString) (inlineValue : Option JsString)
  | shortCluster (cluster : JsString)
  deriving DecidableEq

def parseExecArgvToken (raw : JsString) : ExecArgvToken :=
  if raw = [] then .empty
  else if raw = units "--" then .terminator
  else if raw = [dash] then .stdin
  else if raw[0]? ≠ some dash then .positional raw
  else if (units "--").isPrefixOf raw then
    .long (parseInlineOptionToken raw).name (parseInlineOptionToken raw).inlineValue
  else .shortCluster (raw.drop 1)

/-- What a token says of its word. -/
def ExecArgvToken.Reads (raw : JsString) : ExecArgvToken → Prop
  | .empty => raw = []
  | .terminator => raw = units "--"
  | .stdin => raw = [dash]
  | .positional word => word = raw ∧ raw ≠ [] ∧ raw ≠ units "--" ∧ raw ≠ [dash] ∧ raw[0]? ≠ some dash
  | .long flag inlineValue =>
    (raw ≠ units "--" ∧ raw ≠ [dash] ∧ raw[0]? = some dash) ∧ (units "--").isPrefixOf raw = true ∧
      flag = (parseInlineOptionToken raw).name ∧ inlineValue = (parseInlineOptionToken raw).inlineValue
  | .shortCluster cluster =>
    (raw ≠ units "--" ∧ raw ≠ [dash] ∧ raw[0]? = some dash) ∧ (units "--").isPrefixOf raw = false ∧
      cluster = raw.drop 1

theorem parseExecArgvToken_reads (raw : JsString) : (parseExecArgvToken raw).Reads raw := by
  unfold parseExecArgvToken
  split
  case isTrue hnil => exact hnil
  case isFalse hnil =>
    split
    case isTrue hterminator => exact hterminator
    case isFalse hterminator =>
      split
      case isTrue hstdin => exact hstdin
      case isFalse hstdin =>
        split
        case isTrue hoperand => exact ⟨rfl, hnil, hterminator, hstdin, hoperand⟩
        case isFalse hdash =>
          rw [not_not] at hdash
          split
          case isTrue hlong => exact ⟨⟨hterminator, hstdin, hdash⟩, hlong, rfl, rfl⟩
          case isFalse hshort => exact ⟨⟨hterminator, hstdin, hdash⟩, Bool.eq_false_iff.mpr hshort, rfl⟩

/-! ## Options -/

section Profile

variable (profile : SafeBinProfile)

def resolveCanonicalLongFlag (flag : JsString) : Option JsString :=
  if !isLongFlag flag || flag.length ≤ 2 then none
  else if profile.knownLongFlags.contains flag then some flag
  else (profile.longFlagPrefixMap.lookup flag).join

/-- `rest` are the words behind the token. -/
def consumeLongOptionToken (flag : JsString) (inlineValue : Option JsString) (rest : List JsString) : Option Nat :=
  match resolveCanonicalLongFlag profile flag with
  | none => none
  | some canonicalFlag =>
    if profile.deniedFlags.contains canonicalFlag then none
    else
      let expectsValue := profile.allowedValueFlags.contains canonicalFlag
      match inlineValue with
      | some value => if !expectsValue then none else if isSafeLiteralToken value then some 1 else none
      | none =>
        if !expectsValue then some 1 else if isInvalidValueToken rest.head? then none else some 2

/-- The loop over the letters of a cluster. -/
def consumeShortOptionClusterToken (rest : List JsString) : JsString → Option Nat
  | [] => some 1
  | letter :: letters =>
    let flag := [dash, letter]
    if profile.deniedFlags.contains flag then none
    else if profile.allowedValueFlags.contains flag then
      if letters ≠ [] then if isSafeLiteralToken letters then some 1 else none
      else if isInvalidValueToken rest.head? then none
      else some 2
    else if profile.allowedBooleanFlags.contains flag then consumeShortOptionClusterToken rest letters
    else none

/-- Behind the terminator; what is empty or a single dash is no positional. -/
def collectRest (positional : List JsString) : List JsString → Option (List JsString)
  | [] => some positional
  | word :: rest =>
    if word = [] || word = [dash] then collectRest positional rest
    else if isSafeLiteralToken word then collectRest (positional ++ [word]) rest
    else none

/-- The loop over the words; the first `skip` of them belong to the last option. -/
def collectFrom : Nat → List JsString → List JsString → Option (List JsString)
  | _, positional, [] => some positional
  | skip + 1, positional, _ :: rest => collectFrom skip positional rest
  | 0, positional, rawToken :: rest =>
    match parseExecArgvToken rawToken with
    | .empty => collectFrom 0 positional rest
    | .stdin => collectFrom 0 positional rest
    | .terminator => collectRest positional rest
    | .positional raw => if isSafeLiteralToken raw then collectFrom 0 (positional ++ [raw]) rest else none
    | .long flag inlineValue =>
      match consumeLongOptionToken profile flag inlineValue rest with
      | none => none
      | some words => collectFrom (words - 1) positional rest
    | .shortCluster cluster =>
      match consumeShortOptionClusterToken profile rest cluster with
      | none => none
      | some words => collectFrom (words - 1) positional rest

attribute [grind =] collectFrom

def collectPositionalTokens (args : List JsString) : Option (List JsString) := collectFrom profile 0 [] args

def validatePositionalCount (positional : List JsString) : Bool :=
  if positional.length < profile.minPositional.getD 0 then false
  else !profile.maxPositional.any fun maxPositional => maxPositional < positional.length

end Profile

/-! ## Semantics -/

section Semantics

variable (host : PathHost)

/-- The bins whose rule refuses every argv. -/
def alwaysDeniedBins : List JsString :=
  [units "jq", units "awk", units "gawk", units "mawk", units "nawk", units "sed", units "gsed"]

/-- ASCII upper case as lower case. -/
def asciiLower (unit : CodeUnit) : CodeUnit :=
  if 0x41 ≤ unit.val && unit.val ≤ 0x5A then unitOfNat (unit.val + 0x20) else unit

/-- `replace(/\.(?:exe|cmd|bat|com)$/i, "")` -/
def stripBinSuffix (value : JsString) : JsString :=
  if windowsExecutableSuffixes.contains ((value.drop (value.length - 4)).map asciiLower) then
    value.take (value.length - 4)
  else value

def normalizeSafeBinName (raw : JsString) : JsString :=
  let trimmed := normalizeLowercaseStringOrEmpty host raw
  stripBinSuffix (trimmed.rtakeWhile fun unit => !(unit = unitOf '\\' || unit = unitOf '/'))

def validateSafeBinSemantics (binName : Option JsString) : Bool :=
  !(binName.map (normalizeSafeBinName host)).any alwaysDeniedBins.contains

def validateSafeBinArgv (args : List JsString) (profile : SafeBinProfile) (binName : Option JsString) : Bool :=
  match collectPositionalTokens profile args with
  | none => false
  | some positional => validatePositionalCount profile positional && validateSafeBinSemantics host binName

end Semantics

end OpenClaw.Infra
