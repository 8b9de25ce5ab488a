/-
# OpenClaw.Infra.ExecAllowlistPattern -- allowlist globs as regular expressions

`matchesExecAllowlistPattern` compiles the glob of an allowlist entry character by character into a regular
expression and tests the path of an executable.  The model is the function on Linux; the cache of compiled
expressions only saves work and is left out.

This follows `exec-allowlist-pattern.ts` and `expandHomePrefix` of `home-dir.ts`.
-/
import OpenClaw.Data.PosixPath
import OpenClaw.Infra.ExecArgPatterns

namespace OpenClaw.Infra

open OpenClaw.Data

def backslash : CodeUnit := unitOf '\\'

def star : CodeUnit := unitOf '*'

def tilde : CodeUnit := unitOf '~'

/-! ## The home prefix -/

/-- The template of a replacement, for a match without groups: `$$`, `$&`, and the text on both sides. -/
def getSubstitution (matched before after : JsString) : JsString → JsString
  | [] => []
  | [unit] => [unit]
  | unit :: next :: rest =>
    if unit = unitOf '$' then
      if next = unitOf '$' then unitOf '$' :: getSubstitution matched before after rest
      else if next = unitOf '&' then matched ++ getSubstitution matched before after rest
      else if next = unitOfNat 0x60 then before ++ getSubstitution matched before after rest
      else if next = unitOfNat 0x27 then after ++ getSubstitution matched before after rest
      else unit :: getSubstitution matched before after (next :: rest)
    else unit :: getSubstitution matched before after (next :: rest)

attribute [grind =] getSubstitution

/-- `home` is the effective home, if there is one. -/
def expandHomePrefix (home : Option JsString) (input : JsString) : JsString :=
  if input.head? ≠ some tilde then input
  else
    match home with
    | none => input
    | some home =>
      let after := input.drop 1
      -- `/^~(?=$|[\\/])/`
      if after = [] || after.head? = some backslash || after.head? = some slash then
        getSubstitution [tilde] [] after home ++ after
      else input

/-! ## Normalization -/

/-- `value.replace(/\\\\/g, "/")`: two backslashes are one slash. -/
def normalizeMatchTarget : JsString → JsString
  | [] => []
  | [unit] => [unit]
  | unit :: next :: rest =>
    if unit = backslash && next = backslash then slash :: normalizeMatchTarget rest
    else unit :: normalizeMatchTarget (next :: rest)

/-- Backslashes count as slashes here. -/
def hasDotPathSegment (value : JsString) : Bool :=
  hasDotSegment (value.map fun unit => if unit = backslash then slash else unit)

def normalizeDotPathSegments (value : JsString) : JsString := normalizeMatchTarget (posixNormalize value)

/-! ## The glob -/

/-- A character of the glob, but for the two stars of `**`. -/
def globUnit (ch : CodeUnit) : JsString :=
  if ch = star then units "[^/]*" else if ch = unitOf '?' then units "[^/]" else escapeRegExpLiteral [ch]

def globBody : JsString → JsString
  | [] => []
  | [ch] => globUnit ch
  | ch :: next :: rest =>
    if ch = star && next = star then units ".*" ++ globBody rest else globUnit ch ++ globBody (next :: rest)

def compileGlobRegex (pattern : JsString) : JsString := unitOf '^' :: (globBody pattern ++ [unitOf '$'])

/-- `/[*?]/.test(expanded)` -/
def hasWildcard (expanded : JsString) : Bool := expanded.any fun unit => unit = star || unit = unitOf '?'

def expandPattern (home : Option JsString) (pattern : JsString) : JsString :=
  let trimmed := trimUnits pattern
  if trimmed.head? = some tilde then expandHomePrefix home trimmed else trimmed

/-- The result; an expression that the engine does not compile throws. -/
def matchesExecAllowlistPattern (engine : RegExpEngine) (home : Option JsString) (pattern target : JsString) :
    Option Bool :=
  if trimUnits pattern = [] then some false
  else
    let expanded := expandPattern home pattern
    let normalizedPattern := normalizeMatchTarget expanded
    let normalizedTarget := normalizeMatchTarget target
    let normalizedTarget :=
      if hasWildcard expanded && hasDotPathSegment normalizedTarget then normalizeDotPathSegments normalizedTarget
      else normalizedTarget
    engine.test (compileGlobRegex normalizedPattern) normalizedTarget

end OpenClaw.Infra
