/-
# OpenClaw.Infra.ExecAuthorizationRender -- the command that is run for an authorized plan

A plan holds the command text and, for each candidate in it, where its step and its executable stand and what it
resolves to.  `buildAuthorizedShellCommandFromPlan` writes the resolved executables into the text, or whole steps
when a dispatch wrapper is taken off, and leaves everything else as it was typed.

This follows `exec-authorization-render.ts` and `resolvePlannedSegmentArgv` of `exec-approvals-analysis.ts`.  Spans
are pairs of natural numbers, so the checks for integers and for negative starts are not there; the row and column
of a position are read by nothing here.
-/
import OpenClaw.Data.ShellText
import OpenClaw.Data.Splice

namespace OpenClaw.Infra

open OpenClaw.Data

/-! ## Plans -/

structure SourceSpan where
  startIndex : Nat
  endIndex : Nat
  deriving DecidableEq

structure CommandStep where
  text : JsString
  span : SourceSpan
  executableSpan : SourceSpan

structure ExecutableResolution where
  resolvedRealPath : Option JsString
  resolvedPath : Option JsString

structure CommandResolution where
  policyBlocked : Bool
  effectiveArgv : Option (List JsString)
  execution : Option ExecutableResolution
  wrapperChain : Option (List JsString)

structure ExecCommandSegment where
  argv : List JsString
  resolution : Option CommandResolution

inductive ExecAuthorizationTransport where
  | direct
  | shellWrapper
  deriving DecidableEq

structure ExecAuthorizationCandidate where
  sourceSegment : ExecCommandSegment
  sourceStep : CommandStep
  transport : ExecAuthorizationTransport

inductive ExecAuthorizationDialect where
  | argv
  | posixShell
  | windowsCmd
  | powershell
  deriving DecidableEq

inductive ExecAuthorizationPlan where
  | ok (dialect : ExecAuthorizationDialect) (originalCommand : JsString)
      (groups : List (List ExecAuthorizationCandidate))
  | failed (reason : String)

/-- What satisfied a segment, if anything did. -/
inductive SatisfiedBy where
  | allowlist
  | safeBins
  | inlineChain
  | safeBuiltins
  | skills
  deriving DecidableEq

inductive AuthorizedShellRenderMode where
  | safeBins
  | enforced
  deriving DecidableEq

abbrev SourceReplacement := Edit CodeUnit

/-! ## Tokens -/

/-- A letter, a digit or one of `_ @ % + = : , . / -`. -/
def isBareUnit (unit : CodeUnit) : Bool :=
  isAsciiAlnum unit || unit.val ∈ [0x5F, 0x40, 0x25, 0x2B, 0x3D, 0x3A, 0x2C, 0x2E, 0x2F, 0x2D]

/-- A single quote between double quotes, in the middle of single quotes. -/
def singleQuoteEscape : JsString := [singleQuote, doubleQuote, singleQuote, doubleQuote, singleQuote]

def shellEscapeSingleArg (value : JsString) : JsString :=
  [singleQuote] ++ value.flatMap (fun unit => if unit = singleQuote then singleQuoteEscape else [unit]) ++ [singleQuote]

def renderBareShellToken (value : JsString) : JsString :=
  if value ≠ [] && value.all isBareUnit then value else shellEscapeSingleArg value

def renderSourcePreservingArgv (argv : List JsString) : JsString :=
  [unitOf ' '].intercalate (argv.map renderBareShellToken)

/-! ## The quote scanner -/

inductive ScannerQuote where
  | single
  | double
  deriving DecidableEq

structure QuoteScanner where
  quote : Option ScannerQuote
  escaped : Bool
  atWordStart : Bool

/-- `/\s/u` -/
def isWhitePoint : CodePoint → Bool
  | .char c => isJsWhitespace c
  | .lone _ => false

/-- The loop of `hasUnquotedShellExpansionSource`. -/
def scanExpansionSource : QuoteScanner → List CodePoint → Bool
  | _, [] => false
  | scanner, char :: rest =>
    if scanner.escaped then scanExpansionSource { scanner with escaped := false } rest
    else if scanner.quote ≠ some .single && char.isChar '\\' then
      scanExpansionSource { scanner with escaped := true } rest
    else if scanner.quote = some .single then
      scanExpansionSource { scanner with quote := if char.isChar '\x27' then none else some .single } rest
    else if scanner.quote = some .double then
      scanExpansionSource { scanner with quote := if char.isChar '\x22' then none else some .double } rest
    else if char.isChar '\x27' then scanExpansionSource { scanner with quote := some .single } rest
    else if char.isChar '\x22' then scanExpansionSource { scanner with quote := some .double } rest
    else if isWhitePoint char then scanExpansionSource { scanner with atWordStart := true } rest
    else if char.isChar '~' && scanner.atWordStart then true
    else if char.isChar '\x7b' || char.isChar '*' || char.isChar '?' || char.isChar '[' then true
    else scanExpansionSource { scanner with atWordStart := false } rest

attribute [grind =] scanExpansionSource

def hasUnquotedShellExpansionSource (value : JsString) : Bool :=
  scanExpansionSource ⟨none, false, true⟩ (codePoints value)

/-- The text of a step behind its executable. -/
def argumentSource (candidate : ExecAuthorizationCandidate) : JsString :=
  candidate.sourceStep.text.drop
    (candidate.sourceStep.executableSpan.endIndex - candidate.sourceStep.span.startIndex)

def hasArgumentShellExpansionSource (candidate : ExecAuthorizationCandidate) : Bool :=
  hasUnquotedShellExpansionSource (argumentSource candidate)

/-! ## Replacements -/

def resolvePlannedSegmentArgv (segment : ExecCommandSegment) : Option (List JsString) :=
  if segment.resolution.any (·.policyBlocked) then none
  else
    let effective := (segment.resolution.bind (·.effectiveArgv)).getD []
    let baseArgv := if effective ≠ [] then effective else segment.argv
    let execution := segment.resolution.bind (·.execution)
    let realPath := (execution.bind (·.resolvedRealPath)).map trimUnits
    let resolvedExecutable := (realPath.orElse fun _ => (execution.bind (·.resolvedPath)).map trimUnits).getD []
    match baseArgv with
    | [] => none
    | first :: rest => some ((if resolvedExecutable ≠ [] then resolvedExecutable else first) :: rest)

/-- The text at the span must be the expected one. -/
def validateSpan (command : JsString) (span : SourceSpan) (expectedText : JsString) : Except String Unit :=
  if command.length < span.endIndex || span.endIndex ≤ span.startIndex then .error "invalid source span"
  else if (command.drop span.startIndex).take (span.endIndex - span.startIndex) ≠ expectedText then
    .error "source span mismatch"
  else .ok ()

def sourceStepSlice (step : CommandStep) (span : SourceSpan) : JsString :=
  let relativeStart := span.startIndex - step.span.startIndex
  let relativeEnd := max relativeStart (span.endIndex - step.span.startIndex)
  (step.text.drop relativeStart).take (relativeEnd - relativeStart)

def shouldRewriteCandidate (mode : AuthorizedShellRenderMode) (satisfiedBy : Option SatisfiedBy) : Bool :=
  mode = .enforced || satisfiedBy = some .safeBins || satisfiedBy = some .inlineChain

def hasDispatchWrapper (segment : ExecCommandSegment) : Bool :=
  0 < ((segment.resolution.bind (·.wrapperChain)).getD []).length

/-- `none` is a candidate that is left as it is. -/
def replacementForCandidate (command : JsString) (candidate : ExecAuthorizationCandidate)
    (mode : AuthorizedShellRenderMode) (satisfiedBy : Option SatisfiedBy) : Except String (Option SourceReplacement) :=
  if !shouldRewriteCandidate mode satisfiedBy then .ok none
  else
    match resolvePlannedSegmentArgv candidate.sourceSegment with
    | none => .error "segment execution plan unavailable"
    | some plannedArgv =>
      if satisfiedBy = some .safeBins && hasArgumentShellExpansionSource candidate then
        .error "shell expansion in safe-bin arguments"
      else if mode = .enforced && hasArgumentShellExpansionSource candidate then
        .error "shell expansion in enforced arguments"
      else if mode = .enforced && candidate.transport = .shellWrapper then
        .error "shell quoting required in wrapper payload"
      else if hasDispatchWrapper candidate.sourceSegment then do
        validateSpan command candidate.sourceStep.span candidate.sourceStep.text
        .ok (some ⟨candidate.sourceStep.span.startIndex, candidate.sourceStep.span.endIndex,
          renderSourcePreservingArgv plannedArgv⟩)
      else
        let executable := plannedArgv.headD []
        if executable = [] then .error "segment execution plan unavailable"
        else
          let renderedExecutable := renderBareShellToken executable
          if satisfiedBy = some .safeBins && candidate.transport = .shellWrapper &&
              renderedExecutable ≠ executable then
            .error "shell quoting required in wrapper payload"
          else do
            validateSpan command candidate.sourceStep.executableSpan
              (sourceStepSlice candidate.sourceStep candidate.sourceStep.executableSpan)
            .ok (some ⟨candidate.sourceStep.executableSpan.startIndex, candidate.sourceStep.executableSpan.endIndex,
              renderedExecutable⟩)

/-- The first failure ends the loop. -/
def collectCandidateReplacements (command : JsString) (mode : AuthorizedShellRenderMode) :
    List (ExecAuthorizationCandidate × Option SatisfiedBy) → Except String (List SourceReplacement)
  | [] => .ok []
  | (candidate, satisfiedBy) :: rest => do
    let replacement ← replacementForCandidate command candidate mode satisfiedBy
    let replacements ← collectCandidateReplacements command mode rest
    .ok (replacement.toList ++ replacements)

def applyReplacements (command : JsString) (replacements : List SourceReplacement) : Except String JsString :=
  let sorted := replacements.mergeSort fun left right => left.start ≤ right.start
  if !inOrder 0 sorted then .error "overlapping replacement ranges" else .ok (applyEdits command sorted)

def buildAuthorizedShellCommandFromPlan (plan : ExecAuthorizationPlan) (mode : AuthorizedShellRenderMode)
    (segmentSatisfiedBy : List (Option SatisfiedBy)) : Except String JsString :=
  match plan with
  | .failed reason => .error reason
  | .ok dialect originalCommand groups =>
    if dialect ≠ .posixShell then .error "unsupported command dialect"
    else
      let candidates := groups.flatten
      if segmentSatisfiedBy.length ≠ candidates.length then .error "segment metadata mismatch"
      else do
        let replacements ← collectCandidateReplacements originalCommand mode (candidates.zip segmentSatisfiedBy)
        applyReplacements originalCommand replacements

end OpenClaw.Infra
