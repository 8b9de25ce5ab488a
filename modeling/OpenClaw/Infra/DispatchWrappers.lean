/-
# OpenClaw.Infra.DispatchWrappers -- commands that run another command

Each dispatch wrapper has a scanner for its own options that finds where the wrapped command begins.  Some of them
are only known by name and always block.  `resolveDispatchWrapperTrustPlan` takes wrappers off as long as their use
is transparent, and blocks when there are more of them than it may take.

This follows `dispatch-wrapper-resolution.ts`.
-/
import OpenClaw.Infra.CommandCarriers

namespace OpenClaw.Infra

open OpenClaw.Data

variable (host : PathHost)

inductive Platform where
  | aix
  | android
  | cygwin
  | darwin
  | freebsd
  | haiku
  | linux
  | netbsd
  | openbsd
  | sunos
  | win32
  deriving DecidableEq

def maxDispatchWrapperDepth : Nat := 4

/-! ## Options -/

def niceOptionsWithValue : List JsString := [units "-n", units "--adjustment", units "--priority"]

def caffeinateFlagOptions : List JsString := [units "-d", units "-i", units "-m", units "-s", units "-u"]

def caffeinateOptionsWithValue : List JsString := [units "-t", units "-w"]

def stdbufOptionsWithValue : List JsString :=
  [units "-i", units "--input", units "-o", units "--output", units "-e", units "--error"]

def flockShortFlagOptions : List JsString := [units "-e", units "-F", units "-n", units "-o", units "-s", units "-x"]

def flockLongFlagOptions : List JsString :=
  [units "--close", units "--exclusive", units "--nb", units "--no-fork", units "--nonblock", units "--shared",
    units "--verbose"]

def flockShortOptionsWithValue : List JsString := [units "-E", units "-w"]

def flockLongOptionsWithValue : List JsString := [units "--conflict-exit-code", units "--timeout", units "--wait"]

def timeFlagOptions : List JsString :=
  [units "-a", units "--append", units "-h", units "--help", units "-l", units "-p", units "-q", units "--quiet",
    units "-v", units "--verbose", units "-V", units "--version"]

def timeOptionsWithValue : List JsString := [units "-f", units "--format", units "-o", units "--output"]

def bsdScriptFlagOptions : List JsString := [units "-a", units "-d", units "-k", units "-p", units "-q", units "-r"]

def bsdScriptOptionsWithValue : List JsString := [units "-F", units "-t"]

def sandboxExecOptionsWithValue : List JsString := [units "-f", units "-p", units "-d"]

def timeoutFlagOptions : List JsString :=
  [units "--foreground", units "--preserve-status", units "-v", units "--verbose"]

def timeoutOptionsWithValue : List JsString := [units "-k", units "--kill-after", units "-s", units "--signal"]

def xcrunFlagOptions : List JsString :=
  [units "-k", units "--kill-cache", units "-l", units "--log", units "-n", units "--no-cache", units "-r",
    units "--run", units "-v", units "--verbose"]

/-- `/^-[A-Za-z0-9_]+$/` -/
def isArchSelectorToken (token : JsString) : Bool :=
  token[0]? = some dash && token.drop 1 ≠ [] && (token.drop 1).all isNameUnit

def knownArchSelectorTokens : List JsString :=
  [units "-arm64", units "-arm64e", units "-i386", units "-x86_64", units "-x86_64h"]

def isKnownArchSelectorToken (token : JsString) : Bool := knownArchSelectorTokens.contains token

def isKnownArchNameToken (token : JsString) : Bool := isKnownArchSelectorToken (dash :: token)

/-! ## The scan -/

inductive WrapperScanDirective where
  | goOn
  | consumeNext
  | stop
  | invalid
  deriving DecidableEq

/-- No option: it does not begin with a dash, or is nothing else. -/
def isWrapperOperand (token : JsString) : Bool := token[0]? ≠ some dash || token = [dash]

/-- The loop over the words, from an index on, to the index behind the options.  `onToken` reads a token and its
lower case, and may keep a flag of its own. -/
def scanWrapperFrom (separators : List JsString) (onToken : Bool → JsString → JsString → Bool × WrapperScanDirective) :
    Bool → Nat → Bool → List JsString → Option Nat
  | _, idx, expectsOptionValue, [] => if expectsOptionValue then none else some idx
  | flag, idx, expectsOptionValue, word :: rest =>
    let token := trimUnits word
    if token = [] then scanWrapperFrom separators onToken flag (idx + 1) expectsOptionValue rest
    else if expectsOptionValue then scanWrapperFrom separators onToken flag (idx + 1) false rest
    else if separators.contains token then some (idx + 1)
    else
      match onToken flag token (normalizeLowercaseStringOrEmpty host token) with
      | (_, .stop) => some idx
      | (_, .invalid) => none
      | (flag, .consumeNext) => scanWrapperFrom separators onToken flag (idx + 1) true rest
      | (flag, .goOn) => scanWrapperFrom separators onToken flag (idx + 1) false rest

attribute [grind =] scanWrapperFrom

def scanWrapperInvocation (argv : List JsString) (separators : List JsString)
    (onToken : Bool → JsString → JsString → Bool × WrapperScanDirective)
    (adjustCommandIndex : Nat → List JsString → Option Nat) : Option (List JsString) :=
  ((scanWrapperFrom host separators onToken false 1 false (argv.drop 1)).bind fun idx =>
    adjustCommandIndex idx argv).bind fun commandIndex =>
      if argv.length ≤ commandIndex then none else some (argv.drop commandIndex)

/-- Without an adjustment the command begins behind the options. -/
def commandAtIndex (commandIndex : Nat) (_ : List JsString) : Option Nat := some commandIndex

/-- A scanner that keeps no flag. -/
def stateless (onToken : JsString → JsString → WrapperScanDirective) (flag : Bool) (token lower : JsString) :
    Bool × WrapperScanDirective := (flag, onToken token lower)

def unwrapDashOptionInvocation (argv : List JsString) (onFlag : JsString → JsString → WrapperScanDirective)
    (adjustCommandIndex : Nat → List JsString → Option Nat) : Option (List JsString) :=
  scanWrapperInvocation host argv [units "--"]
    (stateless fun token lower =>
      if isWrapperOperand token then .stop else onFlag (parseInlineOptionToken lower).name lower)
    adjustCommandIndex

/-! ## The wrappers -/

/-- `/^-\d+$/` -/
def isNumericFlag (lower : JsString) : Bool :=
  lower[0]? = some dash && lower.drop 1 ≠ [] && (lower.drop 1).all isAsciiDigit

def unwrapNiceInvocation (argv : List JsString) : Option (List JsString) :=
  unwrapDashOptionInvocation host argv (fun flag lower =>
    if isNumericFlag lower then .goOn
    else if niceOptionsWithValue.contains flag then
      if lower.contains equalsSign || lower ≠ flag then .goOn else .consumeNext
    else if (units "-n").isPrefixOf lower && 2 < lower.length then .goOn
    else .invalid) commandAtIndex

def unwrapCaffeinateInvocation (argv : List JsString) : Option (List JsString) :=
  unwrapDashOptionInvocation host argv (fun flag lower =>
    if caffeinateFlagOptions.contains flag then .goOn
    else if caffeinateOptionsWithValue.contains flag then
      if lower ≠ flag || lower.contains equalsSign then .goOn else .consumeNext
    else .invalid) commandAtIndex

def unwrapNohupInvocation (argv : List JsString) : Option (List JsString) :=
  scanWrapperInvocation host argv [units "--"]
    (stateless fun token lower =>
      if isWrapperOperand token then .stop
      else if lower = units "--help" || lower = units "--version" then .goOn
      else .invalid) commandAtIndex

def unwrapSandboxExecInvocation (argv : List JsString) : Option (List JsString) :=
  unwrapDashOptionInvocation host argv (fun flag lower =>
    if sandboxExecOptionsWithValue.contains flag then
      if lower ≠ flag || lower.contains equalsSign then .goOn else .consumeNext
    else .invalid) commandAtIndex

def unwrapStdbufInvocation (argv : List JsString) : Option (List JsString) :=
  unwrapDashOptionInvocation host argv (fun flag lower =>
    if !stdbufOptionsWithValue.contains flag then .invalid
    else if lower.contains equalsSign then .goOn
    else .consumeNext) commandAtIndex

/-- Flags, and options whose value follows unless it is in the token. -/
def flagOrValueOption (flags optionsWithValue : List JsString) (flag lower : JsString) : WrapperScanDirective :=
  if flags.contains flag then .goOn
  else if optionsWithValue.contains flag then if lower.contains equalsSign then .goOn else .consumeNext
  else .invalid

def unwrapTimeInvocation (argv : List JsString) : Option (List JsString) :=
  unwrapDashOptionInvocation host argv (flagOrValueOption timeFlagOptions timeOptionsWithValue) commandAtIndex

/-- `/^-[eFnsxo]+$/` -/
def isFlockShortFlagCluster (token : JsString) : Bool :=
  token[0]? = some dash && token.drop 1 ≠ [] && (token.drop 1).all fun unit => (units "eFnsxo").contains unit

/-- The first word that is no option is the lock, and the command is the word behind it. -/
def flockCommandIndex (commandIndex : Nat) (argv : List JsString) : Option Nat :=
  let wrappedCommand := trimUnits (argv[commandIndex + 1]?.getD [])
  if wrappedCommand ≠ [] && isWrapperOperand wrappedCommand then some (commandIndex + 1) else none

def unwrapFlockInvocation (argv : List JsString) : Option (List JsString) :=
  scanWrapperInvocation host argv [units "--"]
    (stateless fun token lower =>
      if isWrapperOperand token then .stop
      else
        let parsedToken := parseInlineOptionToken token
        let lowerFlag := (parseInlineOptionToken lower).name
        if flockLongFlagOptions.contains lowerFlag then .goOn
        else if flockLongOptionsWithValue.contains lowerFlag then
          if parsedToken.inlineValue.isSome then .goOn else .consumeNext
        else if isFlockShortFlagCluster token then .goOn
        else if flockShortFlagOptions.contains parsedToken.name then .goOn
        else if flockShortOptionsWithValue.contains parsedToken.name then
          if parsedToken.inlineValue.isSome || token ≠ parsedToken.name then .goOn else .consumeNext
        else .invalid) flockCommandIndex

/-- The loop of `timeInvocationWritesOutputFile`. -/
def timeWritesFrom : Bool → List JsString → Bool
  | _, [] => false
  | expectsOptionValue, word :: rest =>
    let token := trimUnits word
    if token = [] then timeWritesFrom expectsOptionValue rest
    else if expectsOptionValue then timeWritesFrom false rest
    else if token = units "--" then false
    else if isWrapperOperand token then false
    else
      let lower := normalizeLowercaseStringOrEmpty host token
      let flag := (parseInlineOptionToken lower).name
      if flag = units "-o" || flag = units "--output" then true
      else timeWritesFrom (timeOptionsWithValue.contains flag && !lower.contains equalsSign) rest

attribute [grind =] timeWritesFrom

def timeInvocationWritesOutputFile (argv : List JsString) : Bool := timeWritesFrom host false (argv.drop 1)

def supportsScriptPositionalCommand (platform : Platform) : Bool := platform = .darwin || platform = .freebsd

/-- The first word that is not blank is the transcript; the index of the second one. -/
def scriptCommandIndex (commandIndex : Nat) (argv : List JsString) : Option Nat :=
  (((argv.zipIdx).drop commandIndex).filter fun (word, _) => trimUnits word ≠ [])[1]?.map Prod.snd

def unwrapScriptInvocation (argv : List JsString) (platform : Platform) : Option (List JsString) :=
  if !supportsScriptPositionalCommand platform then none
  else
    scanWrapperInvocation host argv [units "--"]
      (stateless fun token lower =>
        if isWrapperOperand lower then .stop
        else
          let flag := (parseInlineOptionToken token).name
          if bsdScriptOptionsWithValue.contains flag then
            if token.contains equalsSign then .goOn else .consumeNext
          else if bsdScriptFlagOptions.contains flag then .goOn
          else .invalid) scriptCommandIndex

/-- The first word that is no option is the duration. -/
def timeoutCommandIndex (commandIndex : Nat) (argv : List JsString) : Option Nat :=
  if commandIndex + 1 < argv.length then some (commandIndex + 1) else none

def unwrapTimeoutInvocation (argv : List JsString) : Option (List JsString) :=
  unwrapDashOptionInvocation host argv (flagOrValueOption timeoutFlagOptions timeoutOptionsWithValue)
    timeoutCommandIndex

/-- The flag is `expectsArchName`. -/
def unwrapArchInvocation (argv : List JsString) : Option (List JsString) :=
  scanWrapperInvocation host argv []
    (fun expectsArchName token lower =>
      if expectsArchName then (false, if isKnownArchNameToken lower then .goOn else .invalid)
      else if isWrapperOperand token then (false, .stop)
      else if lower = units "-32" || lower = units "-64" then (false, .goOn)
      else if lower = units "-arch" then (true, .goOn)
      else if lower = units "-c" || lower = units "-d" || lower = units "-e" || lower = units "-h" then
        (false, .invalid)
      else (false, if isArchSelectorToken token && isKnownArchSelectorToken lower then .goOn else .invalid))
    commandAtIndex

def supportsArchDispatchWrapper (platform : Platform) : Bool := platform = .darwin

def supportsXcrunDispatchWrapper (platform : Platform) : Bool := platform = .darwin

def unwrapXcrunInvocation (argv : List JsString) : Option (List JsString) :=
  scanWrapperInvocation host argv []
    (stateless fun token lower =>
      if isWrapperOperand token then .stop
      else if xcrunFlagOptions.contains lower then .goOn
      else .invalid) commandAtIndex

/-! ## The specifications -/

structure DispatchWrapperSpec where
  name : JsString
  unwrap : Option (List JsString → Platform → Option (List JsString))
  transparentUsage : List JsString → Platform → Bool

/-- A wrapper that is only known by name. -/
def blockedSpec (name : JsString) : DispatchWrapperSpec := ⟨name, none, fun _ _ => false⟩

/-- A wrapper that changes nothing of the command. -/
def transparentSpec (name : JsString) (unwrap : List JsString → Option (List JsString)) : DispatchWrapperSpec :=
  ⟨name, some fun argv _ => unwrap argv, fun _ _ => true⟩

def dispatchWrapperSpecs : List DispatchWrapperSpec :=
  [⟨units "arch",
      some fun argv platform => if supportsArchDispatchWrapper platform then unwrapArchInvocation host argv else none,
      fun _ platform => supportsArchDispatchWrapper platform⟩,
    transparentSpec (units "caffeinate") (unwrapCaffeinateInvocation host),
    blockedSpec (units "chrt"),
    blockedSpec (units "doas"),
    ⟨units "env", some fun argv _ => unwrapEnvInvocation host argv,
      fun argv _ => !envInvocationUsesModifiers host argv⟩,
    transparentSpec (units "flock") (unwrapFlockInvocation host),
    blockedSpec (units "ionice"),
    transparentSpec (units "nice") (unwrapNiceInvocation host),
    transparentSpec (units "nohup") (unwrapNohupInvocation host),
    transparentSpec (units "sandbox-exec") (unwrapSandboxExecInvocation host),
    ⟨units "script", some (unwrapScriptInvocation host), fun _ _ => false⟩,
    blockedSpec (units "setsid"),
    transparentSpec (units "stdbuf") (unwrapStdbufInvocation host),
    blockedSpec (units "sudo"),
    blockedSpec (units "taskset"),
    ⟨units "time", some fun argv _ => unwrapTimeInvocation host argv,
      fun argv _ => !timeInvocationWritesOutputFile host argv⟩,
    transparentSpec (units "timeout") (unwrapTimeoutInvocation host),
    ⟨units "xcrun",
      some fun argv platform => if supportsXcrunDispatchWrapper platform then unwrapXcrunInvocation host argv else none,
      fun _ platform => supportsXcrunDispatchWrapper platform⟩]

def dispatchWrapperSpec (name : JsString) : Option DispatchWrapperSpec :=
  (dispatchWrapperSpecs host).find? fun spec => spec.name = name

inductive WrapperUnwrapResult where
  | notWrapper
  | blocked (wrapper : JsString)
  | unwrapped (wrapper : JsString) (argv : List JsString)
  deriving DecidableEq

/-- The trimmed first word. -/
def firstToken (argv : List JsString) : JsString := trimUnits (argv.headD [])

def unwrapDispatchWrapper (wrapper : JsString) : Option (List JsString) → WrapperUnwrapResult
  | some unwrapped => .unwrapped wrapper unwrapped
  | none => .blocked wrapper

def unwrapKnownDispatchWrapperInvocation (argv : List JsString) (platform : Platform) : WrapperUnwrapResult :=
  if firstToken argv = [] then .notWrapper
  else
    let wrapper := normalizeExecutableToken host (firstToken argv)
    match dispatchWrapperSpec host wrapper with
    | none => .notWrapper
    | some spec =>
      match spec.unwrap with
      | some unwrap => unwrapDispatchWrapper wrapper (unwrap argv platform)
      | none => .blocked wrapper

def isSemanticDispatchWrapperUsage (wrapper : JsString) (argv : List JsString) (platform : Platform) : Bool :=
  match dispatchWrapperSpec host wrapper with
  | none => true
  | some spec => spec.unwrap.isNone || !spec.transparentUsage argv platform

/-! ## The plan -/

structure DispatchWrapperTrustPlan where
  argv : List JsString
  wrappers : List JsString
  blockedWrapper : Option JsString
  deriving DecidableEq

/-- Behind the loop: too many wrappers block. -/
def dispatchPlanEnd (maxDepth : Nat) (platform : Platform) (current : List JsString) (wrappers : List JsString) :
    DispatchWrapperTrustPlan :=
  if maxDepth ≤ wrappers.length then
    match unwrapKnownDispatchWrapperInvocation host current platform with
    | .blocked wrapper => ⟨current, wrappers, some wrapper⟩
    | .unwrapped wrapper _ => ⟨current, wrappers, some wrapper⟩
    | .notWrapper => ⟨current, wrappers, none⟩
  else ⟨current, wrappers, none⟩

/-- The loop, with so many rounds left. -/
def dispatchPlanFrom (maxDepth : Nat) (platform : Platform) :
    Nat → List JsString → List JsString → DispatchWrapperTrustPlan
  | 0, current, wrappers => dispatchPlanEnd host maxDepth platform current wrappers
  | rounds + 1, current, wrappers =>
    match unwrapKnownDispatchWrapperInvocation host current platform with
    | .blocked wrapper => ⟨current, wrappers, some wrapper⟩
    | .notWrapper => dispatchPlanEnd host maxDepth platform current wrappers
    | .unwrapped wrapper argv =>
      if argv = [] then dispatchPlanEnd host maxDepth platform current wrappers
      else if isSemanticDispatchWrapperUsage host wrapper current platform then
        ⟨current, wrappers ++ [wrapper], some wrapper⟩
      else dispatchPlanFrom maxDepth platform rounds argv (wrappers ++ [wrapper])

attribute [grind =] dispatchPlanFrom

def resolveDispatchWrapperTrustPlan (argv : List JsString) (maxDepth : Nat) (platform : Platform) :
    DispatchWrapperTrustPlan := dispatchPlanFrom host maxDepth platform maxDepth argv []

/-! ## What a wrapper leaves -/

theorem scanWrapperInvocation_sound {argv separators next : List JsString}
    {onToken : Bool → JsString → JsString → Bool × WrapperScanDirective}
    {adjustCommandIndex : Nat → List JsString → Option Nat}
    (h : scanWrapperInvocation host argv separators onToken adjustCommandIndex = some next) :
    next ≠ [] ∧ next <:+ argv := by
  obtain ⟨commandIndex, -, hnext⟩ := Option.bind_eq_some_iff.mp h
  split at hnext
  · contradiction
  case isFalse hindex =>
    obtain rfl := Option.some.inj hnext
    refine ⟨?_, List.drop_suffix _ _⟩
    intro hnil
    exact hindex (List.drop_eq_nil_iff.mp hnil)

/-- What a specification takes off leaves some words, and where it is transparent they end the invocation. -/
def DispatchWrapperSpec.Sound (spec : DispatchWrapperSpec) : Prop :=
  ∀ unwrap, spec.unwrap = some unwrap → ∀ argv platform next, unwrap argv platform = some next →
    next ≠ [] ∧ (spec.transparentUsage argv platform = true → next <:+ argv)

theorem blockedSpec_sound (name : JsString) : (blockedSpec name).Sound := by
  intro unwrap hunwrap
  contradiction

/-- A specification whose scanner leaves a suffix. -/
theorem sound_of_suffix {spec : DispatchWrapperSpec} {unwrap : List JsString → Platform → Option (List JsString)}
    (hspec : spec.unwrap = some unwrap)
    (h : ∀ argv platform next, unwrap argv platform = some next → next ≠ [] ∧ next <:+ argv) : spec.Sound := by
  intro unwrap' hunwrap argv platform next hnext
  obtain rfl := Option.some.inj (hspec.symm.trans hunwrap)
  obtain ⟨hne, hsuffix⟩ := h argv platform next hnext
  exact ⟨hne, fun _ => hsuffix⟩

theorem transparentSpec_sound {name : JsString} {unwrap : List JsString → Option (List JsString)}
    (h : ∀ argv next, unwrap argv = some next → next ≠ [] ∧ next <:+ argv) : (transparentSpec name unwrap).Sound :=
  sound_of_suffix rfl fun argv _ next hnext => h argv next hnext

/-- **Every wrapper of the table is sound.** -/
theorem dispatchWrapperSpecs_sound : ∀ spec ∈ dispatchWrapperSpecs host, spec.Sound := by
  have hscan : ∀ {argv separators next onToken adjust},
      scanWrapperInvocation host argv separators onToken adjust = some next → next ≠ [] ∧ next <:+ argv :=
    fun h => scanWrapperInvocation_sound host h
  simp only [dispatchWrapperSpecs, List.forall_mem_cons]
  refine ⟨?_, transparentSpec_sound fun _ _ => hscan, blockedSpec_sound _, blockedSpec_sound _, ?_,
    transparentSpec_sound fun _ _ => hscan, blockedSpec_sound _, transparentSpec_sound fun _ _ => hscan,
    transparentSpec_sound fun _ _ => hscan, transparentSpec_sound fun _ _ => hscan, ?_, blockedSpec_sound _,
    transparentSpec_sound fun _ _ => hscan, blockedSpec_sound _, blockedSpec_sound _,
    sound_of_suffix rfl fun _ _ _ => hscan, transparentSpec_sound fun _ _ => hscan, ?_, ?_⟩
  · -- arch
    apply sound_of_suffix rfl
    intro argv platform next h
    split at h
    · exact hscan h
    · contradiction
  · -- env
    intro unwrap hunwrap argv platform next h
    obtain rfl := Option.some.inj hunwrap
    obtain ⟨hne, hsuffix⟩ := unwrapEnvInvocation_sound host h
    refine ⟨hne, ?_⟩
    intro htransparent
    exact hsuffix (by simpa using htransparent)
  · -- script
    apply sound_of_suffix rfl
    intro argv platform next h
    rw [unwrapScriptInvocation] at h
    split at h
    · contradiction
    · exact hscan h
  · -- xcrun
    apply sound_of_suffix rfl
    intro argv platform next h
    split at h
    · exact hscan h
    · contradiction
  · intro spec hspec
    exact absurd hspec List.not_mem_nil

section Unwrapping

variable {platform : Platform} {argv next : List JsString} {wrapper : JsString}

/-- A dispatch wrapper that is taken off has a specification under the name of the first word. -/
theorem dispatch_unwrapped (h : unwrapKnownDispatchWrapperInvocation host argv platform = .unwrapped wrapper next) :
    firstToken argv ≠ [] ∧ wrapper = normalizeExecutableToken host (firstToken argv) ∧
      ∃ spec unwrap, dispatchWrapperSpec host wrapper = some spec ∧ spec.unwrap = some unwrap ∧
        unwrap argv platform = some next := by
  unfold unwrapKnownDispatchWrapperInvocation at h
  split at h
  · contradiction
  case isFalse hfirst =>
    dsimp only at h
    split at h
    · contradiction
    case h_2 spec hspec =>
      split at h
      case h_1 unwrap hunwrap =>
        cases hnext : unwrap argv platform with
        | none =>
          rw [hnext] at h
          contradiction
        | some words =>
          rw [hnext] at h
          obtain ⟨rfl, rfl⟩ := WrapperUnwrapResult.unwrapped.inj h
          exact ⟨hfirst, rfl, spec, unwrap, hspec, hunwrap, hnext⟩
      · contradiction

theorem dispatch_sound (h : unwrapKnownDispatchWrapperInvocation host argv platform = .unwrapped wrapper next) :
    next ≠ [] ∧ (isSemanticDispatchWrapperUsage host wrapper argv platform = false → next <:+ argv) := by
  obtain ⟨-, -, spec, unwrap, hspec, hunwrap, hnext⟩ := dispatch_unwrapped host h
  obtain ⟨hne, hsuffix⟩ := dispatchWrapperSpecs_sound host spec (List.mem_of_find?_eq_some hspec) unwrap hunwrap
    argv platform next hnext
  refine ⟨hne, ?_⟩
  intro hsemantic
  apply hsuffix
  rw [isSemanticDispatchWrapperUsage, hspec] at hsemantic
  simpa [hunwrap] using hsemantic

end Unwrapping

end OpenClaw.Infra
