/-
# OpenClaw.Infra.CommandCarriers -- executables by name, and what stands in front of the command of `env`

An executable is known by the last segment of its path, in lower case and without a Windows suffix.
`parseEnvInvocationPrelude` reads the options and assignments of an `env` invocation up to its command, and reads
the text of a split string as words of its own.

This follows `exec-wrapper-tokens.ts`, `inline-option-token.ts`, `splitShellArgs` of `shell-argv.ts` and the part of
`command-carriers.ts` that is about `env`.  The bound on the depth of split strings counts down here,
and the options that keep a carrier from running its command, of which `env` has none, are not there.
-/
import Mathlib.Data.List.DropRight
import OpenClaw.Data.ShellText
import OpenClaw.Infra.ExecArgPatterns
import OpenClaw.Infra.ShellInlineCommand

namespace OpenClaw.Infra

open OpenClaw.Data

variable (host : PathHost)

/-! ## Executable tokens -/

/-- What stands behind the last separator, trailing separators apart. -/
def lastSegment (isSeparator : CodeUnit → Bool) (path : JsString) : JsString :=
  (path.rdropWhile isSeparator).rtakeWhile fun unit => !isSeparator unit

/-- `path.posix.basename` -/
def posixBasename (path : JsString) : JsString := lastSegment (fun unit => unit = unitOf '/') path

/-- The path begins with the letter of a drive and a colon. -/
def hasDriveRoot (path : JsString) : Bool := path[0]?.any isAsciiLetter && path[1]? = some (unitOf ':')

/-- `path.win32.basename` -/
def win32Basename (path : JsString) : JsString :=
  lastSegment (fun unit => unit = unitOf '/' || unit = unitOf '\\') (if hasDriveRoot path then path.drop 2 else path)

def basenameLower (token : JsString) : JsString :=
  let win := win32Basename token
  let posix := posixBasename token
  normalizeLowercaseStringOrEmpty host (if win.length < posix.length then win else posix)

def windowsExecutableSuffixes : List JsString := [units ".exe", units ".cmd", units ".bat", units ".com"]

def stripWindowsExecutableSuffix (value : JsString) : JsString :=
  match windowsExecutableSuffixes.find? fun suffix => suffix.isSuffixOf value with
  | some suffix => value.take (value.length - suffix.length)
  | none => value

def normalizeExecutableToken (token : JsString) : JsString := stripWindowsExecutableSuffix (basenameLower host token)

/-! ## Option tokens -/

def equalsSign : CodeUnit := unitOf '='

structure InlineOptionToken where
  name : JsString
  inlineValue : Option JsString

def parseInlineOptionToken (token : JsString) : InlineOptionToken :=
  if token.contains equalsSign then
    ⟨token.takeWhile (· ≠ equalsSign), some ((token.dropWhile (· ≠ equalsSign)).drop 1)⟩
  else ⟨token, none⟩

/-- `[A-Za-z0-9_]` -/
def isNameUnit (unit : CodeUnit) : Bool := isAsciiAlnum unit || unit = unitOf '_'

/-- `/^[A-Za-z_][A-Za-z0-9_]*=.*$/u` -/
def isEnvAssignmentToken (token : JsString) : Bool :=
  let name := token.takeWhile isNameUnit
  let value := token.dropWhile isNameUnit
  name.head?.any (fun unit => !isAsciiDigit unit) && value.head? = some equalsSign &&
    (value.drop 1).all fun unit => !isLineTerminator unit

structure ParsedCarrierOption where
  name : JsString
  inlineValue : Option JsString

section Options

variable (standaloneOptions optionsWithValue : List JsString)

/-- The letters of a cluster of short options; an option with a value takes what is left. -/
def parseShortOptions : JsString → Option (List ParsedCarrierOption)
  | [] => some []
  | letter :: rest =>
    let name := [dash, letter]
    if optionsWithValue.contains name then some [⟨name, if rest = [] then none else some rest⟩]
    else if standaloneOptions.contains name then (parseShortOptions rest).map (⟨name, none⟩ :: ·)
    else none

attribute [grind =] parseShortOptions

def parseCarrierOptionToken (token : JsString) : Option (List ParsedCarrierOption) :=
  if (units "--").isPrefixOf token then
    let option := parseInlineOptionToken token
    if standaloneOptions.contains option.name || optionsWithValue.contains option.name then
      some [⟨option.name, option.inlineValue⟩]
    else none
  else if token[0]? ≠ some dash || !token[1]?.any isAsciiAlnum then none
  else parseShortOptions standaloneOptions optionsWithValue (token.drop 1)

/-- The last option with a value decides. -/
def knownCarrierOptionConsumesNextValue (options : List ParsedCarrierOption) : Bool :=
  options.foldl (fun consumes option =>
    if optionsWithValue.contains option.name then option.inlineValue.isNone else consumes) false

end Options

/-! ## Split strings -/

inductive SplitMode where
  | plain
  | escaped
  | single
  | double
  | doubleEscaped
  deriving DecidableEq

/-- The backslash, the double quote, the dollar sign, the backtick and the line ends. -/
def isDoubleQuoteEscape (unit : CodeUnit) : Bool := unit.val ∈ [0x5C, 0x22, 0x24, 0x60, 0xA, 0xD]

def pushToken (tokens : List JsString) (buf : JsString) : List JsString := if buf = [] then tokens else tokens ++ [buf]

/-- The loop of `splitShellArgs`. -/
def splitShellArgsFrom : SplitMode → List JsString → JsString → JsString → Option (List JsString)
  | .plain, tokens, buf, [] => some (pushToken tokens buf)
  | _, _, _, [] => none
  | .escaped, tokens, buf, unit :: rest => splitShellArgsFrom .plain tokens (buf ++ [unit]) rest
  | .doubleEscaped, tokens, buf, unit :: rest => splitShellArgsFrom .double tokens (buf ++ [unit]) rest
  | .single, tokens, buf, unit :: rest =>
    if unit = singleQuote then splitShellArgsFrom .plain tokens buf rest
    else splitShellArgsFrom .single tokens (buf ++ [unit]) rest
  | .double, tokens, buf, unit :: rest =>
    if unit = unitOf '\\' && rest.head?.any isDoubleQuoteEscape then splitShellArgsFrom .doubleEscaped tokens buf rest
    else if unit = doubleQuote then splitShellArgsFrom .plain tokens buf rest
    else splitShellArgsFrom .double tokens (buf ++ [unit]) rest
  | .plain, tokens, buf, unit :: rest =>
    if unit = unitOf '\\' then splitShellArgsFrom .escaped tokens buf rest
    else if unit = singleQuote then splitShellArgsFrom .single tokens buf rest
    else if unit = doubleQuote then splitShellArgsFrom .double tokens buf rest
    else if unit = unitOf '#' && buf = [] then some tokens
    else if isWhiteUnit unit then splitShellArgsFrom .plain (pushToken tokens buf) [] rest
    else splitShellArgsFrom .plain tokens (buf ++ [unit]) rest

attribute [grind =] splitShellArgsFrom

def splitShellArgs (raw : JsString) : Option (List JsString) := splitShellArgsFrom .plain [] [] raw

/-! ## The prelude of `env` -/

def maxEnvSplitPayloadDepth : Nat := 32

def envOptionsWithValue : List JsString :=
  [units "-C", units "-P", units "-S", units "-s", units "-u", units "--argv0", units "--block-signal",
    units "--chdir", units "--default-signal", units "--ignore-signal", units "--split-string", units "--unset"]

def envSplitStringOptions : List JsString := [units "-S", units "-s", units "--split-string"]

def envStandaloneOptions : List JsString := [units "-0", units "-i", units "--ignore-environment", units "--null"]

structure ParsedEnvInvocationPrelude where
  assignmentKeys : List JsString
  commandIndex : Nat
  splitArgv : Option (List JsString)
  usesModifiers : Bool

/-- The payload of a split string option, how many words it takes, and the words behind it. -/
def splitPayload (option : ParsedCarrierOption) (rest : List JsString) : Option (JsString × Nat × List JsString) :=
  match option.inlineValue, rest with
  | some payload, rest => some (payload, 0, rest)
  | none, payload :: trailing => some (payload, 1, trailing)
  | none, [] => none

/-- The loop over the words, from an index on; with `skip` a word is the value of the option in front of it.
`resolveSplit` reads a payload in front of further words. -/
def envPreludeFrom (resolveSplit : JsString → List JsString → Option (List JsString)) :
    Nat → Bool → List JsString → Bool → List JsString → Option ParsedEnvInvocationPrelude
  | _, _, _, _, [] => none
  | index, true, assignmentKeys, usesModifiers, _ :: rest =>
    envPreludeFrom resolveSplit (index + 1) false assignmentKeys usesModifiers rest
  | index, false, assignmentKeys, usesModifiers, token :: rest =>
    if token = [] then none
    else if isEnvAssignmentToken token then
      envPreludeFrom resolveSplit (index + 1) false (assignmentKeys ++ [token.takeWhile (· ≠ equalsSign)]) true rest
    else if token = units "--" || token = [dash] then
      if rest = [] then none else some ⟨assignmentKeys, index + 1, none, usesModifiers⟩
    else if token[0]? = some dash then
      match parseCarrierOptionToken envStandaloneOptions envOptionsWithValue token with
      | none => none
      | some options =>
        match options.find? fun option => envSplitStringOptions.contains option.name with
        | some option =>
          (splitPayload option rest).bind fun (payload, taken, trailing) =>
            (resolveSplit payload trailing).map fun splitArgv =>
              ⟨assignmentKeys, index + taken + 1, some splitArgv, true⟩
        | none =>
          envPreludeFrom resolveSplit (index + 1)
            (knownCarrierOptionConsumesNextValue envOptionsWithValue options) assignmentKeys true rest
    else some ⟨assignmentKeys, index, none, usesModifiers⟩

attribute [grind =] envPreludeFrom

/-- The argv behind a prelude. -/
def ParsedEnvInvocationPrelude.carriedArgv (parsed : ParsedEnvInvocationPrelude) (argv : List JsString) :
    List JsString := parsed.splitArgv.getD (argv.drop parsed.commandIndex)

/-- `parseEnvInvocationPrelude` with so many levels of split strings left, the invocation itself included. -/
def envPreludeWithin : Nat → List JsString → Option ParsedEnvInvocationPrelude
  | 0, _ => none
  | levels + 1, argv =>
    if normalizeExecutableToken host (argv.headD []) ≠ units "env" then none
    else
      envPreludeFrom (fun payload trailing =>
        match splitShellArgs payload with
        | none | some [] => none
        | some innerArgv =>
          let carriedArgv := innerArgv ++ trailing
          let inner := units "env" :: carriedArgv
          some (((envPreludeWithin levels inner).map fun parsed => parsed.carriedArgv inner).getD carriedArgv))
        1 false [] false (argv.drop 1)

def parseEnvInvocationPrelude (argv : List JsString) : Option ParsedEnvInvocationPrelude :=
  envPreludeWithin host (maxEnvSplitPayloadDepth + 1) argv

def envInvocationUsesModifiers (argv : List JsString) : Bool :=
  match parseEnvInvocationPrelude host argv with
  | some parsed => parsed.usesModifiers
  | none => normalizeExecutableToken host (argv.headD []) = units "env"

def unwrapEnvInvocation (argv : List JsString) : Option (List JsString) :=
  (parseEnvInvocationPrelude host argv).map fun parsed => parsed.carriedArgv argv

/-! ## What a prelude says -/

section Prelude

variable {resolveSplit : JsString → List JsString → Option (List JsString)} {parsed : ParsedEnvInvocationPrelude}

/-- Modifiers that were seen stay. -/
theorem envPrelude_modifiers (words : List JsString) : ∀ {index : Nat} {skip : Bool} {keys : List JsString},
    envPreludeFrom resolveSplit index skip keys true words = some parsed → parsed.usesModifiers = true := by
  induction words with
  | nil =>
    intro index skip keys h
    rw [envPreludeFrom] at h
    contradiction
  | cons token rest ih =>
    intro index skip keys h
    cases skip with
    | true => exact ih h
    | false =>
      rw [envPreludeFrom] at h
      split at h
      · contradiction
      · split at h
        · exact ih h
        · split at h
          · split at h
            · contradiction
            · rw [← Option.some.inj h]
          · split at h
            · split at h
              · contradiction
              · split at h
                · simp only [Option.bind_eq_some_iff, Option.map_eq_some_iff] at h
                  obtain ⟨_, _, _, _, rfl⟩ := h
                  rfl
                · exact ih h
            · rw [← Option.some.inj h]

/-- **A prelude ends at a command**: at a word of the invocation, or at the words of a split string. -/
theorem envPrelude_command (words : List JsString) :
    ∀ {index : Nat} {skip : Bool} {keys : List JsString} {usesModifiers : Bool},
    envPreludeFrom resolveSplit index skip keys usesModifiers words = some parsed →
      (parsed.splitArgv = none ∧ parsed.commandIndex < index + words.length) ∨
        (∃ payload trailing, parsed.splitArgv = resolveSplit payload trailing ∧ parsed.splitArgv.isSome ∧
          parsed.usesModifiers = true) := by
  induction words with
  | nil =>
    intro index skip keys usesModifiers h
    rw [envPreludeFrom] at h
    contradiction
  | cons token rest ih =>
    intro index skip keys usesModifiers h
    -- what the rest of the words ends at
    have hrest : ∀ {skip keys usesModifiers},
        envPreludeFrom resolveSplit (index + 1) skip keys usesModifiers rest = some parsed →
        (parsed.splitArgv = none ∧ parsed.commandIndex < index + (token :: rest).length) ∨
          (∃ payload trailing, parsed.splitArgv = resolveSplit payload trailing ∧ parsed.splitArgv.isSome ∧
            parsed.usesModifiers = true) := by
      intro skip keys usesModifiers h
      rcases ih h with ⟨hnone, hindex⟩ | hsplit
      · left
        refine ⟨hnone, ?_⟩
        rw [List.length_cons]
        omega
      · exact Or.inr hsplit
    cases skip with
    | true => exact hrest h
    | false =>
      rw [envPreludeFrom] at h
      split at h
      · contradiction
      · split at h
        · exact hrest h
        · split at h
          · split at h
            · contradiction
            case isFalse hne =>
              left
              obtain rfl := Option.some.inj h
              have hpos := List.length_pos_of_ne_nil hne
              refine ⟨rfl, ?_⟩
              show index + 1 < index + (token :: rest).length
              rw [List.length_cons]
              omega
          · split at h
            · split at h
              · contradiction
              · split at h
                · right
                  simp only [Option.bind_eq_some_iff, Option.map_eq_some_iff] at h
                  obtain ⟨⟨payload, _, trailing⟩, _, splitArgv, hsplit, rfl⟩ := h
                  exact ⟨payload, trailing, hsplit.symm, rfl, rfl⟩
                · exact hrest h
            · left
              obtain rfl := Option.some.inj h
              refine ⟨rfl, ?_⟩
              show index < index + (token :: rest).length
              rw [List.length_cons]
              omega

/-- **Without modifiers** the first word is a dash or two, or the command. -/
theorem envPrelude_unmodified {index : Nat} {words : List JsString}
    (h : envPreludeFrom resolveSplit index false [] false words = some parsed)
    (hmodifiers : parsed.usesModifiers = false) :
    parsed.splitArgv = none ∧ ∃ token rest, words = token :: rest ∧
      (token = units "--" ∨ token = [dash] ∨ token[0]? ≠ some dash) := by
  cases words with
  | nil =>
    rw [envPreludeFrom] at h
    contradiction
  | cons token rest =>
    have habsurd : ∀ {skip keys}, envPreludeFrom resolveSplit (index + 1) skip keys true rest ≠ some parsed := by
      intro skip keys h
      rw [envPrelude_modifiers rest h] at hmodifiers
      contradiction
    rw [envPreludeFrom] at h
    split at h
    · contradiction
    · split at h
      · exact absurd h habsurd
      · split at h
        case isTrue hdash =>
          split at h
          · contradiction
          · obtain rfl := Option.some.inj h
            simp only [Bool.or_eq_true, decide_eq_true_eq] at hdash
            exact ⟨rfl, token, rest, rfl, hdash.imp_right Or.inl⟩
        case isFalse =>
          split at h
          · split at h
            · contradiction
            · split at h
              · simp only [Option.bind_eq_some_iff, Option.map_eq_some_iff] at h
                obtain ⟨_, _, _, _, rfl⟩ := h
                contradiction
              · exact absurd h habsurd
          case isFalse hoperand =>
            obtain rfl := Option.some.inj h
            exact ⟨rfl, token, rest, rfl, Or.inr (Or.inr hoperand)⟩

end Prelude

/-- **The carried words**: there are some, and without modifiers they end the invocation. -/
theorem envPreludeWithin_carries {levels : Nat} {argv : List JsString} {parsed : ParsedEnvInvocationPrelude}
    (h : envPreludeWithin host levels argv = some parsed) : parsed.carriedArgv argv ≠ [] := by
  induction levels generalizing argv parsed with
  | zero =>
    rw [envPreludeWithin] at h
    contradiction
  | succ levels ih =>
    rw [envPreludeWithin] at h
    split at h
    · contradiction
    · rcases envPrelude_command _ h with ⟨hnone, hindex⟩ | ⟨payload, trailing, hsplit, hsome, -⟩
      · rw [ParsedEnvInvocationPrelude.carriedArgv, hnone, Option.getD_none]
        intro hnil
        rw [List.drop_eq_nil_iff] at hnil
        cases argv with
        | nil =>
          rw [envPreludeFrom.eq_def] at h
          contradiction
        | cons first words =>
          rw [List.drop_succ_cons, List.drop_zero] at hindex
          rw [List.length_cons] at hnil
          omega
      · obtain ⟨splitArgv, hargv⟩ := Option.isSome_iff_exists.mp hsome
        rw [ParsedEnvInvocationPrelude.carriedArgv, hargv, Option.getD_some]
        rw [hargv] at hsplit
        split at hsplit
        · contradiction
        · contradiction
        case h_3 innerArgv hnonempty _ =>
          obtain rfl := Option.some.inj hsplit
          cases hinner : envPreludeWithin host levels (units "env" :: (innerArgv ++ trailing)) with
          | none =>
            rw [Option.map_none, Option.getD_none]
            intro hnil
            exact hnonempty (List.append_eq_nil_iff.mp hnil).1
          | some inner =>
            rw [Option.map_some, Option.getD_some]
            exact ih hinner

theorem unwrapEnvInvocation_sound {argv next : List JsString} (h : unwrapEnvInvocation host argv = some next) :
    next ≠ [] ∧ (envInvocationUsesModifiers host argv = false → next <:+ argv) := by
  obtain ⟨parsed, hparsed, rfl⟩ := Option.map_eq_some_iff.mp h
  refine ⟨envPreludeWithin_carries host hparsed, ?_⟩
  intro hmodifiers
  rw [envInvocationUsesModifiers, hparsed] at hmodifiers
  rw [parseEnvInvocationPrelude, envPreludeWithin] at hparsed
  split at hparsed
  · contradiction
  · rw [ParsedEnvInvocationPrelude.carriedArgv, (envPrelude_unmodified hparsed hmodifiers).1]
    exact List.drop_suffix _ _

end OpenClaw.Infra
