/-
# OpenClaw.Infra.WindowsShellCommand -- the command that is rebuilt for PowerShell

`analyzeWindowsShellCommand` takes the wrappers off a command, refuses what a Windows shell would expand or run, and
splits the rest into words.  `buildEnforcedShellCommand` writes the planned words back, each as it is or between double
quotes, behind the call operator.  Only `"` is doubled between the quotes, and only ASCII letters and some signs are
refused behind a `$`; PowerShell knows three more double quotes, and more that begins an expansion.
`rebuilt_reads_back_iff` says that this is all that is missing.

This follows `windows-shell-command.ts` and the Windows part of `exec-approvals-analysis.ts`.
-/
import OpenClaw.Data.PowerShellText
import OpenClaw.Infra.CommandCarriers
import OpenClaw.Infra.ExecAuthorizationRender

namespace OpenClaw.Infra

open OpenClaw.Data

def carriageReturn : CodeUnit := unitOf '\r'

/-! ## The scan -/

/-- `WINDOWS_UNSUPPORTED_TOKENS`: `& | < > ; ^ ( ) % !`, the backtick and the line breaks. -/
def windowsUnsupportedTokens : List Nat := [0x26, 0x7C, 0x3C, 0x3E, 0x3B, 0x5E, 0x28, 0x29, 0x25, 0x21, 0x60, 0xA, 0xD]

/-- `WINDOWS_ALWAYS_UNSAFE_TOKENS`: the line breaks, `%` and the backtick. -/
def windowsAlwaysUnsafeTokens : List Nat := [0xA, 0xD, 0x25, 0x60]

/-- A letter, or one of `_ ( ? $` and the opening brace. -/
def isDollarMeta (unit : CodeUnit) : Bool :=
  (isAsciiAlnum unit && !isAsciiDigit unit) || unit.val ∈ [0x5F, 0x7B, 0x28, 0x3F, 0x24]

def findWindowsUnsupportedTokenFrom (inDouble : Bool) : JsString → Option JsString
  | [] => none
  | ch :: rest =>
    if ch = doubleQuote then findWindowsUnsupportedTokenFrom (!inDouble) rest
    else if ch = dollar then
      if rest.head?.any isDollarMeta then some [dollar] else findWindowsUnsupportedTokenFrom inDouble rest
    else if ch.val ∈ windowsUnsupportedTokens then
      if inDouble && ch.val ∉ windowsAlwaysUnsafeTokens then findWindowsUnsupportedTokenFrom inDouble rest
      else if ch = lineFeed || ch = carriageReturn then some (units "newline")
      else some [ch]
    else findWindowsUnsupportedTokenFrom inDouble rest

attribute [grind =] findWindowsUnsupportedTokenFrom

def findWindowsUnsupportedToken (command : JsString) : Option JsString := findWindowsUnsupportedTokenFrom false command

/-! ## The words -/

structure WindowsTokenizer where
  buf : JsString
  inDouble : Bool
  inSingle : Bool
  wasQuoted : Bool

/-- What `pushToken` adds. -/
def WindowsTokenizer.pushed (tokenizer : WindowsTokenizer) : List JsString :=
  if 0 < tokenizer.buf.length || tokenizer.wasQuoted then [tokenizer.buf] else []

def tokenizeWindowsFrom : WindowsTokenizer → JsString → Option (List JsString)
  | tokenizer, [] => if tokenizer.inDouble || tokenizer.inSingle then none else some tokenizer.pushed
  | tokenizer, ch :: rest =>
    if ch = doubleQuote && !tokenizer.inSingle then
      tokenizeWindowsFrom { tokenizer with
        inDouble := !tokenizer.inDouble, wasQuoted := tokenizer.wasQuoted || !tokenizer.inDouble } rest
    else if ch = singleQuote && !tokenizer.inDouble then
      match rest with
      | [] => tokenizeWindowsFrom { tokenizer with
          inSingle := !tokenizer.inSingle, wasQuoted := tokenizer.wasQuoted || !tokenizer.inSingle } []
      | next :: behind =>
        if tokenizer.inSingle && next = singleQuote then
          tokenizeWindowsFrom { tokenizer with buf := tokenizer.buf ++ [singleQuote] } behind
        else tokenizeWindowsFrom { tokenizer with
          inSingle := !tokenizer.inSingle, wasQuoted := tokenizer.wasQuoted || !tokenizer.inSingle } (next :: behind)
    else if !tokenizer.inDouble && !tokenizer.inSingle && isWhiteUnit ch then
      (tokenizeWindowsFrom ⟨[], false, false, false⟩ rest).map (tokenizer.pushed ++ ·)
    else tokenizeWindowsFrom { tokenizer with buf := tokenizer.buf ++ [ch] } rest

attribute [grind =] tokenizeWindowsFrom

def tokenizeWindowsSegment (segment : JsString) : Option (List JsString) :=
  (tokenizeWindowsFrom ⟨[], false, false, false⟩ segment).filter (· ≠ [])

/-! ## Regular expressions -/

/-- A part of an expression: what may be left of a text behind it, in the order that it is tried. -/
abbrev ExpressionPart := JsString → List JsString

namespace ExpressionPart

def andThen (first second : ExpressionPart) : ExpressionPart := fun text => (first text).flatMap second

def orElse (first second : ExpressionPart) : ExpressionPart := fun text => first text ++ second text

/-- `(?:...)?` -/
def maybe (part : ExpressionPart) : ExpressionPart := part.orElse fun text => [text]

/-- `(?!...)` -/
def isNotAhead (part : ExpressionPart) : ExpressionPart := fun text => if part text = [] then [text] else []

/-- `p*` for one unit. -/
def run (p : CodeUnit → Bool) : ExpressionPart :=
  fun text => ((List.range ((text.takeWhile p).length + 1)).reverse).map text.drop

/-- `p+` for one unit. -/
def run1 (p : CodeUnit → Bool) : ExpressionPart :=
  fun text => ((List.range (text.takeWhile p).length).reverse).map fun i => text.drop (i + 1)

/-- The units of a literal; the flag `i` lets a letter stand for its upper case. -/
def literal : JsString → ExpressionPart
  | [] => fun text => [text]
  | letter :: letters => fun text =>
    match text with
    | [] => []
    | unit :: rest =>
      if unit = letter || (isAsciiAlnum letter && unit.val + 0x20 = letter.val) then literal letters rest else []

/-- `(?:...)*`, with as many turns as `fuel` at most; a turn that takes nothing is none. -/
def starWithin (part : ExpressionPart) : Nat → ExpressionPart
  | 0 => fun text => [text]
  | fuel + 1 => fun text =>
    ((part text).filter fun rest => rest.length < text.length).flatMap (starWithin part fuel) ++ [text]

def star (part : ExpressionPart) : ExpressionPart := fun text => part.starWithin text.length text

/-- `\b` behind a word character -/
def wordEnd : ExpressionPart := fun text => if text.head?.any isNameUnit then [] else [text]

end ExpressionPart

open ExpressionPart

def dashText : JsString := units "-"

/-- `-(?!c(?:ommand)?\b|-command\b)\w+` -/
def psFlagName : ExpressionPart :=
  (literal dashText).andThen <|
    (isNotAhead (((literal (units "c")).andThen <| (maybe (literal (units "ommand"))).andThen wordEnd).orElse
      ((literal (units "-command")).andThen wordEnd))).andThen (run1 isNameUnit)

/-- A quote, what is none, any number of doubled ones with what is none behind each, and a quote. -/
def psQuotedValue (quote : CodeUnit) : ExpressionPart :=
  (literal [quote]).andThen <| (run (· ≠ quote)).andThen <|
    (ExpressionPart.star ((literal [quote, quote]).andThen (run (· ≠ quote)))).andThen (literal [quote])

/-- `\s+(?!-)(?:"..."|'...'|\S+)` -/
def psFlagValue : ExpressionPart :=
  (run1 isWhiteUnit).andThen <| (isNotAhead (literal dashText)).andThen <|
    (psQuotedValue doubleQuote).orElse <| (psQuotedValue singleQuote).orElse (run1 fun unit => !isWhiteUnit unit)

def psFlags : ExpressionPart :=
  ExpressionPart.star (psFlagName.andThen <| (maybe psFlagValue).andThen (run1 isWhiteUnit))

def psCommandFlag : ExpressionPart :=
  (literal (units "-command")).orElse <| (literal (units "-c")).orElse (literal (units "--command"))

/-- Up to what stands behind the command flag. -/
def psInvocation : ExpressionPart :=
  ((literal (units "powershell")).orElse (literal (units "pwsh"))).andThen <|
    (maybe (literal (units ".exe"))).andThen <| (run1 isWhiteUnit).andThen <| psFlags.andThen <|
      psCommandFlag.andThen (run1 isWhiteUnit)

/-- `"(.+)"$` and `'(.+)'$` -/
def quotedCapture (quote : CodeUnit) : JsString → Option JsString
  | [] => none
  | first :: body => if first = quote && 2 ≤ body.length && body.getLast? = some quote then some body.dropLast else none

/-- `(.+)$` -/
def openCapture (text : JsString) : Option JsString := if text ≠ [] then some text else none

/-- `replace(/""/g, '"')`, and the same for `'`. -/
def halved (quote : CodeUnit) : JsString → JsString
  | [] => []
  | [unit] => [unit]
  | unit :: next :: rest =>
    if unit = quote && next = quote then quote :: halved quote rest else unit :: halved quote (next :: rest)

/-! ## Wrappers -/

def stripWindowsShellWrapperOnce (command : JsString) : JsString :=
  match (((literal (units "&")).andThen (run1 isWhiteUnit)) command).findSome? openCapture with
  | some call => call
  | none =>
    match (psInvocation command).findSome? (quotedCapture doubleQuote) with
    | some invoked => halved doubleQuote invoked
    | none =>
      match (psInvocation command).findSome? (quotedCapture singleQuote) with
      | some invoked => halved singleQuote invoked
      | none => ((psInvocation command).findSome? openCapture).getD command

def stripWindowsShellWrapperWithin : Nat → JsString → JsString
  | 0, result => result
  | depth + 1, previous =>
    let result := stripWindowsShellWrapperOnce (trimUnits previous)
    if result = previous then result else stripWindowsShellWrapperWithin depth result

def stripWindowsShellWrapper (command : JsString) : JsString := stripWindowsShellWrapperWithin 5 command

/-! ## The analysis -/

/-- `resolve` is `resolveCommandResolutionFromArgv` for the working directory, environment and platform. -/
def analyzeWindowsShellCommand (resolve : List JsString → Option CommandResolution) (command : JsString) :
    Except JsString (List ExecCommandSegment) :=
  let effective := stripWindowsShellWrapper (trimUnits command)
  match findWindowsUnsupportedToken effective with
  | some unsupported => .error (units "unsupported windows shell token: " ++ unsupported)
  | none =>
    match tokenizeWindowsSegment effective with
    | none => .error (units "unable to parse windows command")
    | some argv => .ok [⟨argv, resolve argv⟩]

/-! ## The command that is run -/

/-- `/[%`]|\$(?=[A-Za-z_{(?$])/` -/
def hasWindowsUnsafeMeta : JsString → Bool
  | [] => false
  | unit :: rest =>
    unit.val = 0x25 || unit = backtick || (unit = dollar && rest.head?.any isDollarMeta) || hasWindowsUnsafeMeta rest

/-- A letter, a digit or one of `_ . / : ~ \ = -`. -/
def isWindowsBareUnit (unit : CodeUnit) : Bool :=
  isAsciiAlnum unit || unit.val ∈ [0x5F, 0x2E, 0x2F, 0x3A, 0x7E, 0x5C, 0x3D, 0x2D]

def windowsEscapeArg (value : JsString) : Option JsString :=
  if value = [] then some [doubleQuote, doubleQuote]
  else if hasWindowsUnsafeMeta value then none
  else if value.all isWindowsBareUnit then some value
  else some (inDoubleQuotes value)

def renderWindowsParts : List JsString → Except JsString (List JsString)
  | [] => .ok []
  | token :: argv =>
    match windowsEscapeArg token with
    | none => .error (units "unsafe windows token: " ++ token)
    | some escaped => do
      let parts ← renderWindowsParts argv
      .ok (escaped :: parts)

def renderWindowsQuotedArgv (argv : List JsString) : Except JsString JsString := do
  let parts ← renderWindowsParts argv
  .ok ([unitOf ' '].intercalate parts)

/-- The command and the number of its segments. -/
def rebuildWindowsShellCommandFromSource (command : JsString)
    (renderSegment : JsString → Nat → Except JsString JsString) : Except JsString (JsString × Nat) :=
  let source := stripWindowsShellWrapper (trimUnits command)
  if source = [] then .error (units "empty command")
  else
    match findWindowsUnsupportedToken source with
    | some unsupported => .error (units "unsupported windows shell token: " ++ unsupported)
    | none => do
      let rendered ← renderSegment source 0
      .ok (units "& " ++ rendered, 1)

def renderPlannedSegment (segments : List ExecCommandSegment) (segmentIndex : Nat) : Except JsString JsString :=
  match segments[segmentIndex]? with
  | none => .error (units "segment mapping failed")
  | some segment =>
    match resolvePlannedSegmentArgv segment with
    | none => .error (units "segment execution plan unavailable")
    | some argv => renderWindowsQuotedArgv argv

def buildEnforcedShellCommand (command : JsString) (segments : List ExecCommandSegment) (platform : Option String) :
    Except JsString JsString :=
  if platform ≠ some "win32" then .error (units "unsupported platform")
  else do
    let (rebuilt, segmentCount) ← rebuildWindowsShellCommandFromSource command
      fun _ segmentIndex => renderPlannedSegment segments segmentIndex
    if segmentCount ≠ segments.length then .error (units "segment count mismatch") else .ok rebuilt

/-! ## One word -/

section Words

variable {isLetter : CodeUnit → Bool} {value escaped rest : JsString}

theorem isWindowsBareUnit_literal {unit : CodeUnit} (h : isWindowsBareUnit unit = true) : isLiteralUnit unit = true := by
  simp only [isWindowsBareUnit, isAsciiAlnum, isAsciiDigit, Bool.or_eq_true, Bool.and_eq_true, decide_eq_true_eq,
    List.mem_cons, List.not_mem_nil, or_false] at h
  have hwhite : isWhiteUnit unit = false := isWhiteUnit_printable (by omega) (by omega)
  have hdollar : unit ≠ dollar := by
    rintro rfl
    revert h
    decide
  have hbacktick : unit ≠ backtick := by
    rintro rfl
    revert h
    decide
  rw [isLiteralUnit, hwhite, decide_eq_true hdollar, decide_eq_true hbacktick]
  simp only [isPowerShellOperator, isDoubleQuoteUnit, isSingleQuoteUnit, List.mem_cons, List.not_mem_nil, or_false,
    Bool.not_false, Bool.true_and, Bool.and_true, Bool.and_eq_true, Bool.not_eq_true', decide_eq_false_iff_not]
  omega

theorem unsafe_of_backtick (h : backtick ∈ value) : hasWindowsUnsafeMeta value = true := by
  induction value with
  | nil => contradiction
  | cons unit value ih =>
    rw [hasWindowsUnsafeMeta]
    rcases List.mem_cons.mp h with rfl | hmem
    · rfl
    · rw [ih hmem, Bool.or_true]

/-- A word is written as it is or between double quotes. -/
theorem windowsEscapeArg_cases (h : windowsEscapeArg value = some escaped) :
    (value ≠ [] ∧ value.all isLiteralUnit = true ∧ escaped = value) ∨
      (backtick ∉ value ∧ escaped = inDoubleQuotes value) := by
  unfold windowsEscapeArg at h
  split at h
  case isTrue hempty =>
    obtain rfl := Option.some.inj h
    refine Or.inr ⟨?_, ?_⟩
    · rw [hempty]
      exact List.not_mem_nil
    · rw [hempty]
      rfl
  case isFalse hne =>
    split at h
    · contradiction
    case isFalse hsafe =>
      split at h
      case isTrue hbare =>
        refine Or.inl ⟨hne, ?_, (Option.some.inj h).symm⟩
        rw [List.all_eq_true] at hbare ⊢
        intro unit hmem
        exact isWindowsBareUnit_literal (hbare unit hmem)
      case isFalse =>
        refine Or.inr ⟨?_, (Option.some.inj h).symm⟩
        intro hmem
        exact hsafe (unsafe_of_backtick hmem)

/-- **A verbatim word** is read back. -/
theorem read_escaped (h : windowsEscapeArg value = some escaped) (hrest : Separated rest)
    (hverbatim : isVerbatim isLetter value = true) : readPowerShellFrom isLetter (.plain none) (escaped ++ rest) =
      (readPowerShellFrom isLetter (.plain none) rest).map (.word value :: ·) := by
  rcases windowsEscapeArg_cases h with ⟨hne, hliteral, rfl⟩ | ⟨hbacktick, rfl⟩
  · rw [readBare hliteral hne, hrest.endsWord]
    rfl
  · have hquoted := @readInQuotes isLetter [] value rest hverbatim hbacktick hrest.head
    rw [inDoubleQuotes, List.cons_append, List.append_assoc, List.singleton_append, read_opening, hquoted]
    rfl

/-- **Any other word** is not. -/
theorem read_escaped_fails (h : windowsEscapeArg value = some escaped) (hrest : Separated rest)
    (hverbatim : isVerbatim isLetter value = false) (tokens : List PowerShellToken) :
    readPowerShellFrom isLetter (.plain none) (escaped ++ rest) ≠ some (.word value :: tokens) := by
  rcases windowsEscapeArg_cases h with ⟨-, hliteral, -⟩ | ⟨hbacktick, rfl⟩
  · rw [literal_verbatim hliteral] at hverbatim
    contradiction
  · have hquoted := @readInQuotes_fails isLetter [] value rest tokens hverbatim hbacktick hrest.head
    rw [inDoubleQuotes, List.cons_append, List.append_assoc, List.singleton_append, read_opening]
    exact hquoted

end Words

/-! ## The words of a command -/

section Commands

variable {isLetter : CodeUnit → Bool} {argv parts : List JsString}

/-- Every part with a space in front. -/
def spacedParts (parts : List JsString) : JsString := parts.flatMap fun part => unitOf ' ' :: part

theorem spacedParts_separated (parts : List JsString) : Separated (spacedParts parts) := by
  cases parts with
  | nil => exact Or.inl rfl
  | cons part parts => exact Or.inr ⟨_, rfl⟩

theorem intercalate_spaced (part : JsString) (parts : List JsString) :
    [unitOf ' '].intercalate (part :: parts) = part ++ spacedParts parts := by
  induction parts generalizing part with
  | nil => simp [spacedParts]
  | cons next parts ih =>
    rw [List.intercalate_cons_cons, ih]
    simp [spacedParts]

theorem renderWindowsParts_ok (h : renderWindowsParts argv = .ok parts) :
    List.Forall₂ (fun value escaped => windowsEscapeArg value = some escaped) argv parts := by
  induction argv generalizing parts with
  | nil =>
    obtain rfl := Except.ok.inj h
    exact .nil
  | cons token argv ih =>
    unfold renderWindowsParts at h
    split at h
    · contradiction
    case h_2 escaped hescaped =>
      cases hparts : renderWindowsParts argv with
      | error reason =>
        rw [hparts] at h
        contradiction
      | ok behind =>
        rw [hparts] at h
        obtain rfl := Except.ok.inj h
        exact .cons hescaped (ih hparts)

/-- **The parts are read back exactly if every word is verbatim.** -/
theorem read_parts (h : List.Forall₂ (fun value escaped => windowsEscapeArg value = some escaped) argv parts) :
    readPowerShellFrom isLetter (.plain none) (spacedParts parts) = some (argv.map .word) ↔
      ∀ word ∈ argv, isVerbatim isLetter word = true := by
  induction h with
  | nil => simp [spacedParts, readPowerShellFrom]
  | @cons value escaped argv parts hescaped hparts ih =>
    have hspaced : spacedParts (escaped :: parts) = unitOf ' ' :: (escaped ++ spacedParts parts) := rfl
    have hseparated := spacedParts_separated parts
    rw [hspaced, read_space, List.map_cons, List.forall_mem_cons]
    cases hverbatim : isVerbatim isLetter value with
    | true =>
      rw [read_escaped hescaped hseparated hverbatim, Option.map_map, ← ih]
      constructor
      · intro hread
        obtain ⟨tokens, htokens, heq⟩ := Option.map_eq_some_iff.mp hread
        rw [htokens, (List.cons.inj heq).2]
        exact ⟨rfl, rfl⟩
      · rintro ⟨-, hread⟩
        rw [hread]
        rfl
    | false =>
      refine iff_of_false ?_ ?_
      · intro hread
        obtain ⟨tokens, htokens, heq⟩ := Option.map_eq_some_iff.mp hread
        rw [Option.toList_none, List.map_nil, List.nil_append] at heq
        rw [heq] at htokens
        exact read_escaped_fails hescaped hseparated hverbatim _ htokens
      · rintro ⟨hcontra, -⟩
        contradiction

theorem resolvePlannedSegmentArgv_ne_nil {segment : ExecCommandSegment}
    (h : resolvePlannedSegmentArgv segment = some argv) : argv ≠ [] := by
  unfold resolvePlannedSegmentArgv at h
  split at h
  · contradiction
  · dsimp only at h
    split at h
    · contradiction
    · rw [← Option.some.inj h]
      exact List.cons_ne_nil _ _

/-- What is built for one segment is `&` and its parts. -/
theorem buildEnforcedShellCommand_ok {command built : JsString} {segments : List ExecCommandSegment}
    {platform : Option String} (h : buildEnforcedShellCommand command segments platform = .ok built) :
    ∃ segment argv parts, segments = [segment] ∧ resolvePlannedSegmentArgv segment = some argv ∧
      renderWindowsParts argv = .ok parts ∧ built = ampersand :: spacedParts parts := by
  unfold buildEnforcedShellCommand rebuildWindowsShellCommandFromSource at h
  split at h
  · contradiction
  dsimp only at h
  split at h
  · contradiction
  split at h
  · contradiction
  cases hrendered : renderPlannedSegment segments 0 with
  | error reason =>
    rw [hrendered] at h
    contradiction
  | ok rendered =>
    rw [hrendered] at h
    change (if 1 ≠ segments.length then Except.error (units "segment count mismatch") else Except.ok (units "& " ++ rendered)) =
      Except.ok built at h
    split at h
    · contradiction
    case isFalse hcount =>
      rw [not_not] at hcount
      obtain ⟨segment, rfl⟩ := List.length_eq_one_iff.mp hcount.symm
      unfold renderPlannedSegment at hrendered
      rw [List.getElem?_cons_zero] at hrendered
      dsimp only at hrendered
      split at hrendered
      · contradiction
      case h_2 argv hargv =>
        cases hparts : renderWindowsParts argv with
        | error reason =>
          rw [renderWindowsQuotedArgv, hparts] at hrendered
          contradiction
        | ok parts =>
          rw [renderWindowsQuotedArgv, hparts] at hrendered
          refine ⟨segment, argv, parts, rfl, hargv, hparts, ?_⟩
          obtain rfl := Except.ok.inj hrendered
          obtain rfl := Except.ok.inj h
          have hshape := renderWindowsParts_ok hparts
          cases hshape with
          | nil => exact absurd rfl (resolvePlannedSegmentArgv_ne_nil hargv)
          | cons _ _ =>
            rw [intercalate_spaced]
            rfl

/-- What the analysis accepts is one segment with the words of the command. -/
theorem analyzeWindowsShellCommand_ok {command : JsString} {resolve : List JsString → Option CommandResolution}
    {segments : List ExecCommandSegment} (h : analyzeWindowsShellCommand resolve command = .ok segments) :
    ∃ argv, tokenizeWindowsSegment (stripWindowsShellWrapper (trimUnits command)) = some argv ∧
      segments = [⟨argv, resolve argv⟩] := by
  unfold analyzeWindowsShellCommand at h
  dsimp only at h
  split at h
  · contradiction
  · split at h
    · contradiction
    case h_2 argv hargv => exact ⟨argv, hargv, (Except.ok.inj h).symm⟩

/-- **The rebuilt command.**  For every command that the analysis accepts, every resolution of its executable and every
command that is built for it, PowerShell reads one call of the planned words, and nothing else, exactly if none of them
has a double quote other than `"` or a `$` in front of what begins an expansion. -/
theorem rebuilt_reads_back_iff {command built : JsString} {resolve : List JsString → Option CommandResolution}
    {segments : List ExecCommandSegment} {platform : Option String}
    (hanalysed : analyzeWindowsShellCommand resolve command = .ok segments)
    (hbuilt : buildEnforcedShellCommand command segments platform = .ok built) :
    ∃ argv plannedArgv, tokenizeWindowsSegment (stripWindowsShellWrapper (trimUnits command)) = some argv ∧
      segments = [⟨argv, resolve argv⟩] ∧ resolvePlannedSegmentArgv ⟨argv, resolve argv⟩ = some plannedArgv ∧
      (readPowerShell isLetter built = some (callOf plannedArgv) ↔
        ∀ word ∈ plannedArgv, isVerbatim isLetter word = true) := by
  obtain ⟨argv, hargv, rfl⟩ := analyzeWindowsShellCommand_ok hanalysed
  obtain ⟨segment, plannedArgv, parts, hsegment, hplanned, hparts, rfl⟩ := buildEnforcedShellCommand_ok hbuilt
  obtain rfl := (List.cons.inj hsegment).1
  refine ⟨argv, plannedArgv, hargv, rfl, hplanned, ?_⟩
  rw [← read_parts (renderWindowsParts_ok hparts), readPowerShell, read_ampersand, callOf]
  constructor
  · intro hread
    obtain ⟨tokens, htokens, heq⟩ := Option.map_eq_some_iff.mp hread
    rw [htokens, (List.cons.inj heq).2]
  · intro hread
    rw [hread]
    rfl

/-- A command without unsupported tokens that splits into words is accepted. -/
theorem analyzeWindowsShellCommand_accepts {command : JsString}
    (hscan : findWindowsUnsupportedToken (stripWindowsShellWrapper (trimUnits command)) = none)
    (hwords : tokenizeWindowsSegment (stripWindowsShellWrapper (trimUnits command)) = some argv)
    (resolve : List JsString → Option CommandResolution) :
    analyzeWindowsShellCommand resolve command = .ok [⟨argv, resolve argv⟩] := by
  unfold analyzeWindowsShellCommand
  dsimp only
  rw [hscan, hwords]

/-- `rebuilt_reads_back_iff` for a quoted argument; nothing resolves its executable. -/
theorem rebuilt_reads_back_echo : ∃ argv plannedArgv,
      tokenizeWindowsSegment (stripWindowsShellWrapper (trimUnits (units "echo \"a b\""))) = some argv ∧
      [(⟨[units "echo", units "a b"], none⟩ : ExecCommandSegment)] = [⟨argv, none⟩] ∧
      resolvePlannedSegmentArgv ⟨argv, none⟩ = some plannedArgv ∧
      (readPowerShell isAsciiAlnum (units "& echo \"a b\"") = some (callOf plannedArgv) ↔
        ∀ word ∈ plannedArgv, isVerbatim isAsciiAlnum word = true) :=
  @rebuilt_reads_back_iff isAsciiAlnum (units "echo \"a b\"") (units "& echo \"a b\"") (fun _ => none)
    [⟨[units "echo", units "a b"], none⟩] (some "win32")
    (analyzeWindowsShellCommand_accepts (by decide +kernel) (by decide +kernel) _) (by decide +kernel)

/-- A command with two left double quotes in its argument: PowerShell runs what stands between them. -/
def injectedCommand : JsString := units "echo \"a\u201C;calc;\u201C\""

def injectedArgv : List JsString := [units "echo", units "a\u201C;calc;\u201C"]

theorem smart_quotes_inject :
    analyzeWindowsShellCommand (fun _ => none) injectedCommand = .ok [⟨injectedArgv, none⟩] ∧
      resolvePlannedSegmentArgv ⟨injectedArgv, none⟩ = some injectedArgv ∧
      buildEnforcedShellCommand injectedCommand [⟨injectedArgv, none⟩] (some "win32") =
        .ok (units "& " ++ injectedCommand) ∧ readPowerShell isAsciiAlnum (units "& " ++ injectedCommand) =
        some [.operator ampersand, .word (units "echo"), .word (units "a"), .operator (unitOf ';'),
          .word (units "calc"), .operator (unitOf ';'), .word []] ∧
      readPowerShell isAsciiAlnum (units "& " ++ injectedCommand) ≠ some (callOf injectedArgv) := by
  refine ⟨?_, ?_, ?_, ?_, ?_⟩
  · exact analyzeWindowsShellCommand_accepts (by decide +kernel) (by decide +kernel) _
  · decide +kernel
  · decide +kernel
  · decide +kernel
  · decide +kernel

end Commands

end OpenClaw.Infra
