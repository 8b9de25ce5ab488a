/-
# OpenClaw.Infra.AuthorizedCommands -- what is run is what was planned

The command for an authorized plan is the typed text with some ranges replaced.  What is written for an executable
or a step reads back as the planned words; and the scanner of the arguments that stay finds whatever bash would
expand, as long as no quote is escaped between `$'` and `'`, which it reads as a single-quoted string
(`authorized_command_faithful`).
-/
import Mathlib.Data.List.Forall2
import OpenClaw.Infra.ExecAuthorizationRender

namespace OpenClaw.Infra

open OpenClaw.Data

/-! ## Tokens read back -/

section Tokens

variable {rest : JsString}

theorem isBareUnit_plain {unit : CodeUnit} (h : isBareUnit unit = true) :
    isBlankUnit unit = false ∧ unit ≠ singleQuote ∧ unit ≠ doubleQuote ∧ unit ≠ unitOf '\\' ∧
      isShellSyntax unit = false := by
  refine ⟨?_, ?_, ?_, ?_, ?_⟩
  · apply Bool.eq_false_iff.mpr
    intro hblank
    simp only [isBlankUnit, Bool.or_eq_true, decide_eq_true_eq] at hblank
    rcases hblank with rfl | rfl
    · revert h
      decide
    · revert h
      decide
  · rintro rfl
    revert h
    decide
  · rintro rfl
    revert h
    decide
  · rintro rfl
    revert h
    decide
  · simp only [isBareUnit, isAsciiAlnum, isAsciiDigit, Bool.or_eq_true, Bool.and_eq_true, decide_eq_true_eq,
      List.mem_cons, List.not_mem_nil, or_false] at h
    simp only [isShellSyntax, List.mem_cons, List.not_mem_nil, or_false, decide_eq_false_iff_not]
    omega

theorem read_bare {token : JsString} : ∀ {word : Option JsString}, token.all isBareUnit = true → token ≠ [] →
    readWordsFrom .plain false word (token ++ rest) =
      readWordsFrom .plain false (some (word.getD [] ++ token)) rest := by
  induction token with
  | nil =>
    intro word _ hne
    exact absurd rfl hne
  | cons unit token ih =>
    intro word hall _
    rw [List.all_cons, Bool.and_eq_true] at hall
    obtain ⟨hblank, hsingle, hdouble, hback, hsyntax⟩ := isBareUnit_plain hall.1
    have hstep : readWordsFrom .plain false word (unit :: token ++ rest) =
        readWordsFrom .plain false (grown word unit) (token ++ rest) := by
      rw [List.cons_append, readWordsFrom, hblank, if_neg Bool.false_ne_true, if_neg hsingle, if_neg hdouble,
        if_neg hback, hsyntax, if_neg Bool.false_ne_true]
    rw [hstep]
    by_cases hnil : token = []
    · rw [hnil]
      rfl
    · rw [ih hall.2 hnil]
      simp [grown]

/-- A quote between single quotes: they are closed, it stands between double quotes, and they are opened again. -/
theorem read_quote (word rest : JsString) : readWordsFrom .single false (some word) (singleQuoteEscape ++ rest) =
      readWordsFrom .single false (some (word ++ [singleQuote])) rest := by
  have hne : singleQuote ≠ doubleQuote := by decide
  have hdouble : doubleQuote ≠ singleQuote := by decide
  have hblank : isBlankUnit singleQuote = false := by decide
  have hblank' : isBlankUnit doubleQuote = false := by decide
  have hback : singleQuote ≠ unitOf '\\' := by decide
  have hdollar : (singleQuote = unitOf '$' || singleQuote = unitOfNat 0x60) = false := by decide
  simp only [singleQuoteEscape, List.cons_append, List.nil_append, readWordsFrom, if_true, if_false, hne, hdouble,
    hblank, hblank', hback, hdollar, Bool.false_eq_true, grown, Option.getD_some]

theorem read_quoted (value : JsString) : ∀ word : JsString, readWordsFrom .single false (some word)
        (value.flatMap (fun unit => if unit = singleQuote then singleQuoteEscape else [unit]) ++ singleQuote :: rest) =
      readWordsFrom .plain false (some (word ++ value)) rest := by
  induction value with
  | nil =>
    intro word
    simp [readWordsFrom]
  | cons unit value ih =>
    intro word
    rw [List.flatMap_cons, List.append_assoc]
    by_cases hquote : unit = singleQuote
    · rw [if_pos hquote, read_quote, ih, hquote]
      simp
    · rw [if_neg hquote, List.singleton_append, readWordsFrom, if_neg hquote, grown, ih]
      simp

/-- **A token reads back as itself.** -/
theorem read_token (value : JsString) : readWordsFrom .plain false none (renderBareShellToken value ++ rest) =
      readWordsFrom .plain false (some value) rest := by
  unfold renderBareShellToken
  split
  case isTrue hbare =>
    simp only [Bool.and_eq_true, decide_eq_true_eq] at hbare
    rw [read_bare hbare.2 hbare.1]
    rfl
  case isFalse =>
    have hblank : isBlankUnit singleQuote = false := by decide
    rw [shellEscapeSingleArg, List.append_assoc, List.append_assoc, List.singleton_append, List.singleton_append,
      readWordsFrom, hblank, if_neg Bool.false_ne_true, if_pos rfl, read_quoted]
    rfl

theorem readWords_token (value : JsString) : readWords (renderBareShellToken value) = some [value] := by
  have hread := @read_token [] value
  rw [List.append_nil] at hread
  rw [readWords, hread]
  rfl

/-- **Words read back as themselves.** -/
theorem readWords_argv (argv : List JsString) : readWords (renderSourcePreservingArgv argv) = some argv := by
  unfold readWords renderSourcePreservingArgv
  induction argv with
  | nil => rfl
  | cons value argv ih =>
    cases argv with
    | nil =>
      rw [List.map_singleton, List.intercalate_singleton]
      exact readWords_token value
    | cons next argv =>
      have hspace : isBlankUnit (unitOf ' ') = true := by decide
      rw [List.map_cons, List.map_cons, List.intercalate_cons_cons, List.append_assoc, read_token,
        List.singleton_append, readWordsFrom, if_pos hspace, ← List.map_cons, ih]
      rfl

end Tokens

/-! ## The scanner and bash -/

/-- The quotes that the scanner knows: it reads `$'` like a single quote. -/
def scannerQuote : BashQuote → Option ScannerQuote
  | .plain => none
  | .single => some .single
  | .double => some .double
  | .ansi => some .single

/-- Where the scanner is while bash is in a state. -/
structure Follows (scanner : QuoteScanner) (state : BashState) : Prop where
  quote : scanner.quote = scannerQuote state.quote
  escaped : scanner.escaped = (state.escaped && !(state.quote = .ansi))
  wordStart : state.wordStart = true → scanner.atWordStart = true
  outside : state.wordStart = true → state.quote = .plain
  single : state.quote = .single → state.escaped = false

theorem isChar_unique {point : CodePoint} {c d : Char} (hc : point.isChar c = true) (hne : c ≠ d) :
    point.isChar d = false := by
  cases point with
  | char x =>
    obtain rfl : x = c := of_decide_eq_true hc
    exact decide_eq_false hne
  | lone unit => rfl

theorem isWhitePoint_of_endsWord {point : CodePoint} (h : endsWord point = true) : isWhitePoint point = true := by
  simp only [endsWord, Bool.or_eq_true] at h
  cases point with
  | lone unit => simp [CodePoint.isChar] at h
  | char c =>
    simp only [CodePoint.isChar, decide_eq_true_eq] at h
    rcases h with (rfl | rfl) | rfl
    · decide
    · decide
    · decide

section Scanner

variable {scanner : QuoteScanner} {point : CodePoint} {rest : List CodePoint}

/-- Outside of quotes and escapes, at a character that is none of these. -/
theorem expansionScan_plain (hescaped : scanner.escaped = false) (hquote : scanner.quote = none)
    (hback : point.isChar '\\' = false) (hsingle : point.isChar '\x27' = false)
    (hdouble : point.isChar '\x22' = false) :
    scanExpansionSource scanner (point :: rest) =
      if isWhitePoint point then scanExpansionSource { scanner with atWordStart := true } rest
      else if point.isChar '~' && scanner.atWordStart then true
      else if point.isChar '\x7b' || point.isChar '*' || point.isChar '?' || point.isChar '[' then true
      else scanExpansionSource { scanner with atWordStart := false } rest := by
  simp [scanExpansionSource, hescaped, hquote, hback, hsingle, hdouble]

/-- What bash expands is no quote, no backslash and no white space. -/
theorem expanding_char (h : opensPattern point = true ∨ point.isChar '~' = true) :
    isWhitePoint point = false ∧ point.isChar '\\' = false ∧ point.isChar '\x27' = false ∧
      point.isChar '\x22' = false := by
  cases point with
  | lone unit => simp [opensPattern, CodePoint.isChar] at h
  | char c =>
    simp only [opensPattern, CodePoint.isChar, Bool.or_eq_true, decide_eq_true_eq] at h
    rcases h with (((rfl | rfl) | rfl) | rfl) | rfl
    · decide
    · decide
    · decide
    · decide
    · decide

theorem expansionScan_found {state : BashState} (hfollows : Follows scanner state) (h : state.expandsAt point = true) :
    scanExpansionSource scanner (point :: rest) = true := by
  obtain ⟨quote, escaped, dollar, wordStart⟩ := state
  simp only [BashState.expandsAt, Bool.and_eq_true, Bool.or_eq_true, decide_eq_true_eq, Bool.not_eq_true'] at h
  obtain ⟨⟨rfl, rfl⟩, hchar⟩ := h
  have hescaped : scanner.escaped = false := hfollows.escaped
  obtain ⟨hwhite, hback, hsingle, hdouble⟩ := expanding_char (hchar.imp id And.right)
  rw [expansionScan_plain hescaped hfollows.quote hback hsingle hdouble, hwhite, if_neg Bool.false_ne_true]
  rcases hchar with hpattern | ⟨hstart, htilde⟩
  · have hsame : (point.isChar '\x7b' || point.isChar '*' || point.isChar '?' || point.isChar '[') = true := by
      simp only [opensPattern, Bool.or_eq_true] at hpattern ⊢
      tauto
    rw [hsame, if_pos rfl, ite_self]
  · rw [htilde, hfollows.wordStart hstart, Bool.and_self, if_pos rfl]

/-- Within a word. -/
theorem follows_within {quote : BashQuote} {escaped dollar : Bool} (hquote : scanner.quote = scannerQuote quote)
    (hescaped : scanner.escaped = (escaped && !(quote = .ansi))) (hsingle : quote = .single → escaped = false) :
    Follows scanner ⟨quote, escaped, dollar, false⟩ :=
  ⟨hquote, hescaped, fun h => absurd h Bool.false_ne_true, fun h => absurd h Bool.false_ne_true, hsingle⟩

theorem expansionScan_escaped (hescaped : scanner.escaped = true) :
    scanExpansionSource scanner (point :: rest) = scanExpansionSource { scanner with escaped := false } rest := by
  rw [scanExpansionSource, if_pos hescaped]

theorem expansionScan_back (hescaped : scanner.escaped = false) (hquote : scanner.quote ≠ some .single)
    (hback : point.isChar '\\' = true) :
    scanExpansionSource scanner (point :: rest) = scanExpansionSource { scanner with escaped := true } rest := by
  simp [scanExpansionSource, hescaped, hquote, hback]

theorem expansionScan_single (hescaped : scanner.escaped = false) (hquote : scanner.quote = some .single) :
    scanExpansionSource scanner (point :: rest) =
      scanExpansionSource { scanner with quote := if point.isChar '\x27' then none else some .single } rest := by
  simp [scanExpansionSource, hescaped, hquote]

theorem expansionScan_double (hescaped : scanner.escaped = false) (hquote : scanner.quote = some .double)
    (hback : point.isChar '\\' = false) :
    scanExpansionSource scanner (point :: rest) =
      scanExpansionSource { scanner with quote := if point.isChar '\x22' then none else some .double } rest := by
  simp [scanExpansionSource, hescaped, hquote, hback]

/-- Bash outside of quotes. -/
theorem expansionScan_plainStep {dollar wordStart : Bool}
    (hfollows : Follows scanner ⟨.plain, false, dollar, wordStart⟩) :
    ∃ next, Follows next (BashState.plainStep ⟨.plain, false, dollar, wordStart⟩ point) ∧
      ∀ rest, scanExpansionSource scanner (point :: rest) = true ∨
        scanExpansionSource scanner (point :: rest) = scanExpansionSource next rest := by
  have hescaped : scanner.escaped = false := hfollows.escaped
  have hquote : scanner.quote = none := hfollows.quote
  unfold BashState.plainStep
  by_cases hback : point.isChar '\\' = true
  · rw [if_pos hback]
    refine ⟨{ scanner with escaped := true }, ⟨hquote, rfl, hfollows.wordStart, fun _ => rfl, ?_⟩, ?_⟩
    · intro h
      contradiction
    · intro rest
      exact Or.inr (expansionScan_back hescaped (by simp [hquote]) hback)
  · rw [if_neg hback]
    rw [Bool.not_eq_true] at hback
    by_cases hsingle : point.isChar '\x27' = true
    · rw [if_pos hsingle]
      refine ⟨{ scanner with quote := some .single }, follows_within ?_ hescaped fun _ => rfl, ?_⟩
      · cases dollar with
        | true | false => rfl
      · intro rest
        right
        simp [scanExpansionSource, hescaped, hquote, hback, hsingle]
    · rw [if_neg hsingle]
      rw [Bool.not_eq_true] at hsingle
      by_cases hdouble : point.isChar '\x22' = true
      · rw [if_pos hdouble]
        refine ⟨{ scanner with quote := some .double }, follows_within rfl hescaped fun _ => rfl, ?_⟩
        intro rest
        right
        simp [scanExpansionSource, hescaped, hquote, hback, hsingle, hdouble]
      · -- an ordinary character; white space begins a word, for bash only some of it
        rw [if_neg hdouble]
        rw [Bool.not_eq_true] at hdouble
        refine ⟨{ scanner with atWordStart := isWhitePoint point },
          ⟨hquote, hescaped, isWhitePoint_of_endsWord, fun _ => rfl, fun _ => rfl⟩, ?_⟩
        intro rest
        rw [expansionScan_plain hescaped hquote hback hsingle hdouble]
        cases isWhitePoint point with
        | true => exact Or.inr (if_pos rfl)
        | false =>
          rw [if_neg Bool.false_ne_true]
          split
          · exact Or.inl rfl
          · split
            · exact Or.inl rfl
            · exact Or.inr rfl

/-- Behind a quote that may end here. -/
theorem scannerQuote_ending (quote : BashQuote) (closes : Bool) :
    (if closes then none else scannerQuote quote) = scannerQuote (if closes then .plain else quote) := by
  cases closes with
  | true | false => rfl

/-- One step of both: the scanner stops, or follows bash. -/
theorem expansionScan_step {state : BashState} (hfollows : Follows scanner state)
    (hansi : (state.quote = .ansi && state.escaped && point.isChar '\x27') = false) :
    ∃ next, Follows next (state.step point) ∧ ∀ rest, scanExpansionSource scanner (point :: rest) = true ∨
      scanExpansionSource scanner (point :: rest) = scanExpansionSource next rest := by
  obtain ⟨quote, escaped, dollar, wordStart⟩ := state
  obtain ⟨hquote, hescaped, hword, houtside, hnone⟩ := hfollows
  cases quote with
  | plain =>
    cases escaped with
    | true =>
      refine ⟨{ scanner with escaped := false }, ⟨hquote, rfl, ?_, fun _ => rfl, fun h => by cases h⟩, ?_⟩
      · intro hstart
        exact hword (Bool.and_eq_true_iff.mp hstart).2
      · intro rest
        exact Or.inr (expansionScan_escaped hescaped)
    | false => exact expansionScan_plainStep ⟨hquote, hescaped, hword, houtside, hnone⟩
  | single =>
    obtain rfl : escaped = false := hnone rfl
    refine ⟨{ scanner with quote := if point.isChar '\x27' then none else some .single }, ?_, ?_⟩
    · exact follows_within (scannerQuote_ending .single _) hescaped fun _ => rfl
    · intro rest
      exact Or.inr (expansionScan_single hescaped hquote)
  | double =>
    have hin : scanner.quote ≠ some .single := by simp [show scanner.quote = some .double from hquote]
    cases escaped with
    | true =>
      refine ⟨{ scanner with escaped := false }, follows_within hquote rfl fun _ => rfl, ?_⟩
      intro rest
      exact Or.inr (expansionScan_escaped hescaped)
    | false =>
      by_cases hback : point.isChar '\\' = true
      · refine ⟨{ scanner with escaped := true }, ?_, ?_⟩
        · rw [BashState.step, if_neg Bool.false_ne_true]
          dsimp only
          rw [if_pos hback]
          exact follows_within hquote rfl fun h => by cases h
        · intro rest
          exact Or.inr (expansionScan_back hescaped hin hback)
      · refine ⟨{ scanner with quote := if point.isChar '\x22' then none else some .double }, ?_, ?_⟩
        · rw [BashState.step, if_neg Bool.false_ne_true]
          dsimp only
          rw [if_neg hback]
          exact follows_within (scannerQuote_ending .double _) hescaped fun _ => rfl
        · intro rest
          exact Or.inr (expansionScan_double hescaped hquote (Bool.eq_false_iff.mpr hback))
  | ansi =>
    have hopen : scanner.escaped = false := by simpa using hescaped
    refine ⟨{ scanner with quote := if point.isChar '\x27' then none else some .single }, ?_, ?_⟩
    · cases escaped with
      | true =>
        -- an escaped character that is no quote
        have hchar : point.isChar '\x27' = false := by simpa using hansi
        rw [hchar]
        exact follows_within rfl hopen fun _ => rfl
      | false =>
        rw [BashState.step, if_neg Bool.false_ne_true]
        dsimp only
        by_cases hback : point.isChar '\\' = true
        · have hchar : point.isChar '\x27' = false := isChar_unique hback (by decide)
          rw [if_pos hback, hchar]
          exact follows_within rfl hopen fun h => by cases h
        · rw [if_neg hback]
          refine follows_within (scannerQuote_ending .ansi _) ?_ fun _ => rfl
          rw [Bool.false_and]
          exact hopen
    · intro rest
      exact Or.inr (expansionScan_single hopen hquote)

end Scanner

/-- **The scanner finds what bash expands**, as long as no quote is escaped between `$'` and `'`. -/
theorem scanExpansionSource_of_expands (points : List CodePoint) : ∀ {scanner state}, Follows scanner state →
    escapesQuoteFrom state points = false → expandsFrom state points = true →
    scanExpansionSource scanner points = true := by
  induction points with
  | nil =>
    intro scanner state _ _ hexpands
    exact absurd hexpands Bool.false_ne_true
  | cons point rest ih =>
    intro scanner state hfollows hansi hexpands
    rw [escapesQuoteFrom, Bool.or_eq_false_iff] at hansi
    rw [expandsFrom, Bool.or_eq_true] at hexpands
    rcases hexpands with hfound | hlater
    · exact expansionScan_found hfollows hfound
    · obtain ⟨next, hnext, hstep⟩ := expansionScan_step hfollows hansi.1
      rcases hstep rest with hstop | hgoes
      · exact hstop
      · rw [hgoes]
        exact ih hnext hansi.2 hlater

theorem expands_of_scan {text : JsString} (hansi : escapesQuote text = false)
    (hscan : hasUnquotedShellExpansionSource text = false) : expands text = false := by
  apply Bool.eq_false_iff.mpr
  intro hexpands
  have hfollows : Follows ⟨none, false, true⟩ ⟨.plain, false, false, true⟩ :=
    ⟨rfl, rfl, fun _ => rfl, fun _ => rfl, fun h => by cases h⟩
  have hfound := scanExpansionSource_of_expands (codePoints text) hfollows hansi hexpands
  rw [hasUnquotedShellExpansionSource, hfound] at hscan
  contradiction

/-! ## Candidates -/

/-- **A faithful rewrite** of a candidate: the words are the planned ones, with the resolved path first where the
execution has one; the whole step or the executable is replaced, by a text that reads back as these words; and
arguments that stay and that were checked hold nothing that bash expands, unless a quote is escaped between `$'`
and `'` in them. -/
structure FaithfulRewrite (mode : AuthorizedShellRenderMode) (candidate : ExecAuthorizationCandidate)
    (satisfiedBy : Option SatisfiedBy) (argv : List JsString) (edit : SourceReplacement) : Prop where
  planned : resolvePlannedSegmentArgv candidate.sourceSegment = some argv
  resolved : ∀ execution path, candidate.sourceSegment.resolution.bind (·.execution) = some execution →
    execution.resolvedRealPath = some path → trimUnits path ≠ [] → argv.head? = some (trimUnits path)
  step : hasDispatchWrapper candidate.sourceSegment = true → edit.start = candidate.sourceStep.span.startIndex ∧
    edit.stop = candidate.sourceStep.span.endIndex ∧ readWords edit.text = some argv
  executable : hasDispatchWrapper candidate.sourceSegment = false → ∃ executable rest, argv = executable :: rest ∧
    edit.start = candidate.sourceStep.executableSpan.startIndex ∧
    edit.stop = candidate.sourceStep.executableSpan.endIndex ∧ readWords edit.text = some [executable]
  arguments : hasDispatchWrapper candidate.sourceSegment = false → mode = .enforced ∨ satisfiedBy = some .safeBins →
    escapesQuote (argumentSource candidate) = false → expands (argumentSource candidate) = false

section Candidates

variable {command : JsString} {mode : AuthorizedShellRenderMode} {candidate : ExecAuthorizationCandidate}
  {satisfiedBy : Option SatisfiedBy} {argv : List JsString}

theorem planned_head (h : resolvePlannedSegmentArgv candidate.sourceSegment = some argv)
    {execution : ExecutableResolution} {path : JsString}
    (hexecution : candidate.sourceSegment.resolution.bind (·.execution) = some execution)
    (hpath : execution.resolvedRealPath = some path) (hne : trimUnits path ≠ []) :
    argv.head? = some (trimUnits path) := by
  unfold resolvePlannedSegmentArgv at h
  split at h
  · simp at h
  · simp only [hexecution, Option.bind_some, hpath, Option.map_some, Option.orElse_some, Option.getD_some] at h
    split at h
    · simp at h
    · rw [if_pos hne] at h
      rw [← Option.some.inj h]
      rfl

theorem validateSpan_ok {span : SourceSpan} {text : JsString} (h : validateSpan command span text = .ok ()) :
    span.startIndex ≤ span.endIndex ∧ span.endIndex ≤ command.length := by
  unfold validateSpan at h
  split at h
  · simp at h
  case isFalse hbounds =>
    simp only [Bool.or_eq_true, decide_eq_true_eq, not_or] at hbounds
    omega

/-- **One candidate**: it is left as it is, or rewritten faithfully within the command. -/
theorem replacementForCandidate_ok {replacement : Option SourceReplacement}
    (h : replacementForCandidate command candidate mode satisfiedBy = .ok replacement) :
    (shouldRewriteCandidate mode satisfiedBy = false ∧ replacement = none) ∨
      (shouldRewriteCandidate mode satisfiedBy = true ∧ ∃ edit argv, replacement = some edit ∧
        edit.start ≤ edit.stop ∧ edit.stop ≤ command.length ∧
        FaithfulRewrite mode candidate satisfiedBy argv edit) := by
  unfold replacementForCandidate at h
  cases hrewrite : shouldRewriteCandidate mode satisfiedBy with
  | false =>
    left
    rw [hrewrite] at h
    exact ⟨rfl, (Except.ok.inj h).symm⟩
  | true =>
    right
    refine ⟨rfl, ?_⟩
    simp only [hrewrite, Bool.not_true, Bool.false_eq_true, if_false] at h
    cases hplanned : resolvePlannedSegmentArgv candidate.sourceSegment with
    | none => simp [hplanned] at h
    | some argv =>
      simp only [hplanned] at h
      split at h
      · simp at h
      case isFalse hsafe =>
        split at h
        · simp at h
        case isFalse henforced =>
          split at h
          · simp at h
          · -- the checks on the arguments
            have harguments : mode = .enforced ∨ satisfiedBy = some .safeBins →
                escapesQuote (argumentSource candidate) = false → expands (argumentSource candidate) = false := by
              intro hchecked hansi
              apply expands_of_scan hansi
              apply Bool.eq_false_iff.mpr
              intro hscan
              have hscan' : hasArgumentShellExpansionSource candidate = true := hscan
              rcases hchecked with hmode | hsatisfied
              · simp [hmode, hscan'] at henforced
              · simp [hsatisfied, hscan'] at hsafe
            have hresolved : ∀ execution path,
                candidate.sourceSegment.resolution.bind (·.execution) = some execution →
                execution.resolvedRealPath = some path → trimUnits path ≠ [] →
                argv.head? = some (trimUnits path) :=
              fun _ _ hexecution hpath hne => planned_head hplanned hexecution hpath hne
            cases hwrapper : hasDispatchWrapper candidate.sourceSegment with
            | true =>
              simp only [hwrapper, if_true] at h
              cases hspan : validateSpan command candidate.sourceStep.span candidate.sourceStep.text with
              | error reason =>
                rw [hspan] at h
                cases h
              | ok checked =>
                rw [hspan] at h
                obtain ⟨hle, hlength⟩ := validateSpan_ok hspan
                refine ⟨_, argv, (Except.ok.inj h).symm, hle, hlength, hplanned, hresolved, ?_, ?_, ?_⟩
                · exact fun _ => ⟨rfl, rfl, readWords_argv argv⟩
                · exact fun hfalse => absurd hwrapper (by simp [hfalse])
                · exact fun hfalse => absurd hwrapper (by simp [hfalse])
            | false =>
              simp only [hwrapper, Bool.false_eq_true, if_false] at h
              split at h
              · simp at h
              case isFalse hexecutable =>
                split at h
                · simp at h
                · cases hspan : validateSpan command candidate.sourceStep.executableSpan
                    (sourceStepSlice candidate.sourceStep candidate.sourceStep.executableSpan) with
                  | error reason =>
                    rw [hspan] at h
                    cases h
                  | ok checked =>
                    rw [hspan] at h
                    obtain ⟨hle, hlength⟩ := validateSpan_ok hspan
                    refine ⟨_, argv, (Except.ok.inj h).symm, hle, hlength, hplanned, hresolved, ?_, ?_, ?_⟩
                    · exact fun htrue => absurd htrue (by simp [hwrapper])
                    · intro _
                      cases argv with
                      | nil => exact absurd rfl hexecutable
                      | cons executable rest =>
                        exact ⟨executable, rest, rfl, rfl, rfl, readWords_token executable⟩
                    · exact fun _ => harguments

end Candidates

/-! ## Plans -/

/-- The candidates that a mode rewrites. -/
def rewritten (mode : AuthorizedShellRenderMode) (candidates : List (ExecAuthorizationCandidate × Option SatisfiedBy)) :
    List (ExecAuthorizationCandidate × Option SatisfiedBy) :=
  candidates.filter fun pair => shouldRewriteCandidate mode pair.2

theorem collectCandidateReplacements_ok {command : JsString} {mode : AuthorizedShellRenderMode}
    (candidates : List (ExecAuthorizationCandidate × Option SatisfiedBy)) : ∀ {edits : List SourceReplacement},
    collectCandidateReplacements command mode candidates = .ok edits →
    List.Forall₂ (fun pair edit => (edit.start ≤ edit.stop ∧ edit.stop ≤ command.length) ∧
      ∃ argv, FaithfulRewrite mode pair.1 pair.2 argv edit) (rewritten mode candidates) edits := by
  induction candidates with
  | nil =>
    intro edits h
    obtain rfl := Except.ok.inj h
    exact .nil
  | cons pair rest ih =>
    intro edits h
    obtain ⟨candidate, satisfiedBy⟩ := pair
    rw [collectCandidateReplacements] at h
    cases hreplacement : replacementForCandidate command candidate mode satisfiedBy with
    | error reason =>
      rw [hreplacement] at h
      cases h
    | ok replacement =>
      rw [hreplacement] at h
      cases hothers : collectCandidateReplacements command mode rest with
      | error reason =>
        rw [hothers] at h
        cases h
      | ok others =>
        rw [hothers] at h
        obtain rfl := Except.ok.inj h
        rcases replacementForCandidate_ok hreplacement with
          ⟨hkept, rfl⟩ | ⟨hrewrite, edit, argv, rfl, hle, hlength, hfaithful⟩
        · rw [rewritten, List.filter_cons_of_neg (by simp [hkept])]
          exact ih hothers
        · rw [rewritten, List.filter_cons_of_pos (by exact hrewrite)]
          exact .cons ⟨⟨hle, hlength⟩, argv, hfaithful⟩ (ih hothers)

/-- What holds of each pair holds of each element of the second list. -/
theorem forall₂_right {α β : Type} {R : α → β → Prop} {P : β → Prop} {as : List α} {bs : List β}
    (h : List.Forall₂ R as bs) (hR : ∀ a b, R a b → P b) : ∀ b ∈ bs, P b := by
  induction h with
  | nil =>
    intro b hb
    exact absurd hb List.not_mem_nil
  | cons hab _ ih => exact List.forall_mem_cons.mpr ⟨hR _ _ hab, ih⟩

/-- **The command of an authorized plan**: each candidate that the mode rewrites is rewritten faithfully, and the
command is the typed one with these ranges replaced, none of which overlap, and everything between them kept. -/
theorem authorized_command_faithful {dialect : ExecAuthorizationDialect} {originalCommand command : JsString}
    {groups : List (List ExecAuthorizationCandidate)} {mode : AuthorizedShellRenderMode}
    {segmentSatisfiedBy : List (Option SatisfiedBy)}
    (h : buildAuthorizedShellCommandFromPlan (.ok dialect originalCommand groups) mode segmentSatisfiedBy =
      .ok command) : ∃ edits sorted : List SourceReplacement,
      List.Forall₂ (fun pair edit => ∃ argv, FaithfulRewrite mode pair.1 pair.2 argv edit)
        (rewritten mode (groups.flatten.zip segmentSatisfiedBy)) edits ∧
      sorted.Perm edits ∧ Spliced 0 sorted originalCommand command := by
  unfold buildAuthorizedShellCommandFromPlan at h
  dsimp only at h
  split at h
  · simp at h
  · split at h
    · simp at h
    · cases hcollect : collectCandidateReplacements originalCommand mode (groups.flatten.zip segmentSatisfiedBy) with
      | error reason =>
        rw [hcollect] at h
        cases h
      | ok edits =>
        rw [hcollect] at h
        have happly : applyReplacements originalCommand edits = .ok command := h
        have hrewrites := collectCandidateReplacements_ok _ hcollect
        unfold applyReplacements at happly
        dsimp only at happly
        split at happly
        · simp at happly
        case isFalse horder =>
          rw [Bool.not_eq_true', Bool.not_eq_false] at horder
          have hperm := List.mergeSort_perm edits fun left right => decide (left.start ≤ right.start)
          have hrange : ∀ edit ∈ edits.mergeSort (fun left right => decide (left.start ≤ right.start)),
              edit.start ≤ edit.stop ∧ edit.stop ≤ originalCommand.length := by
            intro edit hedit
            exact forall₂_right hrewrites (fun _ _ hpair => hpair.1) edit (hperm.mem_iff.mp hedit)
          obtain ⟨after, hafter, hspliced⟩ := applyEdits_spliced _ (Nat.zero_le _) horder hrange
          rw [List.take_zero, List.nil_append, Except.ok.inj happly] at hafter
          rw [List.drop_zero] at hspliced
          refine ⟨edits, _, List.Forall₂.imp (fun _ _ hpair => hpair.2) hrewrites, hperm, ?_⟩
          rw [hafter]
          exact hspliced

/-! ### Plans with one candidate -/

theorem applyReplacements_single (command : JsString) (edit : SourceReplacement) :
    applyReplacements command [edit] = .ok (applyEdits command [edit]) := by
  simp [applyReplacements, inOrder]

theorem buildAuthorizedShellCommandFromPlan_single {command : JsString} {candidate : ExecAuthorizationCandidate}
    {mode : AuthorizedShellRenderMode} {satisfiedBy : Option SatisfiedBy} {edit : SourceReplacement}
    (h : replacementForCandidate command candidate mode satisfiedBy = .ok (some edit)) :
    buildAuthorizedShellCommandFromPlan (.ok .posixShell command [[candidate]]) mode [satisfiedBy] =
      .ok (applyEdits command [edit]) := by
  have hcollect : collectCandidateReplacements command mode [(candidate, satisfiedBy)] = .ok [edit] := by
    rw [collectCandidateReplacements, h]
    rfl
  have hzip : [[candidate]].flatten.zip [satisfiedBy] = [(candidate, satisfiedBy)] := rfl
  unfold buildAuthorizedShellCommandFromPlan
  dsimp only
  rw [if_neg (by decide), if_neg (by simp), hzip, hcollect]
  exact applyReplacements_single command edit

/-- `head` with some arguments, found at `/usr/bin/head`. -/
def headCandidate (text : JsString) : ExecAuthorizationCandidate where
  sourceSegment :=
    { argv := [units "head"]
      resolution := some ⟨false, none, some ⟨some (units "/usr/bin/head"), none⟩, none⟩ }
  sourceStep := { text := text, span := ⟨0, text.length⟩, executableSpan := ⟨0, 4⟩ }
  transport := .direct

theorem authorized_head_faithful : ∃ edits sorted : List SourceReplacement,
      List.Forall₂ (fun pair edit => ∃ argv, FaithfulRewrite .enforced pair.1 pair.2 argv edit)
        (rewritten .enforced ([[headCandidate (units "head -c 16")]].flatten.zip [some .allowlist])) edits ∧
      sorted.Perm edits ∧ Spliced 0 sorted (units "head -c 16") (units "/usr/bin/head -c 16") := by
  apply authorized_command_faithful
  exact @buildAuthorizedShellCommandFromPlan_single _ _ _ _ ⟨0, 4, units "/usr/bin/head"⟩ rfl

/-- `env rg -n needle`, where `rg` was not found. -/
def envCandidate : ExecAuthorizationCandidate where
  sourceSegment :=
    { argv := [units "env", units "rg", units "-n", units "needle"]
      resolution := some ⟨false, some [units "rg", units "-n", units "needle"], some ⟨none, none⟩,
        some [units "env"]⟩ }
  sourceStep := { text := units "env rg -n needle", span := ⟨0, 16⟩, executableSpan := ⟨0, 3⟩ }
  transport := .direct

/-- An executable that was not found stays a name; the arguments of an inline chain are not looked at; and the
scanner is out of step with bash behind an escaped quote in `$'`, so it misses the star that follows. -/
theorem authorized_command_gaps :
    (buildAuthorizedShellCommandFromPlan (.ok .posixShell (units "env rg -n needle") [[envCandidate]]) .enforced
        [some .allowlist] = .ok (units "rg -n needle") ∧
      (resolvePlannedSegmentArgv envCandidate.sourceSegment).bind (·.head?) = some (units "rg")) ∧
    (buildAuthorizedShellCommandFromPlan (.ok .posixShell (units "head *") [[headCandidate (units "head *")]])
        .safeBins [some .inlineChain] = .ok (units "/usr/bin/head *") ∧
      expands (argumentSource (headCandidate (units "head *"))) = true) ∧
    (buildAuthorizedShellCommandFromPlan (.ok .posixShell (units "head $'\\'' *")
        [[headCandidate (units "head $'\\'' *")]]) .enforced [some .allowlist] =
          .ok (units "/usr/bin/head $'\\'' *") ∧
      expands (argumentSource (headCandidate (units "head $'\\'' *"))) = true) := by
  refine ⟨⟨?_, by decide⟩, ⟨?_, by decide⟩, ⟨?_, by decide⟩⟩
  · exact @buildAuthorizedShellCommandFromPlan_single _ _ _ _ ⟨0, 16, units "rg -n needle"⟩ rfl
  · exact @buildAuthorizedShellCommandFromPlan_single _ _ _ _ ⟨0, 4, units "/usr/bin/head"⟩ rfl
  · exact @buildAuthorizedShellCommandFromPlan_single _ _ _ _ ⟨0, 4, units "/usr/bin/head"⟩ rfl

end OpenClaw.Infra
