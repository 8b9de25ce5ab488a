/-
# OpenClaw.Infra.ShellPayload -- the command string that a POSIX shell runs

The synopsis of `sh` reads options up to a terminator or the first operand, and runs the first operand if one of
the options is or contains `c`; options may follow that one.  `resolveInlineCommandMatch` takes the word right
behind the first `c` option and its names instead, and reads on behind a lone `-` and behind operands that are
blank or that look like an option once they are trimmed.  The two agree exactly where none of this shows
(`resolveInlineCommandMatch_iff`).
-/
import Mathlib.Tactic.Common
import OpenClaw.Infra.ShellInlineCommand

namespace OpenClaw.Infra

open OpenClaw.Data

/-! ## The synopsis -/

/-- The letters of an option word: behind `-` any letters, behind `+` any but `c`. -/
def optionLetters : JsString → Option JsString
  | [] => none
  | sign :: letters =>
    if letters ≠ [] && letters.all isAsciiLetter && (sign = dash || (sign = plus && !letters.contains (unitOf 'c')))
    then some letters
    else none

/-- A word that is an operand where an option could stand. -/
def isOperand (word : JsString) : Bool := word[0]? ≠ some dash && word[0]? ≠ some plus

/-- The words of a shell: whether an option is or contains `c`, the words right behind the first of these and its
names, the words behind all options, and the operands among these. -/
structure ShellWords where
  hasCommand : Bool
  behind : List JsString
  remaining : List JsString
  operands : List JsString
  deriving DecidableEq

/-- The words as the shell reads them, `names` of them option names first.  `-` and `--` end the options. -/
def readShellWords : Nat → List JsString → Option ShellWords
  | 0, [] => some ⟨false, [], [], []⟩
  | _ + 1, [] => none
  | names + 1, _ :: rest => readShellWords names rest
  | 0, word :: rest =>
    if word = units "--" || word = units "-" then some ⟨false, [], word :: rest, rest⟩
    else if isOperand word then some ⟨false, [], word :: rest, word :: rest⟩
    else
      match optionLetters word with
      | none => none
      | some letters =>
        let names := letters.countP isSeparateValueChar
        (readShellWords names rest).map fun read =>
          if letters.contains (unitOf 'c') then { read with hasCommand := true, behind := rest.drop names }
          else read

attribute [grind =] readShellWords

/-- The command string that the shell runs. -/
def ShellWords.executed (read : ShellWords) : Option JsString := if read.hasCommand then read.operands.head? else none

/-! ## Where the two differ -/

/-- A word that the scan passes over; the words of its names are not part of it. -/
def passes (word : JsString) : Bool :=
  trimUnits word = [] ||
    (trimUnits word ≠ units "--" && (matchCommandToken 0 (trimUnits word) []).isNone && isOptionToken (trimUnits word))

attribute [grind =] passes

/-- How many words behind a passed word are taken for its names. -/
def namesTaken (word : JsString) : Nat :=
  if trimUnits word = [] then 0 else advancePosixInlineOptionScan (trimUnits word) - 1

/-- Among the words one is taken for a `c` option, with a command that is not blank; only words that are passed
over stand before it. -/
inductive TakenForCommand : List JsString → Prop
  | here {word : JsString} {rest : List JsString} {found : InlineCommandMatch} :
      trimUnits word ≠ [] → trimUnits word ≠ units "--" →
      matchCommandToken 0 (trimUnits word) rest = some found → found.command ≠ none →
      TakenForCommand (word :: rest)
  | later {word : JsString} {rest : List JsString} :
      passes word = true → TakenForCommand (rest.drop (namesTaken word)) → TakenForCommand (word :: rest)

/-- **Where the inspected command is the executed one.**  Behind a `c` option: the word right behind it and its
names is the first operand, so no option and no terminator stands between them, and the operand is neither blank
nor surrounded by white space.  Without such an option: none of the words behind the options is taken for one. -/
def InspectsExecuted (read : ShellWords) : Prop :=
  if read.hasCommand then
    read.behind.head? = read.operands.head? ∧
      ∀ command, read.operands.head? = some command → trimUnits command = command ∧ command ≠ []
  else ¬ TakenForCommand read.remaining

/-! ## Option words -/

section OptionWords

variable {letters : JsString}

theorem isAsciiLetter_ne_dash {unit : CodeUnit} (h : isAsciiLetter unit = true) : unit ≠ dash := by
  rintro rfl
  revert h
  decide

theorem isAsciiLetter_val {unit : CodeUnit} (h : isAsciiLetter unit = true) : 0x41 ≤ unit.val ∧ unit.val ≤ 0x7A := by
  simp only [isAsciiLetter, isAsciiAlnum, Bool.and_eq_true, Bool.or_eq_true, Bool.not_eq_true', decide_eq_true_eq] at h
  rcases h with ⟨(hdigit | hupper) | hlower, hnot⟩
  · rw [hdigit] at hnot
    contradiction
  · omega
  · omega

theorem isAsciiLetter_not_white {unit : CodeUnit} (h : isAsciiLetter unit = true) : isWhiteUnit unit = false := by
  obtain ⟨hlow, hhigh⟩ := isAsciiLetter_val h
  exact isWhiteUnit_printable (by omega) (by omega)

theorem trimUnits_eq_self {text : JsString} (h : ∀ unit ∈ text, isWhiteUnit unit = false) : trimUnits text = text := by
  have hdrop : text.dropWhile isWhiteUnit = text := by
    cases text with
    | nil => rfl
    | cons unit rest => exact List.dropWhile_cons_of_neg (by simp [h unit])
  rw [trimUnits, stripBoth, hdrop, List.rdropWhile_eq_self_iff]
  intro hne
  simp [h _ (List.getLast_mem hne)]

/-- An option word has a sign and letters; `c` stands behind `-` only. -/
theorem optionLetters_eq_some {word : JsString} (h : optionLetters word = some letters) :
    ∃ sign, word = sign :: letters ∧ letters ≠ [] ∧ (∀ unit ∈ letters, isAsciiLetter unit = true) ∧
      (sign = dash ∨ (sign = plus ∧ unitOf 'c' ∉ letters)) := by
  cases word with
  | nil => simp [optionLetters] at h
  | cons sign units =>
    simp only [optionLetters] at h
    split at h
    case isFalse => simp at h
    case isTrue hletters =>
      obtain rfl : units = letters := by simpa using h
      simp only [Bool.and_eq_true, decide_eq_true_eq, List.all_eq_true, Bool.or_eq_true, Bool.not_eq_true',
        List.contains_eq_mem, decide_eq_false_iff_not] at hletters
      exact ⟨sign, rfl, hletters.1.1, hletters.1.2, hletters.2⟩

theorem trimUnits_option {sign : CodeUnit} (hsign : sign = dash ∨ sign = plus)
    (hletters : ∀ unit ∈ letters, isAsciiLetter unit = true) : trimUnits (sign :: letters) = sign :: letters := by
  apply trimUnits_eq_self
  intro unit hunit
  rcases List.mem_cons.mp hunit with rfl | hmem
  · rcases hsign with rfl | rfl
    · decide
    · decide
  · exact isAsciiLetter_not_white (hletters unit hmem)

theorem parseCombined_plus : parseCombinedCommandFlag (plus :: letters) = none := by
  have hplus : plus ≠ dash := by decide
  simp [parseCombinedCommandFlag, hplus]

theorem parseCombined_noCommand (hc : unitOf 'c' ∉ letters) : parseCombinedCommandFlag (dash :: letters) = none := by
  unfold parseCombinedCommandFlag
  split
  · rfl
  · simp [hc]

variable (hne : letters ≠ []) (hletters : ∀ unit ∈ letters, isAsciiLetter unit = true)
include hletters

theorem dash_not_mem : dash ∉ letters := by
  intro hdash
  exact isAsciiLetter_ne_dash (hletters _ hdash) rfl

theorem first_ne_dash : letters[0]? ≠ some dash := by
  intro hdash
  exact dash_not_mem hletters (List.mem_of_getElem? hdash)

include hne

theorem parseCombined_command (hc : unitOf 'c' ∈ letters) :
    parseCombinedCommandFlag (dash :: letters) = some ⟨none, letters.countP isSeparateValueChar⟩ := by
  have hfirst := first_ne_dash hletters
  have hlong : ¬(dash :: letters).length < 2 := Nat.not_lt.mpr (Nat.succ_le_succ (List.length_pos_iff.mpr hne))
  have hsuffix : (letters.drop (letters.idxOf (unitOf 'c') + 1)).all isAsciiLetter = true := by
    rw [List.all_eq_true]
    intro unit hunit
    exact hletters unit (List.mem_of_mem_drop hunit)
  have hshape : ((dash :: letters).length < 2 || (dash :: letters)[0]? ≠ some dash ||
      (dash :: letters)[1]? = some dash) = false := by
    rw [decide_eq_false hlong]
    simp [hfirst]
  unfold parseCombinedCommandFlag
  rw [hshape]
  simp [hc, dash_not_mem hletters, hsuffix, countSeparateValueOptionChars]

theorem advance_option {sign : CodeUnit} (hsign : sign = dash ∨ sign = plus) :
    advancePosixInlineOptionScan (sign :: letters) = 1 + letters.countP isSeparateValueChar := by
  have hfirst := first_ne_dash hletters
  have hlong : ¬(sign :: letters).length < 2 := Nat.not_lt.mpr (Nat.succ_le_succ (List.length_pos_iff.mpr hne))
  have hshape : ((sign :: letters).length < 2 ||
      ((sign :: letters)[0]? ≠ some dash && (sign :: letters)[0]? ≠ some plus) ||
      (sign :: letters)[1]? = some dash || ((sign :: letters).drop 1).contains dash) = false := by
    rw [decide_eq_false hlong]
    rcases hsign with rfl | rfl
    · simp [hfirst, dash_not_mem hletters]
    · simp [hfirst, dash_not_mem hletters]
  have hcount : combinedSeparateValueOptionCount (sign :: letters) = letters.countP isSeparateValueChar := by
    unfold combinedSeparateValueOptionCount
    rw [hshape]
    simp [countSeparateValueOptionChars]
  unfold advancePosixInlineOptionScan
  simp only [hcount]
  split
  · rfl
  · have hzero : letters.countP isSeparateValueChar = 0 := by omega
    have hseparate : consumesSeparateValue (sign :: letters) = false := by
      -- a word of the table has a dash as its second character, or an `o`
      rw [List.countP_eq_zero] at hzero
      apply Bool.eq_false_iff.mpr
      intro hmem
      rw [consumesSeparateValue, List.contains_iff_mem] at hmem
      have hall : ∀ token ∈ posixShellOptionsWithSeparateValues,
          token[1]? = some dash ∨ (token.drop 1).any isSeparateValueChar = true := by decide
      rcases hall _ hmem with hdash | ho
      · exact hfirst hdash
      · obtain ⟨unit, hunit, hsep⟩ := List.any_eq_true.mp ho
        exact hzero unit hunit hsep
    rw [hseparate, hzero]
    rfl

end OptionWords

/-! ## Option words and the scan -/

/-- An option word without a `c` is passed over, and its names are skipped. -/
theorem matchCommandToken_noCommand {sign : CodeUnit} {letters : JsString} (hsign : sign = dash ∨ sign = plus)
    (hc : unitOf 'c' ∉ letters) (i : Nat) (rest : List JsString) :
    matchCommandToken i (sign :: letters) rest = none := by
  have hflags : posixInlineCommandFlags.contains (sign :: letters) = false := by
    apply Bool.eq_false_iff.mpr
    intro hmem
    rw [List.contains_iff_mem] at hmem
    have hall : ∀ token ∈ posixInlineCommandFlags, unitOf 'c' ∈ token.drop 1 := by decide
    exact hc (hall _ hmem)
  have hparse : parseCombinedCommandFlag (sign :: letters) = none := by
    rcases hsign with rfl | rfl
    · exact parseCombined_noCommand hc
    · exact parseCombined_plus
  rw [matchCommandToken, hflags, hparse]
  rfl

/-- At an option word with a `c` the command is taken right behind the names. -/
theorem matchCommandToken_command {letters : JsString} (hne : letters ≠ [])
    (hletters : ∀ unit ∈ letters, isAsciiLetter unit = true) (hc : unitOf 'c' ∈ letters) (i : Nat)
    (rest : List JsString) : ∃ found, matchCommandToken i (dash :: letters) rest = some found ∧
      found.command = (rest.drop (letters.countP isSeparateValueChar)).head?.bind nonBlank := by
  by_cases hflags : posixInlineCommandFlags.contains (dash :: letters) = true
  · have hall : ∀ token ∈ posixInlineCommandFlags,
        token[1]? = some dash ∨ (token.drop 1).countP isSeparateValueChar = 0 := by decide
    rw [matchCommandToken, if_pos hflags]
    refine ⟨_, rfl, ?_⟩
    rcases hall _ (List.contains_iff_mem.mp hflags) with hdash | hzero
    · exact absurd hdash (first_ne_dash hletters)
    · rw [List.drop_one, List.tail_cons] at hzero
      rw [hzero, List.drop_zero, List.head?_eq_getElem?]
  · rw [matchCommandToken, if_neg hflags, parseCombined_command hne hletters hc]
    refine ⟨_, rfl, ?_⟩
    rw [List.head?_drop]

/-- Neither the place of a token nor the words behind it decide whether it is a command option. -/
theorem matchCommandToken_isNone (i j : Nat) (token : JsString) (rest more : List JsString) :
    (matchCommandToken i token rest).isNone = (matchCommandToken j token more).isNone := by
  unfold matchCommandToken
  split
  · rfl
  · split
    · rfl
    · rfl
    · rfl

theorem matchCommandToken_index (i j : Nat) (token : JsString) (rest : List JsString) :
    (matchCommandToken i token rest).map InlineCommandMatch.command =
      (matchCommandToken j token rest).map InlineCommandMatch.command := by
  unfold matchCommandToken
  split
  · rfl
  · split
    · rfl
    · rfl
    · rfl

/-! ## The scan, word by word -/

section Steps

variable {word : JsString} {rest : List JsString}

theorem scan_blank (h : trimUnits word = []) (i : Nat) :
    scanInlineCommand i 0 (word :: rest) = scanInlineCommand (i + 1) 0 rest := by
  simp [scanInlineCommand, h]

theorem scan_terminator (h : trimUnits word = units "--") (i : Nat) :
    scanInlineCommand i 0 (word :: rest) = ⟨none, none⟩ := by
  have hne : units "--" ≠ [] := by decide
  simp [scanInlineCommand, h, hne]

variable (hblank : trimUnits word ≠ []) (hterminator : trimUnits word ≠ units "--")
include hblank hterminator

theorem scan_found {i : Nat} {found : InlineCommandMatch}
    (h : matchCommandToken i (trimUnits word) rest = some found) : scanInlineCommand i 0 (word :: rest) = found := by
  simp [scanInlineCommand, hblank, hterminator, h]

theorem scan_operand {i : Nat} (h : matchCommandToken i (trimUnits word) rest = none)
    (hoption : isOptionToken (trimUnits word) = false) : scanInlineCommand i 0 (word :: rest) = ⟨none, none⟩ := by
  simp [scanInlineCommand, hblank, hterminator, h, hoption]

theorem scan_option {i : Nat} (h : matchCommandToken i (trimUnits word) rest = none)
    (hoption : isOptionToken (trimUnits word) = true) : scanInlineCommand i 0 (word :: rest) =
      scanInlineCommand (i + 1) (advancePosixInlineOptionScan (trimUnits word) - 1) rest := by
  simp [scanInlineCommand, hblank, hterminator, h, hoption]

end Steps

/-- The command does not depend on where the scan starts to count. -/
theorem scan_index (words : List JsString) :
    ∀ i j skip, (scanInlineCommand i skip words).command = (scanInlineCommand j skip words).command := by
  induction words with
  | nil =>
    intro i j skip
    rfl
  | cons word rest ih =>
    intro i j skip
    cases skip with
    | succ skip => exact ih (i + 1) (j + 1) skip
    | zero =>
      by_cases hblank : trimUnits word = []
      · rw [scan_blank hblank, scan_blank hblank]
        exact ih _ _ _
      · by_cases hterminator : trimUnits word = units "--"
        · rw [scan_terminator hterminator, scan_terminator hterminator]
        · have hindex := matchCommandToken_index i j (trimUnits word) rest
          cases hfound : matchCommandToken i (trimUnits word) rest with
          | some found =>
            rw [hfound] at hindex
            obtain ⟨other, hother, hcommand⟩ := Option.map_eq_some_iff.mp hindex.symm
            rw [scan_found hblank hterminator hfound, scan_found hblank hterminator hother, hcommand]
          | none =>
            rw [hfound] at hindex
            have hother := Option.map_eq_none_iff.mp hindex.symm
            by_cases hoption : isOptionToken (trimUnits word) = true
            · rw [scan_option hblank hterminator hfound hoption, scan_option hblank hterminator hother hoption]
              exact ih _ _ _
            · rw [Bool.not_eq_true] at hoption
              rw [scan_operand hblank hterminator hfound hoption, scan_operand hblank hterminator hother hoption]

/-- The scan finds a command exactly where a word is taken for a `c` option. -/
theorem scan_eq_none_iff (words : List JsString) :
    ∀ i skip, (scanInlineCommand i skip words).command = none ↔ ¬ TakenForCommand (words.drop skip) := by
  induction words with
  | nil =>
    intro i skip
    rw [List.drop_nil]
    refine ⟨?_, fun _ => by rfl⟩
    rintro - ⟨⟩
  | cons word rest ih =>
    intro i skip
    cases skip with
    | succ skip => exact ih (i + 1) skip
    | zero =>
      rw [List.drop_zero]
      by_cases hblank : trimUnits word = []
      · rw [scan_blank hblank, ih, List.drop_zero]
        apply not_congr
        have hnames : namesTaken word = 0 := if_pos hblank
        constructor
        · intro htaken
          refine .later (by simp [passes, hblank]) ?_
          rwa [hnames, List.drop_zero]
        · intro htaken
          cases htaken with
          | here hne => exact absurd hblank hne
          | later _ htaken => rwa [hnames, List.drop_zero] at htaken
      · by_cases hterminator : trimUnits word = units "--"
        · rw [scan_terminator hterminator]
          refine ⟨?_, fun _ => rfl⟩
          intro _ htaken
          cases htaken with
          | here _ hne => exact hne hterminator
          | later hpasses => simp [passes, hterminator] at hpasses
        · have hnone := matchCommandToken_isNone i 0 (trimUnits word) rest []
          cases hfound : matchCommandToken i (trimUnits word) rest with
          | some found =>
            rw [scan_found hblank hterminator hfound]
            have hindex := matchCommandToken_index i 0 (trimUnits word) rest
            rw [hfound] at hnone hindex
            obtain ⟨other, hother, hcommand⟩ := Option.map_eq_some_iff.mp hindex.symm
            rw [← hcommand]
            constructor
            · intro hcommandless htaken
              cases htaken with
              | here _ _ hmatch hne =>
                rw [hother] at hmatch
                cases hmatch
                exact hne hcommandless
              | later hpasses => simp [passes, hblank, ← hnone] at hpasses
            · intro htaken
              by_contra hne
              exact htaken (.here hblank hterminator hother hne)
          | none =>
            rw [hfound] at hnone
            have hindex := matchCommandToken_isNone i 0 (trimUnits word) rest rest
            rw [hfound] at hindex
            by_cases hoption : isOptionToken (trimUnits word) = true
            · rw [scan_option hblank hterminator hfound hoption, ih]
              apply not_congr
              have hnames : namesTaken word = advancePosixInlineOptionScan (trimUnits word) - 1 := if_neg hblank
              rw [← hnames]
              constructor
              · exact .later (by simp [passes, hterminator, ← hnone, hoption])
              · intro htaken
                cases htaken with
                | here _ _ hmatch => simp [hmatch] at hindex
                | later _ htaken => exact htaken
            · rw [Bool.not_eq_true] at hoption
              rw [scan_operand hblank hterminator hfound hoption]
              refine ⟨?_, fun _ => rfl⟩
              intro _ htaken
              cases htaken with
              | here _ _ hmatch => simp [hmatch] at hindex
              | later hpasses => simp [passes, hblank, hoption] at hpasses

/-! ## The scan and the shell -/

/-- One option word: its names are skipped, and the rest decides unless it is the first one with a `c`. -/
theorem read_option {word : JsString} {rest : List JsString} {read : ShellWords}
    (hterminator : ¬ (word = units "--" || word = units "-") = true) (hoperand : ¬ isOperand word = true)
    (h : readShellWords 0 (word :: rest) = some read) :
    ∃ letters inner, optionLetters word = some letters ∧
      readShellWords (letters.countP isSeparateValueChar) rest = some inner ∧
      read = if letters.contains (unitOf 'c') then
        { inner with hasCommand := true, behind := rest.drop (letters.countP isSeparateValueChar) } else inner := by
  rw [readShellWords, if_neg hterminator, if_neg hoperand] at h
  cases hletters : optionLetters word with
  | none => simp [hletters] at h
  | some letters =>
    simp only [hletters, Option.map_eq_some_iff] at h
    obtain ⟨inner, hinner, hread⟩ := h
    exact ⟨letters, inner, rfl, hinner, hread.symm⟩

/-- Behind the first `c` option stands the first operand, or an option word or a terminator. -/
theorem head_behind (words : List JsString) : ∀ names read, readShellWords names words = some read →
    ((words.drop names).head? = read.operands.head? ∨
      ∃ word, (words.drop names).head? = some word ∧ trimUnits word = word ∧ word ≠ []) := by
  induction words with
  | nil =>
    intro names read h
    cases names with
    | succ names => simp [readShellWords] at h
    | zero =>
      obtain rfl : _ = read := by simpa [readShellWords] using h
      exact Or.inl rfl
  | cons word rest ih =>
    intro names read h
    cases names with
    | succ names =>
      rw [readShellWords] at h
      exact ih names read h
    | zero =>
      rw [List.drop_zero, List.head?_cons]
      by_cases hterminator : (word = units "--" || word = units "-") = true
      · right
        refine ⟨word, rfl, ?_⟩
        simp only [Bool.or_eq_true, decide_eq_true_eq] at hterminator
        rcases hterminator with rfl | rfl
        · decide
        · decide
      · by_cases hoperand : isOperand word = true
        · left
          rw [readShellWords, if_neg hterminator, if_pos hoperand] at h
          obtain rfl := Option.some.inj h
          rfl
        · right
          obtain ⟨letters, -, hletters, -⟩ := read_option hterminator hoperand h
          obtain ⟨sign, rfl, -, hall, hsign⟩ := optionLetters_eq_some hletters
          exact ⟨_, rfl, trimUnits_option (hsign.imp id And.left) hall, List.cons_ne_nil _ _⟩

theorem behind_eq {words : List JsString} : ∀ {names read}, readShellWords names words = some read →
    read.hasCommand = true → (read.behind.head? = read.operands.head? ∨
      ∃ word, read.behind.head? = some word ∧ trimUnits word = word ∧ word ≠ []) := by
  induction words with
  | nil =>
    intro names read h hcommand
    cases names with
    | succ names => simp [readShellWords] at h
    | zero =>
      obtain rfl : _ = read := by simpa [readShellWords] using h
      contradiction
  | cons word rest ih =>
    intro names read h hcommand
    cases names with
    | succ names =>
      rw [readShellWords] at h
      exact ih h hcommand
    | zero =>
      by_cases hterminator : (word = units "--" || word = units "-") = true
      · rw [readShellWords, if_pos hterminator] at h
        obtain rfl := Option.some.inj h
        contradiction
      · by_cases hoperand : isOperand word = true
        · rw [readShellWords, if_neg hterminator, if_pos hoperand] at h
          obtain rfl := Option.some.inj h
          contradiction
        · obtain ⟨letters, inner, -, hinner, rfl⟩ := read_option hterminator hoperand h
          by_cases hc : letters.contains (unitOf 'c') = true
          · rw [if_pos hc]
            exact head_behind rest _ inner hinner
          · rw [if_neg hc] at hcommand ⊢
            exact ih hinner hcommand

/-- **The run lemma**: the scan takes the word behind the first `c` option and its names, or goes on behind all
options. -/
theorem scan_read (words : List JsString) : ∀ i names read, readShellWords names words = some read →
    (scanInlineCommand i names words).command =
      if read.hasCommand then read.behind.head?.bind nonBlank else (scanInlineCommand 0 0 read.remaining).command := by
  induction words with
  | nil =>
    intro i names read h
    cases names with
    | succ names => simp [readShellWords] at h
    | zero =>
      obtain rfl : _ = read := by simpa [readShellWords] using h
      rfl
  | cons word rest ih =>
    intro i names read h
    cases names with
    | succ names =>
      rw [readShellWords] at h
      exact ih (i + 1) names read h
    | zero =>
      by_cases hterminator : (word = units "--" || word = units "-") = true
      · rw [readShellWords, if_pos hterminator] at h
        obtain rfl := Option.some.inj h
        exact scan_index _ i 0 0
      · by_cases hoperand : isOperand word = true
        · rw [readShellWords, if_neg hterminator, if_pos hoperand] at h
          obtain rfl := Option.some.inj h
          exact scan_index _ i 0 0
        · obtain ⟨letters, inner, hletters, hinner, rfl⟩ := read_option hterminator hoperand h
          obtain ⟨sign, rfl, hne, hall, hsign⟩ := optionLetters_eq_some hletters
          have hboth : sign = dash ∨ sign = plus := hsign.imp id And.left
          have htrim := trimUnits_option hboth hall
          have hblank : trimUnits (sign :: letters) ≠ [] := by simp [htrim]
          have hdashes : trimUnits (sign :: letters) ≠ units "--" := by
            rw [htrim]
            intro heq
            simp [heq] at hterminator
          by_cases hc : unitOf 'c' ∈ letters
          · obtain rfl : sign = dash := hsign.resolve_right fun hplus => hplus.2 hc
            obtain ⟨found, hfound, hcommand⟩ := matchCommandToken_command hne hall hc i rest
            rw [scan_found hblank hdashes (by rw [htrim]; exact hfound), hcommand,
              if_pos (List.contains_iff_mem.mpr hc)]
            rfl
          · have hmatch := matchCommandToken_noCommand hboth hc i rest
            have hoption : isOptionToken (sign :: letters) = true := by
              rcases hboth with rfl | rfl
              · rfl
              · rfl
            have hcontains : ¬ letters.contains (unitOf 'c') = true := by rwa [List.contains_iff_mem]
            rw [scan_option hblank hdashes (by rw [htrim]; exact hmatch) (by rw [htrim]; exact hoption), htrim,
              advance_option hne hall hboth, Nat.add_sub_cancel_left, ih _ _ inner hinner]
            simp only [if_neg hcontains]

theorem bind_nonBlank_iff (command : Option JsString) :
    command.bind nonBlank = command ↔ ∀ text, command = some text → trimUnits text = text ∧ text ≠ [] := by
  cases command with
  | none => simp
  | some text =>
    rw [Option.bind_some]
    constructor
    · intro htext
      unfold nonBlank at htext
      split at htext
      case isTrue => simp at htext
      case isFalse hne =>
        have htrim : trimUnits text = text := Option.some.inj htext
        intro other hother
        obtain rfl := Option.some.inj hother
        exact ⟨htrim, htrim ▸ hne⟩
    · intro htext
      obtain ⟨htrim, hne⟩ := htext text rfl
      simp [nonBlank, htrim, hne]

/-- **The inspected command is the executed one** exactly where `InspectsExecuted` says. -/
theorem resolveInlineCommandMatch_iff {shell : JsString} {words : List JsString} {read : ShellWords}
    (h : readShellWords 0 words = some read) :
    (resolveInlineCommandMatch (shell :: words)).command = read.executed ↔ InspectsExecuted read := by
  have hscan : (resolveInlineCommandMatch (shell :: words)).command = _ := scan_read words 1 0 read h
  rw [hscan, ShellWords.executed, InspectsExecuted]
  by_cases hcommand : read.hasCommand = true
  · rw [if_pos hcommand, if_pos hcommand, if_pos hcommand]
    rcases behind_eq h hcommand with hsame | ⟨word, hhead, htrim, hne⟩
    · rw [hsame, bind_nonBlank_iff]
      simp
    · have hbind : nonBlank word = some word := by simp [nonBlank, htrim, hne]
      rw [hhead, Option.bind_some, hbind]
      constructor
      · intro heq
        refine ⟨heq, ?_⟩
        intro text htext
        obtain rfl : word = text := Option.some.inj (heq.trans htext)
        exact ⟨htrim, hne⟩
      · rintro ⟨heq, -⟩
        exact heq
  · rw [if_neg hcommand, if_neg hcommand, if_neg hcommand]
    exact scan_eq_none_iff read.remaining 0 0

/-! ## An option behind `-c` -/

/-- `sh -ec 'echo hi'` -/
theorem resolveInlineCommandMatch_iff_cluster :
    (resolveInlineCommandMatch [units "sh", units "-ec", units "echo hi"]).command =
        ShellWords.executed ⟨true, [units "echo hi"], [units "echo hi"], [units "echo hi"]⟩ ↔
      InspectsExecuted ⟨true, [units "echo hi"], [units "echo hi"], [units "echo hi"]⟩ :=
  resolveInlineCommandMatch_iff (by decide)

/-- `sh -c -- 'echo hi'` runs the text, and `--` is inspected. -/
theorem terminator_inspected :
    ∃ read, readShellWords 0 [units "-c", units "--", units "echo hi"] = some read ∧
      read.executed = some (units "echo hi") ∧
      (resolveInlineCommandMatch [units "sh", units "-c", units "--", units "echo hi"]).command =
        some (units "--") ∧
      (resolveInlineCommandMatch [units "sh", units "-c", units "--", units "echo hi"]).command ≠ read.executed := by
  refine ⟨⟨true, [units "--", units "echo hi"], [units "--", units "echo hi"], [units "echo hi"]⟩, ?_, ?_, ?_, ?_⟩
  · decide
  · decide
  · decide
  · decide

end OpenClaw.Infra
