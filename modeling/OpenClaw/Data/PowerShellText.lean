/-
# OpenClaw.Data.PowerShellText -- words, quotes and operators of PowerShell

`readPowerShell` reads a text as words and operators.  Four characters are double quotes, and any of them ends a
string that another began; two of them together are one in the string.  So a text that is put between double quotes
with every `"` doubled is read back as it was exactly if it has none of the other three and no `$` that begins an
expansion (`readInQuotes`, `readInQuotes_fails`).

Which characters beyond ASCII are letters or digits is left open: `isLetter` is any set of them.
-/
import OpenClaw.Data.ShellText

namespace OpenClaw.Data

/-- `"` and what PowerShell takes for it: U+201C, U+201D and U+201E. -/
def isDoubleQuoteUnit (unit : CodeUnit) : Bool := unit.val ∈ [0x22, 0x201C, 0x201D, 0x201E]

/-- `'` and what PowerShell takes for it: U+2018 to U+201B. -/
def isSingleQuoteUnit (unit : CodeUnit) : Bool := unit.val ∈ [0x27, 0x2018, 0x2019, 0x201A, 0x201B]

def dollar : CodeUnit := unitOf '$'

def backtick : CodeUnit := unitOfNat 0x60

def ampersand : CodeUnit := unitOf '&'

/-- `; | & ( ) { }` -/
def isPowerShellOperator (unit : CodeUnit) : Bool := unit.val ∈ [0x3B, 0x7C, 0x26, 0x28, 0x29, 0x7B, 0x7D]

inductive PowerShellToken where
  | word (value : JsString)
  | operator (unit : CodeUnit)
  deriving DecidableEq

inductive PowerShellQuote where
  | single
  | double
  deriving DecidableEq

def PowerShellQuote.closes : PowerShellQuote → CodeUnit → Bool
  | single, unit => isSingleQuoteUnit unit
  | double, unit => isDoubleQuoteUnit unit

/-- Outside of quotes, with the word that is being read; or inside, where `inBare` says that the word began without a
quote. -/
inductive PowerShellMode where
  | plain (word : Option JsString)
  | quoted (quote : PowerShellQuote) (inBare : Bool) (word : JsString)

/-- The one call of the first word with the others. -/
def callOf (argv : List JsString) : List PowerShellToken := .operator ampersand :: argv.map .word

section Reading

variable (isLetter : CodeUnit → Bool)

/-- Behind a `$`: a letter, a digit, or one of `_ ? ^ $ ( :` and the opening brace. -/
def beginsExpansion (unit : CodeUnit) : Bool :=
  isAsciiAlnum unit || (0x80 ≤ unit.val && isLetter unit) || unit.val ∈ [0x5F, 0x3F, 0x5E, 0x24, 0x7B, 0x28, 0x3A]

def startsExpansion (unit : CodeUnit) (rest : JsString) : Bool :=
  unit = dollar && rest.head?.any (beginsExpansion isLetter)

/-- The tokens from here on; `none` is an expansion, or a string or an escape that the text ends in.  A word that began
with a quote ends with it. -/
def readPowerShellFrom : PowerShellMode → JsString → Option (List PowerShellToken)
  | .plain word, [] => some (word.toList.map .word)
  | .quoted .., [] => none
  | .plain word, unit :: rest =>
    if isWhiteUnit unit then (readPowerShellFrom (.plain none) rest).map (word.toList.map .word ++ ·)
    else if isPowerShellOperator unit then
      (readPowerShellFrom (.plain none) rest).map (word.toList.map .word ++ .operator unit :: ·)
    else if isDoubleQuoteUnit unit then readPowerShellFrom (.quoted .double word.isSome (word.getD [])) rest
    else if isSingleQuoteUnit unit then readPowerShellFrom (.quoted .single word.isSome (word.getD [])) rest
    else if startsExpansion isLetter unit rest then none
    else if unit = backtick then
      match rest with
      | [] => none
      | next :: behind => readPowerShellFrom (.plain (grown word next)) behind
    else readPowerShellFrom (.plain (grown word unit)) rest
  | .quoted quote inBare word, unit :: rest =>
    if quote.closes unit then
      match rest with
      | [] => some [.word word]
      | next :: behind =>
        if quote.closes next then readPowerShellFrom (.quoted quote inBare (word ++ [next])) behind
        else if inBare then readPowerShellFrom (.plain (some word)) (next :: behind)
        else (readPowerShellFrom (.plain none) (next :: behind)).map (.word word :: ·)
    else if quote = .double && startsExpansion isLetter unit rest then none
    else if quote = .double && unit = backtick then
      match rest with
      | [] => none
      | next :: behind => readPowerShellFrom (.quoted quote inBare (word ++ [next])) behind
    else readPowerShellFrom (.quoted quote inBare (word ++ [unit])) rest

attribute [grind =] readPowerShellFrom

def readPowerShell (text : JsString) : Option (List PowerShellToken) := readPowerShellFrom isLetter (.plain none) text

/-! ## Texts as they are -/

/-- What stands for itself outside of quotes. -/
def isLiteralUnit (unit : CodeUnit) : Bool :=
  !isWhiteUnit unit && !isPowerShellOperator unit && !isDoubleQuoteUnit unit && !isSingleQuoteUnit unit &&
    unit ≠ dollar && unit ≠ backtick

/-- A text with every `"` twice. -/
def doubled (value : JsString) : JsString :=
  value.flatMap fun unit => if unit = doubleQuote then [doubleQuote, doubleQuote] else [unit]

def inDoubleQuotes (value : JsString) : JsString := doubleQuote :: (doubled value ++ [doubleQuote])

/-- One of the three double quotes that are not `"`. -/
def isSmartQuote (unit : CodeUnit) : Bool := isDoubleQuoteUnit unit && unit ≠ doubleQuote

/-- Some `$` begins an expansion. -/
def hasExpansion : JsString → Bool
  | [] => false
  | unit :: rest => startsExpansion isLetter unit rest || hasExpansion rest

/-- **What double quotes keep as it is.** -/
def isVerbatim (value : JsString) : Bool := !value.any isSmartQuote && !hasExpansion isLetter value

end Reading

variable {isLetter : CodeUnit → Bool} {word value rest : JsString} {unit next : CodeUnit}

theorem doubleQuote_closes : isDoubleQuoteUnit doubleQuote = true := by decide

theorem smart_closes (h : isSmartQuote unit = true) : isDoubleQuoteUnit unit = true := (Bool.and_eq_true _ _ ▸ h).1

theorem not_closes (hne : unit ≠ doubleQuote) (h : isSmartQuote unit = false) : isDoubleQuoteUnit unit = false := by
  rw [isSmartQuote, decide_eq_true hne, Bool.and_true] at h
  exact h

theorem doubled_quote (value : JsString) : doubled (doubleQuote :: value) = doubleQuote :: doubleQuote :: doubled value := by
  rw [doubled, List.flatMap_cons, if_pos rfl]
  rfl

theorem doubled_cons (h : unit ≠ doubleQuote) : doubled (unit :: value) = unit :: doubled value := by
  rw [doubled, List.flatMap_cons, if_neg h]
  rfl

/-! ### Outside of quotes -/

theorem literal_step {word : Option JsString} (h : isLiteralUnit unit = true) :
    readPowerShellFrom isLetter (.plain word) (unit :: rest) =
      readPowerShellFrom isLetter (.plain (grown word unit)) rest := by
  simp only [isLiteralUnit, Bool.and_eq_true, Bool.not_eq_true', decide_eq_true_eq] at h
  obtain ⟨⟨⟨⟨⟨hwhite, hoperator⟩, hdouble⟩, hsingle⟩, hdollar⟩, hbacktick⟩ := h
  have hexpands : startsExpansion isLetter unit rest = false := by
    rw [startsExpansion, decide_eq_false hdollar, Bool.false_and]
  cases rest with
  | nil => simp only [readPowerShellFrom, hwhite, hoperator, hdouble, hsingle, hexpands, if_neg hbacktick,
      if_neg Bool.false_ne_true]
  | cons next behind => simp only [readPowerShellFrom, hwhite, hoperator, hdouble, hsingle, hexpands,
      if_neg hbacktick, if_neg Bool.false_ne_true]

/-- **A text of literal units** is all in the word. -/
theorem readBare {word : Option JsString} (h : value.all isLiteralUnit = true) (hne : value ≠ []) :
    readPowerShellFrom isLetter (.plain word) (value ++ rest) =
      readPowerShellFrom isLetter (.plain (some (word.getD [] ++ value))) rest := by
  induction value generalizing word with
  | nil => contradiction
  | cons unit value ih =>
    rw [List.all_cons, Bool.and_eq_true] at h
    rw [List.cons_append, literal_step h.1]
    by_cases hnil : value = []
    · rw [hnil]
      rfl
    · rw [ih h.2 hnil]
      simp [grown]

theorem read_space (word : Option JsString) (rest : JsString) :
    readPowerShellFrom isLetter (.plain word) (unitOf ' ' :: rest) =
      (readPowerShellFrom isLetter (.plain none) rest).map (word.toList.map .word ++ ·) := by
  have hwhite : isWhiteUnit (unitOf ' ') = true := by decide
  cases rest with
  | nil =>
    rw [readPowerShellFrom, readPowerShellFrom, if_pos hwhite, readPowerShellFrom]
  | cons next behind => rw [readPowerShellFrom, if_pos hwhite]

theorem read_ampersand (rest : JsString) : readPowerShellFrom isLetter (.plain none) (ampersand :: rest) =
      (readPowerShellFrom isLetter (.plain none) rest).map (.operator ampersand :: ·) := by
  have hwhite : ¬isWhiteUnit ampersand = true := by decide
  have hoperator : isPowerShellOperator ampersand = true := by decide
  cases rest with
  | nil =>
    rw [readPowerShellFrom, readPowerShellFrom, if_neg hwhite, if_pos hoperator]
    rfl
  | cons next behind =>
    rw [readPowerShellFrom, if_neg hwhite, if_pos hoperator]
    rfl

theorem read_opening (rest : JsString) : readPowerShellFrom isLetter (.plain none) (doubleQuote :: rest) =
      readPowerShellFrom isLetter (.quoted .double false []) rest := by
  have hwhite : ¬isWhiteUnit doubleQuote = true := by decide
  have hoperator : ¬isPowerShellOperator doubleQuote = true := by decide
  cases rest with
  | nil =>
    rw [readPowerShellFrom, readPowerShellFrom, if_neg hwhite, if_neg hoperator, if_pos doubleQuote_closes]
    rfl
  | cons next behind =>
    rw [readPowerShellFrom, if_neg hwhite, if_neg hoperator, if_pos doubleQuote_closes]
    rfl

/-- The text ends here, or a space stands in front. -/
def Separated (rest : JsString) : Prop := rest = [] ∨ ∃ behind, rest = unitOf ' ' :: behind

theorem Separated.head (h : Separated rest) : rest.head?.any isDoubleQuoteUnit = false := by
  rcases h with rfl | ⟨behind, rfl⟩
  · rfl
  · rfl

/-- The word that was begun ends there. -/
theorem Separated.endsWord (h : Separated rest) (value : JsString) :
    readPowerShellFrom isLetter (.plain (some value)) rest =
      (readPowerShellFrom isLetter (.plain none) rest).map (.word value :: ·) := by
  rcases h with rfl | ⟨behind, rfl⟩
  · rfl
  · rw [read_space, read_space, Option.map_map]
    rfl

/-! ### One step inside -/

theorem double_open (h : isDoubleQuoteUnit unit = false) : ¬PowerShellQuote.closes .double unit = true := by
  rw [PowerShellQuote.closes, h]
  exact Bool.false_ne_true

theorem inside_pair (h : isDoubleQuoteUnit unit = true) (hnext : isDoubleQuoteUnit next = true) :
    readPowerShellFrom isLetter (.quoted .double false word) (unit :: next :: rest) =
      readPowerShellFrom isLetter (.quoted .double false (word ++ [next])) rest := by
  rw [readPowerShellFrom]
  exact (if_pos h).trans (if_pos hnext)

theorem inside_close (h : isDoubleQuoteUnit unit = true) (hrest : rest.head?.any isDoubleQuoteUnit = false) :
    readPowerShellFrom isLetter (.quoted .double false word) (unit :: rest) =
      (readPowerShellFrom isLetter (.plain none) rest).map (.word word :: ·) := by
  cases rest with
  | nil =>
    rw [readPowerShellFrom]
    exact if_pos h
  | cons next behind =>
    rw [List.head?_cons, Option.any_some] at hrest
    rw [readPowerShellFrom]
    exact (if_pos h).trans ((if_neg (double_open hrest)).trans (if_neg Bool.false_ne_true))

theorem inside_expands (h : isDoubleQuoteUnit unit = false) (hexpands : startsExpansion isLetter unit rest = true) :
    readPowerShellFrom isLetter (.quoted .double false word) (unit :: rest) = none := by
  cases rest with
  | nil =>
    rw [startsExpansion, List.head?_nil, Option.any_none, Bool.and_false] at hexpands
    contradiction
  | cons next behind =>
    rw [readPowerShellFrom, if_neg (double_open h), if_pos]
    rw [hexpands]
    rfl

theorem inside_plain (h : isDoubleQuoteUnit unit = false) (hbacktick : unit ≠ backtick)
    (hexpands : startsExpansion isLetter unit rest = false) :
    readPowerShellFrom isLetter (.quoted .double false word) (unit :: rest) =
      readPowerShellFrom isLetter (.quoted .double false (word ++ [unit])) rest := by
  cases rest with
  | nil =>
    rw [readPowerShellFrom, readPowerShellFrom, if_neg (double_open h), hexpands, decide_eq_false hbacktick]
    rfl
  | cons next behind =>
    rw [readPowerShellFrom, if_neg (double_open h), hexpands, decide_eq_false hbacktick]
    rfl

/-- A string only grows. -/
theorem word_grows {text : JsString} {tokens : List PowerShellToken}
    (h : readPowerShellFrom isLetter (.quoted .double false word) text = some tokens) :
    ∃ more behind, tokens = .word (word ++ more) :: behind := by
  obtain ⟨n, hn⟩ : ∃ n, n = text.length := ⟨_, rfl⟩
  induction n using Nat.strongRecOn generalizing text word with
  | _ n ih =>
    -- what is read behind one more unit
    have hone : ∀ {unit : CodeUnit} {rest : JsString}, rest.length < n →
        readPowerShellFrom isLetter (.quoted .double false (word ++ [unit])) rest = some tokens →
        ∃ more behind, tokens = .word (word ++ more) :: behind := by
      intro unit rest hless hrest
      obtain ⟨more, behind, htokens⟩ := ih _ hless hrest rfl
      refine ⟨unit :: more, behind, ?_⟩
      rw [htokens, List.append_assoc, List.singleton_append]
    cases text with
    | nil => contradiction
    | cons unit rest =>
      rw [List.length_cons] at hn
      by_cases hquote : isDoubleQuoteUnit unit = true
      · cases hpair : rest.head?.any isDoubleQuoteUnit with
        | false =>
          rw [inside_close hquote hpair, Option.map_eq_some_iff] at h
          obtain ⟨behind, -, htokens⟩ := h
          refine ⟨[], behind, ?_⟩
          rw [List.append_nil, htokens]
        | true =>
          cases rest with
          | nil => contradiction
          | cons next rest =>
            rw [inside_pair hquote hpair] at h
            rw [List.length_cons] at hn
            exact hone (by omega) h
      · rw [Bool.not_eq_true] at hquote
        cases hexpands : startsExpansion isLetter unit rest with
        | true =>
          rw [inside_expands hquote hexpands] at h
          contradiction
        | false =>
          by_cases hbacktick : unit = backtick
          · cases rest with
            | nil =>
              rw [readPowerShellFrom, if_neg (double_open hquote), hexpands, decide_eq_true hbacktick] at h
              contradiction
            | cons next rest =>
              rw [readPowerShellFrom, if_neg (double_open hquote), hexpands, decide_eq_true hbacktick] at h
              rw [List.length_cons] at hn
              exact hone (by omega) h
          · rw [inside_plain hquote hbacktick hexpands] at h
            exact hone (by omega) h

/-- The first unit that is read is the first of the word. -/
theorem first_read {text target : JsString} {tokens : List PowerShellToken}
    (h : readPowerShellFrom isLetter (.quoted .double false (word ++ [unit])) text =
      some (.word (word ++ target) :: tokens)) : ∃ more, target = unit :: more := by
  obtain ⟨more, behind, htokens⟩ := word_grows h
  refine ⟨more, ?_⟩
  have hword := PowerShellToken.word.inj (List.cons.inj htokens).1
  rw [List.append_assoc] at hword
  exact List.append_cancel_left hword

/-! ### A whole text inside -/

theorem startsExpansion_doubled (unit : CodeUnit) (value rest : JsString) :
    startsExpansion isLetter unit (doubled value ++ doubleQuote :: rest) = startsExpansion isLetter unit value := by
  unfold startsExpansion
  cases value with
  | nil =>
    have hquote : beginsExpansion isLetter doubleQuote = false := rfl
    show (decide (unit = dollar) && beginsExpansion isLetter doubleQuote) = (decide (unit = dollar) && false)
    rw [hquote]
  | cons first value =>
    by_cases hfirst : first = doubleQuote
    · rw [hfirst, doubled_quote]
      rfl
    · rw [doubled_cons hfirst]
      rfl

theorem quote_starts_nothing (rest : JsString) : startsExpansion isLetter doubleQuote rest = false := rfl

theorem isVerbatim_cons (unit : CodeUnit) (value : JsString) : isVerbatim isLetter (unit :: value) =
      (!isSmartQuote unit && !startsExpansion isLetter unit value && isVerbatim isLetter value) := by
  rw [isVerbatim, isVerbatim, List.any_cons, hasExpansion]
  cases isSmartQuote unit <;> cases startsExpansion isLetter unit value <;> simp

theorem literal_verbatim (h : value.all isLiteralUnit = true) : isVerbatim isLetter value = true := by
  induction value with
  | nil => rfl
  | cons unit value ih =>
    rw [List.all_cons, Bool.and_eq_true] at h
    have hunit := h.1
    simp only [isLiteralUnit, Bool.and_eq_true, Bool.not_eq_true', decide_eq_true_eq] at hunit
    have hexpands : startsExpansion isLetter unit value = false := by
      rw [startsExpansion, decide_eq_false hunit.1.2, Bool.false_and]
    rw [isVerbatim_cons, isSmartQuote, hunit.1.1.1.2, hexpands, ih h.2]
    rfl

/-- **A verbatim text between double quotes** is one word, the text itself. -/
theorem readInQuotes (hverbatim : isVerbatim isLetter value = true) (hbacktick : backtick ∉ value)
    (hrest : rest.head?.any isDoubleQuoteUnit = false) :
    readPowerShellFrom isLetter (.quoted .double false word) (doubled value ++ doubleQuote :: rest) =
      (readPowerShellFrom isLetter (.plain none) rest).map (.word (word ++ value) :: ·) := by
  induction value generalizing word with
  | nil =>
    rw [List.append_nil]
    exact inside_close doubleQuote_closes hrest
  | cons unit value ih =>
    rw [isVerbatim_cons, Bool.and_eq_true, Bool.and_eq_true, Bool.not_eq_true', Bool.not_eq_true'] at hverbatim
    obtain ⟨⟨hsmart, hexpands⟩, hverbatim⟩ := hverbatim
    rw [List.mem_cons, not_or] at hbacktick
    have hvalue := @ih (word ++ [unit]) hverbatim hbacktick.2
    rw [List.append_assoc, List.singleton_append] at hvalue
    by_cases hunit : unit = doubleQuote
    · subst hunit
      rw [doubled_quote, List.cons_append, List.cons_append, inside_pair doubleQuote_closes doubleQuote_closes, hvalue]
    · rw [doubled_cons hunit, List.cons_append, inside_plain (not_closes hunit hsmart) (Ne.symm hbacktick.1), hvalue]
      rw [startsExpansion_doubled, hexpands]

theorem smart_ne_doubleQuote (h : isSmartQuote unit = true) : unit ≠ doubleQuote := by
  rintro rfl
  exact absurd h (by decide)

/-- **Behind a smart quote.**  What is still to be read back is some smart quotes and the text, and so it is with what
is left of both after every pair: what is read always lags behind. -/
theorem reading_lags {smart target : JsString} {tokens : List PowerShellToken} (hbacktick : backtick ∉ value)
    (hrest : rest.head?.any isDoubleQuoteUnit = false) (htarget : target = smart ++ value)
    (hsmart : ∀ unit ∈ smart, isSmartQuote unit = true) (hfirst : ∃ first more, target = first :: more ∧
      isSmartQuote first = true) :
    readPowerShellFrom isLetter (.quoted .double false word) (doubled value ++ doubleQuote :: rest) ≠
      some (.word (word ++ target) :: tokens) := by
  intro h
  obtain ⟨first, more, hmore, hfirst⟩ := hfirst
  obtain ⟨n, hn⟩ : ∃ n, n = value.length := ⟨_, rfl⟩
  induction n using Nat.strongRecOn generalizing word value smart target first more with
  | _ n ih =>
    -- a string that ends here is too short
    have hends : ∀ {text : JsString} {found : Option (List PowerShellToken)}, found = some (.word (word ++ target) ::
        tokens) → found = (readPowerShellFrom isLetter (.plain none) text).map (.word word :: ·) → False := by
      intro text found hfound hclose
      rw [hfound] at hclose
      obtain ⟨behind, -, htokens⟩ := Option.map_eq_some_iff.mp hclose.symm
      have hword := PowerShellToken.word.inj (List.cons.inj htokens).1
      rw [hmore] at hword
      have hlength := congrArg List.length hword
      rw [List.length_append, List.length_cons] at hlength
      omega
    -- the first unit that is read is a smart quote
    have hread : ∀ {unit : CodeUnit} {text : JsString},
        readPowerShellFrom isLetter (.quoted .double false (word ++ [unit])) text =
          some (.word (word ++ target) :: tokens) → unit = first := by
      intro unit text htext
      obtain ⟨more', hmore'⟩ := first_read htext
      exact (List.cons.inj (hmore'.symm.trans hmore)).1
    have hquote : ∀ {text : JsString},
        readPowerShellFrom isLetter (.quoted .double false (word ++ [doubleQuote])) text ≠
          some (.word (word ++ target) :: tokens) := by
      intro text htext
      exact smart_ne_doubleQuote hfirst (hread htext).symm
    cases value with
    | nil =>
      exact hends h (inside_close doubleQuote_closes hrest)
    | cons unit value =>
      rw [List.mem_cons, not_or] at hbacktick
      by_cases hunit : unit = doubleQuote
      · rw [hunit, doubled_quote, List.cons_append, List.cons_append,
          inside_pair doubleQuote_closes doubleQuote_closes] at h
        exact hquote h
      · rw [doubled_cons hunit, List.cons_append] at h
        cases hunitSmart : isSmartQuote unit with
        | false =>
          have hopen := not_closes hunit hunitSmart
          cases hexpands : startsExpansion isLetter unit (doubled value ++ doubleQuote :: rest) with
          | true =>
            rw [inside_expands hopen hexpands] at h
            contradiction
          | false =>
            rw [inside_plain hopen (Ne.symm hbacktick.1) hexpands] at h
            rw [hread h, hfirst] at hunitSmart
            contradiction
        | true =>
          have hcloses := smart_closes hunitSmart
          cases value with
          | nil =>
            exact hquote ((inside_pair hcloses doubleQuote_closes).symm.trans h)
          | cons next value =>
            by_cases hnext : next = doubleQuote
            · rw [hnext, doubled_quote, List.cons_append, List.cons_append,
                inside_pair hcloses doubleQuote_closes] at h
              exact hquote h
            · rw [doubled_cons hnext, List.cons_append] at h
              cases hnextSmart : isSmartQuote next with
              | false =>
                refine hends h (inside_close hcloses ?_)
                exact not_closes hnext hnextSmart
              | true =>
                rw [inside_pair hcloses (smart_closes hnextSmart)] at h
                obtain rfl := hread h
                rw [List.mem_cons, not_or] at hbacktick
                rw [List.length_cons, List.length_cons] at hn
                -- one smart quote is read, and two are behind it
                obtain ⟨smart', hsmart', hleft⟩ : ∃ smart', (∀ unit ∈ smart', isSmartQuote unit = true) ∧
                    more = smart' ++ value ∧ smart' ≠ [] := by
                  cases smart with
                  | nil =>
                    refine ⟨[next], ?_, ?_, by simp⟩
                    · intro unit hmem
                      rw [List.mem_singleton.mp hmem]
                      exact hnextSmart
                    · rw [hmore] at htarget
                      exact (List.cons.inj htarget).2
                  | cons first smart =>
                    refine ⟨smart ++ [unit, next], ?_, ?_, by simp⟩
                    · intro other hmem
                      rcases List.mem_append.mp hmem with hmem | hmem
                      · exact hsmart _ (List.mem_cons_of_mem _ hmem)
                      · rcases List.mem_cons.mp hmem with rfl | hmem
                        · exact hunitSmart
                        · rw [List.mem_singleton.mp hmem]
                          exact hnextSmart
                    · rw [hmore, List.cons_append] at htarget
                      rw [(List.cons.inj htarget).2, List.append_assoc]
                      rfl
                have hword : word ++ target = (word ++ [next]) ++ more := by
                  rw [hmore, List.append_assoc, List.singleton_append]
                rw [hword] at h
                cases smart' with
                | nil => exact hleft.2 rfl
                | cons head smart' =>
                  exact ih value.length (by omega) hbacktick.2.2 hleft.1 hsmart' h head (smart' ++ value)
                    hleft.1 (hsmart' head List.mem_cons_self) rfl

/-- **Any other text between double quotes** is not read back. -/
theorem readInQuotes_fails {tokens : List PowerShellToken} (hverbatim : isVerbatim isLetter value = false)
    (hbacktick : backtick ∉ value) (hrest : rest.head?.any isDoubleQuoteUnit = false) :
    readPowerShellFrom isLetter (.quoted .double false word) (doubled value ++ doubleQuote :: rest) ≠
      some (.word (word ++ value) :: tokens) := by
  induction value generalizing word with
  | nil => contradiction
  | cons unit value ih =>
    cases hsmart : isSmartQuote unit with
    | true =>
      have hnone : ∀ unit ∈ ([] : JsString), isSmartQuote unit = true := by simp
      exact reading_lags hbacktick hrest (List.nil_append _).symm hnone ⟨unit, value, rfl, hsmart⟩
    | false =>
      rw [isVerbatim_cons, hsmart, Bool.not_false, Bool.true_and] at hverbatim
      have hnext := hbacktick
      rw [List.mem_cons, not_or] at hnext
      have hvalue := fun hlater => @ih (word ++ [unit]) hlater hnext.2
      rw [List.append_assoc, List.singleton_append] at hvalue
      by_cases hunit : unit = doubleQuote
      · subst hunit
        rw [quote_starts_nothing, Bool.not_false, Bool.true_and] at hverbatim
        rw [doubled_quote, List.cons_append, List.cons_append, inside_pair doubleQuote_closes doubleQuote_closes]
        exact hvalue hverbatim
      · rw [doubled_cons hunit, List.cons_append]
        cases hexpands : startsExpansion isLetter unit value with
        | true =>
          rw [inside_expands (not_closes hunit hsmart) ((startsExpansion_doubled _ _ _).trans hexpands)]
          exact (Option.some_ne_none _).symm
        | false =>
          rw [hexpands, Bool.not_false, Bool.true_and] at hverbatim
          rw [inside_plain (not_closes hunit hsmart) (Ne.symm hnext.1) ((startsExpansion_doubled _ _ _).trans hexpands)]
          exact hvalue hverbatim

end OpenClaw.Data
