/-
# OpenClaw.Data.ShellText -- words and quotes of the shell

`readWords` is word splitting and quote removal: it reads a text without operators and expansions as words.
`expands` is how bash reads quotes: it finds the first character outside of quotes and escapes that begins a
glob, a brace expansion or, at the start of a word, a tilde expansion.
-/
import OpenClaw.Data.JsText

namespace OpenClaw.Data

/-! ## Words -/

def singleQuote : CodeUnit := unitOfNat 0x27

def doubleQuote : CodeUnit := unitOfNat 0x22

def lineFeed : CodeUnit := unitOf '\n'

def isBlankUnit (unit : CodeUnit) : Bool := unit = unitOf ' ' || unit = unitOf '\t'

/-- What is no literal outside of quotes: `| & ; < > ( ) $ * ? [ # ~ { }`, the backtick and the newline. -/
def isShellSyntax (unit : CodeUnit) : Bool :=
  unit.val ∈ [0x7C, 0x26, 0x3B, 0x3C, 0x3E, 0x28, 0x29, 0x24, 0x2A, 0x3F, 0x5B, 0x23, 0x7E, 0x7B, 0x7D, 0x60, 0xA]

/-- What a backslash escapes between double quotes, but for the newline. -/
def isDoubleEscaped (unit : CodeUnit) : Bool := unit.val ∈ [0x24, 0x60, 0x22, 0x5C]

inductive QuoteMode where
  | plain
  | single
  | double
  deriving DecidableEq

/-- The word that is being read, if there is one, with one more unit. -/
def grown (word : Option JsString) (unit : CodeUnit) : Option JsString := some (word.getD [] ++ [unit])

/-- The words from here on; `escaped` is behind a backslash.  `none` is a text with more than words in it. -/
def readWordsFrom : QuoteMode → Bool → Option JsString → JsString → Option (List JsString)
  | .plain, false, word, [] => some word.toList
  | _, _, _, [] => none
  | .plain, true, word, unit :: rest =>
    if unit = lineFeed then readWordsFrom .plain false word rest else readWordsFrom .plain false (grown word unit) rest
  | .plain, false, word, unit :: rest =>
    if isBlankUnit unit then (readWordsFrom .plain false none rest).map (word.toList ++ ·)
    else if unit = singleQuote then readWordsFrom .single false (some (word.getD [])) rest
    else if unit = doubleQuote then readWordsFrom .double false (some (word.getD [])) rest
    else if unit = unitOf '\\' then readWordsFrom .plain true word rest
    else if isShellSyntax unit then none
    else readWordsFrom .plain false (grown word unit) rest
  | .single, _, word, unit :: rest =>
    if unit = singleQuote then readWordsFrom .plain false word rest
    else readWordsFrom .single false (grown word unit) rest
  | .double, true, word, unit :: rest =>
    if unit = lineFeed then readWordsFrom .double false word rest
    else if isDoubleEscaped unit then readWordsFrom .double false (grown word unit) rest
    else readWordsFrom .double false (grown (grown word (unitOf '\\')) unit) rest
  | .double, false, word, unit :: rest =>
    if unit = doubleQuote then readWordsFrom .plain false word rest
    else if unit = unitOf '\\' then readWordsFrom .double true word rest
    else if unit = unitOf '$' || unit = unitOfNat 0x60 then none
    else readWordsFrom .double false (grown word unit) rest

attribute [grind =] readWordsFrom

def readWords (text : JsString) : Option (List JsString) := readWordsFrom .plain false none text

/-! ## Quotes of bash -/

/-- The code point is this character. -/
def CodePoint.isChar (c : Char) : CodePoint → Bool
  | char d => d = c
  | lone _ => false

inductive BashQuote where
  | plain
  | single
  | double
  | ansi
  deriving DecidableEq

/-- Where bash is: in which quotes, behind an escaping backslash, behind a `$` that a quote can join, and at the
start of a word. -/
structure BashState where
  quote : BashQuote
  escaped : Bool
  dollar : Bool
  wordStart : Bool

/-- `*`, `?`, `[` and the opening brace. -/
def opensPattern (point : CodePoint) : Bool :=
  point.isChar '*' || point.isChar '?' || point.isChar '[' || point.isChar '\x7b'

/-- The space, the tab and the newline end a word. -/
def endsWord (point : CodePoint) : Bool := point.isChar ' ' || point.isChar '\t' || point.isChar '\n'

/-- This code point begins an expansion. -/
def BashState.expandsAt (state : BashState) (point : CodePoint) : Bool :=
  state.quote = .plain && !state.escaped && (opensPattern point || (state.wordStart && point.isChar '~'))

/-- One code point further, outside of quotes. -/
def BashState.plainStep (state : BashState) (point : CodePoint) : BashState :=
  if point.isChar '\\' then ⟨.plain, true, false, state.wordStart⟩
  else if point.isChar '\x27' then ⟨if state.dollar then .ansi else .single, false, false, false⟩
  else if point.isChar '\x22' then ⟨.double, false, false, false⟩
  else ⟨.plain, false, point.isChar '$' && !state.dollar, endsWord point⟩

/-- One code point further.  A backslash escapes between `$'` and `'` and between double quotes. -/
def BashState.step (state : BashState) (point : CodePoint) : BashState :=
  if state.escaped then
    -- a continued line begins no word and ends none
    ⟨state.quote, false, false, state.quote = .plain && point.isChar '\n' && state.wordStart⟩
  else
    match state.quote with
    | .plain => state.plainStep point
    | .single => ⟨if point.isChar '\x27' then .plain else .single, false, false, false⟩
    | .double =>
      if point.isChar '\\' then ⟨.double, true, false, false⟩
      else ⟨if point.isChar '\x22' then .plain else .double, false, false, false⟩
    | .ansi =>
      if point.isChar '\\' then ⟨.ansi, true, false, false⟩
      else ⟨if point.isChar '\x27' then .plain else .ansi, false, false, false⟩

attribute [grind =] BashState.step

def expandsFrom : BashState → List CodePoint → Bool
  | _, [] => false
  | state, point :: rest => state.expandsAt point || expandsFrom (state.step point) rest

/-- Some character outside of quotes and escapes begins an expansion; a word begins the text. -/
def expands (text : JsString) : Bool := expandsFrom ⟨.plain, false, false, true⟩ (codePoints text)

/-- Between `$'` and `'` stands an escaped single quote. -/
def escapesQuoteFrom : BashState → List CodePoint → Bool
  | _, [] => false
  | state, point :: rest =>
    (state.quote = .ansi && state.escaped && point.isChar '\x27') || escapesQuoteFrom (state.step point) rest

def escapesQuote (text : JsString) : Bool := escapesQuoteFrom ⟨.plain, false, false, true⟩ (codePoints text)

end OpenClaw.Data
