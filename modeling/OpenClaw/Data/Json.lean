/-
# OpenClaw.Data.Json -- JSON values, `JSON.stringify` and `JSON.parse`

Values are generic in their numbers: `JsonNumber` is `String(n)` and the reading of a JSON number
literal.  An object lists its members in the order of its keys; `Distinct` says that no key comes twice,
which holds of every JavaScript object.  The parser takes fuel for its nesting and for its lists, and
`parse` gives it as much as the text is long.
-/
import OpenClaw.Data.CodeUnits
import OpenClaw.Data.JsonParsers

namespace OpenClaw.Data

/-- The characters of number literals. -/
def isNumeral (c : Char) : Bool := isDigit c || c ∈ ['-', '+', '.', 'e', 'E']

/-- The numbers of JSON: the finite numbers, the negative zero taken for zero as `JSON.stringify` does. -/
class JsonNumber (ν : Type) where
  /-- `String(n)` -/
  text : ν → Text
  /-- The number of a literal of the JSON grammar. -/
  read : Text → Option ν
  read_text : ∀ n, read (text n) = some n
  text_numeral : ∀ n, ∀ c ∈ text n, isNumeral c = true
  text_ne_nil : ∀ n, text n ≠ []

theorem digitsValue_decimalText (n : Nat) : digitsValue (decimalText n) = n := Nat.ofDigitChars_ten_toDigits

/-- The natural numbers, which have literals without sign, fraction and exponent. -/
instance : JsonNumber Nat where
  text := decimalText
  read text := if decimalText (digitsValue text) = text then some (digitsValue text) else none
  read_text n := by rw [digitsValue_decimalText, if_pos rfl]
  text_numeral n c hc := by
    have hdigit := Nat.isDigit_of_mem_toDigits (by decide) (by decide) hc
    simp only [Char.isDigit, Bool.and_eq_true, decide_eq_true_eq] at hdigit
    simp only [isNumeral, isDigit, Bool.or_eq_true, Bool.and_eq_true, decide_eq_true_eq]
    exact .inl hdigit
  text_ne_nil _ := Nat.toDigits_ne_nil

/-- A JSON value. -/
inductive Json (ν : Type) where
  | null
  | boolean (value : Bool)
  | number (value : ν)
  | string (value : JsString)
  | array (items : List (Json ν))
  | object (members : List (JsString × Json ν))

variable {ν : Type}

namespace Json

/-- Induction over a value, with the hypothesis for every item and member. -/
@[elab_as_elim]
theorem induct {motive : Json ν → Prop} (null : motive null) (boolean : ∀ value, motive (boolean value))
    (number : ∀ value, motive (number value)) (string : ∀ value, motive (string value))
    (array : ∀ items, (∀ item ∈ items, motive item) → motive (array items))
    (object : ∀ members, (∀ member ∈ members, motive member.2) → motive (object members)) :
    ∀ value, motive value
  | .null => null
  | .boolean value => boolean value
  | .number value => number value
  | .string value => string value
  | .array items => array items fun item _ => induct null boolean number string array object item
  | .object members => object members fun member hmember =>
    have := List.sizeOf_lt_of_mem hmember
    induct null boolean number string array object member.2
termination_by value => sizeOf value
decreasing_by
  · have := List.sizeOf_lt_of_mem ‹item ∈ items›
    simp only [Json.array.sizeOf_spec]
    omega
  · have hvalue : sizeOf member.2 < sizeOf member := by
      cases member
      simp only [Prod.mk.sizeOf_spec]
      omega
    simp only [Json.object.sizeOf_spec]
    omega

mutual

/-- No object inside the value has a key twice. -/
def Distinct : Json ν → Prop
  | .array items => DistinctItems items
  | .object members => (members.map Prod.fst).Nodup ∧ DistinctMembers members
  | _ => True

def DistinctItems : List (Json ν) → Prop
  | [] => True
  | item :: rest => Distinct item ∧ DistinctItems rest

def DistinctMembers : List (JsString × Json ν) → Prop
  | [] => True
  | (_, value) :: rest => Distinct value ∧ DistinctMembers rest

end

/-! ## `JSON.stringify` -/

def hexChar (n : Nat) : Char := "0123456789abcdef".toList.getD n '0'

def unicodeEscape (n : Nat) : Text :=
  ['\\', 'u', hexChar (n / 0x1000), hexChar (n / 0x100 % 0x10), hexChar (n / 0x10 % 0x10), hexChar (n % 0x10)]

/-- The letter that stands for a character behind a backslash. -/
def escapeLetter (c : Char) : Option Char :=
  if c = '"' then some '"'
  else if c = '\\' then some '\\'
  else if c = '\x08' then some 'b'
  else if c = '\x0C' then some 'f'
  else if c = '\n' then some 'n'
  else if c = '\r' then some 'r'
  else if c = '\t' then some 't'
  else none

attribute [grind =] escapeLetter

/-- One code point between quotes.  A lone surrogate is escaped, so the text has none. -/
def quotePoint : CodePoint → Text
  | .char c =>
    match escapeLetter c with
    | some letter => ['\\', letter]
    | none => if c.toNat < 0x20 then unicodeEscape c.toNat else [c]
  | .lone unit => unicodeEscape unit.val

attribute [grind =] quotePoint

def quoteBody (s : JsString) : Text := (codePoints s).flatMap quotePoint

/-- A string as `JSON.stringify` writes it. -/
def quote (s : JsString) : Text := '"' :: (quoteBody s ++ ['"'])

variable [JsonNumber ν]

mutual

/-- `JSON.stringify(value)` -/
def stringify : Json ν → Text
  | .null => "null".toList
  | .boolean value => if value then "true".toList else "false".toList
  | .number value => JsonNumber.text value
  | .string value => quote value
  | .array items => '[' :: (commas (stringifyItems items) ++ [']'])
  | .object members => '{' :: (commas (stringifyMembers members) ++ ['}'])

def stringifyItems : List (Json ν) → List Text
  | [] => []
  | item :: rest => stringify item :: stringifyItems rest

def stringifyMembers : List (JsString × Json ν) → List Text
  | [] => []
  | (key, value) :: rest => (quote key ++ ':' :: stringify value) :: stringifyMembers rest

end

attribute [grind =] stringify

/-- One member as it is written. -/
def memberText (member : JsString × Json ν) : Text := quote member.1 ++ ':' :: stringify member.2

theorem stringifyItems_eq (items : List (Json ν)) : stringifyItems items = items.map stringify := by
  induction items with
  | nil => rfl
  | cons item rest ih => rw [stringifyItems, ih, List.map_cons]

theorem stringifyMembers_eq (members : List (JsString × Json ν)) :
    stringifyMembers members = members.map memberText := by
  induction members with
  | nil => rfl
  | cons member rest ih =>
    obtain ⟨key, value⟩ := member
    rw [stringifyMembers, ih, List.map_cons]
    rfl

end Json

/-! ## `JSON.parse` -/

namespace Json

/-! ### Strings -/

/-- The value of a hexadecimal digit. -/
def hexValue (c : Char) : Option Nat :=
  if isDigit c then some (c.toNat - '0'.toNat)
  else if 'a' ≤ c ∧ c ≤ 'f' then some (c.toNat - 'a'.toNat + 10)
  else if 'A' ≤ c ∧ c ≤ 'F' then some (c.toNat - 'A'.toNat + 10)
  else none

/-- The character that a letter behind a backslash stands for. -/
def unescape (letter : Char) : Option Char :=
  if letter ∈ ['"', '\\', '/'] then some letter
  else if letter = 'b' then some '\x08'
  else if letter = 'f' then some '\x0C'
  else if letter = 'n' then some '\n'
  else if letter = 'r' then some '\r'
  else if letter = 't' then some '\t'
  else none

/-- Where the reader stands inside a string. -/
inductive StringState where
  | plain
  | escaped
  | unicode (left bits : Nat)

def stringStep : StringState → Char → Option (JsString × StringState)
  | .plain, c =>
    if c = '\\' then some ([], .escaped)
    else if c.toNat < 0x20 then none
    else some (charUnits c, .plain)
  | .escaped, letter =>
    if letter = 'u' then some ([], .unicode 4 0)
    else (unescape letter).map fun c => (charUnits c, .plain)
  | .unicode left bits, digit =>
    (hexValue digit).map fun value =>
      if left = 1 then ([unitOfNat (bits * 0x10 + value)], .plain)
      else ([], .unicode (left - 1) (bits * 0x10 + value))

attribute [grind =] stringStep

/-- Whether the character ends the string. -/
def StringState.endsAt : StringState → Char → Bool
  | .plain, c => c = '"'
  | _, _ => false

/-- The rest of a string, up to its closing quote. -/
def readString : StringState → Parser JsString
  | _, [] => none
  | state, c :: rest =>
    if state.endsAt c then some ([], rest)
    else
      (stringStep state c).bind fun step =>
        (readString step.2 rest).map fun more => (step.1 ++ more.1, more.2)

attribute [grind =] readString

/-! ### Values -/

/-- A key, a colon and a value. -/
def readMember {α : Type} (value : Parser α) : Parser (JsString × α) :=
  token.bind fun c =>
    if c = '"' then
      (readString .plain).bind fun key => token.bind fun c =>
        if c = ':' then value.map fun value => (key, value) else .fail
    else .fail

/-- A member that comes again replaces the value and keeps the place. -/
def setMember {α : Type} (members : List (JsString × α)) (member : JsString × α) : List (JsString × α) :=
  if members.any (·.1 = member.1) then
    members.map fun other => if other.1 = member.1 then member else other
  else members ++ [member]

/-- The object that assigning the members one after another makes. -/
def ofMembers {α : Type} (members : List (JsString × α)) : List (JsString × α) := members.foldl setMember []

/-- The rest of a word. -/
def readWord (rest : Text) (value : Json ν) : Parser (Json ν) := fun text =>
  if rest.isPrefixOf text then some (value, text.drop rest.length) else none

variable [JsonNumber ν]

/-- A literal goes as far as its characters do. -/
def readNumber (first : Char) : Parser (Json ν) := fun text =>
  (JsonNumber.read (first :: text.takeWhile isNumeral)).map fun n =>
    (number n, text.dropWhile isNumeral)

def readValue : Nat → Parser (Json ν)
  | 0 => .fail
  | fuel + 1 =>
    token.bind fun c =>
      if c = '{' then
        (listUpTo (readMember (readValue fuel)) '}' fuel).map fun members => object (ofMembers members)
      else if c = '[' then (listUpTo (readValue fuel) ']' fuel).map array
      else if c = '"' then (readString .plain).map string
      else if c = 'n' then readWord "ull".toList null
      else if c = 't' then readWord "rue".toList (boolean true)
      else if c = 'f' then readWord "alse".toList (boolean false)
      else if isNumeral c then readNumber c
      else .fail

attribute [grind =] readValue

/-- `JSON.parse(text)`; none when it throws. -/
def parse (text : Text) : Option (Json ν) :=
  match readValue (text.length + 1) text with
  | none => none
  | some (value, rest) => if skipSpace rest = [] then some value else none

end Json

end OpenClaw.Data
