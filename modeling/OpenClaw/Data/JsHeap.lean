/-
# OpenClaw.Data.JsHeap -- values with shared and circular objects, and `JSON.stringify` on them

Objects lie on a heap and values refer to them, so two values can share an object and an object can be inside of
itself.  `stringify` is the algorithm of the language standard: it carries the objects it is inside of, and throws
where it comes to one of them again.  It stops because there are finitely many objects.
-/
import Mathlib.Data.Fintype.Card
import Mathlib.Data.Fintype.Fin
import OpenClaw.Data.Json
import OpenClaw.Data.Utf16Bytes

namespace OpenClaw.Data

/-! ## Values -/

/-- A value; a number that is not finite is `none`, and an object is known by its place on the heap. -/
inductive JsValue (ν : Type) (size : Nat) where
  | undefined
  | null
  | boolean (value : Bool)
  | number (value : Option ν)
  | string (value : JsString)
  | bigint (value : Int)
  | function
  | symbol
  | object (ref : Fin size)

/-- A `Date` is what its `toJSON` gives, which is `null` for an invalid one.  A hole of an array is `undefined`; a
plain object has its own enumerable members in their order. -/
inductive JsObject (ν : Type) (size : Nat) where
  | date (iso : Option JsString)
  | array (items : List (JsValue ν size))
  | plain (members : List (JsString × JsValue ν size))

def hasToJson {ν : Type} {size : Nat} (members : List (JsString × JsValue ν size)) : Bool :=
  match members.lookup (units "toJSON") with
  | some .function => true
  | _ => false

/-- A heap on which only dates have a `toJSON`. -/
structure JsHeap (ν : Type) (size : Nat) where
  object : Fin size → JsObject ν size
  noToJson : ∀ ref members, object ref = .plain members → hasToJson members = false

/-- Neither `undefined` nor a function nor a symbol. -/
def JsValue.IsJson {ν : Type} {size : Nat} : JsValue ν size → Bool
  | .undefined | .function | .symbol => false
  | _ => true

/-! ## Objects that are not open -/

section Unseen

variable {size : Nat}

/-- How many objects there are besides. -/
def unseen (stack : Finset (Fin size)) : Nat := stackᶜ.card

theorem unseen_insert {stack : Finset (Fin size)} {ref : Fin size} (h : ref ∉ stack) :
    unseen (insert ref stack) < unseen stack := by
  apply Finset.card_lt_card
  rw [Finset.compl_ssubset_compl]
  exact Finset.ssubset_insert h

end Unseen

/-! ## `JSON.stringify` -/

inductive StringifyError where
  | circular
  | bigint

section Stringify

variable {ν : Type} [JsonNumber ν] {size : Nat} (heap : JsHeap ν size)

def numberText (value : Option ν) : Text := value.elim "null".toList JsonNumber.text

/-- A member whose value has no text is left out. -/
def addMember (key : JsString) : Option Text → List Text → List Text
  | none, texts => texts
  | some text, texts => (Json.quote key ++ ':' :: text) :: texts

mutual

/-- `none` is `undefined`: there is no text. -/
def serialize (stack : Finset (Fin size)) : JsValue ν size → Except StringifyError (Option Text)
  | .undefined => .ok none
  | .null => .ok (some "null".toList)
  | .boolean value => .ok (some (if value then "true".toList else "false".toList))
  | .number value => .ok (some (numberText value))
  | .string value => .ok (some (Json.quote value))
  | .bigint _ => .error .bigint
  | .function => .ok none
  | .symbol => .ok none
  | .object ref =>
    match heap.object ref with
    | .date iso => .ok (some (iso.elim "null".toList Json.quote))
    | .array items =>
      if _ : ref ∈ stack then .error .circular
      else do
        let texts ← serializeItems (insert ref stack) items
        .ok (some ('[' :: (commas texts ++ [']'])))
    | .plain members =>
      if _ : ref ∈ stack then .error .circular
      else do
        let texts ← serializeMembers (insert ref stack) members
        .ok (some ('\x7b' :: (commas texts ++ ['\x7d'])))
termination_by (unseen stack, 0, 0)
decreasing_by
  · exact Prod.Lex.left _ _ (unseen_insert ‹_›)
  · exact Prod.Lex.left _ _ (unseen_insert ‹_›)

def serializeItems (stack : Finset (Fin size)) : List (JsValue ν size) → Except StringifyError (List Text)
  | [] => .ok []
  | item :: rest => do
    let text ← serialize stack item
    let texts ← serializeItems stack rest
    .ok (text.getD "null".toList :: texts)
termination_by items => (unseen stack, 1, items.length)

def serializeMembers (stack : Finset (Fin size)) :
    List (JsString × JsValue ν size) → Except StringifyError (List Text)
  | [] => .ok []
  | (key, value) :: rest => do
    let text ← serialize stack value
    let texts ← serializeMembers stack rest
    .ok (addMember key text texts)
termination_by members => (unseen stack, 1, members.length)

end

/-- `JSON.stringify(value)` -/
def JsHeap.stringify (value : JsValue ν size) : Except StringifyError (Option Text) := serialize heap ∅ value

end Stringify

/-! ## Lengths in UTF-8 -/

/-- `Buffer.byteLength(text, "utf8")` -/
def textBytes (text : Text) : Nat := (utf8 text).length

@[simp] theorem textBytes_nil : textBytes [] = 0 := rfl

@[simp] theorem textBytes_append (text text' : Text) : textBytes (text ++ text') = textBytes text + textBytes text' := by
  rw [textBytes, utf8_append, List.length_append]
  rfl

theorem textBytes_cons (c : Char) (text : Text) : textBytes (c :: text) = c.utf8Size + textBytes text := by
  rw [textBytes, utf8_cons, List.length_append, String.length_utf8EncodeChar]
  rfl

/-- Between commas there is one comma less than there are parts. -/
theorem textBytes_commas (parts : List Text) :
    textBytes (commas parts) = (parts.map textBytes).sum + (parts.length - 1) := by
  induction parts with
  | nil => rfl
  | cons first rest ih =>
    cases rest with
    | nil => simp [commas_singleton]
    | cons second rest =>
      have hcomma : (',' : Char).utf8Size = 1 := by decide
      rw [commas_cons first (by simp), textBytes_append, textBytes_cons, ih, hcomma]
      simp only [List.map_cons, List.sum_cons, List.length_cons]
      omega

theorem length_le_textBytes (text : Text) : text.length ≤ textBytes text := by
  induction text with
  | nil => exact Nat.le_refl 0
  | cons c rest ih =>
    have hpos := c.utf8Size_pos
    rw [textBytes_cons, List.length_cons]
    omega

/-- A code point is written with at least as many bytes as it has units. -/
theorem units_le_quotePoint (point : CodePoint) : point.units.length ≤ textBytes (Json.quotePoint point) := by
  cases point with
  | lone unit =>
    apply Nat.le_trans _ (length_le_textBytes _)
    exact Nat.le_add_left 1 5
  | char c =>
    have hunits : (CodePoint.char c).units.length = if c.toNat < 0x10000 then 1 else 2 := by
      show ((codeUnits c).map unitOfNat).length = _
      rw [List.length_map, codeUnits]
      split
      · rfl
      · rfl
    have hfew : (CodePoint.char c).units.length ≤ 2 := by
      rw [hunits]
      split
      · decide
      · decide
    have hlong : ∀ text : Text, 2 ≤ text.length → (CodePoint.char c).units.length ≤ textBytes text := by
      intro text htext
      exact (hfew.trans htext).trans (length_le_textBytes text)
    rw [Json.quotePoint]
    split
    · exact hlong _ (Nat.le_refl 2)
    · split
      · exact hlong _ (Nat.le_add_left 2 4)
      · rw [textBytes_cons, textBytes_nil, hunits, utf8Size_eq]
        split_ifs <;> omega

/-- **A string is written with at least as many bytes as it has units, and two more.** -/
theorem length_le_quote (s : JsString) : s.length + 2 ≤ textBytes (Json.quote s) := by
  have hquote : ('"' : Char).utf8Size = 1 := by decide
  have hbody : ∀ points : List CodePoint,
      (points.flatMap CodePoint.units).length ≤ textBytes (points.flatMap Json.quotePoint) := by
    intro points
    induction points with
    | nil => exact Nat.le_refl 0
    | cons point rest ih =>
      have hpoint := units_le_quotePoint point
      rw [List.flatMap_cons, List.flatMap_cons, List.length_append, textBytes_append]
      omega
  have hs := hbody (codePoints s)
  rw [units_codePoints] at hs
  rw [Json.quote, textBytes_cons, textBytes_append, textBytes_cons, textBytes_nil, hquote, Json.quoteBody]
  omega

end OpenClaw.Data
