/-
# OpenClaw.Reef.Canonical -- canonical JSON, and the encodings of bytes as text

`canonicalJson` writes an object with its keys sorted and nothing between the tokens.  It is
`JSON.stringify` of the value with all its keys sorted, so it says which value was written, up to the
order of members.  This follows `canonical.ts` and `encoding.ts`.
-/
import OpenClaw.Data.JsonValue

namespace OpenClaw.Reef

open OpenClaw.Data Json

variable {α β ν : Type}

/-- The members in the order of their keys, by code units: `toSorted()` on the keys. -/
def sortByKey (members : List (JsString × α)) : List (JsString × α) :=
  toSorted (fun left right => decide (left.1 < right.1)) members

section CanonicalJson

variable [JsonNumber ν]

mutual

/-- `canonicalJson` on a JSON value: every number is finite and no member undefined. -/
def canonicalJson : Json ν → Text
  | .null => stringify (.null : Json ν)
  | .boolean value => stringify (.boolean value : Json ν)
  | .string value => stringify (.string value : Json ν)
  | .number value => stringify (.number value)
  | .array items => '[' :: (commas (canonicalItems items) ++ [']'])
  | .object members =>
    '{' :: (commas ((sortByKey (canonicalMembers members)).map fun member =>
      quote member.1 ++ ':' :: member.2) ++ ['}'])

def canonicalItems : List (Json ν) → List Text
  | [] => []
  | item :: rest => canonicalJson item :: canonicalItems rest

def canonicalMembers : List (JsString × Json ν) → List (JsString × Text)
  | [] => []
  | (key, value) :: rest => (key, canonicalJson value) :: canonicalMembers rest

end

def canonicalBytes (value : Json ν) : List UInt8 := utf8 (canonicalJson value)

end CanonicalJson

/-! ## Sorted keys -/

mutual

/-- The value with the members of every object in the order of their keys. -/
def sortKeys : Json ν → Json ν
  | .array items => .array (sortKeysItems items)
  | .object members => .object (sortByKey (sortKeysMembers members))
  | .null => .null
  | .boolean value => .boolean value
  | .number value => .number value
  | .string value => .string value

def sortKeysItems : List (Json ν) → List (Json ν)
  | [] => []
  | item :: rest => sortKeys item :: sortKeysItems rest

def sortKeysMembers : List (JsString × Json ν) → List (JsString × Json ν)
  | [] => []
  | (key, value) :: rest => (key, sortKeys value) :: sortKeysMembers rest

end

theorem sortKeysItems_eq (items : List (Json ν)) : sortKeysItems items = items.map sortKeys := by
  induction items with
  | nil => rfl
  | cons item rest ih => rw [sortKeysItems, ih, List.map_cons]

theorem sortKeysMembers_eq (members : List (JsString × Json ν)) :
    sortKeysMembers members = members.map fun member => (member.1, sortKeys member.2) := by
  induction members with
  | nil => rfl
  | cons member rest ih => rw [sortKeysMembers, ih, List.map_cons]

theorem sortByKey_perm (members : List (JsString × α)) : (sortByKey members).Perm members := toSorted_perm _ _

/-- Sorting looks at the keys only. -/
theorem sortByKey_map (f : α → β) (members : List (JsString × α)) :
    sortByKey (members.map fun member => (member.1, f member.2)) =
      (sortByKey members).map fun member => (member.1, f member.2) := by
  unfold sortByKey toSorted
  exact (List.map_insertionSort (fun left right : JsString × α => decide (right.1 < left.1) = false)
    (fun left right : JsString × β => decide (right.1 < left.1) = false) _ members
    fun _ _ _ _ => Iff.rfl).symm

theorem sortKeys_distinct (value : Json ν) : value.Distinct → (sortKeys value).Distinct := by
  induction value using Json.induct with
  | null => exact id
  | boolean value => exact id
  | number value => exact id
  | string value => exact id
  | array items ih =>
    intro h
    rw [sortKeys, sortKeysItems_eq, distinct_array]
    intro item hitem
    obtain ⟨old, hold, rfl⟩ := List.mem_map.mp hitem
    exact ih old hold (distinct_array.mp h old hold)
  | object members ih =>
    intro h
    obtain ⟨hkeys, hvalues⟩ := distinct_object.mp h
    rw [sortKeys, sortKeysMembers_eq, distinct_object]
    constructor
    · refine ((sortByKey_perm _).map Prod.fst).nodup_iff.mpr ?_
      rwa [List.map_map]
    · intro member hmember
      obtain ⟨old, hold, rfl⟩ := List.mem_map.mp ((sortByKey_perm _).mem_iff.mp hmember)
      exact ih old hold (hvalues old hold)

theorem sameItems_of_sortKeys (items : List (Json ν)) : ∀ {others : List (Json ν)},
    (∀ item ∈ items, ∀ other, sortKeys item = sortKeys other → Same item other) →
    items.map sortKeys = others.map sortKeys → SameItems items others := by
  induction items with
  | nil =>
    intro others _ h
    exact List.map_eq_nil_iff.mp h.symm
  | cons item rest ih =>
    intro others hitems h
    cases others with
    | nil => cases h
    | cons other more =>
      obtain ⟨hfirst, hrest⟩ := List.cons.inj h
      exact ⟨other, more, rfl, hitems item List.mem_cons_self other hfirst,
        ih (fun item hitem => hitems item (List.mem_cons_of_mem _ hitem)) hrest⟩

/-- What sorting makes equal was the same value. -/
theorem same_of_sortKeys (value : Json ν) : ∀ {other : Json ν}, sortKeys value = sortKeys other → Same value other := by
  induction value using Json.induct with
  | array items ih =>
    intro other h
    cases other with
    | array others =>
      rw [sortKeys, sortKeys, Json.array.injEq, sortKeysItems_eq, sortKeysItems_eq] at h
      exact ⟨others, rfl, sameItems_of_sortKeys items (fun item hitem _ => ih item hitem) h⟩
    | _ => rw [sortKeys, sortKeys] at h; cases h
  | object members ih =>
    intro other h
    cases other with
    | object others =>
      rw [sortKeys, sortKeys, Json.object.injEq, sortKeysMembers_eq, sortKeysMembers_eq] at h
      have hperm := (sortByKey_perm (members.map fun member => (member.1, sortKeys member.2))).symm
      rw [h] at hperm
      have hperm := hperm.trans (sortByKey_perm _)
      refine ⟨others, rfl, by simpa using hperm.length_eq, sameMembers_iff.mpr ?_⟩
      intro member hmember
      have hmem := hperm.mem_iff.mp (List.mem_map_of_mem hmember)
      obtain ⟨member', hmember', heq⟩ := List.mem_map.mp hmem
      obtain ⟨hkey, hvalue⟩ := Prod.mk.inj heq
      exact ⟨member'.2, hkey ▸ hmember', ih member hmember hvalue.symm⟩
    | _ => rw [sortKeys, sortKeys] at h; cases h
  | null =>
    intro other h
    cases other <;> simp [sortKeys, Same] at h ⊢
  | boolean value =>
    intro other h
    cases other <;> simp [sortKeys, Same] at h ⊢
    exact h.symm
  | number value =>
    intro other h
    cases other <;> simp [sortKeys, Same] at h ⊢
    exact h.symm
  | string value =>
    intro other h
    cases other <;> simp [sortKeys, Same] at h ⊢
    exact h.symm

section CanonicalText

variable [JsonNumber ν]

theorem canonicalItems_eq (items : List (Json ν)) : canonicalItems items = items.map canonicalJson := by
  induction items with
  | nil => rfl
  | cons item rest ih => rw [canonicalItems, ih, List.map_cons]

theorem canonicalMembers_eq (members : List (JsString × Json ν)) :
    canonicalMembers members = members.map fun member => (member.1, canonicalJson member.2) := by
  induction members with
  | nil => rfl
  | cons member rest ih => rw [canonicalMembers, ih, List.map_cons]

/-- Canonical JSON is the plain JSON of the sorted value. -/
theorem canonicalJson_eq (value : Json ν) : canonicalJson value = stringify (sortKeys value) := by
  induction value using Json.induct with
  | null => rfl
  | boolean value => rfl
  | number value => rfl
  | string value => rfl
  | array items ih =>
    rw [canonicalJson, sortKeys, stringify, canonicalItems_eq, stringifyItems_eq, sortKeysItems_eq, List.map_map]
    have hitems : items.map canonicalJson = items.map (stringify ∘ sortKeys) := by
      refine List.map_congr_left fun item hitem => ?_
      exact ih item hitem
    rw [hitems]
  | object members ih =>
    have hmembers : (members.map fun member => (member.1, canonicalJson member.2)) =
        members.map fun member => (member.1, stringify (sortKeys member.2)) := by
      refine List.map_congr_left fun member hmember => ?_
      rw [ih member hmember]
    rw [canonicalJson, sortKeys, stringify, canonicalMembers_eq, stringifyMembers_eq, sortKeysMembers_eq,
      hmembers, sortByKey_map fun value : Json ν => stringify (sortKeys value), sortByKey_map sortKeys,
      List.map_map, List.map_map]
    rfl

/-- **Canonical JSON says which value was written.** -/
theorem same_of_canonicalJson {value other : Json ν} (hvalue : value.Distinct) (hother : other.Distinct)
    (h : canonicalJson value = canonicalJson other) : Same value other := by
  rw [canonicalJson_eq, canonicalJson_eq] at h
  have hread := parse_stringify (sortKeys_distinct value hvalue)
  rw [h, parse_stringify (sortKeys_distinct other hother)] at hread
  exact same_of_sortKeys value (Option.some.inj hread).symm

end CanonicalText

/-! ## Bytes as text -/

/-- `utf8(value)`: a lone surrogate is encoded as U+FFFD. -/
def utf8String (value : JsString) : List UInt8 :=
  (codePoints value).flatMap fun
    | .char c => String.utf8EncodeChar c
    | .lone _ => String.utf8EncodeChar replacementCharacter

/-- What a string shows when it is encoded. -/
def CodePoint.shown : CodePoint → Char
  | .char c => c
  | .lone _ => replacementCharacter

theorem utf8String_shown (s : JsString) : utf8String s = utf8 ((codePoints s).map CodePoint.shown) := by
  unfold utf8String utf8
  rw [List.flatMap_map]
  congr 1
  funext point
  cases point <;> rfl

/-- `hex(bytes)` -/
def hex (bytes : List UInt8) : Text :=
  bytes.flatMap fun byte => [hexChar (byte.toNat / 0x10), hexChar (byte.toNat % 0x10)]

def base64Digit (n : Nat) : Char :=
  "ABCDEFGHIJKLMNOPQRSTUVWXYZabcdefghijklmnopqrstuvwxyz0123456789+/".toList.getD (n % 0x40) '='

def base64 : List UInt8 → Text
  | [] => []
  | [a] =>
    let bits := a.toNat * 0x10000
    [base64Digit (bits / 0x40000), base64Digit (bits / 0x1000), '=', '=']
  | [a, b] =>
    let bits := a.toNat * 0x10000 + b.toNat * 0x100
    [base64Digit (bits / 0x40000), base64Digit (bits / 0x1000), base64Digit (bits / 0x40), '=']
  | a :: b :: c :: rest =>
    let bits := a.toNat * 0x10000 + b.toNat * 0x100 + c.toNat
    [base64Digit (bits / 0x40000), base64Digit (bits / 0x1000), base64Digit (bits / 0x40),
      base64Digit bits] ++ base64 rest

/-- The value of one of `[0-9a-f]`. -/
def lowerHexValue (unit : CodeUnit) : Option Nat :=
  if 0x30 ≤ unit.val ∧ unit.val ≤ 0x39 then some (unit.val - 0x30)
  else if 0x61 ≤ unit.val ∧ unit.val ≤ 0x66 then some (unit.val - 0x57)
  else none

def hexPairs : JsString → Option (List UInt8)
  | [] => some []
  | [_] => none
  | high :: low :: rest => do
    let high ← lowerHexValue high
    let low ← lowerHexValue low
    let bytes ← hexPairs rest
    return UInt8.ofNat (high * 0x10 + low) :: bytes

/-- `fromHex` of a hash; none when the text is none. -/
def fromHex (value : JsString) : Option (List UInt8) :=
  if value.length = 64 then hexPairs value else none

theorem charUnits_hexChar : ∀ n < 16, ∃ unit, charUnits (hexChar n) = [unit] ∧ lowerHexValue unit = some n := by
  have hall : ∀ n < 16, charUnits (hexChar n) = [unitOfNat (hexChar n).toNat] ∧
      lowerHexValue (unitOfNat (hexChar n).toNat) = some n := by decide
  exact fun n hn => ⟨_, hall n hn⟩

/-- The two units of a byte, and their values. -/
theorem unitsOf_hex_cons (byte : UInt8) (rest : List UInt8) :
    ∃ high low, unitsOf (hex (byte :: rest)) = high :: low :: unitsOf (hex rest) ∧
      lowerHexValue high = some (byte.toNat / 0x10) ∧ lowerHexValue low = some (byte.toNat % 0x10) := by
  have hbyte := byte.toNat_lt
  obtain ⟨high, hhigh, hhighValue⟩ := charUnits_hexChar (byte.toNat / 0x10) (by omega)
  obtain ⟨low, hlow, hlowValue⟩ := charUnits_hexChar (byte.toNat % 0x10) (by omega)
  exact ⟨high, low, by simp [unitsOf, hex, hhigh, hlow], hhighValue, hlowValue⟩

theorem hexPairs_hex (bytes : List UInt8) : hexPairs (unitsOf (hex bytes)) = some bytes := by
  induction bytes with
  | nil => rfl
  | cons byte rest ih =>
    obtain ⟨high, low, hunits, hhigh, hlow⟩ := unitsOf_hex_cons byte rest
    have hvalue : byte.toNat / 0x10 * 0x10 + byte.toNat % 0x10 = byte.toNat := by omega
    rw [hunits, hexPairs, hhigh, hlow, ih]
    simp only [Option.bind_eq_bind, Option.bind_some, hvalue, UInt8.ofNat_toNat]
    rfl

theorem unitsOf_hex_length (bytes : List UInt8) : (unitsOf (hex bytes)).length = 2 * bytes.length := by
  induction bytes with
  | nil => rfl
  | cons byte rest ih =>
    obtain ⟨high, low, hunits, -, -⟩ := unitsOf_hex_cons byte rest
    rw [hunits]
    simp only [List.length_cons, ih]
    omega

/-- A hash is read back from its text. -/
theorem fromHex_hex {bytes : List UInt8} (h : bytes.length = 32) : fromHex (unitsOf (hex bytes)) = some bytes := by
  rw [fromHex, unitsOf_hex_length, h, if_pos rfl, hexPairs_hex]

end OpenClaw.Reef
