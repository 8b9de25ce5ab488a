/-
# OpenClaw.Reef.CanonicalForm -- canonical JSON is a canonical form

`canonicalJson` takes any value and throws on what JSON does not have.  On values that are JSON, members that
are undefined being absent, two texts are equal exactly if the values differ in the order of members only, and
`JSON.parse` gives such a value back.

This follows `canonical.ts`.
-/
import OpenClaw.Reef.Canonical
import Mathlib.Data.List.Lex
import Mathlib.Data.List.Sort
import Mathlib.Order.Fin.Basic

namespace OpenClaw.Reef

open OpenClaw.Data Json

variable {α ν : Type}

/-! ## The order of keys -/

section Sorted

/-- The order that `sortByKey` sorts by. -/
def KeyLe (left right : JsString × α) : Prop := decide (right.1 < left.1) = false

instance : DecidableRel (KeyLe (α := α)) := fun left right =>
  inferInstanceAs (Decidable (decide (right.1 < left.1) = false))

theorem keyLe_iff {left right : JsString × α} : KeyLe left right ↔ left.1 ≤ right.1 := by
  unfold KeyLe
  rw [decide_eq_false_iff_not, not_lt]

instance : Std.Total (KeyLe (α := α)) := ⟨fun left right => by
  rw [keyLe_iff, keyLe_iff]
  exact le_total _ _⟩

instance : IsTrans (JsString × α) KeyLe := ⟨fun first second third hfirst hsecond => by
  rw [keyLe_iff] at hfirst hsecond ⊢
  exact le_trans hfirst hsecond⟩

theorem sortByKey_sorted (members : List (JsString × α)) : (sortByKey members).Pairwise KeyLe :=
  List.pairwise_insertionSort KeyLe members

/-- Members with different keys have one order only. -/
theorem sortByKey_eq_of_perm {members others : List (JsString × α)} (hkeys : (members.map Prod.fst).Nodup)
    (hperm : members.Perm others) : sortByKey members = sortByKey others := by
  have hsorted := (sortByKey_perm members).trans (hperm.trans (sortByKey_perm others).symm)
  refine hsorted.eq_of_pairwise ?_ (sortByKey_sorted members) (sortByKey_sorted others)
  intro left right hleft hright hle hge
  have hkey : left.1 = right.1 := le_antisymm (keyLe_iff.mp hle) (keyLe_iff.mp hge)
  have hleft := (sortByKey_perm members).mem_iff.mp hleft
  have hright := hperm.mem_iff.mpr ((sortByKey_perm others).mem_iff.mp hright)
  exact List.inj_on_of_nodup_map hkeys hleft hright hkey

end Sorted

/-! ## The same value, sorted -/

theorem sortKeys_of_sameItems {items others : List (Json ν)}
    (hitems : ∀ item ∈ items, ∀ other, other ∈ others → Same item other → sortKeys item = sortKeys other)
    (h : SameItems items others) : items.map sortKeys = others.map sortKeys := by
  rw [sameItems_iff] at h
  induction h with
  | nil => rfl
  | cons hfirst hrest ih =>
    rw [List.map_cons, List.map_cons, hitems _ List.mem_cons_self _ List.mem_cons_self hfirst, ih]
    intro item hitem other hother
    exact hitems item (List.mem_cons_of_mem _ hitem) other (List.mem_cons_of_mem _ hother)

/-- The same value is equal once it is sorted. -/
theorem sortKeys_of_same (value : Json ν) : ∀ {other : Json ν}, value.Distinct → other.Distinct →
    Same value other → sortKeys value = sortKeys other := by
  induction value using Json.induct with
  | null => intro other _ _ h; rw [show other = .null from h]
  | boolean value => intro other _ _ h; rw [show other = .boolean value from h]
  | number value => intro other _ _ h; rw [show other = .number value from h]
  | string value => intro other _ _ h; rw [show other = .string value from h]
  | array items ih =>
    rintro other hvalue hother ⟨others, rfl, hsame⟩
    rw [distinct_array] at hvalue hother
    rw [sortKeys, sortKeys, sortKeysItems_eq, sortKeysItems_eq]
    refine congrArg Json.array (sortKeys_of_sameItems ?_ hsame)
    intro item hitem other' hother' hsame'
    exact ih item hitem (hvalue item hitem) (hother other' hother') hsame'
  | object members ih =>
    rintro other hvalue hother ⟨others, rfl, hlength, hsame⟩
    obtain ⟨hkeys, hvalues⟩ := distinct_object.mp hvalue
    obtain ⟨-, hvalues'⟩ := distinct_object.mp hother
    rw [sameMembers_iff] at hsame
    rw [sortKeys, sortKeys, sortKeysMembers_eq, sortKeysMembers_eq]
    have hkeys' : ((members.map fun member => (member.1, sortKeys member.2)).map Prod.fst).Nodup := by
      rwa [List.map_map]
    refine congrArg Json.object (sortByKey_eq_of_perm hkeys' ?_)
    -- each sorted member of the one is a sorted member of the other, and there are equally many
    have hsubset : (members.map fun member => (member.1, sortKeys member.2)) ⊆
        others.map fun member => (member.1, sortKeys member.2) := by
      intro sorted hsorted
      obtain ⟨member, hmember, rfl⟩ := List.mem_map.mp hsorted
      obtain ⟨value', hmember', hvalue'⟩ := hsame member hmember
      refine List.mem_map.mpr ⟨_, hmember', ?_⟩
      rw [ih member hmember (hvalues member hmember) (hvalues' _ hmember') hvalue']
    refine (List.subperm_of_subset hkeys'.of_map hsubset).perm_of_length_le ?_
    rw [List.length_map, List.length_map, hlength]

theorem same_iff_sortKeys {value other : Json ν} (hvalue : value.Distinct) (hother : other.Distinct) :
    Same value other ↔ sortKeys value = sortKeys other :=
  ⟨sortKeys_of_same value hvalue hother, same_of_sortKeys value⟩

theorem same_symm {value other : Json ν} (hvalue : value.Distinct) (hother : other.Distinct)
    (h : Same value other) : Same other value :=
  (same_iff_sortKeys hother hvalue).mpr ((same_iff_sortKeys hvalue hother).mp h).symm

/-- Sorting gives the same value. -/
theorem same_sortKeys (value : Json ν) : Same value (sortKeys value) := by
  induction value using Json.induct with
  | null => rfl
  | boolean value => rfl
  | number value => rfl
  | string value => rfl
  | array items ih =>
    refine ⟨_, rfl, sameItems_iff.mpr ?_⟩
    rw [sortKeysItems_eq, List.forall₂_map_right_iff, List.forall₂_same]
    exact ih
  | object members ih =>
    have hperm := sortByKey_perm (members.map fun member => (member.1, sortKeys member.2))
    rw [← sortKeysMembers_eq] at hperm
    refine ⟨_, rfl, ?_, sameMembers_iff.mpr ?_⟩
    · rw [hperm.length_eq, sortKeysMembers_eq, List.length_map]
    · intro member hmember
      refine ⟨sortKeys member.2, hperm.mem_iff.mpr ?_, ih member hmember⟩
      rw [sortKeysMembers_eq]
      exact List.mem_map_of_mem hmember

section CanonicalText

variable [JsonNumber ν]

/-- **Equal texts are equal values.** -/
theorem canonicalJson_eq_iff {value other : Json ν} (hvalue : value.Distinct) (hother : other.Distinct) :
    canonicalJson value = canonicalJson other ↔ Same value other := by
  constructor
  · exact same_of_canonicalJson hvalue hother
  · intro h
    rw [canonicalJson_eq, canonicalJson_eq, sortKeys_of_same value hvalue hother h]

end CanonicalText

/-! ## Any value -/

/-- What `canonicalJson` may be given.  `other` is a function, a symbol or a big integer. -/
inductive JsValue (ν : Type) where
  | undefined
  | null
  | boolean (value : Bool)
  | number (value : ν)
  | notFinite
  | string (value : JsString)
  | array (items : List (JsValue ν))
  | object (members : List (JsString × JsValue ν))
  | other

namespace JsValue

/-- Induction over a value, with the hypothesis for every item and member. -/
@[elab_as_elim]
theorem induct {motive : JsValue ν → Prop} (undefined : motive undefined) (null : motive null)
    (boolean : ∀ value, motive (boolean value)) (number : ∀ value, motive (number value))
    (notFinite : motive notFinite) (string : ∀ value, motive (string value))
    (array : ∀ items, (∀ item ∈ items, motive item) → motive (array items))
    (object : ∀ members, (∀ member ∈ members, motive member.2) → motive (object members))
    (other : motive other) : ∀ value, motive value
  | .undefined => undefined
  | .null => null
  | .boolean value => boolean value
  | .number value => number value
  | .notFinite => notFinite
  | .string value => string value
  | .array items => array items fun item _ =>
    induct undefined null boolean number notFinite string array object other item
  | .object members => object members fun member hmember =>
    have := List.sizeOf_lt_of_mem hmember
    induct undefined null boolean number notFinite string array object other member.2
  | .other => other
termination_by value => sizeOf value
decreasing_by
  · have := List.sizeOf_lt_of_mem ‹item ∈ items›
    simp only [JsValue.array.sizeOf_spec]
    omega
  · have hvalue : sizeOf member.2 < sizeOf member := by
      cases member
      simp only [Prod.mk.sizeOf_spec]
      omega
    simp only [JsValue.object.sizeOf_spec]
    omega

section

variable [JsonNumber ν]

mutual

/-- `canonicalJson(value)` -/
def canonicalJson : JsValue ν → Except String Text
  | .null => .ok (stringify (.null : Json ν))
  | .boolean value => .ok (stringify (.boolean value : Json ν))
  | .string value => .ok (stringify (.string value : Json ν))
  | .notFinite => .error "canonical JSON requires finite numbers"
  | .number value => .ok (stringify (.number value))
  | .array items => do
    let texts ← canonicalItems items
    return '[' :: (commas texts ++ [']'])
  | .object members => do
    let entries ← (sortByKey (canonicalMembers members)).mapM fun (key, text) => do
      return quote key ++ ':' :: (← text)
    return '{' :: (commas entries ++ ['}'])
  | .undefined => .error "unsupported canonical JSON value"
  | .other => .error "unsupported canonical JSON value"

def canonicalItems : List (JsValue ν) → Except String (List Text)
  | [] => .ok []
  | item :: rest => do
    let text ← canonicalJson item
    let texts ← canonicalItems rest
    return text :: texts

/-- The members that are not undefined. -/
def canonicalMembers : List (JsString × JsValue ν) → List (JsString × Except String Text)
  | [] => []
  | (_, .undefined) :: rest => canonicalMembers rest
  | (key, value) :: rest => (key, canonicalJson value) :: canonicalMembers rest

end

end

mutual

/-- The JSON value that this is, where members that are undefined count as absent. -/
def json : JsValue ν → Option (Json ν)
  | .null => some .null
  | .boolean value => some (.boolean value)
  | .number value => some (.number value)
  | .string value => some (.string value)
  | .array items => (jsonItems items).map .array
  | .object members => (jsonMembers members).map .object
  | _ => none

def jsonItems : List (JsValue ν) → Option (List (Json ν))
  | [] => some []
  | item :: rest => do
    let item ← json item
    let rest ← jsonItems rest
    return item :: rest

def jsonMembers : List (JsString × JsValue ν) → Option (List (JsString × Json ν))
  | [] => some []
  | (_, .undefined) :: rest => jsonMembers rest
  | (key, value) :: rest => do
    let value ← json value
    let rest ← jsonMembers rest
    return (key, value) :: rest

end

theorem jsonMembers_cons (key : JsString) {value : JsValue ν} (hvalue : value ≠ .undefined)
    (rest : List (JsString × JsValue ν)) : jsonMembers ((key, value) :: rest) =
      value.json.bind fun value => (jsonMembers rest).bind fun rest => some ((key, value) :: rest) := by
  rw [jsonMembers]
  · rfl
  · exact hvalue

section

variable [JsonNumber ν]

theorem canonicalMembers_cons (key : JsString) {value : JsValue ν} (hvalue : value ≠ .undefined)
    (rest : List (JsString × JsValue ν)) :
    canonicalMembers ((key, value) :: rest) = (key, value.canonicalJson) :: canonicalMembers rest := by
  rw [canonicalMembers]
  exact hvalue

theorem canonicalItems_of_json : ∀ {items : List (JsValue ν)} {jsons : List (Json ν)},
    (∀ item ∈ items, ∀ json, item.json = some json → item.canonicalJson = .ok (Reef.canonicalJson json)) →
    jsonItems items = some jsons → canonicalItems items = .ok (jsons.map Reef.canonicalJson)
  | [], _, _, h => by
    rw [jsonItems] at h
    rw [← Option.some.inj h]
    rfl
  | item :: rest, jsons, hitems, h => by
    rw [jsonItems] at h
    obtain ⟨first, hfirst, h⟩ := Option.bind_eq_some_iff.mp h
    obtain ⟨more, hmore, h⟩ := Option.bind_eq_some_iff.mp h
    rw [← Option.some.inj h, canonicalItems, hitems item List.mem_cons_self first hfirst,
      canonicalItems_of_json (fun item hitem => hitems item (List.mem_cons_of_mem _ hitem)) hmore]
    rfl

theorem canonicalMembers_of_json : ∀ {members : List (JsString × JsValue ν)} {jsons : List (JsString × Json ν)},
    (∀ member ∈ members, ∀ json, member.2.json = some json →
      member.2.canonicalJson = .ok (Reef.canonicalJson json)) →
    jsonMembers members = some jsons →
    canonicalMembers members = jsons.map fun member => (member.1, .ok (Reef.canonicalJson member.2))
  | [], _, _, h => by
    rw [jsonMembers] at h
    rw [← Option.some.inj h]
    rfl
  | (key, value) :: rest, jsons, hmembers, h => by
    have hrest := fun member hmember => hmembers member (List.mem_cons_of_mem _ hmember)
    by_cases hvalue : value = .undefined
    · subst hvalue
      rw [jsonMembers] at h
      rw [canonicalMembers]
      exact canonicalMembers_of_json hrest h
    · rw [jsonMembers_cons key hvalue] at h
      obtain ⟨first, hfirst, h⟩ := Option.bind_eq_some_iff.mp h
      obtain ⟨more, hmore, h⟩ := Option.bind_eq_some_iff.mp h
      rw [← Option.some.inj h, canonicalMembers_cons key hvalue, canonicalMembers_of_json hrest hmore,
        hmembers _ List.mem_cons_self first hfirst]
      rfl

/-- Entries none of which throws. -/
theorem mapM_entries (members : List (JsString × Text)) :
    (members.map fun member => (member.1, Except.ok (ε := String) member.2)).mapM (fun (key, text) => do
      return quote key ++ ':' :: (← text)) = .ok (members.map fun member => quote member.1 ++ ':' :: member.2) := by
  induction members with
  | nil => rfl
  | cons member rest ih =>
    rw [List.map_cons, List.mapM_cons, ih]
    rfl

/-- On a value that is JSON it throws nothing. -/
theorem canonicalJson_of_json (value : JsValue ν) : ∀ json, value.json = some json →
    value.canonicalJson = .ok (Reef.canonicalJson json) := by
  induction value using JsValue.induct with
  | undefined | notFinite | other => intro json h; cases h
  | null => rintro json ⟨⟩; rfl
  | boolean value => rintro json ⟨⟩; rfl
  | number value => rintro json ⟨⟩; rfl
  | string value => rintro json ⟨⟩; rfl
  | array items ih =>
    intro json h
    rw [JsValue.json] at h
    obtain ⟨jsons, hjsons, rfl⟩ := Option.map_eq_some_iff.mp h
    rw [canonicalJson, canonicalItems_of_json ih hjsons, Reef.canonicalJson, canonicalItems_eq]
    rfl
  | object members ih =>
    intro json h
    rw [JsValue.json] at h
    obtain ⟨jsons, hjsons, rfl⟩ := Option.map_eq_some_iff.mp h
    rw [canonicalJson, canonicalMembers_of_json ih hjsons, Reef.canonicalJson, canonicalMembers_eq]
    have hsorted : sortByKey (jsons.map fun member => (member.1, Except.ok (Reef.canonicalJson member.2))) =
        (sortByKey (jsons.map fun member => (member.1, Reef.canonicalJson member.2))).map
          fun member => (member.1, Except.ok (ε := String) member.2) := by
      rw [sortByKey_map fun json => Except.ok (Reef.canonicalJson json), sortByKey_map Reef.canonicalJson, List.map_map]
      rfl
    rw [hsorted, mapM_entries]
    rfl

end

end JsValue

/-- **Canonical JSON is a canonical form.** -/
theorem canonicalJson_canonical [JsonNumber ν] {a b : JsValue ν} {ja jb : JsonValue ν}
    (ha : a.json = some ja.json) (hb : b.json = some jb.json) :
    (a.canonicalJson = b.canonicalJson ↔ Same ja.json jb.json) ∧
      ∃ text parsed, a.canonicalJson = .ok text ∧ JsonValue.parse text = some parsed ∧ Same parsed.json ja.json := by
  rw [a.canonicalJson_of_json _ ha, b.canonicalJson_of_json _ hb, Except.ok.injEq]
  have hsorted := sortKeys_distinct ja.json ja.distinct
  refine ⟨canonicalJson_eq_iff ja.distinct jb.distinct, canonicalJson ja.json, ⟨_, hsorted⟩, rfl, ?_, ?_⟩
  · rw [JsonValue.parse_eq_some, canonicalJson_eq]
    exact parse_stringify hsorted
  · exact same_symm ja.distinct hsorted (same_sortKeys ja.json)

/-- Two orders of members, one of them with a member that is undefined. -/
theorem canonicalJson_canonical_order :
    let a : JsValue Nat := .object [(unitsOf ['b'], .number 2), (unitsOf ['a'], .null)]
    let b : JsValue Nat := .object [(unitsOf ['a'], .null), (unitsOf ['c'], .undefined), (unitsOf ['b'], .number 2)]
    a.canonicalJson = b.canonicalJson := by
  let ja : Json Nat := .object [(unitsOf ['b'], .number 2), (unitsOf ['a'], .null)]
  let jb : Json Nat := .object [(unitsOf ['a'], .null), (unitsOf ['b'], .number 2)]
  have ha : ja.Distinct := distinct_object.mpr ⟨by decide, by simp [Distinct]⟩
  have hb : jb.Distinct := distinct_object.mpr ⟨by decide, by simp [Distinct]⟩
  refine (@canonicalJson_canonical Nat _ _ _ ⟨ja, ha⟩ ⟨jb, hb⟩ rfl rfl).1.mpr ?_
  exact ⟨_, rfl, rfl, ⟨_, by simp, rfl⟩, ⟨_, by simp, rfl⟩, trivial⟩

end OpenClaw.Reef
