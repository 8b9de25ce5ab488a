/-
# OpenClaw.Data.JsonValue -- JavaScript values of JSON, and when two are the same

In an object of JavaScript no key comes twice; `JsonValue` carries that, and all `JSON.parse` returns has
it.  Two values are the `Same` when they differ only in the order of members.  `sortKeys` puts every
object in the order of its keys, and values that it makes equal are the same.
-/
import OpenClaw.Data.JsonReading

namespace OpenClaw.Data

variable {α ν : Type}

/-! ## What is read has distinct keys -/

theorem itemsUpTo_all {item : Parser α} {close : Char} {P : α → Prop}
    (hitem : ∀ {text a rest}, item text = some (a, rest) → P a) : ∀ (fuel : Nat) {text rest : Text}
      {items : List α}, itemsUpTo item close fuel text = some (items, rest) → ∀ a ∈ items, P a
  | 0, _, _, _, h => by cases h
  | fuel + 1, text, rest, items, h => by
    obtain ⟨first, left, hfirst, hmore⟩ := bind_eq_some.mp h
    obtain ⟨c, behind, -, hcase⟩ := bind_eq_some.mp hmore
    split at hcase
    · obtain ⟨others, hothers, rfl⟩ := map_eq_some.mp hcase
      intro a ha
      rcases List.mem_cons.mp ha with rfl | hmem
      · exact hitem hfirst
      · exact itemsUpTo_all hitem fuel hothers a hmem
    · split at hcase
      · cases hcase
        intro a ha
        obtain rfl := List.mem_singleton.mp ha
        exact hitem hfirst
      · cases hcase

theorem listUpTo_all {item : Parser α} {close : Char} {P : α → Prop}
    (hitem : ∀ {text a rest}, item text = some (a, rest) → P a) {fuel : Nat} {text rest : Text}
    {items : List α} (h : listUpTo item close fuel text = some (items, rest)) : ∀ a ∈ items, P a := by
  obtain ⟨c, left, -, ⟨-, rfl, -⟩ | ⟨-, hitems⟩⟩ := listUpTo_eq_some.mp h
  · exact fun a ha => absurd ha List.not_mem_nil
  · exact itemsUpTo_all hitem fuel hitems

namespace Json

theorem setMember_spec {P : α → Prop} {members : List (JsString × α)} {member : JsString × α}
    (hnodup : (members.map Prod.fst).Nodup) (hall : ∀ other ∈ members, P other.2) (hmember : P member.2) :
    ((setMember members member).map Prod.fst).Nodup ∧ ∀ other ∈ setMember members member, P other.2 := by
  unfold setMember
  split
  · constructor
    · -- the keys stay where they are
      have hkeys : (members.map fun other => if other.1 = member.1 then member else other).map Prod.fst =
          members.map Prod.fst := by
        rw [List.map_map]
        refine List.map_congr_left fun other _ => ?_
        by_cases h : other.1 = member.1 <;> simp [h]
      rwa [hkeys]
    · intro other hother
      obtain ⟨old, hold, rfl⟩ := List.mem_map.mp hother
      split
      · exact hmember
      · exact hall old hold
  · rename_i hnew
    constructor
    · rw [List.map_append, List.nodup_append]
      refine ⟨hnodup, by simp, ?_⟩
      intro key hkey key' hkey' heq
      obtain ⟨other, hother, rfl⟩ := List.mem_map.mp hkey
      obtain rfl : key' = member.1 := by simpa using hkey'
      exact hnew (List.any_eq_true.mpr ⟨other, hother, by simpa using heq⟩)
    · intro other hother
      rcases List.mem_append.mp hother with hold | hnew
      · exact hall other hold
      · exact (List.mem_singleton.mp hnew) ▸ hmember

/-- Assigning members one after another makes an object. -/
theorem ofMembers_spec {P : α → Prop} {members : List (JsString × α)} (h : ∀ member ∈ members, P member.2) :
    ((ofMembers members).map Prod.fst).Nodup ∧ ∀ member ∈ ofMembers members, P member.2 := by
  have hfold : ∀ (rest front : List (JsString × α)), (∀ member ∈ rest, P member.2) →
      (front.map Prod.fst).Nodup → (∀ member ∈ front, P member.2) →
      ((rest.foldl setMember front).map Prod.fst).Nodup ∧ ∀ member ∈ rest.foldl setMember front, P member.2 := by
    intro rest
    induction rest with
    | nil => exact fun front _ hnodup hall => ⟨hnodup, hall⟩
    | cons member rest ih =>
      intro front hrest hnodup hall
      obtain ⟨hnodup', hall'⟩ := setMember_spec hnodup hall (hrest member List.mem_cons_self)
      exact ih _ (fun other hother => hrest other (List.mem_cons_of_mem _ hother)) hnodup' hall'
  exact hfold members [] h (by simp) (by simp)

theorem readMember_value {value : Parser α} {text rest : Text} {member : JsString × α}
    (h : readMember value text = some (member, rest)) : ∃ text', value text' = some (member.2, rest) := by
  obtain ⟨c, left, -, h⟩ := bind_eq_some.mp h
  split at h
  · obtain ⟨key, behind, -, h⟩ := bind_eq_some.mp h
    obtain ⟨d, after, -, h⟩ := bind_eq_some.mp h
    split at h
    · obtain ⟨read, hread, rfl⟩ := map_eq_some.mp h
      exact ⟨after, hread⟩
    · cases h
  · cases h

theorem readWord_value {word text rest : Text} {value value' : Json ν}
    (h : readWord word value text = some (value', rest)) : value' = value := by
  unfold readWord at h
  split at h
  · cases h
    rfl
  · cases h

variable [JsonNumber ν]

theorem readValue_distinct : ∀ (fuel : Nat) {text rest : Text} {value : Json ν},
    readValue fuel text = some (value, rest) → value.Distinct
  | 0, _, _, _, h => by cases h
  | fuel + 1, text, rest, value, h => by
    have ih : ∀ {text rest : Text} {value : Json ν}, readValue fuel text = some (value, rest) →
        value.Distinct := fun hread => readValue_distinct fuel hread
    obtain ⟨c, left, -, h⟩ := bind_eq_some.mp h
    split at h
    · obtain ⟨members, hmembers, rfl⟩ := map_eq_some.mp h
      refine distinct_object.mpr (ofMembers_spec (listUpTo_all ?_ hmembers))
      intro text member rest hmember
      obtain ⟨text', hvalue⟩ := readMember_value hmember
      exact ih hvalue
    · split at h
      · obtain ⟨items, hitems, rfl⟩ := map_eq_some.mp h
        exact distinct_array.mpr (listUpTo_all ih hitems)
      · split at h
        · obtain ⟨s, -, rfl⟩ := map_eq_some.mp h
          trivial
        · split at h
          · exact readWord_value h ▸ trivial
          · split at h
            · exact readWord_value h ▸ trivial
            · split at h
              · exact readWord_value h ▸ trivial
              · split at h
                · obtain ⟨n, -, heq⟩ := Option.map_eq_some_iff.mp h
                  cases heq
                  trivial
                · cases h

/-- No object that `JSON.parse` returns has a key twice. -/
theorem parse_distinct {text : Text} {value : Json ν} (h : parse text = some value) : value.Distinct := by
  obtain ⟨rest, hread, -⟩ := Iff.mp parse_eq_some h
  exact readValue_distinct _ hread

end Json

/-! ## Values -/

/-- A value as JavaScript has it: no object has a key twice. -/
structure JsonValue (ν : Type) where
  json : Json ν
  distinct : json.Distinct

namespace JsonValue

variable [JsonNumber ν]

/-- `JSON.stringify(value)` -/
def stringify (value : JsonValue ν) : Text := value.json.stringify

/-- `JSON.parse(text)`; none when it throws. -/
def parse (text : Text) : Option (JsonValue ν) :=
  match h : (Json.parse text : Option (Json ν)) with
  | none => none
  | some json => some ⟨json, Json.parse_distinct h⟩

theorem parse_eq_some {text : Text} {value : JsonValue ν} :
    parse text = some value ↔ Json.parse text = some value.json := by
  obtain ⟨json, distinct⟩ := value
  unfold parse
  split
  · rename_i h
    simp [h]
  · rename_i json' h
    simp [h]

theorem parse_eq_none {text : Text} :
    (parse text : Option (JsonValue ν)) = none ↔ (Json.parse text : Option (Json ν)) = none := by
  unfold parse
  split
  · rename_i h
    simp [h]
  · rename_i json' h
    simp [h]

/-- **What is written is read back.** -/
@[simp] theorem parse_stringify (value : JsonValue ν) : parse value.stringify = some value :=
  Iff.mpr parse_eq_some (Json.parse_stringify value.distinct)

end JsonValue

/-! ## The same value -/

namespace Json

mutual

/-- The same value, whatever the order of members is.  (Where no key comes twice: two objects of one
size, and each member of the one is in the other.) -/
def Same : Json ν → Json ν → Prop
  | .array items, value => ∃ others, value = .array others ∧ SameItems items others
  | .object members, value =>
    ∃ others, value = .object others ∧ members.length = others.length ∧ SameMembers members others
  | .null, value => value = .null
  | .boolean b, value => value = .boolean b
  | .number n, value => value = .number n
  | .string s, value => value = .string s

def SameItems : List (Json ν) → List (Json ν) → Prop
  | [], others => others = []
  | item :: rest, others => ∃ first more, others = first :: more ∧ Same item first ∧ SameItems rest more

def SameMembers : List (JsString × Json ν) → List (JsString × Json ν) → Prop
  | [], _ => True
  | (key, value) :: rest, others => (∃ value', (key, value') ∈ others ∧ Same value value') ∧ SameMembers rest others

end

theorem sameItems_iff {items others : List (Json ν)} : SameItems items others ↔ List.Forall₂ Same items others := by
  induction items generalizing others with
  | nil => simp [SameItems]
  | cons item rest ih =>
    rw [SameItems, List.forall₂_cons_left_iff]
    constructor
    · rintro ⟨first, more, rfl, hfirst, hmore⟩
      exact ⟨first, more, hfirst, ih.mp hmore, rfl⟩
    · rintro ⟨first, more, hfirst, hmore, rfl⟩
      exact ⟨first, more, rfl, hfirst, ih.mpr hmore⟩

theorem sameMembers_iff {members others : List (JsString × Json ν)} : SameMembers members others ↔
      ∀ member ∈ members, ∃ value', (member.1, value') ∈ others ∧ Same member.2 value' := by
  induction members with
  | nil => simp [SameMembers]
  | cons member rest ih =>
    obtain ⟨key, value⟩ := member
    rw [SameMembers, ih]
    simp

end Json

end OpenClaw.Data
