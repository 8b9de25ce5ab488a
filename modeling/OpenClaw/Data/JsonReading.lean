/-
# OpenClaw.Data.JsonReading -- what is written is read back, and what is cut is not read

`parse_stringify` is the round trip for values whose objects have no key twice.  `parse_cut` is its
counterpart for logs: the text of an object that is cut anywhere, also inside a character, is not JSON.
-/
import OpenClaw.Data.Json
import OpenClaw.Data.Utf8

namespace OpenClaw.Data

namespace Json

variable {α ν : Type}

/-! ## The readers are regular -/

theorem readString_forward (text : Text) : ∀ {state : StringState} {s : JsString} {rest : Text},
    readString state text = some (s, rest) →
      rest <:+ text ∧ ∀ more, readString state (text ++ more) = some (s, rest ++ more) := by
  induction text with
  | nil =>
    intro state s rest h
    cases h
  | cons c text ih =>
    intro state s rest h
    rw [readString] at h
    split at h
    · rename_i hends
      cases h
      refine ⟨List.suffix_cons _ _, fun more => ?_⟩
      rw [List.cons_append, readString, if_pos hends]
    · rename_i hends
      obtain ⟨step, hstep, hrest⟩ := Option.bind_eq_some_iff.mp h
      obtain ⟨read, hread, heq⟩ := Option.map_eq_some_iff.mp hrest
      cases heq
      obtain ⟨hsuffix, hforward⟩ := ih hread
      refine ⟨hsuffix.trans (List.suffix_cons _ _), fun more => ?_⟩
      rw [List.cons_append, readString, if_neg hends, hstep, Option.bind_some, hforward more]
      rfl

theorem readString_steady (state : StringState) : Steady (readString state) where
  leavesEnd _ _ _ h := (readString_forward _ h).1
  forward _ _ _ h := (readString_forward _ h).2

theorem readWord_steady (word : Text) (value : Json ν) : Steady (readWord word value) where
  leavesEnd text _ _ h := by
    unfold readWord at h
    split at h
    · cases h
      exact List.drop_suffix _ _
    · cases h
  forward text _ _ h more := by
    unfold readWord at h ⊢
    split at h
    · rename_i hword
      cases h
      obtain ⟨rest, rfl⟩ := List.isPrefixOf_iff_prefix.mp hword
      simp
    · cases h

theorem readMember_regular {value : Parser α} (hvalue : Regular value) : Regular (readMember value) := by
  refine steady_token.bindRegular fun c => ?_
  split
  · refine (readString_steady _).bindRegular fun key => steady_token.bindRegular fun c => ?_
    split
    · exact hvalue.map _
    · exact steady_fail.regular
  · exact steady_fail.regular

variable [JsonNumber ν]

theorem readNumber_regular (first : Char) : Regular (readNumber first : Parser (Json ν)) where
  leavesEnd _ _ _ h := by
    obtain ⟨n, -, heq⟩ := Option.map_eq_some_iff.mp h
    cases heq
    exact List.dropWhile_suffix _
  forward text _ _ h hne more := by
    obtain ⟨n, hread, heq⟩ := Option.map_eq_some_iff.mp h
    cases heq
    refine Option.map_eq_some_iff.mpr ⟨n, ?_, ?_⟩
    · -- the literal ended inside the text
      have hsplit := congrArg List.length (List.takeWhile_append_dropWhile (p := isNumeral) (l := text))
      have hpos := List.length_pos_iff.mpr hne
      rw [List.length_append] at hsplit
      rwa [List.takeWhile_append, if_neg (by omega)]
    · rw [List.dropWhile_append]
      simp [hne]

theorem readValue_regular (fuel : Nat) : Regular (readValue fuel : Parser (Json ν)) := by
  induction fuel with
  | zero => exact steady_fail.regular
  | succ fuel ih =>
    refine steady_token.bindRegular fun c => ?_
    repeat' split
    · exact ((listUpTo_steady (readMember_regular ih) fuel).map _).regular
    · exact ((listUpTo_steady ih fuel).map _).regular
    · exact ((readString_steady _).map _).regular
    · exact (readWord_steady _ _).regular
    · exact (readWord_steady _ _).regular
    · exact (readWord_steady _ _).regular
    · exact readNumber_regular c
    · exact steady_fail.regular

theorem readMember_refines {value value' : Parser α} (h : Refines value value') :
    Refines (readMember value) (readMember value') := by
  refine (Refines.refl token).bind fun c => ?_
  split
  · refine (Refines.refl (readString .plain)).bind fun key => (Refines.refl token).bind fun c => ?_
    split
    · exact h.map _
    · exact .refl _
  · exact .refl _

/-- More fuel changes no result. -/
theorem readValue_refines : ∀ {fuel fuel' : Nat}, fuel ≤ fuel' →
    Refines (readValue fuel : Parser (Json ν)) (readValue fuel')
  | 0, _, _ => fun _ _ _ h => by cases h
  | fuel + 1, 0, hle => absurd hle (by simp)
  | fuel + 1, fuel' + 1, hle => by
    have hle' := Nat.le_of_succ_le_succ hle
    have ih : Refines (readValue fuel : Parser (Json ν)) (readValue fuel') := readValue_refines hle'
    refine (Refines.refl token).bind fun c => ?_
    split
    · exact (listUpTo_refines (readMember_refines ih) hle').map _
    · split
      · exact (listUpTo_refines ih hle').map _
      · exact .refl _

/-! ## Strings -/

theorem hexValue_hexChar : ∀ n < 16, hexValue (hexChar n) = some n := by decide

/-- Four digits behind `\\u` are the unit they were written from. -/
theorem readString_unicodeEscape {n : Nat} (hn : n < 0x10000) (text : Text) :
    readString .plain (unicodeEscape n ++ text) =
      (readString .plain text).map fun read => (unitOfNat n :: read.1, read.2) := by
  have h1 := hexValue_hexChar (n / 0x1000) (by omega)
  have h2 := hexValue_hexChar (n / 0x100 % 0x10) (by omega)
  have h3 := hexValue_hexChar (n / 0x10 % 0x10) (by omega)
  have h4 := hexValue_hexChar (n % 0x10) (by omega)
  have hbits : (((0 * 0x10 + n / 0x1000) * 0x10 + n / 0x100 % 0x10) * 0x10 + n / 0x10 % 0x10) * 0x10 +
      n % 0x10 = n := by omega
  simp only [unicodeEscape, List.cons_append, List.nil_append, readString, StringState.endsAt, stringStep,
    h1, h2, h3, h4, hbits, Option.map_some, Option.bind_some, Nat.reduceSub, Nat.reduceEqDiff, if_true,
    if_false, decide_eq_true_eq, Bool.false_eq_true, Option.map_map, Char.reduceEq]
  rfl

theorem unescape_letter {c letter : Char} (h : escapeLetter c = some letter) :
    unescape letter = some c ∧ letter ≠ 'u' := by
  unfold escapeLetter at h
  repeat' split at h
  all_goals cases h
  all_goals subst_vars; decide

theorem readString_point (point : CodePoint) (text : Text) : readString .plain (quotePoint point ++ text) =
      (readString .plain text).map fun read => (point.units ++ read.1, read.2) := by
  cases point with
  | lone unit =>
    rw [quotePoint, readString_unicodeEscape unit.isLt]
    simp [CodePoint.units]
  | char c =>
    rw [quotePoint]
    split
    · rename_i letter hletter
      obtain ⟨hunescape, hne⟩ := unescape_letter hletter
      simp [readString, StringState.endsAt, stringStep, hunescape, hne, CodePoint.units, Function.comp_def]
    · rename_i hletter
      split
      · rename_i hcontrol
        rw [readString_unicodeEscape (by omega)]
        have hunits : CodePoint.units (.char c) = [unitOfNat c.toNat] := by
          rw [CodePoint.units, charUnits, codeUnits, if_pos (by omega)]
          rfl
        rw [hunits]
        rfl
      · rename_i hplain
        have hquote : c ≠ '"' := by
          rintro rfl
          simp [escapeLetter] at hletter
        have hbackslash : c ≠ '\\' := by
          rintro rfl
          simp [escapeLetter] at hletter
        simp [readString, StringState.endsAt, stringStep, hquote, hbackslash, hplain, CodePoint.units]

/-- **A string reads back**, whatever its code units are. -/
theorem readString_quoteBody (s : JsString) (rest : Text) :
    readString .plain (quoteBody s ++ '"' :: rest) = some (s, rest) := by
  have hpoints : ∀ points : List CodePoint,
      readString .plain (points.flatMap quotePoint ++ '"' :: rest) = some (points.flatMap CodePoint.units, rest) := by
    intro points
    induction points with
    | nil => simp [readString, StringState.endsAt]
    | cons point points ih =>
      rw [List.flatMap_cons, List.append_assoc, readString_point, ih]
      rfl
  rw [quoteBody, hpoints, units_codePoints]

/-! ## Values -/

omit [JsonNumber ν] in
theorem distinct_array {items : List (Json ν)} : Distinct (.array items) ↔ ∀ item ∈ items, Distinct item := by
  rw [Distinct]
  induction items with
  | nil => simp [DistinctItems]
  | cons item rest ih => simp [DistinctItems, ih]

omit [JsonNumber ν] in
theorem distinct_object {members : List (JsString × Json ν)} : Distinct (.object members) ↔
      (members.map Prod.fst).Nodup ∧ ∀ member ∈ members, Distinct member.2 := by
  have hmembers : DistinctMembers members ↔ ∀ member ∈ members, Distinct member.2 := by
    induction members with
    | nil => simp [DistinctMembers]
    | cons member rest ih =>
      obtain ⟨key, value⟩ := member
      simp [DistinctMembers, ih]
  rw [Distinct, hmembers]

/-- Members under different keys are kept as they are. -/
theorem ofMembers_eq {members : List (JsString × α)} (h : (members.map Prod.fst).Nodup) :
    ofMembers members = members := by
  have hfold : ∀ (rest front : List (JsString × α)), ((front ++ rest).map Prod.fst).Nodup →
      rest.foldl setMember front = front ++ rest := by
    intro rest
    induction rest with
    | nil => simp
    | cons member rest ih =>
      intro front hnodup
      have hnew : front.any (·.1 = member.1) = false := by
        rw [List.map_append, List.nodup_append] at hnodup
        rw [List.any_eq_false]
        intro other hother heq
        exact hnodup.2.2 _ (List.mem_map_of_mem hother) _ (List.mem_map_of_mem List.mem_cons_self)
          (of_decide_eq_true heq)
      rw [List.foldl_cons, setMember, hnew, if_neg (by simp), ih _ (by simpa using hnodup)]
      simp
  exact hfold members [] (by simpa using h)

/-- The text of a value starts with a character that is no white space and closes nothing. -/
def StartsValue (text : Text) : Prop := ∃ c front, text = c :: front ∧ isJsonSpace c = false ∧ c ≠ ']' ∧ c ≠ '}'

theorem isNumeral_startsValue {c : Char} (h : isNumeral c = true) :
    isJsonSpace c = false ∧ c ≠ ']' ∧ c ≠ '}' ∧ c ≠ '{' ∧ c ≠ '[' ∧ c ≠ '"' ∧ c ≠ 'n' ∧ c ≠ 't' ∧ c ≠ 'f' := by
  refine ⟨?_, ?_⟩
  · by_contra hspace
    have hmem : c ∈ [' ', '\t', '\n', '\r'] := of_decide_eq_true (Bool.eq_true_of_not_eq_false hspace)
    simp only [List.mem_cons, List.not_mem_nil, or_false] at hmem
    rcases hmem with rfl | rfl | rfl | rfl <;> exact absurd h (by decide)
  · refine ⟨?_, ?_, ?_, ?_, ?_, ?_, ?_, ?_⟩ <;> (rintro rfl; exact absurd h (by decide))

theorem stringify_starts (value : Json ν) : StartsValue (stringify value) := by
  cases value with
  | null => exact ⟨'n', _, by rw [stringify]; rfl, by decide⟩
  | boolean value =>
    cases value with
    | true => exact ⟨'t', _, by rw [stringify]; rfl, by decide⟩
    | false => exact ⟨'f', _, by rw [stringify]; rfl, by decide⟩
  | number n =>
    obtain ⟨c, front, htext⟩ := List.exists_cons_of_ne_nil (JsonNumber.text_ne_nil n)
    have hc := isNumeral_startsValue (JsonNumber.text_numeral n c (htext ▸ List.mem_cons_self))
    exact ⟨c, front, by rw [stringify, htext], hc.1, hc.2.1, hc.2.2.1⟩
  | string s => exact ⟨'"', _, by rw [stringify]; rfl, by decide⟩
  | array items => exact ⟨'[', _, by rw [stringify], by decide⟩
  | object members => exact ⟨'{', _, by rw [stringify], by decide⟩

omit [JsonNumber ν] in
theorem readWord_append (word rest : Text) (value : Json ν) :
    readWord word value (word ++ rest) = some (value, rest) := by
  unfold readWord
  rw [if_pos (List.isPrefixOf_iff_prefix.mpr (List.prefix_append _ _)), List.drop_left]

theorem readNumber_text {n : ν} {c : Char} {front rest : Text} (htext : JsonNumber.text n = c :: front)
    (hrest : ∀ c ∈ rest.head?, isNumeral c = false) : readNumber c (front ++ rest) = some (.number n, rest) := by
  have hfront : ∀ d ∈ front, isNumeral d = true := fun d hd =>
    JsonNumber.text_numeral n d (htext ▸ List.mem_cons_of_mem _ hd)
  have hnone : rest.takeWhile isNumeral = [] ∧ rest.dropWhile isNumeral = rest := by
    cases rest with
    | nil => exact ⟨rfl, rfl⟩
    | cons d rest => simp [hrest d rfl]
  rw [readNumber, List.takeWhile_append_of_pos hfront, List.dropWhile_append_of_pos hfront, hnone.1, hnone.2,
    List.append_nil, ← htext, JsonNumber.read_text]
  rfl

/-- A member is read back when its value is. -/
theorem readMember_text {read : Parser (Json ν)} {member : JsString × Json ν} {c : Char} {rest : Text}
    (hread : read (stringify member.2 ++ c :: rest) = some (member.2, c :: rest)) :
    readMember read (memberText member ++ c :: rest) = some (member, c :: rest) := by
  have htext : memberText member ++ c :: rest =
      '"' :: (quoteBody member.1 ++ '"' :: ':' :: (stringify member.2 ++ c :: rest)) := by
    simp [memberText, quote]
  rw [htext]
  refine bind_eq_some.mpr ⟨'"', _, token_cons (by decide) _, ?_⟩
  rw [if_pos rfl]
  refine bind_eq_some.mpr ⟨member.1, _, readString_quoteBody _ _, ?_⟩
  refine bind_eq_some.mpr ⟨':', _, token_cons (by decide) _, ?_⟩
  rw [if_pos rfl]
  exact map_eq_some.mpr ⟨member.2, hread, rfl⟩

/-- The number literals do not swallow what follows the value. -/
def EndsNumber (rest : Text) : Prop := ∀ c ∈ rest.head?, isNumeral c = false

theorem endsNumber_cons {c : Char} (h : isNumeral c = false) (rest : Text) : EndsNumber (c :: rest) := by
  intro d hd
  cases hd
  exact h

/-- **A value is read back from its text**, given fuel for the length of the text. -/
theorem readValue_stringify (value : Json ν) : value.Distinct → ∀ {fuel : Nat},
    (stringify value).length ≤ fuel → ∀ {rest : Text}, EndsNumber rest →
      readValue (fuel + 1) (stringify value ++ rest) = some (value, rest) := by
  induction value using Json.induct with
  | null =>
    intro _ fuel _ rest _
    rw [stringify]
    refine bind_eq_some.mpr ⟨'n', "ull".toList ++ rest, token_cons (by decide) _, ?_⟩
    simpa using readWord_append "ull".toList rest null
  | boolean value =>
    intro _ fuel _ rest _
    cases value with
    | true =>
      rw [stringify]
      refine bind_eq_some.mpr ⟨'t', "rue".toList ++ rest, token_cons (by decide) _, ?_⟩
      simpa using readWord_append "rue".toList rest (boolean true)
    | false =>
      rw [stringify]
      refine bind_eq_some.mpr ⟨'f', "alse".toList ++ rest, token_cons (by decide) _, ?_⟩
      simpa using readWord_append "alse".toList rest (boolean false)
  | number n =>
    intro _ fuel _ rest hrest
    obtain ⟨c, front, htext⟩ := List.exists_cons_of_ne_nil (JsonNumber.text_ne_nil n)
    have hnumeral := JsonNumber.text_numeral n c (htext ▸ List.mem_cons_self)
    obtain ⟨hspace, -, -, h1, h2, h3, h4, h5, h6⟩ := isNumeral_startsValue hnumeral
    rw [stringify, htext]
    refine bind_eq_some.mpr ⟨c, front ++ rest, token_cons hspace _, ?_⟩
    rw [if_neg h1, if_neg h2, if_neg h3, if_neg h4, if_neg h5, if_neg h6, if_pos hnumeral]
    exact readNumber_text htext hrest
  | string s =>
    intro _ fuel _ rest _
    have htext : stringify (string s : Json ν) ++ rest = '"' :: (quoteBody s ++ '"' :: rest) := by
      simp [stringify, quote]
    rw [htext]
    refine bind_eq_some.mpr ⟨'"', _, token_cons (by decide) _, ?_⟩
    simp only [Char.reduceEq, if_true, if_false]
    exact map_eq_some.mpr ⟨s, readString_quoteBody s rest, rfl⟩
  | array items ih =>
    intro hdistinct fuel hfuel rest _
    rw [stringify, stringifyItems_eq] at hfuel ⊢
    simp only [List.length_cons, List.length_append, List.length_nil] at hfuel
    have hdistinct := Iff.mp distinct_array hdistinct
    have hcount := length_le_commas (items.map stringify)
    rw [List.length_map] at hcount
    rw [List.cons_append, List.append_assoc, List.cons_append, List.nil_append]
    refine bind_eq_some.mpr ⟨'[', _, token_cons (by decide) _, ?_⟩
    simp only [Char.reduceEq, if_true, if_false]
    refine map_eq_some.mpr ⟨items, ?_, rfl⟩
    refine listUpTo_commas (by decide) (by decide) (by omega) ?_ ?_ rest
    · intro item hitem c behind hc
      have hpart := part_le_commas (List.mem_map_of_mem (f := stringify) hitem)
      obtain ⟨less, rfl⟩ : ∃ less, fuel = less + 1 := ⟨fuel - 1, by omega⟩
      refine ih item hitem (hdistinct item hitem) (by omega) (endsNumber_cons ?_ behind)
      rcases hc with rfl | rfl <;> decide
    · intro item _
      obtain ⟨c, front, htext, hspace, hne, -⟩ := stringify_starts item
      exact ⟨c, front, htext, hne, hspace⟩
  | object members ih =>
    intro hdistinct fuel hfuel rest _
    rw [stringify, stringifyMembers_eq] at hfuel ⊢
    simp only [List.length_cons, List.length_append, List.length_nil] at hfuel
    obtain ⟨hkeys, hvalues⟩ := Iff.mp distinct_object hdistinct
    have hcount := length_le_commas (members.map memberText)
    rw [List.length_map] at hcount
    rw [List.cons_append, List.append_assoc, List.cons_append, List.nil_append]
    refine bind_eq_some.mpr ⟨'{', _, token_cons (by decide) _, ?_⟩
    rw [if_pos rfl]
    refine map_eq_some.mpr ⟨members, ?_, by rw [ofMembers_eq hkeys]⟩
    refine listUpTo_commas (by decide) (by decide) (by omega) ?_ ?_ rest
    · intro member hmember c behind hc
      have hpart := part_le_commas (List.mem_map_of_mem (f := memberText) hmember)
      have hvalue : (stringify member.2).length ≤ (memberText member).length := by
        simp only [memberText, List.length_append, List.length_cons]
        omega
      obtain ⟨less, rfl⟩ : ∃ less, fuel = less + 1 := ⟨fuel - 1, by omega⟩
      refine readMember_text (ih member hmember (hvalues member hmember) (by omega)
        (endsNumber_cons ?_ behind))
      rcases hc with rfl | rfl <;> decide
    · intro member _
      exact ⟨'"', _, by rw [memberText, quote]; rfl, by decide, by decide⟩

/-- **`JSON.parse(JSON.stringify(value))` is the value.** -/
theorem parse_stringify {value : Json ν} (h : value.Distinct) : parse (stringify value) = some value := by
  have hends : EndsNumber [] := by simp [EndsNumber]
  have hread := readValue_stringify value h (Nat.le_refl _) hends
  rw [List.append_nil] at hread
  rw [parse, hread]
  simp [skipSpace]

/-! ## Cut texts -/

theorem parse_eq_some {text : Text} {value : Json ν} : (parse text : Option (Json ν)) = some value ↔
      ∃ rest, readValue (text.length + 1) text = some (value, rest) ∧ ∀ c ∈ rest, isJsonSpace c = true := by
  unfold parse
  cases (readValue (text.length + 1) text : Option (Json ν × Text)) with
  | none => simp
  | some read =>
    obtain ⟨value', rest⟩ := read
    simp only [skipSpace_eq_nil, Option.some.injEq, Prod.mk.injEq]
    constructor
    · intro h
      split at h
      · rename_i hspace
        cases h
        exact ⟨rest, ⟨rfl, rfl⟩, hspace⟩
      · cases h
    · rintro ⟨_, ⟨rfl, rfl⟩, hspace⟩
      rw [if_pos hspace]

/-- An object knows its end, and its closing brace stands there. -/
theorem readValue_object {fuel : Nat} {text rest : Text} {value : Json ν}
    (h : readValue (fuel + 1) ('{' :: text) = some (value, rest)) : '}' :: rest <:+ text ∧
      ∀ more, readValue (fuel + 1) ('{' :: (text ++ more)) = some (value, rest ++ more) := by
  have hregular : Regular (readMember (readValue fuel : Parser (Json ν))) := readMember_regular (readValue_regular fuel)
  obtain ⟨c, left, htoken, hread⟩ := bind_eq_some.mp h
  rw [token_cons (by decide) text] at htoken
  cases htoken
  rw [if_pos rfl] at hread
  constructor
  · obtain ⟨members, hmembers, -⟩ := map_eq_some.mp hread
    exact listUpTo_closes hregular.leavesEnd hmembers
  · intro more
    refine bind_eq_some.mpr ⟨'{', text ++ more, token_cons (by decide) _, ?_⟩
    rw [if_pos rfl]
    exact ((listUpTo_steady hregular fuel).map _).forward hread more

theorem parse_replacement : (parse [replacementCharacter] : Option (Json ν)) = none := by
  by_contra hparse
  obtain ⟨value, hvalue⟩ := Option.ne_none_iff_exists'.mp hparse
  obtain ⟨rest, hread, -⟩ := Iff.mp parse_eq_some hvalue
  obtain ⟨c, left, htoken, hcase⟩ := bind_eq_some.mp hread
  have htoken' : token [replacementCharacter] = some (replacementCharacter, []) := token_cons (by decide) []
  rw [htoken'] at htoken
  cases htoken
  have hnumeral : ¬ isNumeral replacementCharacter = true := by decide
  rw [if_neg (by decide), if_neg (by decide), if_neg (by decide), if_neg (by decide), if_neg (by decide),
    if_neg (by decide), if_neg hnumeral] at hcase
  cases hcase

/-- **The text of an object that is cut is no JSON text**, and none with U+FFFD behind it either. -/
theorem parse_cut {members : List (JsString × Json ν)} (h : Distinct (.object members))
    {front back : Text} (htext : stringify (.object members) = front ++ back) (hback : back ≠ []) :
    (parse front : Option (Json ν)) = none ∧ (parse (front ++ [replacementCharacter]) : Option (Json ν)) = none := by
  have hends : EndsNumber [] := by simp [EndsNumber]
  have hfull := readValue_stringify (.object members) h (Nat.le_refl _) hends
  rw [List.append_nil] at hfull
  cases front with
  | nil => exact ⟨rfl, parse_replacement⟩
  | cons c front =>
    obtain rfl : c = '{' := by
      rw [stringify] at htext
      exact (List.cons.inj htext).1.symm
    constructor
    · by_contra hparse
      obtain ⟨value, hvalue⟩ := Option.ne_none_iff_exists'.mp hparse
      obtain ⟨rest, hread, -⟩ := Iff.mp parse_eq_some hvalue
      -- the same object would be read from the whole text, and something left of it
      have hmore := (readValue_object hread).2 back
      rw [← List.cons_append, ← htext] at hmore
      have hlength := congrArg List.length htext
      simp only [List.length_append, List.length_cons] at hlength
      have hfuel : ('{' :: front).length + 1 ≤ (stringify (.object members)).length + 1 := by
        simp only [List.length_cons]
        omega
      have hagain := readValue_refines hfuel hmore
      rw [hfull] at hagain
      cases hback ((List.append_eq_nil_iff.mp (Prod.mk.inj (Option.some.inj hagain)).2.symm).2)
    · by_contra hparse
      obtain ⟨value, hvalue⟩ := Option.ne_none_iff_exists'.mp hparse
      obtain ⟨rest, hread, hspace⟩ := Iff.mp parse_eq_some hvalue
      obtain ⟨skipped, hskipped⟩ := (readValue_object hread).1
      -- the closing brace and white space end no text that ends with U+FFFD
      have hlast : (skipped ++ '}' :: rest).getLast? = some replacementCharacter := by
        rw [hskipped]
        exact List.getLast?_concat
      rw [List.getLast?_append] at hlast
      rcases List.eq_nil_or_concat rest with rfl | ⟨_, last, rfl⟩
      · simp [replacementCharacter] at hlast
      · have hlast' : last = replacementCharacter := by
          rw [List.concat_eq_append, ← List.cons_append, List.getLast?_concat] at hlast
          simpa using hlast
        have := hspace last (by simp)
        rw [hlast'] at this
        exact absurd this (by decide)

/-! ## One line -/

/-- No character of a text that is written is a control character. -/
def Visible (text : Text) : Prop := ∀ c ∈ text, 0x20 ≤ c.toNat

theorem hexChar_visible (n : Nat) : 0x20 ≤ (hexChar n).toNat := by
  have hall : ∀ c ∈ "0123456789abcdef".toList, 0x20 ≤ c.toNat := by simp
  unfold hexChar
  rw [List.getD_eq_getElem?_getD]
  cases h : "0123456789abcdef".toList[n]? with
  | none => decide
  | some c => exact hall c (List.mem_of_getElem? h)

theorem unicodeEscape_visible (n : Nat) : Visible (unicodeEscape n) := by
  intro c hc
  simp only [unicodeEscape, List.mem_cons, List.not_mem_nil, or_false] at hc
  rcases hc with rfl | rfl | rfl | rfl | rfl | rfl
  · decide
  · decide
  all_goals exact hexChar_visible _

theorem quotePoint_visible (point : CodePoint) : Visible (quotePoint point) := by
  cases point with
  | lone unit => exact unicodeEscape_visible _
  | char c =>
    rw [quotePoint]
    split
    · rename_i letter hletter
      have hvisible : 0x20 ≤ letter.toNat := by
        unfold escapeLetter at hletter
        repeat' split at hletter
        all_goals cases hletter
        all_goals decide
      intro d hd
      simp only [List.mem_cons, List.not_mem_nil, or_false] at hd
      rcases hd with rfl | rfl
      · decide
      · exact hvisible
    · split
      · exact unicodeEscape_visible _
      · rename_i hplain
        intro d hd
        obtain rfl := List.mem_singleton.mp hd
        omega

theorem quote_visible (s : JsString) : Visible (quote s) := by
  intro c hc
  simp only [quote, List.mem_cons, List.mem_append, quoteBody, List.mem_flatMap, List.not_mem_nil, or_false] at hc
  rcases hc with rfl | ⟨point, -, hpoint⟩ | rfl
  · decide
  · exact quotePoint_visible point c hpoint
  · decide

theorem commas_visible {parts : List Text} (h : ∀ part ∈ parts, Visible part) : Visible (commas parts) := by
  induction parts with
  | nil => simp [commas, Visible, List.intercalate]
  | cons first rest ih =>
    by_cases hrest : rest = []
    · subst hrest
      rw [commas_singleton]
      exact h first List.mem_cons_self
    · rw [commas_cons first hrest]
      intro c hc
      rcases List.mem_append.mp hc with hfirst | hc
      · exact h first List.mem_cons_self c hfirst
      · rcases List.mem_cons.mp hc with rfl | hmore
        · decide
        · exact ih (fun part hpart => h part (List.mem_cons_of_mem _ hpart)) c hmore

theorem isNumeral_visible {c : Char} (h : isNumeral c = true) : 0x20 ≤ c.toNat := by
  rcases Bool.or_eq_true_iff.mp h with hdigit | hmem
  · have := (Bool.and_eq_true_iff.mp hdigit).1
    have hle : '0'.toNat ≤ c.toNat := of_decide_eq_true this
    exact Nat.le_trans (by decide) hle
  · have hmem := of_decide_eq_true hmem
    revert hmem
    simp only [List.mem_cons, List.not_mem_nil, or_false]
    rintro (rfl | rfl | rfl | rfl | rfl) <;> decide

/-- **A value is written on one line.** -/
theorem stringify_visible (value : Json ν) : Visible (stringify value) := by
  have hwrap : ∀ {c d : Char} {text : Text}, 0x20 ≤ c.toNat → 0x20 ≤ d.toNat → Visible text →
      Visible (c :: (text ++ [d])) := by
    intro c d text hc hd htext e he
    rcases List.mem_cons.mp he with rfl | he
    · exact hc
    · rcases List.mem_append.mp he with he | he
      · exact htext e he
      · exact (List.mem_singleton.mp he) ▸ hd
  induction value using Json.induct with
  | null => simp [stringify, Visible]
  | boolean value => cases value <;> simp [stringify, Visible]
  | number n =>
    rw [stringify]
    exact fun c hc => isNumeral_visible (JsonNumber.text_numeral n c hc)
  | string s =>
    rw [stringify]
    exact quote_visible s
  | array items ih =>
    rw [stringify, stringifyItems_eq]
    refine hwrap (by decide) (by decide) (commas_visible fun part hpart => ?_)
    obtain ⟨item, hitem, rfl⟩ := List.mem_map.mp hpart
    exact ih item hitem
  | object members ih =>
    rw [stringify, stringifyMembers_eq]
    refine hwrap (by decide) (by decide) (commas_visible fun part hpart => ?_)
    obtain ⟨member, hmember, rfl⟩ := List.mem_map.mp hpart
    intro c hc
    rcases List.mem_append.mp hc with hkey | hc
    · exact quote_visible _ c hkey
    · rcases List.mem_cons.mp hc with rfl | hvalue
      · decide
      · exact ih member hmember c hvalue

end Json

end OpenClaw.Data
