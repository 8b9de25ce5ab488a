/-
# OpenClaw.Infra.JsonUtf8Bytes -- the length of serialized JSON, counted up to a limit

`boundedJsonUtf8Bytes` walks over a value and adds up the bytes that its text would have, without making the text.
It gives up as soon as there are too many.  What it counts is the length of `JSON.stringify`, and it gives up exactly
where there is no text or the text is too long (`bounded_json_size`).

This follows `json-utf8-bytes.ts`.  The variable `bytes` is passed on from one addition to the next; an error holds
what it was at the throw.
-/
import OpenClaw.Data.JsHeap

namespace OpenClaw.Infra.JsonUtf8Bytes

open OpenClaw.Data

/-! ## The count -/

structure BoundedJsonUtf8Bytes where
  bytes : Nat
  complete : Bool

/-- For a string or a number, whose text is given; neither of them fails to be serialized. -/
def jsonUtf8BytesOrInfinity (text : Text) : Nat := textBytes text

def jsonStringByteLengthUpToLimit (value : JsString) (remainingBytes : Nat) : Nat :=
  if remainingBytes < value.length + 2 then remainingBytes + 1 else jsonUtf8BytesOrInfinity (Json.quote value)

section Visit

variable (maxBytes : Nat)

def add (amount bytes : Nat) : Except Nat Nat :=
  if maxBytes < bytes + amount then .error (bytes + amount) else .ok (bytes + amount)

/-- A comma, behind something that was written. -/
def addComma (wrote : Bool) (bytes : Nat) : Except Nat Nat := if wrote then add maxBytes 1 bytes else .ok bytes

variable {ν : Type} [JsonNumber ν] {size : Nat} (heap : JsHeap ν size)

mutual

/-- `seen` are the objects that the entry is inside of. -/
def visit (seen : Finset (Fin size)) (inArray : Bool) : JsValue ν size → Nat → Except Nat Nat
  | .null, bytes => add maxBytes 4 bytes
  | .string entry, bytes => add maxBytes (jsonStringByteLengthUpToLimit entry (maxBytes - bytes)) bytes
  | .number entry, bytes => add maxBytes (jsonUtf8BytesOrInfinity (numberText entry)) bytes
  | .boolean entry, bytes => add maxBytes (if entry then 4 else 5) bytes
  | .undefined, bytes => if inArray then add maxBytes 4 bytes else .ok bytes
  | .function, bytes => if inArray then add maxBytes 4 bytes else .ok bytes
  | .symbol, bytes => if inArray then add maxBytes 4 bytes else .ok bytes
  | .bigint _, bytes => .error bytes
  | .object ref, bytes =>
    if _ : ref ∈ seen then .error bytes
    else
      match heap.object ref with
      | .date iso => visit (insert ref seen) inArray (iso.elim .null .string) bytes
      | .array items => do
        let bytes ← add maxBytes 1 bytes
        let bytes ← visitItems (insert ref seen) 0 items bytes
        add maxBytes 1 bytes
      | .plain members =>
        if hasToJson members then .error bytes
        else do
          let bytes ← add maxBytes 1 bytes
          let bytes ← visitFields (insert ref seen) false members bytes
          add maxBytes 1 bytes
termination_by (unseen seen, 0, 0)
decreasing_by
  · exact Prod.Lex.left _ _ (unseen_insert ‹_›)
  · exact Prod.Lex.left _ _ (unseen_insert ‹_›)
  · exact Prod.Lex.left _ _ (unseen_insert ‹_›)

/-- The loop over an array, from `index` on. -/
def visitItems (seen : Finset (Fin size)) (index : Nat) : List (JsValue ν size) → Nat → Except Nat Nat
  | [], bytes => .ok bytes
  | item :: rest, bytes => do
    let bytes ← addComma maxBytes (0 < index) bytes
    let bytes ← visit seen true item bytes
    visitItems seen (index + 1) rest bytes
termination_by items => (unseen seen, 1, items.length)

/-- The loop over the entries of an object. -/
def visitFields (seen : Finset (Fin size)) (wroteField : Bool) :
    List (JsString × JsValue ν size) → Nat → Except Nat Nat
  | [], bytes => .ok bytes
  | (key, field) :: rest, bytes =>
    if !field.IsJson then visitFields seen wroteField rest bytes
    else do
      let bytes ← addComma maxBytes wroteField bytes
      let bytes ← add maxBytes (jsonStringByteLengthUpToLimit key (maxBytes - bytes)) bytes
      let bytes ← add maxBytes 1 bytes
      let bytes ← visit seen false field bytes
      visitFields seen true rest bytes
termination_by members => (unseen seen, 1, members.length)

end

end Visit

def boundedJsonUtf8Bytes {ν : Type} [JsonNumber ν] {size : Nat} (heap : JsHeap ν size) (value : JsValue ν size)
    (maxBytes : Nat) : BoundedJsonUtf8Bytes :=
  match visit maxBytes heap ∅ false value 0 with
  | .ok bytes => ⟨bytes, true⟩
  | .error bytes => ⟨max bytes (maxBytes + 1), false⟩

/-! ## What is counted -/

section Counts

variable {maxBytes : Nat}

/-- From `bytes` on, `amount` more bytes are counted, if they fit; `none` is no amount at all. -/
def Counts (maxBytes bytes : Nat) (amount : Option Nat) : Except Nat Nat → Prop
  | .ok total => ∃ n, amount = some n ∧ total = bytes + n ∧ total ≤ maxBytes
  | .error _ => ∀ n, amount = some n → maxBytes < bytes + n

/-- Both amounts. -/
def both (first second : Option Nat) : Option Nat := first.bind fun a => second.map (a + ·)

theorem counts_add (amount bytes : Nat) : Counts maxBytes bytes (some amount) (add maxBytes amount bytes) := by
  unfold add
  split
  case isTrue hover =>
    intro n hn
    obtain rfl := Option.some.inj hn
    exact hover
  case isFalse hfits => exact ⟨amount, rfl, rfl, Nat.le_of_not_lt hfits⟩

theorem counts_ok {bytes : Nat} (h : bytes ≤ maxBytes) : Counts maxBytes bytes (some 0) (.ok bytes) :=
  ⟨0, rfl, rfl, h⟩

theorem counts_none (bytes count : Nat) : Counts maxBytes bytes none (.error count) := by
  intro n hn
  contradiction

/-- **One count after the other.** -/
theorem Counts.andThen {bytes : Nat} {first second : Option Nat} {result : Except Nat Nat}
    {next : Nat → Except Nat Nat} (h : Counts maxBytes bytes first result)
    (hnext : ∀ total, total ≤ maxBytes → Counts maxBytes total second (next total)) :
    Counts maxBytes bytes (both first second) (result >>= next) := by
  cases result with
  | error count =>
    intro n hn
    obtain ⟨a, ha, hmap⟩ := Option.bind_eq_some_iff.mp hn
    obtain ⟨b, -, rfl⟩ := Option.map_eq_some_iff.mp hmap
    have hover := h a ha
    omega
  | ok total =>
    obtain ⟨a, rfl, rfl, hfits⟩ := h
    have hcounted := hnext (bytes + a) hfits
    show Counts maxBytes bytes (second.map (a + ·)) (next (bytes + a))
    cases hresult : next (bytes + a) with
    | error count =>
      rw [hresult] at hcounted
      intro n hn
      obtain ⟨b, hb, rfl⟩ := Option.map_eq_some_iff.mp hn
      have hover := hcounted b hb
      omega
    | ok total =>
      rw [hresult] at hcounted
      obtain ⟨b, rfl, rfl, htotal⟩ := hcounted
      exact ⟨a + b, rfl, Nat.add_assoc bytes a b, htotal⟩

/-- A string that is too long for its units alone is not serialized. -/
theorem counts_string (value : JsString) {bytes : Nat} (h : bytes ≤ maxBytes) :
    Counts maxBytes bytes (some (textBytes (Json.quote value)))
      (add maxBytes (jsonStringByteLengthUpToLimit value (maxBytes - bytes)) bytes) := by
  have hlength := length_le_quote value
  unfold jsonStringByteLengthUpToLimit
  split
  case isFalse => exact counts_add _ _
  case isTrue hlong =>
    rw [add, if_pos (by omega)]
    intro n hn
    obtain rfl := Option.some.inj hn
    omega

end Counts

/-! ## The sizes of texts -/

section Sizes

/-- What a value adds: as an item of an array it is at least `null`. -/
def valueSize (inArray : Bool) : Except StringifyError (Option Text) → Option Nat
  | .error _ => none
  | .ok none => some (if inArray then 4 else 0)
  | .ok (some text) => some (textBytes text)

/-- What parts add; a comma stands in front of each, but for the first where nothing was written before. -/
def partsSize (wrote : Bool) : Except StringifyError (List Text) → Option Nat
  | .error _ => none
  | .ok texts => some ((texts.map textBytes).sum + if wrote then texts.length else texts.length - 1)

theorem closed_size {opening closing : Char} (hopening : opening.utf8Size = 1) (hclosing : closing.utf8Size = 1)
    (inArray : Bool) (parts : Except StringifyError (List Text)) :
    both (some 1) (both (partsSize false parts) (some 1)) =
      valueSize inArray (parts >>= fun texts => .ok (some (opening :: (commas texts ++ [closing])))) := by
  cases parts with
  | error e => rfl
  | ok texts =>
    apply congrArg some
    rw [textBytes_cons, textBytes_append, textBytes_cons, textBytes_commas, hopening, hclosing]
    rfl

theorem items_size (wrote : Bool) (item : Except StringifyError (Option Text))
    (rest : Except StringifyError (List Text)) :
    both (some (if wrote then 1 else 0)) (both (valueSize true item) (partsSize true rest)) =
      partsSize wrote (item >>= fun text => rest >>= fun texts => .ok (text.getD "null".toList :: texts)) := by
  cases item with
  | error e => rfl
  | ok text =>
    have hsize : valueSize true (.ok text) = some (textBytes (text.getD "null".toList)) := by
      cases text with
      | none => rfl
      | some text => rfl
    cases rest with
    | error e =>
      rw [hsize]
      rfl
    | ok texts =>
      rw [hsize]
      apply congrArg some
      cases wrote with
      | true =>
        simp only [List.map_cons, List.sum_cons, List.length_cons, if_pos]
        omega
      | false =>
        simp only [List.map_cons, List.sum_cons, List.length_cons, Bool.false_eq_true, if_false, if_true]
        omega

theorem field_size (wrote : Bool) (key : JsString) {field : Except StringifyError (Option Text)}
    (hfield : field ≠ .ok none) (rest : Except StringifyError (List Text)) :
    both (some (if wrote then 1 else 0)) (both (some (textBytes (Json.quote key)))
        (both (some 1) (both (valueSize false field) (partsSize true rest)))) =
      partsSize wrote (field >>= fun text => rest >>= fun texts => .ok (addMember key text texts)) := by
  cases field with
  | error e => rfl
  | ok text =>
    cases text with
    | none => exact absurd rfl hfield
    | some text =>
      cases rest with
      | error e => rfl
      | ok texts =>
        have hcolon : (':' : Char).utf8Size = 1 := by decide
        apply congrArg some
        simp only [addMember, List.map_cons, List.sum_cons, List.length_cons, textBytes_append, textBytes_cons, hcolon]
        cases wrote with
        | true =>
          simp only [if_true]
          omega
        | false =>
          simp only [Bool.false_eq_true, if_false, if_true]
          omega

end Sizes

/-! ## The walk -/

section Walk

variable {maxBytes : Nat} {ν : Type} {size : Nat} {heap : JsHeap ν size}

/-- No date has anything inside. -/
def NoDates (heap : JsHeap ν size) (seen : Finset (Fin size)) : Prop := ∀ ref ∈ seen, ∀ iso, heap.object ref ≠ .date iso

theorem noDates_insert {seen : Finset (Fin size)} {ref : Fin size} (h : NoDates heap seen)
    (hobject : ∀ iso, heap.object ref ≠ .date iso) : NoDates heap (insert ref seen) := by
  intro other hother iso
  rcases Finset.mem_insert.mp hother with rfl | hold
  · exact hobject iso
  · exact h other hold iso

variable [JsonNumber ν]

/-- The walk over a value counts what the value is serialized to. -/
def VisitCounts (maxBytes : Nat) (heap : JsHeap ν size) (seen : Finset (Fin size)) : Prop :=
  ∀ inArray value bytes, bytes ≤ maxBytes →
    Counts maxBytes bytes (valueSize inArray (serialize heap seen value)) (visit maxBytes heap seen inArray value bytes)

theorem counts_comma (wrote : Bool) {bytes : Nat} (h : bytes ≤ maxBytes) :
    Counts maxBytes bytes (some (if wrote then 1 else 0)) (addComma maxBytes wrote bytes) := by
  cases wrote with
  | true => exact counts_add 1 bytes
  | false => exact counts_ok h

theorem visitItems_counts {seen : Finset (Fin size)} (hvisit : VisitCounts maxBytes heap seen)
    (items : List (JsValue ν size)) : ∀ index bytes, bytes ≤ maxBytes →
    Counts maxBytes bytes (partsSize (0 < index) (serializeItems heap seen items))
      (visitItems maxBytes heap seen index items bytes) := by
  induction items with
  | nil =>
    intro index bytes hbytes
    rw [visitItems, serializeItems]
    have hnothing : partsSize (0 < index) (.ok []) = some 0 := by simp [partsSize]
    rw [hnothing]
    exact counts_ok hbytes
  | cons item rest ih =>
    intro index bytes hbytes
    rw [visitItems, serializeItems, ← items_size]
    apply (counts_comma _ hbytes).andThen
    intro total htotal
    apply (hvisit true item total htotal).andThen
    intro total htotal
    have hrest := ih (index + 1) total htotal
    rw [decide_eq_true (Nat.succ_pos index)] at hrest
    exact hrest

theorem serialize_skipped {seen : Finset (Fin size)} {value : JsValue ν size} (h : value.IsJson = false) :
    serialize heap seen value = .ok none := by
  cases value with
  | undefined | function | symbol => rw [serialize]
  | null | boolean | number | string | bigint | object => contradiction

/-- Everything else is serialized to a text, if at all. -/
theorem serialize_text {seen : Finset (Fin size)} {value : JsValue ν size} (h : value.IsJson = true) :
    serialize heap seen value ≠ .ok none := by
  have hsome : ∀ text : Text, (Except.ok (some text) : Except StringifyError (Option Text)) ≠ .ok none :=
    fun text hnone => Option.some_ne_none text (Except.ok.inj hnone)
  have hclosed : ∀ (parts : Except StringifyError (List Text)) (close : List Text → Text),
      (parts >>= fun texts => .ok (some (close texts))) ≠ .ok none := by
    intro parts close hnone
    cases parts with
    | error e => contradiction
    | ok texts => exact hsome _ hnone
  intro hnone
  cases value with
  | undefined | function | symbol => contradiction
  | null | boolean | number | string =>
    rw [serialize] at hnone
    exact hsome _ hnone
  | bigint =>
    rw [serialize] at hnone
    contradiction
  | object ref =>
    rw [serialize] at hnone
    split at hnone
    · exact hsome _ hnone
    · split at hnone
      · contradiction
      · exact hclosed _ _ hnone
    · split at hnone
      · contradiction
      · exact hclosed _ _ hnone

theorem visitFields_counts {seen : Finset (Fin size)} (hvisit : VisitCounts maxBytes heap seen)
    (members : List (JsString × JsValue ν size)) : ∀ wroteField bytes, bytes ≤ maxBytes →
    Counts maxBytes bytes (partsSize wroteField (serializeMembers heap seen members))
      (visitFields maxBytes heap seen wroteField members bytes) := by
  induction members with
  | nil =>
    intro wroteField bytes hbytes
    rw [visitFields, serializeMembers]
    have hnothing : partsSize wroteField (.ok []) = some 0 := by simp [partsSize]
    rw [hnothing]
    exact counts_ok hbytes
  | cons member rest ih =>
    intro wroteField bytes hbytes
    obtain ⟨key, field⟩ := member
    rw [visitFields, serializeMembers]
    cases hjson : field.IsJson with
    | false =>
      have hrest : (serialize heap seen field >>= fun text => serializeMembers heap seen rest >>= fun texts =>
          .ok (addMember key text texts)) = serializeMembers heap seen rest := by
        rw [serialize_skipped hjson]
        cases serializeMembers heap seen rest with
        | error e => rfl
        | ok texts => rfl
      rw [hrest]
      exact ih wroteField bytes hbytes
    | true =>
      rw [Bool.not_true, if_neg Bool.false_ne_true, ← field_size wroteField key (serialize_text hjson)]
      apply (counts_comma _ hbytes).andThen
      intro total htotal
      apply (counts_string key htotal).andThen
      intro total htotal
      apply (counts_add 1 total).andThen
      intro total htotal
      apply (hvisit false field total htotal).andThen
      intro total htotal
      exact ih true total htotal

/-- An object that is opened: what is inside counts between its two brackets. -/
theorem counts_closed {bytes : Nat} {opening closing : Char} (hopening : opening.utf8Size = 1)
    (hclosing : closing.utf8Size = 1) (inArray : Bool) {parts : Except StringifyError (List Text)}
    {inside : Nat → Except Nat Nat}
    (h : ∀ total, total ≤ maxBytes → Counts maxBytes total (partsSize false parts) (inside total)) :
    Counts maxBytes bytes (valueSize inArray (parts >>= fun texts => .ok (some (opening :: (commas texts ++ [closing])))))
      (add maxBytes 1 bytes >>= fun bytes => inside bytes >>= fun bytes => add maxBytes 1 bytes) := by
  rw [← closed_size hopening hclosing]
  apply (counts_add 1 bytes).andThen
  intro total htotal
  apply (h total htotal).andThen
  intro total _
  exact counts_add 1 total

/-- **The walk counts.**  The induction is on the objects that are not open. -/
theorem visit_counts : ∀ (rest : Nat) (seen : Finset (Fin size)), unseen seen = rest → NoDates heap seen →
    VisitCounts maxBytes heap seen := by
  intro rest
  induction rest using Nat.strong_induction_on with
  | _ rest ih =>
    intro seen hrest hdates inArray value bytes hbytes
    have hskipped : Counts maxBytes bytes (some (if inArray then 4 else 0))
        (if inArray then add maxBytes 4 bytes else .ok bytes) := by
      cases inArray with
      | true => exact counts_add 4 bytes
      | false => exact counts_ok hbytes
    cases value with
    | undefined | function | symbol =>
      rw [serialize, visit]
      exact hskipped
    | null =>
      rw [serialize, visit]
      exact counts_add 4 bytes
    | boolean value =>
      rw [serialize, visit]
      cases value with
      | true => exact counts_add 4 bytes
      | false => exact counts_add 5 bytes
    | number value =>
      rw [serialize, visit]
      exact counts_add _ bytes
    | string value =>
      rw [serialize, visit]
      exact counts_string value hbytes
    | bigint value =>
      rw [serialize, visit]
      exact counts_none bytes bytes
    | object ref =>
      rw [serialize, visit]
      cases hobject : heap.object ref with
      | date iso =>
        have hfresh : ref ∉ seen := fun hseen => hdates ref hseen iso hobject
        dsimp only
        rw [dif_neg hfresh]
        cases iso with
        | none =>
          simp only [Option.elim_none, visit]
          exact counts_add 4 bytes
        | some iso =>
          simp only [Option.elim_some, visit]
          exact counts_string iso hbytes
      | array items =>
        dsimp only
        by_cases hseen : ref ∈ seen
        · rw [dif_pos hseen, dif_pos hseen]
          exact counts_none bytes bytes
        · rw [dif_neg hseen, dif_neg hseen]
          have hinside := ih _ (hrest ▸ unseen_insert hseen) (insert ref seen) rfl
            (noDates_insert hdates fun iso h => by rw [hobject] at h; contradiction)
          apply counts_closed (by decide) (by decide)
          intro total htotal
          exact visitItems_counts hinside items 0 total htotal
      | plain members =>
        dsimp only
        by_cases hseen : ref ∈ seen
        · rw [dif_pos hseen, dif_pos hseen]
          exact counts_none bytes bytes
        · rw [dif_neg hseen, dif_neg hseen, heap.noToJson ref members hobject, if_neg Bool.false_ne_true]
          have hinside := ih _ (hrest ▸ unseen_insert hseen) (insert ref seen) rfl
            (noDates_insert hdates fun iso h => by rw [hobject] at h; contradiction)
          apply counts_closed (by decide) (by decide)
          intro total htotal
          exact visitFields_counts hinside members false total htotal

/-- **The bounded count agrees with `JSON.stringify`**: it is complete if and only if the value has a text of at most
`maxBytes` bytes, and then it is the length of that text; otherwise it is above `maxBytes`. -/
theorem bounded_json_size (heap : JsHeap ν size) (value : JsValue ν size) (hjson : value.IsJson = true)
    (maxBytes : Nat) : ((boundedJsonUtf8Bytes heap value maxBytes).complete = true ↔
      ∃ text, heap.stringify value = .ok (some text) ∧ textBytes text ≤ maxBytes) ∧
    ((boundedJsonUtf8Bytes heap value maxBytes).complete = true → ∃ text, heap.stringify value = .ok (some text) ∧
        (boundedJsonUtf8Bytes heap value maxBytes).bytes = textBytes text) ∧
    ((boundedJsonUtf8Bytes heap value maxBytes).complete = false →
      maxBytes < (boundedJsonUtf8Bytes heap value maxBytes).bytes) := by
  have hcounts : Counts maxBytes 0 (valueSize false (heap.stringify value)) (visit maxBytes heap ∅ false value 0) :=
    visit_counts _ ∅ rfl (fun ref hmem => absurd hmem (Finset.notMem_empty ref)) false value 0 (Nat.zero_le maxBytes)
  unfold boundedJsonUtf8Bytes
  cases hvisit : visit maxBytes heap ∅ false value 0 with
  | ok bytes =>
    rw [hvisit] at hcounts
    obtain ⟨n, hsize, hbytes, hfits⟩ := hcounts
    have htext : ∃ text, heap.stringify value = .ok (some text) ∧ bytes = textBytes text := by
      cases hserialized : heap.stringify value with
      | error e =>
        rw [hserialized] at hsize
        contradiction
      | ok text =>
        cases text with
        | none => exact absurd hserialized (serialize_text hjson)
        | some text =>
          rw [hserialized] at hsize
          obtain rfl := Option.some.inj hsize
          exact ⟨text, rfl, by omega⟩
    obtain ⟨text, hserialized, rfl⟩ := htext
    exact ⟨iff_of_true rfl ⟨text, hserialized, hfits⟩, fun _ => ⟨text, hserialized, rfl⟩,
      fun h => absurd h (Bool.true_eq_false.mp ·)⟩
  | error bytes =>
    rw [hvisit] at hcounts
    refine ⟨iff_of_false Bool.false_ne_true ?_, fun h => absurd h Bool.false_ne_true, fun _ => ?_⟩
    · rintro ⟨text, hserialized, hfits⟩
      have hover := hcounts (textBytes text) (by rw [hserialized]; rfl)
      omega
    · exact Nat.lt_of_lt_of_le (Nat.lt_succ_self maxBytes) (Nat.le_max_right bytes (maxBytes + 1))

end Walk

/-- An object whose two members are the same array. -/
def sharedHeap : JsHeap Nat 2 where
  object ref :=
    if ref.val = 0 then .plain [(units "a", .object ⟨1, by decide⟩), (units "b", .object ⟨1, by decide⟩)]
    else .array [.number (some 7), .undefined]
  noToJson := by
    intro ref members h
    split at h
    · obtain rfl := JsObject.plain.inj h
      decide
    · contradiction

/-- `bounded_json_size` for a shared array, at the length of its text. -/
theorem bounded_json_size_shared : ((boundedJsonUtf8Bytes sharedHeap (.object ⟨0, by decide⟩) 27).complete = true ↔
      ∃ text, sharedHeap.stringify (.object ⟨0, by decide⟩) = .ok (some text) ∧ textBytes text ≤ 27) ∧
    ((boundedJsonUtf8Bytes sharedHeap (.object ⟨0, by decide⟩) 27).complete = true →
      ∃ text, sharedHeap.stringify (.object ⟨0, by decide⟩) = .ok (some text) ∧
        (boundedJsonUtf8Bytes sharedHeap (.object ⟨0, by decide⟩) 27).bytes = textBytes text) ∧
    ((boundedJsonUtf8Bytes sharedHeap (.object ⟨0, by decide⟩) 27).complete = false →
      27 < (boundedJsonUtf8Bytes sharedHeap (.object ⟨0, by decide⟩) 27).bytes) :=
  bounded_json_size sharedHeap (.object ⟨0, by decide⟩) rfl 27


end OpenClaw.Infra.JsonUtf8Bytes
