/-
# OpenClaw.Reef.AuditRedaction -- what an audit entry hides, and what comes back from it

`encryptSensitive` looks at the name of a field and at whether a string stands there, `decryptSensitive` at the
name of a field and at the shape of the object that stands there.  No text is left in an entry.  What comes back
is the payload unless it had a field of that shape itself, a text that starts with a byte order mark or is not
well formed, or a member `__proto__`.

This follows `audit.ts`.  AES-GCM under the audit key is a parameter.
-/
import OpenClaw.Reef.AuditStore
import OpenClaw.Reef.Encoding

namespace OpenClaw.Reef

open OpenClaw.Data OpenClaw.Logic Json

variable {ν : Type}

/-! ## Decryption -/

/-- `gcm(key, nonce)` under the audit key: it decrypts what it has encrypted, and adds a tag of 16 bytes. -/
structure AuditGcm where
  encrypt : AuditCipher
  decrypt : List UInt8 → List UInt8 → Except String (List UInt8)
  decrypt_encrypt : ∀ nonce plaintext, nonce.length = 12 → decrypt nonce (encrypt nonce plaintext) = .ok plaintext
  length_encrypt : ∀ nonce plaintext, (encrypt nonce plaintext).length = plaintext.length + 16

/-- `field === "text" || field === "reason"` -/
def isSensitive (field : Option JsString) : Bool := field = some (key "text") || field = some (key "reason")

/-- The text of an object that is taken for an encrypted one: its only member is a string `enc`. -/
def sealedText (field : Option JsString) : List (JsString × Json ν) → Option JsString
  | [(name, .string enc)] => if isSensitive field ∧ name = key "enc" then some enc else none
  | _ => none

section Decrypt

variable (gcm : AuditGcm)

/-- `decodeUtf8(gcm(key, combined.slice(0, 12)).decrypt(combined.slice(12)))` -/
def openText (enc : JsString) : Except String JsString := do
  let combined ← match textOf enc with
    | some text => fromBase64 text
    | none => .error "invalid base64"
  if combined.length < 28 then throw "invalid encrypted audit field"
  let plaintext ← gcm.decrypt (combined.take 12) (combined.drop 12)
  match decodeUtf8 plaintext with
  | some text => return unitsOf text
  | none => throw "TypeError"

mutual

/-- `decryptSensitive(value, key, field)` -/
def decryptSensitive : Json ν → Option JsString → Except String (Json ν)
  | .array items, _ => (decryptItems items).map .array
  | .object members, field =>
    match sealedText field members with
    | some enc => (openText gcm enc).map .string
    | none => (decryptMembers members).map .object
  | value, _ => .ok value

def decryptItems : List (Json ν) → Except String (List (Json ν))
  | [] => .ok []
  | item :: rest => do
    let item ← decryptSensitive item none
    let rest ← decryptItems rest
    return item :: rest

def decryptMembers : List (JsString × Json ν) → Except String (List (JsString × Json ν))
  | [] => .ok []
  | (field, child) :: rest => do
    let child ← decryptSensitive child (some field)
    let rest ← decryptMembers rest
    return (field, child) :: rest

end

variable {gcm}

theorem decryptItems_distinct : ∀ (items : List (Json ν)) {items' : List (Json ν)},
    (∀ item ∈ items, ∀ {field item'}, decryptSensitive gcm item field = .ok item' → item'.Distinct) →
    decryptItems gcm items = .ok items' → ∀ item ∈ items', item.Distinct
  | [], _, _, h => by
    cases h
    simp
  | item :: rest, items', hitems, h => by
    obtain ⟨item', hitem, h⟩ := bind_eq_ok.mp h
    obtain ⟨rest', hrest, h⟩ := bind_eq_ok.mp h
    cases h
    intro found hfound
    rcases List.mem_cons.mp hfound with rfl | hmem
    · exact hitems item List.mem_cons_self hitem
    · exact decryptItems_distinct rest (fun item hitem => hitems item (List.mem_cons_of_mem _ hitem)) hrest
        found hmem

theorem decryptMembers_distinct : ∀ (members : List (JsString × Json ν)) {members' : List (JsString × Json ν)},
    (∀ member ∈ members, ∀ {field value'}, decryptSensitive gcm member.2 field = .ok value' → value'.Distinct) →
    decryptMembers gcm members = .ok members' →
    members'.map Prod.fst = members.map Prod.fst ∧ ∀ member ∈ members', member.2.Distinct
  | [], _, _, h => by
    cases h
    simp
  | (field, child) :: rest, members', hmembers, h => by
    obtain ⟨child', hchild, h⟩ := bind_eq_ok.mp h
    obtain ⟨rest', hrest, h⟩ := bind_eq_ok.mp h
    cases h
    obtain ⟨hkeys, hvalues⟩ := decryptMembers_distinct rest
      (fun member hmember => hmembers member (List.mem_cons_of_mem _ hmember)) hrest
    refine ⟨by rw [List.map_cons, List.map_cons, hkeys], ?_⟩
    intro member hmember
    rcases List.mem_cons.mp hmember with rfl | hmem
    · exact hmembers _ List.mem_cons_self hchild
    · exact hvalues member hmem

/-- Decryption makes no key come twice. -/
theorem decryptSensitive_distinct (value : Json ν) : value.Distinct → ∀ {field : Option JsString} {value' : Json ν},
    decryptSensitive gcm value field = .ok value' → value'.Distinct := by
  induction value using Json.induct with
  | array items ih =>
    intro hdistinct field value' h
    obtain ⟨items', hitems, rfl⟩ := map_eq_ok.mp h
    refine distinct_array.mpr (decryptItems_distinct items ?_ hitems)
    exact fun item hitem => ih item hitem (distinct_array.mp hdistinct item hitem)
  | object members ih =>
    intro hdistinct field value' h
    obtain ⟨hnodup, hchildren⟩ := distinct_object.mp hdistinct
    rw [decryptSensitive] at h
    split at h
    · obtain ⟨text, -, rfl⟩ := map_eq_ok.mp h
      trivial
    · obtain ⟨members', hmembers, rfl⟩ := map_eq_ok.mp h
      obtain ⟨hkeys, hvalues⟩ := decryptMembers_distinct members
        (fun member hmember => ih member hmember (hchildren member hmember)) hmembers
      exact distinct_object.mpr ⟨hkeys ▸ hnodup, hvalues⟩
  | null => intro _ field value' h; cases h; trivial
  | boolean value => intro _ field value' h; cases h; trivial
  | number value => intro _ field value' h; cases h; trivial
  | string value => intro _ field value' h; cases h; trivial

variable (gcm)

/-- `decryptSensitive(entry.event.payload, key)` -/
def decryptPayload (payload : JsonValue ν) : Except String (JsonValue ν) :=
  match h : decryptSensitive gcm payload.json none with
  | .error message => .error message
  | .ok json => .ok ⟨json, decryptSensitive_distinct payload.json payload.distinct h⟩

/-- `decryptAuditText(entry, auditKey)` -/
def decryptAuditText (entry : AuditEntry ν) : Except String (AuditEntry ν) :=
  (decryptPayload gcm entry.event.payload).map fun payload =>
    { entry with event := { entry.event with payload } }

end Decrypt

/-! ## What stands in an entry -/

mutual

/-- No string stands directly in a field `text` or `reason`, at any depth. -/
def Redacted (field : Option JsString) : Json ν → Prop
  | .string _ => isSensitive field = false
  | .array items => RedactedItems items
  | .object members => RedactedMembers members
  | _ => True

def RedactedItems : List (Json ν) → Prop
  | [] => True
  | item :: rest => Redacted none item ∧ RedactedItems rest

def RedactedMembers : List (JsString × Json ν) → Prop
  | [] => True
  | (field, child) :: rest => Redacted (some field) child ∧ RedactedMembers rest

end

attribute [grind =] Redacted

/-- A text that its decoder gives back: it is well formed and does not start with a byte order mark. -/
def readable (text : JsString) : Bool := (textOf text).any fun text => text.head? ≠ some '\uFEFF'

mutual

/-- Every sensitive text is readable, no sensitive field holds what is taken for an encrypted one, and no member
is called `__proto__`. -/
def Restorable (field : Option JsString) : Json ν → Prop
  | .string text => isSensitive field = true → readable text = true
  | .array items => RestorableItems items
  | .object members => sealedText field members = none ∧ RestorableMembers members
  | _ => True

def RestorableItems : List (Json ν) → Prop
  | [] => True
  | item :: rest => Restorable none item ∧ RestorableItems rest

def RestorableMembers : List (JsString × Json ν) → Prop
  | [] => True
  | (field, child) :: rest => field ≠ key "__proto__" ∧ Restorable (some field) child ∧ RestorableMembers rest

end

/-- An encrypted text: the nonce, and what the cipher makes of it. -/
def Encrypted (cipher : AuditCipher) (text : JsString) (value : Json ν) : Prop :=
  ∃ nonce : List UInt8, nonce.length = 12 ∧
    value = .object [(key "enc", .string (unitsOf (base64 (nonce ++ cipher nonce (utf8String text)))))]

mutual

/-- What a value in a field is encrypted to, for some nonces. -/
def Encrypts (cipher : AuditCipher) (field : Option JsString) : Json ν → Json ν → Prop
  | .string text, value =>
    (isSensitive field = true ∧ Encrypted cipher text value) ∨ isSensitive field = false ∧ value = .string text
  | .array items, value => ∃ items', value = .array items' ∧ EncryptsItems cipher items items'
  | .object members, value => ∃ members', value = .object members' ∧ EncryptsMembers cipher members members'
  | .null, value => value = .null
  | .boolean b, value => value = .boolean b
  | .number n, value => value = .number n

def EncryptsItems (cipher : AuditCipher) : List (Json ν) → List (Json ν) → Prop
  | [], items' => items' = []
  | item :: rest, items' =>
    ∃ item' rest', items' = item' :: rest' ∧ Encrypts cipher none item item' ∧ EncryptsItems cipher rest rest'

def EncryptsMembers (cipher : AuditCipher) : List (JsString × Json ν) → List (JsString × Json ν) → Prop
  | [], members' => members' = []
  | (field, child) :: rest, members' =>
    if field = key "__proto__" then EncryptsMembers cipher rest members'
    else ∃ child' rest', members' = (field, child') :: rest' ∧ Encrypts cipher (some field) child child' ∧
      EncryptsMembers cipher rest rest'

end

/-! ## The encryption -/

section Encryption

variable {cipher : AuditCipher} {rng : Nat → List UInt8}

theorem sensitiveText_eq_some {field text : JsString} {child : Json ν} :
    sensitiveText field child = some text ↔ child = .string text ∧ isSensitive (some field) = true := by
  unfold sensitiveText
  cases child with
  | string text' => simp [isSensitive, and_comm]
  | _ => simp

/-- An assignment to a new field adds a member, or none. -/
theorem assignField_new {output : List (JsString × Json ν)} {field : JsString} (value : Json ν)
    (h : field ∉ output.map Prod.fst) : assignField output field value =
      output ++ if field = key "__proto__" then [] else [(field, value)] := by
  unfold assignField
  split
  · rw [List.append_nil]
  · have hnew : ¬ output.any (·.1 = field) = true := by
      intro hany
      obtain ⟨member, hmember, heq⟩ := List.any_eq_true.mp hany
      exact h (List.mem_map.mpr ⟨member, hmember, of_decide_eq_true heq⟩)
    rw [setMember, if_neg hnew]

theorem encryptItems_spec : ∀ (items : List (Json ν)) {draws draws' : Nat} {items' : List (Json ν)},
    (∀ item ∈ items, ∀ {draws draws' item'}, encryptSensitive cipher rng item draws = .ok (item', draws') →
      Encrypts cipher none item item') →
    encryptItems cipher rng items draws = .ok (items', draws') → EncryptsItems cipher items items'
  | [], _, _, _, _, h => by
    cases h
    rfl
  | item :: rest, draws, draws', items', hitems, h => by
    obtain ⟨⟨item', between⟩, hitem, h⟩ := bind_eq_ok.mp h
    obtain ⟨⟨rest', after⟩, hrest, h⟩ := bind_eq_ok.mp h
    cases h
    exact ⟨item', rest', rfl, hitems item List.mem_cons_self hitem,
      encryptItems_spec rest (fun item hitem => hitems item (List.mem_cons_of_mem _ hitem)) hrest⟩

/-- The members that are made are added to those that were there. -/
theorem encryptMembers_spec : ∀ (members : List (JsString × Json ν)) {draws draws' : Nat}
    {output output' : List (JsString × Json ν)},
    (∀ member ∈ members, sensitiveText member.1 member.2 = none → ∀ {draws draws' value'},
      encryptSensitive cipher rng member.2 draws = .ok (value', draws') →
      Encrypts cipher (some member.1) member.2 value') →
    ((output ++ members).map Prod.fst).Nodup →
    encryptMembers cipher rng members output draws = .ok (output', draws') →
    ∃ made, output' = output ++ made ∧ EncryptsMembers cipher members made
  | [], _, _, _, _, _, _, h => by
    cases h
    exact ⟨[], by simp, rfl⟩
  | (field, child) :: rest, draws, draws', output, output', hmembers, hkeys, h => by
    rw [List.map_append, List.map_cons] at hkeys
    have hnew : field ∉ output.map Prod.fst := by
      intro hmem
      exact (List.nodup_append.mp hkeys).2.2 field hmem field List.mem_cons_self rfl
    -- one member has been made, and the rest of the loop starts from there
    have hstep : ∀ {child' : Json ν} {between : Nat}, Encrypts cipher (some field) child child' →
        encryptMembers cipher rng rest (assignField output field child') between = .ok (output', draws') →
        ∃ made, output' = output ++ made ∧ EncryptsMembers cipher ((field, child) :: rest) made := by
      intro child' between hchild hrest
      rw [assignField_new child' hnew] at hrest
      have hrestMembers := fun member hmember => hmembers member (List.mem_cons_of_mem _ hmember)
      by_cases hproto : field = key "__proto__"
      · rw [if_pos hproto, List.append_nil] at hrest
        have hnodup : ((output ++ rest).map Prod.fst).Nodup := by
          rw [List.map_append]
          exact hkeys.sublist (List.Sublist.append_left (List.sublist_cons_self _ _) _)
        obtain ⟨made, hmade, hspec⟩ := encryptMembers_spec rest hrestMembers hnodup hrest
        exact ⟨made, hmade, by rw [EncryptsMembers, if_pos hproto]; exact hspec⟩
      · rw [if_neg hproto] at hrest
        have hnodup : (((output ++ [(field, child')]) ++ rest).map Prod.fst).Nodup := by
          rw [List.append_assoc, List.map_append]
          exact hkeys
        obtain ⟨made, hmade, hspec⟩ := encryptMembers_spec rest hrestMembers hnodup hrest
        refine ⟨(field, child') :: made, by rw [hmade, List.append_assoc]; rfl, ?_⟩
        rw [EncryptsMembers, if_neg hproto]
        exact ⟨child', made, rfl, hchild, hspec⟩
    rw [encryptMembers] at h
    split at h
    · rename_i text htext
      obtain ⟨rfl, hsensitive⟩ := sensitiveText_eq_some.mp htext
      split at h
      · cases h
      · rename_i hnonce
        exact hstep (.inl ⟨hsensitive, _, not_ne_iff.mp hnonce, rfl⟩) h
    · rename_i htext
      obtain ⟨⟨child', between⟩, hchild, h⟩ := bind_eq_ok.mp h
      exact hstep (hmembers _ List.mem_cons_self htext hchild) h

/-- **What the encryption makes.** -/
theorem encryptSensitive_spec (value : Json ν) : value.Distinct → ∀ {field : Option JsString} {draws draws' : Nat}
    {value' : Json ν}, (∀ text, value = .string text → isSensitive field = false) →
    encryptSensitive cipher rng value draws = .ok (value', draws') → Encrypts cipher field value value' := by
  induction value using Json.induct with
  | null => intro _ field draws draws' value' _ h; cases h; rfl
  | boolean value => intro _ field draws draws' value' _ h; cases h; rfl
  | number value => intro _ field draws draws' value' _ h; cases h; rfl
  | string value =>
    intro _ field draws draws' value' hfield h
    cases h
    exact .inr ⟨hfield value rfl, rfl⟩
  | array items ih =>
    intro hdistinct field draws draws' value' _ h
    obtain ⟨⟨items', between⟩, hitems, h⟩ := map_eq_ok.mp h
    cases h
    refine ⟨items', rfl, encryptItems_spec items ?_ hitems⟩
    intro item hitem draws draws' item' hencrypt
    exact ih item hitem (distinct_array.mp hdistinct item hitem) (fun _ _ => rfl) hencrypt
  | object members ih =>
    intro hdistinct field draws draws' value' _ h
    obtain ⟨hkeys, hvalues⟩ := distinct_object.mp hdistinct
    obtain ⟨⟨output, between⟩, hmembers, h⟩ := map_eq_ok.mp h
    cases h
    have hchildren : ∀ member ∈ members, sensitiveText member.1 member.2 = none → ∀ {draws draws' value'},
        encryptSensitive cipher rng member.2 draws = .ok (value', draws') →
        Encrypts cipher (some member.1) member.2 value' := by
      intro member hmember htext draws draws' value' hencrypt
      refine ih member hmember (hvalues member hmember) ?_ hencrypt
      intro text hvalue
      by_contra hsensitive
      rw [sensitiveText_eq_some.mpr ⟨hvalue, by simpa using hsensitive⟩] at htext
      cases htext
    obtain ⟨made, hmade, hspec⟩ := encryptMembers_spec members hchildren (by simpa using hkeys) hmembers
    exact ⟨made, by rw [hmade, List.nil_append], hspec⟩

end Encryption

/-! ## Nothing is left in the clear -/

/-- Only for a string it matters in which field it stands. -/
theorem Redacted.of_field {value : Json ν} {field field' : Option JsString} (h : Redacted field value)
    (hfield : isSensitive field' = false) : Redacted field' value := by
  cases value with
  | string text => exact hfield
  | _ => exact h

theorem isSensitive_enc : isSensitive (some (key "enc")) = false := by decide

section Opening

variable {cipher : AuditCipher}

theorem redacted_encrypted {text : JsString} {value : Json ν} (h : Encrypted cipher text value)
    (field : Option JsString) : Redacted field value := by
  obtain ⟨nonce, -, rfl⟩ := h
  exact ⟨isSensitive_enc, trivial⟩

/-- **No sensitive text is left.** -/
theorem redacted_of_encrypts (value : Json ν) : ∀ {field : Option JsString} {value' : Json ν},
    Encrypts cipher field value value' → Redacted field value' := by
  induction value using Json.induct with
  | null => rintro field value' rfl; trivial
  | boolean value => rintro field value' rfl; trivial
  | number value => rintro field value' rfl; trivial
  | string text =>
    rintro field value' (⟨-, hencrypted⟩ | ⟨hplain, rfl⟩)
    · exact redacted_encrypted hencrypted field
    · exact hplain
  | array items ih =>
    rintro field value' ⟨items', rfl, hitems⟩
    show RedactedItems items'
    induction items generalizing items' with
    | nil =>
      rw [show items' = [] from hitems]
      trivial
    | cons item rest ihrest =>
      obtain ⟨item', rest', rfl, hitem, hrest⟩ := hitems
      exact ⟨ih item List.mem_cons_self hitem,
        ihrest (fun item hitem => ih item (List.mem_cons_of_mem _ hitem)) rest' hrest⟩
  | object members ih =>
    rintro field value' ⟨members', rfl, hmembers⟩
    show RedactedMembers members'
    induction members generalizing members' with
    | nil =>
      rw [show members' = [] from hmembers]
      trivial
    | cons member rest ihrest =>
      have hrestIh := ihrest fun member hmember => ih member (List.mem_cons_of_mem _ hmember)
      rw [EncryptsMembers] at hmembers
      split at hmembers
      · exact hrestIh members' hmembers
      · obtain ⟨child', rest', rfl, hchild, hrest⟩ := hmembers
        exact ⟨ih member List.mem_cons_self hchild, hrestIh rest' hrest⟩

/-! ## What comes back -/

theorem decodeUtf8Utf8_eq_self {text : Text} : decodeUtf8Utf8 text = text ↔ text.head? ≠ some '\uFEFF' := by
  unfold decodeUtf8Utf8
  split
  · simp
  · rename_i hmark
    simp only [true_iff]
    intro hhead
    obtain ⟨rest, rfl⟩ := List.head?_eq_some_iff.mp hhead
    exact hmark rest rfl

/-- What the decoder makes of a string is that string exactly if it is readable. -/
theorem unitsOf_decoded_iff {text : JsString} :
    unitsOf (decodeUtf8Utf8 ((codePoints text).map CodePoint.shown)) = text ↔ readable text = true := by
  have hshown : ∀ t : Text, (codePoints (unitsOf t)).map CodePoint.shown = t := by
    intro t
    rw [codePoints_unitsOf, List.map_map]
    exact List.map_id'' (fun _ => rfl) t
  unfold readable
  constructor
  · intro h
    have htext := textOf_eq_some.mpr h.symm
    have hdecoded := congrArg (fun text => decodeUtf8Utf8 ((codePoints text).map CodePoint.shown)) h
    simp only [hshown] at hdecoded
    rw [htext]
    simpa using decodeUtf8Utf8_eq_self.mp hdecoded
  · intro h
    rcases htext : textOf text with _ | t
    · rw [htext] at h
      cases h
    · rw [htext] at h
      obtain rfl := textOf_eq_some.mp htext
      rw [hshown, decodeUtf8Utf8_eq_self.mpr (by simpa using h)]

theorem openText_encrypted (gcm : AuditGcm) {nonce : List UInt8} (hnonce : nonce.length = 12) (text : JsString) :
    openText gcm (unitsOf (base64 (nonce ++ gcm.encrypt nonce (utf8String text)))) =
      .ok (unitsOf (decodeUtf8Utf8 ((codePoints text).map CodePoint.shown))) := by
  have hlength := gcm.length_encrypt nonce (utf8String text)
  have htake : (nonce ++ gcm.encrypt nonce (utf8String text)).take 12 = nonce := List.take_left' hnonce
  have hdrop : (nonce ++ gcm.encrypt nonce (utf8String text)).drop 12 = gcm.encrypt nonce (utf8String text) :=
    List.drop_left' hnonce
  have hlong : ¬ (nonce ++ gcm.encrypt nonce (utf8String text)).length < 28 := by
    rw [List.length_append, hlength]
    omega
  unfold openText
  rw [textOf_unitsOf]
  simp only [fromBase64_base64]
  change (do
    if (nonce ++ gcm.encrypt nonce (utf8String text)).length < 28 then throw "invalid encrypted audit field"
    let plaintext ← gcm.decrypt ((nonce ++ gcm.encrypt nonce (utf8String text)).take 12)
      ((nonce ++ gcm.encrypt nonce (utf8String text)).drop 12)
    match decodeUtf8 plaintext with
    | some text => return unitsOf text
    | none => throw "TypeError") = _
  rw [if_neg hlong, htake, hdrop, gcm.decrypt_encrypt _ _ hnonce, utf8String_shown]
  change (match decodeUtf8 (utf8 ((codePoints text).map CodePoint.shown)) with
    | some text => Except.ok (unitsOf text)
    | none => Except.error "TypeError") = _
  rw [decodeUtf8_utf8]

theorem decryptMembers_length {gcm : AuditGcm} : ∀ {members members' : List (JsString × Json ν)},
    decryptMembers gcm members = .ok members' → members'.length = members.length
  | [], _, h => by
    cases h
    rfl
  | (field, child) :: rest, members', h => by
    obtain ⟨child', -, h⟩ := bind_eq_ok.mp h
    obtain ⟨rest', hrest, h⟩ := bind_eq_ok.mp h
    cases h
    rw [List.length_cons, List.length_cons, decryptMembers_length hrest]

theorem encryptsMembers_length : ∀ {members members' : List (JsString × Json ν)},
    EncryptsMembers cipher members members' → members'.length ≤ members.length
  | [], _, h => by rw [show _ = [] from h]
  | (field, child) :: rest, members', h => by
    rw [EncryptsMembers] at h
    split at h
    · exact (encryptsMembers_length h).trans (Nat.le_succ _)
    · obtain ⟨child', rest', rfl, -, hrest⟩ := h
      exact Nat.succ_le_succ (encryptsMembers_length hrest)

theorem decryptItems_iff {gcm : AuditGcm} : ∀ {items items' : List (Json ν)},
    (∀ item ∈ items, ∀ {field item'}, Encrypts gcm.encrypt field item item' →
      (decryptSensitive gcm item' field = .ok item ↔ Restorable field item)) →
    EncryptsItems gcm.encrypt items items' → (decryptItems gcm items' = .ok items ↔ RestorableItems items)
  | [], _, _, h => by
    rw [show _ = [] from h]
    simp [decryptItems, RestorableItems]
  | item :: rest, _, hitems, h => by
    obtain ⟨item', rest', rfl, hitem, hrest⟩ := h
    rw [RestorableItems, ← hitems item List.mem_cons_self hitem,
      ← decryptItems_iff (fun item hitem => hitems item (List.mem_cons_of_mem _ hitem)) hrest]
    simp only [decryptItems, bind_eq_ok, pure_eq_ok, List.cons.injEq]
    constructor
    · rintro ⟨a, ha, b, hb, rfl, rfl⟩
      exact ⟨ha, hb⟩
    · rintro ⟨ha, hb⟩
      exact ⟨_, ha, _, hb, rfl, rfl⟩

theorem decryptMembers_iff {gcm : AuditGcm} : ∀ {members members' : List (JsString × Json ν)},
    (∀ member ∈ members, ∀ {field value'}, Encrypts gcm.encrypt field member.2 value' →
      (decryptSensitive gcm value' field = .ok member.2 ↔ Restorable field member.2)) →
    EncryptsMembers gcm.encrypt members members' →
    (decryptMembers gcm members' = .ok members ↔ RestorableMembers members)
  | [], _, _, h => by
    rw [show _ = [] from h]
    simp [decryptMembers, RestorableMembers]
  | (field, child) :: rest, members', hmembers, h => by
    rw [EncryptsMembers] at h
    rw [RestorableMembers]
    split at h
    · -- the member is lost
      rename_i hproto
      constructor
      · intro hdecrypt
        have hlength := decryptMembers_length hdecrypt
        have hle := encryptsMembers_length h
        rw [List.length_cons] at hlength
        omega
      · rintro ⟨hne, -⟩
        exact absurd hproto hne
    · rename_i hproto
      obtain ⟨child', rest', rfl, hchild, hrest⟩ := h
      rw [← hmembers _ List.mem_cons_self hchild,
        ← decryptMembers_iff (fun member hmember => hmembers member (List.mem_cons_of_mem _ hmember)) hrest]
      simp only [decryptMembers, bind_eq_ok, pure_eq_ok, List.cons.injEq, Prod.mk.injEq, true_and]
      constructor
      · rintro ⟨a, ha, b, hb, rfl, rfl⟩
        exact ⟨hproto, ha, hb⟩
      · rintro ⟨-, ha, hb⟩
        exact ⟨_, ha, _, hb, rfl, rfl⟩

/-- Encryption leaves the string in a field `enc` as it was, and makes none there. -/
theorem encrypts_enc {child child' : Json ν} {enc : JsString} (h : Encrypts cipher (some (key "enc")) child child') :
    child' = .string enc ↔ child = .string enc := by
  cases child with
  | string text =>
    rcases h with ⟨hsensitive, -⟩ | ⟨-, rfl⟩
    · rw [isSensitive_enc] at hsensitive
      cases hsensitive
    · rfl
  | array items =>
    obtain ⟨items', rfl, -⟩ := h
    simp
  | object members =>
    obtain ⟨members', rfl, -⟩ := h
    simp
  | null => rw [show child' = .null from h]
  | boolean b => rw [show child' = .boolean b from h]
  | number n => rw [show child' = .number n from h]

theorem sealedText_eq_some {field : Option JsString} {members : List (JsString × Json ν)} {enc : JsString} :
    sealedText field members = some enc ↔ isSensitive field = true ∧ members = [(key "enc", .string enc)] := by
  unfold sealedText
  split
  · rename_i name enc'
    simp only [Option.ite_none_right_eq_some, Option.some.injEq, List.cons.injEq, Prod.mk.injEq,
      Json.string.injEq, and_true, and_assoc]
  · rename_i hshape
    simp only [reduceCtorEq, false_iff, not_and]
    rintro - rfl
    exact hshape _ _ rfl

/-- Where no member is lost, what looks encrypted did so before. -/
theorem sealedText_encrypts (field : Option JsString) {members members' : List (JsString × Json ν)}
    (hrestorable : RestorableMembers members) (h : EncryptsMembers cipher members members') :
    sealedText field members' = none ↔ sealedText field members = none := by
  have hshape : ∀ enc, members' = [(key "enc", .string enc)] ↔ members = [(key "enc", .string enc)] := by
    intro enc
    rcases members with _ | ⟨⟨name, child⟩, _ | ⟨⟨name', other⟩, rest⟩⟩
    · rw [show members' = [] from h]
    · rw [EncryptsMembers, if_neg hrestorable.1] at h
      obtain ⟨child', rest', rfl, hchild, hrest⟩ := h
      obtain rfl : rest' = [] := hrest
      simp only [List.cons.injEq, Prod.mk.injEq, and_true]
      constructor
      · rintro ⟨rfl, henc⟩
        exact ⟨rfl, (encrypts_enc hchild).mp henc⟩
      · rintro ⟨rfl, henc⟩
        exact ⟨rfl, (encrypts_enc hchild).mpr henc⟩
    · -- a second member stays a second member
      rw [EncryptsMembers, if_neg hrestorable.1] at h
      obtain ⟨child', rest', rfl, -, hrest⟩ := h
      rw [EncryptsMembers, if_neg hrestorable.2.2.1] at hrest
      obtain ⟨other', more, rfl, -, -⟩ := hrest
      simp
  simp only [Option.eq_none_iff_forall_ne_some, ne_eq, sealedText_eq_some, hshape]

/-- **What comes back is the value exactly if it could be told from what was encrypted.** -/
theorem decryptSensitive_iff (gcm : AuditGcm) (value : Json ν) : ∀ {field : Option JsString} {value' : Json ν},
    Encrypts gcm.encrypt field value value' →
    (decryptSensitive gcm value' field = .ok value ↔ Restorable field value) := by
  induction value using Json.induct with
  | null => rintro field value' rfl; simp [decryptSensitive, Restorable]
  | boolean value => rintro field value' rfl; simp [decryptSensitive, Restorable]
  | number value => rintro field value' rfl; simp [decryptSensitive, Restorable]
  | string text =>
    rintro field value' (⟨hsensitive, nonce, hnonce, rfl⟩ | ⟨hplain, rfl⟩)
    · rw [decryptSensitive, sealedText_eq_some.mpr ⟨hsensitive, rfl⟩]
      simp only [openText_encrypted gcm hnonce, Restorable, hsensitive, true_imp_iff, ← unitsOf_decoded_iff]
      simp [Except.map]
    · simp [decryptSensitive, Restorable, hplain]
  | array items ih =>
    rintro field value' ⟨items', rfl, hitems⟩
    rw [Restorable, ← decryptItems_iff ih hitems, decryptSensitive]
    cases decryptItems gcm items' with
    | error message => simp [Except.map]
    | ok items'' => simp [Except.map]
  | object members ih =>
    rintro field value' ⟨members', rfl, hmembers⟩
    have hiff := decryptMembers_iff ih hmembers
    rw [decryptSensitive, Restorable]
    constructor
    · intro h
      split at h
      · obtain ⟨text, -, h⟩ := map_eq_ok.mp h
        cases h
      · rename_i hsealed
        obtain ⟨members'', hdecrypt, h⟩ := map_eq_ok.mp h
        cases h
        have hrestorable := hiff.mp hdecrypt
        exact ⟨(sealedText_encrypts field hrestorable hmembers).mp hsealed, hrestorable⟩
    · rintro ⟨hsealed, hrestorable⟩
      rw [(sealedText_encrypts field hrestorable hmembers).mpr hsealed, hiff.mpr hrestorable]
      rfl

end Opening

/-! ## Entries -/

section Entries

variable [JsNumber ν] {hash : Hash} {call : AppendCall ν} {head : AuditHead ν} {entry : AuditEntry ν}

/-- The payload of an entry was encrypted. -/
theorem createAuditEntry_payload {cipher : AuditCipher} (h : createAuditEntry hash cipher call head = .ok entry) :
    Encrypts cipher none call.payload.json entry.event.payload.json := by
  unfold createAuditEntry at h
  split at h
  · cases h
  · obtain ⟨payload, hpayload, h⟩ := bind_eq_ok.mp h
    obtain ⟨entryHash, -, h⟩ := bind_eq_ok.mp h
    cases h
    unfold encryptPayload at hpayload
    split at hpayload
    · cases hpayload
    · rename_i json draws hencrypt
      cases hpayload
      exact encryptSensitive_spec _ call.payload.distinct (fun _ _ => rfl) hencrypt

/-- **An entry is redacted.** -/
theorem entry_redacted {cipher : AuditCipher} (h : createAuditEntry hash cipher call head = .ok entry) :
    Redacted none entry.json.json := by
  have hpayload := (redacted_of_encrypts _ (createAuditEntry_payload h)).of_field
    (show isSensitive (some (key "payload")) = false by decide)
  have hevent : Redacted (some (key "event")) entry.event.json.json :=
    ⟨trivial, trivial, show isSensitive (some (key "type")) = false by decide, hpayload, trivial⟩
  exact ⟨hevent, show isSensitive (some (key "prevHash")) = false by decide,
    show isSensitive (some (key "entryHash")) = false by decide, trivial⟩

omit [JsNumber ν] in
theorem decryptAuditText_eq_ok (gcm : AuditGcm) {payload : JsonValue ν} :
    decryptAuditText gcm entry = .ok { entry with event := { entry.event with payload } } ↔
      decryptSensitive gcm entry.event.payload.json none = .ok payload.json := by
  obtain ⟨json, distinct⟩ := payload
  unfold decryptAuditText decryptPayload
  split
  · rename_i message hdecrypt
    simp [hdecrypt, Except.map]
  · rename_i json' hdecrypt
    simp [hdecrypt, Except.map]

/-- **An entry hides its texts, and gives the payload back exactly if that could be told from what is encrypted.** -/
theorem audit_redaction_iff (gcm : AuditGcm) (h : createAuditEntry hash gcm.encrypt call head = .ok entry) :
    (Redacted none entry.json.json ∧
      decryptAuditText gcm entry = .ok { entry with event := { entry.event with payload := call.payload } }) ↔
    Restorable none call.payload.json := by
  rw [decryptAuditText_eq_ok, decryptSensitive_iff gcm _ (createAuditEntry_payload h)]
  exact and_iff_right (entry_redacted h)

end Entries

/-- A cipher that hides nothing and adds sixteen bytes. -/
def openGcm : AuditGcm where
  encrypt _ plaintext := plaintext ++ List.replicate 16 0
  decrypt _ ciphertext := .ok (ciphertext.take (ciphertext.length - 16))
  decrypt_encrypt nonce plaintext _ := by simp
  length_encrypt nonce plaintext := by simp

def zeroHash : Hash where
  digest _ := List.replicate 32 0
  length_digest _ := List.length_replicate

/-- The audit of a reason. -/
def reasonCall (reason : Text) : AppendCall Nat where
  type := key "guard_verdict"
  payload := ⟨.object [(key "reason", .string (unitsOf reason))], distinct_object.mpr ⟨by simp, by simp [Distinct]⟩⟩
  ts := 10
  rng _ := List.replicate 12 0

theorem reasonCall_entry (reason : Text) :
    ∃ entry, createAuditEntry zeroHash openGcm.encrypt (reasonCall reason) ⟨[], 0⟩ = .ok entry := ⟨_, rfl⟩

/-- A reason comes back. -/
theorem audit_redaction_reason : ∃ entry,
    createAuditEntry zeroHash openGcm.encrypt (reasonCall "looks safe".toList) ⟨[], 0⟩ = .ok entry ∧
      decryptAuditText openGcm entry =
        .ok { entry with event := { entry.event with payload := (reasonCall "looks safe".toList).payload } } := by
  obtain ⟨entry, hentry⟩ := reasonCall_entry "looks safe".toList
  refine ⟨entry, hentry, ((audit_redaction_iff openGcm hentry).mpr ?_).2⟩
  exact ⟨rfl, by decide, fun _ => by decide, trivial⟩

/-- A reason that starts with a byte order mark does not. -/
theorem audit_redaction_mark : ¬ ∀ (gcm : AuditGcm) (hash : Hash) (call : AppendCall Nat) (head : AuditHead Nat)
    (entry : AuditEntry Nat), createAuditEntry hash gcm.encrypt call head = .ok entry →
    Redacted none entry.json.json ∧
      decryptAuditText gcm entry = .ok { entry with event := { entry.event with payload := call.payload } } := by
  intro hall
  obtain ⟨entry, hentry⟩ := reasonCall_entry "\uFEFFlooks safe".toList
  obtain ⟨-, hdecrypt⟩ := hall _ _ _ _ entry hentry
  rw [decryptAuditText_eq_ok, decryptSensitive_iff openGcm _ (createAuditEntry_payload hentry)] at hdecrypt
  exact absurd (hdecrypt.2.2.1 (by decide)) (by decide)

end OpenClaw.Reef
