/-
# OpenClaw.Reef.AuditStore -- the hash chain of audited events

An entry holds an event, the hash of the entry before it, and the hash of both: the bytes of the previous
hash, where there is one, and then the canonical JSON of the event.  `verifyChain` recomputes all hashes;
it takes entries as they were read, so a property may be missing or of any type.  The store encrypts the
texts of a payload before they are written.

This follows `audit.ts` and `JsonlAuditStore` of `node.ts`.  SHA-256 and the cipher under the audit key
are parameters.
-/
import OpenClaw.Reef.Canonical
import OpenClaw.Reef.JsonLines

namespace OpenClaw.Reef

open OpenClaw.Data OpenClaw.Logic Json

/-- The numbers of JavaScript, with the increments the store makes. -/
class JsNumber (ν : Type) extends JsonNumber ν where
  zero : ν
  /-- `n + 1` -/
  next : ν → ν
  /-- The integer that the number is. -/
  integer : ν → Option Int

instance : JsNumber Nat where
  zero := 0
  next := Nat.succ
  integer n := some n

/-- SHA-256. -/
structure Hash where
  digest : List UInt8 → List UInt8
  length_digest : ∀ message, (digest message).length = 32

variable {ν : Type}

def key (name : String) : JsString := unitsOf name.toList

/-! ## Properties of values that were read -/

/-- `value.name`: null has no properties, and what is missing is undefined. -/
def property (value : Json ν) (name : String) : Except String (Option (Json ν)) :=
  match value with
  | .null => .error "TypeError"
  | .object members => .ok ((members.find? fun member => member.1 = key name).map Prod.snd)
  | _ => .ok none

/-- A value that is undefined has no properties either. -/
def defined : Option (Json ν) → Except String (Json ν)
  | none => .error "TypeError"
  | some value => .ok value

def stringOf : Except String (Option (Json ν)) → Option JsString
  | .ok (some (.string value)) => some value
  | _ => none

def numberOf : Except String (Option (Json ν)) → Option ν
  | .ok (some (.number value)) => some value
  | _ => none

/-! ## The chain -/

section Chain

variable [JsNumber ν] (hash : Hash)

/-- The bytes of a previous hash. -/
def previousBytes (previous : JsString) : Option (List UInt8) :=
  if previous = [] then some [] else fromHex previous

/-- `hashEntry`; it throws on a previous hash that is none. -/
def hashEntry (previous : JsString) (event : Json ν) : Except String JsString :=
  match previousBytes previous with
  | none => .error "invalid audit hash"
  | some bytes => .ok (unitsOf (hex (hash.digest (bytes ++ canonicalBytes event))))

variable [DecidableEq ν]

/-- One round of the loop of `verifyChain`: the hash of the entry, or none where it returns false. -/
def verifyEntry (index : ν) (previous : JsString) (entry : JsonValue ν) :
    Except String (Option JsString) := do
  let event ← (property entry.json "event").bind defined
  let seq ← property event "seq"
  if numberOf (.ok seq) ≠ some (JsNumber.next index) then return none
  let prevHash ← property entry.json "prevHash"
  if stringOf (.ok prevHash) ≠ some previous then return none
  let entryHash ← property entry.json "entryHash"
  let expected ← hashEntry hash previous event
  if stringOf (.ok entryHash) ≠ some expected then return none
  return some expected

/-- The loop: the last hash, or none where it returns false. -/
def verifyFrom (index : ν) (previous : JsString) :
    List (JsonValue ν) → Except String (Option JsString)
  | [] => .ok (some previous)
  | entry :: rest =>
    match verifyEntry hash index previous entry with
    | .error message => .error message
    | .ok none => .ok none
    | .ok (some entryHash) => verifyFrom (JsNumber.next index) entryHash rest

attribute [grind =] verifyFrom

/-- `verifyChain(entries, { head, length })` -/
def verifyChain (entries : List (JsonValue ν)) (head : Option JsString) (length : Option Nat) : Except String Bool :=
  if length.any (· ≠ entries.length) then .ok false
  else
    (verifyFrom hash JsNumber.zero [] entries).map fun last =>
      last.any fun previous => head.all (previous = ·)

end Chain

/-! ## Entries -/

structure AuditEvent (ν : Type) where
  seq : ν
  ts : ν
  type : JsString
  payload : JsonValue ν

structure AuditEntry (ν : Type) where
  event : AuditEvent ν
  prevHash : JsString
  entryHash : JsString

def AuditEvent.json (event : AuditEvent ν) : JsonValue ν where
  json := .object [(key "seq", .number event.seq), (key "ts", .number event.ts),
    (key "type", .string event.type), (key "payload", event.payload.json)]
  distinct := by
    refine distinct_object.mpr ⟨by simp only [List.map_cons, List.map_nil]; decide, ?_⟩
    simp [Distinct, event.payload.distinct]

def AuditEntry.json (entry : AuditEntry ν) : JsonValue ν where
  json := .object [(key "event", entry.event.json.json), (key "prevHash", .string entry.prevHash),
    (key "entryHash", .string entry.entryHash)]
  distinct := by
    refine distinct_object.mpr ⟨by simp only [List.map_cons, List.map_nil]; decide, ?_⟩
    simp [Distinct, entry.event.json.distinct]

structure AuditHead (ν : Type) where
  hash : JsString
  seq : ν

/-! ## Encryption of texts -/

/-- `gcm(key, nonce).encrypt(plaintext)` under the audit key. -/
abbrev AuditCipher := List UInt8 → List UInt8 → List UInt8

/-- `output[field] = value`; assigning to `__proto__` makes no member. -/
def assignField (output : List (JsString × Json ν)) (field : JsString) (value : Json ν) : List (JsString × Json ν) :=
  if field = key "__proto__" then output else setMember output (field, value)

/-- The text of a field that is encrypted. -/
def sensitiveText (field : JsString) (child : Json ν) : Option JsString :=
  match child with
  | .string text => if field = key "text" ∨ field = key "reason" then some text else none
  | _ => none

section Encrypt

variable (cipher : AuditCipher) (rng : Nat → List UInt8)

mutual

/-- `encryptSensitive`, with the number of nonces drawn so far: `rng` says what each draw returns. -/
def encryptSensitive : Json ν → Nat → Except String (Json ν × Nat)
  | .array items, draws => (encryptItems items draws).map fun read => (.array read.1, read.2)
  | .object members, draws => (encryptMembers members [] draws).map fun read => (.object read.1, read.2)
  | value, draws => .ok (value, draws)

def encryptItems : List (Json ν) → Nat → Except String (List (Json ν) × Nat)
  | [], draws => .ok ([], draws)
  | item :: rest, draws => do
    let (item, draws) ← encryptSensitive item draws
    let (rest, draws) ← encryptItems rest draws
    return (item :: rest, draws)

def encryptMembers : List (JsString × Json ν) → List (JsString × Json ν) → Nat →
    Except String (List (JsString × Json ν) × Nat)
  | [], output, draws => .ok (output, draws)
  | (field, child) :: rest, output, draws =>
    match sensitiveText field child with
    | some text =>
      if (rng draws).length ≠ 12 then .error "invalid audit nonce"
      else
        let combined := rng draws ++ cipher (rng draws) (utf8String text)
        encryptMembers rest
          (assignField output field (.object [(key "enc", .string (unitsOf (base64 combined)))]))
          (draws + 1)
    | none => do
      let (child, draws) ← encryptSensitive child draws
      encryptMembers rest (assignField output field child) draws

end

attribute [grind =] encryptSensitive

variable {cipher rng}

theorem assignField_spec {output : List (JsString × Json ν)} {field : JsString} {value : Json ν}
    (hkeys : (output.map Prod.fst).Nodup) (hvalues : ∀ member ∈ output, member.2.Distinct) (hvalue : value.Distinct) :
    ((assignField output field value).map Prod.fst).Nodup ∧
      ∀ member ∈ assignField output field value, member.2.Distinct := by
  unfold assignField
  split
  · exact ⟨hkeys, hvalues⟩
  · exact setMember_spec hkeys hvalues hvalue

theorem encryptItems_distinct : ∀ (items : List (Json ν)) {draws draws' : Nat} {items' : List (Json ν)},
    (∀ item ∈ items, ∀ {draws draws' item'}, encryptSensitive cipher rng item draws = .ok (item', draws') →
      item'.Distinct) →
    encryptItems cipher rng items draws = .ok (items', draws') → ∀ item ∈ items', item.Distinct
  | [], _, _, _, _, h => by
    cases h
    exact fun item hitem => absurd hitem List.not_mem_nil
  | item :: rest, draws, draws', items', hitems, h => by
    obtain ⟨⟨item', between⟩, hitem, h⟩ := bind_eq_ok.mp h
    obtain ⟨⟨rest', after⟩, hrest, h⟩ := bind_eq_ok.mp h
    cases h
    intro found hfound
    rcases List.mem_cons.mp hfound with rfl | hmem
    · exact hitems item List.mem_cons_self hitem
    · exact encryptItems_distinct rest (fun item hitem => hitems item (List.mem_cons_of_mem _ hitem)) hrest
        found hmem

theorem encryptMembers_distinct : ∀ (members : List (JsString × Json ν)) {draws draws' : Nat}
    {output output' : List (JsString × Json ν)},
    (∀ member ∈ members, ∀ {draws draws' value'},
      encryptSensitive cipher rng member.2 draws = .ok (value', draws') → value'.Distinct) →
    (output.map Prod.fst).Nodup → (∀ member ∈ output, member.2.Distinct) →
    encryptMembers cipher rng members output draws = .ok (output', draws') →
    (output'.map Prod.fst).Nodup ∧ ∀ member ∈ output', member.2.Distinct
  | [], _, _, _, _, _, hkeys, hvalues, h => by
    cases h
    exact ⟨hkeys, hvalues⟩
  | (field, child) :: rest, draws, draws', output, output', hmembers, hkeys, hvalues, h => by
    have hrest : ∀ member ∈ rest, ∀ {draws draws' value'},
        encryptSensitive cipher rng member.2 draws = .ok (value', draws') → value'.Distinct :=
      fun member hmember => hmembers member (List.mem_cons_of_mem _ hmember)
    rw [encryptMembers] at h
    split at h
    · split at h
      · cases h
      · have hsealed : ∀ text : JsString, Distinct (.object [(key "enc", (.string text : Json ν))]) :=
          fun text => distinct_object.mpr ⟨by simp, by simp [Distinct]⟩
        obtain ⟨hkeys', hvalues'⟩ := assignField_spec hkeys hvalues (hsealed _)
        exact encryptMembers_distinct rest hrest hkeys' hvalues' h
    · obtain ⟨⟨child', between⟩, hchild, h⟩ := bind_eq_ok.mp h
      obtain ⟨hkeys', hvalues'⟩ := assignField_spec hkeys hvalues
        (hmembers (field, child) List.mem_cons_self hchild)
      exact encryptMembers_distinct rest hrest hkeys' hvalues' h

/-- Encryption makes no key come twice. -/
theorem encryptSensitive_distinct (value : Json ν) : value.Distinct → ∀ {draws draws' : Nat} {value' : Json ν},
    encryptSensitive cipher rng value draws = .ok (value', draws') → value'.Distinct := by
  induction value using Json.induct with
  | array items ih =>
    intro hdistinct draws draws' value' h
    obtain ⟨⟨items', between⟩, hitems, h⟩ := map_eq_ok.mp h
    cases h
    refine distinct_array.mpr (encryptItems_distinct items ?_ hitems)
    exact fun item hitem => ih item hitem (distinct_array.mp hdistinct item hitem)
  | object members ih =>
    intro hdistinct draws draws' value' h
    obtain ⟨⟨output, between⟩, hmembers, h⟩ := map_eq_ok.mp h
    cases h
    refine distinct_object.mpr (encryptMembers_distinct members ?_ (by simp) (by simp) hmembers)
    exact fun member hmember => ih member hmember ((distinct_object.mp hdistinct).2 member hmember)
  | null =>
    intro _ draws draws' value' h
    cases h
    trivial
  | boolean value =>
    intro _ draws draws' value' h
    cases h
    trivial
  | number value =>
    intro _ draws draws' value' h
    cases h
    trivial
  | string value =>
    intro _ draws draws' value' h
    cases h
    trivial

variable (cipher rng)

/-- `encryptSensitive(payload, ...)` of a call. -/
def encryptPayload (payload : JsonValue ν) : Except String (JsonValue ν) :=
  match h : encryptSensitive cipher rng payload.json 0 with
  | .error message => .error message
  | .ok (json, _) => .ok ⟨json, encryptSensitive_distinct payload.json payload.distinct h⟩

end Encrypt

/-! ## Appending -/

/-- The arguments of `appendEvent`, and what the store's `rng` returns during the call. -/
structure AppendCall (ν : Type) where
  type : JsString
  payload : JsonValue ν
  ts : ν
  rng : Nat → List UInt8

section Append

variable [JsNumber ν] (hash : Hash) (cipher : AuditCipher)

/-- `!Number.isSafeInteger(ts) || ts < 0` -/
def invalidTimestamp (ts : ν) : Bool := !(JsNumber.integer ts).any fun n => isSafeInteger n && 0 ≤ n

/-- `createAuditEntry` -/
def createAuditEntry (call : AppendCall ν) (head : AuditHead ν) : Except String (AuditEntry ν) := do
  if call.type = [] ∨ invalidTimestamp call.ts then throw "invalid audit event"
  let payload ← encryptPayload cipher call.rng call.payload
  let event : AuditEvent ν := ⟨JsNumber.next head.seq, call.ts, call.type, payload⟩
  let entryHash ← hashEntry hash head.hash event.json.json
  return ⟨event, head.hash, entryHash⟩

/-- What a store keeps in memory: the entries, and the hash and the number of the last one. -/
structure AuditMemory (ν : Type) where
  entries : List (JsonValue ν)
  head : AuditHead ν

def AuditMemory.empty : AuditMemory ν := ⟨[], ⟨[], JsNumber.zero⟩⟩

/-- `appendEvent` of `MemoryAuditStore`. -/
def AuditMemory.append (memory : AuditMemory ν) (call : AppendCall ν) : Except String (AuditEntry ν) × AuditMemory ν :=
  match createAuditEntry hash cipher call memory.head with
  | .error message => (.error message, memory)
  | .ok entry => (.ok entry, ⟨memory.entries ++ [entry.json], ⟨entry.entryHash, entry.event.seq⟩⟩)

/-- `{ hash: last?.entryHash ?? "", seq: last?.event.seq ?? 0 }` on verified entries. -/
def headOf (entries : List (JsonValue ν)) : AuditHead ν :=
  match entries.getLast? with
  | none => ⟨[], JsNumber.zero⟩
  | some last =>
    ⟨(stringOf (property last.json "entryHash")).getD [],
      (numberOf ((property last.json "event").bind defined >>= (property · "seq"))).getD JsNumber.zero⟩

variable [DecidableEq ν]

/-- `JsonlAuditStore`. -/
def jsonlAuditStore : LogClient ν (AuditMemory ν) (AppendCall ν) (Except String (AuditEntry ν)) where
  fresh := .empty
  accept memory entries :=
    match verifyChain hash entries none none with
    | .error message => (.error message, memory)
    | .ok false => (.error "invalid audit chain", memory)
    | .ok true => (.ok (), ⟨memory.entries ++ entries, headOf entries⟩)
  answer memory call :=
    match memory.append hash cipher call with
    | (.error message, memory) => ⟨.error message, none, memory⟩
    | (.ok entry, memory) => ⟨.ok entry, some entry.json, memory⟩

end Append

end OpenClaw.Reef
