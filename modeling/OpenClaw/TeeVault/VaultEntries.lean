/-
# OpenClaw.TeeVault.VaultEntries -- the operations on vault entries

`addEntry`, `retrieveEntry`, `deleteEntry`, `rotateEntry` and `rotateAllEntries`, as `vault-entries.ts` has them.
Each gives a new envelope or throws.  Beside its result it gives the encryptions that it made, in their order:
they happened also when it throws behind them.

What is drawn in a call comes with it: the new id, the nonces, and the readings of the clock.
-/
import OpenClaw.Logic.Fallible
import OpenClaw.TeeVault.VaultStore

namespace OpenClaw.TeeVault

open OpenClaw.Logic OpenClaw.Data OpenClaw.Reef

/-- One use of an entry key. -/
structure Encryption where
  vmk : Bytes
  entryId : JsString
  version : Nat
  iv : Iv
  plaintext : Bytes

structure StoreEntryParams where
  label : JsString
  type : EntryType
  tags : Option (List JsString)
  value : Bytes
  hsmResident : Option Bool
  hsmObjectId : Option Nat

/-- What `randomUUID()` gives. -/
structure Uuid where
  text : JsString
  hexadecimal : ∀ unit ∈ text, unit = 0x2D ∨ (lowerHexValue unit).isSome

/-- What a call draws: the new id, the nonces of its encryptions, the readings of the clock. -/
structure Draws where
  uuid : Uuid
  nonce : Nat → Iv
  now : Nat → JsString

def quoted (label : JsString) : JsString := units "\"" ++ label ++ units "\""

def notFound (label : JsString) : JsString := units "Entry " ++ quoted label ++ units " not found"

/-- `Buffer.from(text!, "base64")` -/
def bufferFromBase64 (node : NodeCrypto) : Option JsString → Except JsString Bytes
  | none => .error (units "The first argument must be of type string or an instance of Buffer")
  | some text => .ok (node.fromBase64 text)

section Operations

variable {ν : Type} (node : NodeCrypto)

/-- The three texts of an entry that has been sealed. -/
def VaultEntry.withSealed (entry : VaultEntry ν) (iv : Iv) (box : Bytes × Bytes) : VaultEntry ν :=
  { entry with
    iv := some (unitsOf (base64 iv.bytes))
    ciphertext := some (unitsOf (base64 box.1))
    authTag := some (unitsOf (base64 box.2)) }

/-- `{ ...entry, version, modifiedAt }` -/
def VaultEntry.revised (entry : VaultEntry Nat) (version : Nat) (modifiedAt : JsString) : VaultEntry Nat :=
  { entry with version, modifiedAt }

/-- The decryption of an entry, which throws on texts that are not there. -/
def decryptEntry [JsonNumber ν] (vmk : Bytes) (entry : VaultEntry ν) : Except JsString Bytes := do
  let eek := deriveEntryKey node vmk entry.id (JsonNumber.text entry.version)
  let iv ← bufferFromBase64 node entry.iv
  let ciphertext ← bufferFromBase64 node entry.ciphertext
  let authTag ← bufferFromBase64 node entry.authTag
  aesGcmDecrypt node eek iv ciphertext authTag

/-- The encryption of a value for an entry, under the version that the entry has. -/
def encryptEntry (vmk : Bytes) (entry : VaultEntry Nat) (iv : Iv) (plaintext : Bytes) : VaultEntry Nat × Encryption :=
  let eek := deriveEntryKey node vmk entry.id (JsonNumber.text entry.version)
  (entry.withSealed iv (aesGcmEncrypt node eek iv plaintext),
    { vmk, entryId := entry.id, version := entry.version, iv, plaintext })

def addEntry (envelope : VaultEnvelope Nat) (vmk : Bytes) (params : StoreEntryParams) (draws : Draws) :
    Except JsString (VaultEnvelope Nat × VaultEntry Nat) × List Encryption :=
  if envelope.entries.any (·.label = params.label) then
    (.error (units "Entry with label " ++ quoted params.label ++ units " already exists"), [])
  else
    let entry : VaultEntry Nat :=
      { id := draws.uuid.text, label := params.label, type := params.type, tags := params.tags.getD []
        createdAt := draws.now 0, modifiedAt := draws.now 0, version := 1, hsmResident := false
        hsmObjectId := none, iv := none, ciphertext := none, authTag := none }
    let (entry, encryptions) :=
      if params.hsmResident.getD false then
        ({ entry with hsmResident := true, hsmObjectId := params.hsmObjectId }, [])
      else
        let (entry, encryption) := encryptEntry node vmk entry (draws.nonce 0) params.value
        (entry, [encryption])
    let updatedEnvelope := touchEnvelope node { envelope with entries := envelope.entries ++ [entry] } vmk (draws.now 1)
    (.ok (updatedEnvelope, entry), encryptions)

/-- `String(value)` of a number that may be missing. -/
def templateText [JsonNumber ν] : Option ν → JsString
  | none => units "undefined"
  | some n => unitsOf (JsonNumber.text n)

/-- `!text` for a text that may be missing. -/
def missing (text : Option JsString) : Bool := text.getD [] = []

def retrieveEntry [JsonNumber ν] (envelope : VaultEnvelope ν) (vmk : Bytes) (label : JsString) :
    Except JsString (VaultEntry ν × Bytes) :=
  match envelope.entries.find? (·.label = label) with
  | none => .error (notFound label)
  | some entry =>
    if entry.hsmResident then
      .error (units "Entry " ++ quoted label ++ units " is HSM-resident (object ID: " ++
        templateText entry.hsmObjectId ++ units "). Use HSM operations directly for this key.")
    else if missing entry.iv || missing entry.ciphertext || missing entry.authTag then
      .error (units "Entry " ++ quoted label ++ units " has no encrypted data")
    else do
      let value ← decryptEntry node vmk entry
      return (entry, value)

def deleteEntry (envelope : VaultEnvelope Nat) (vmk : Bytes) (label : JsString) (draws : Draws) :
    Except JsString (VaultEnvelope Nat) :=
  match envelope.entries.findIdx? (·.label = label) with
  | none => .error (notFound label)
  | some idx => .ok (touchEnvelope node { envelope with entries := envelope.entries.eraseIdx idx } vmk (draws.now 0))

def rotateEntry (envelope : VaultEnvelope Nat) (vmk : Bytes) (label : JsString) (draws : Draws) :
    Except JsString (VaultEnvelope Nat) × List Encryption :=
  match envelope.entries.findIdx? (·.label = label) with
  | none => (.error (notFound label), [])
  | some idx =>
    match envelope.entries[idx]? with
    | none => (.error (notFound label), [])
    | some entry =>
      if entry.hsmResident then
        (.error (units "Cannot rotate HSM-resident entry " ++ quoted label), [])
      else
        match decryptEntry node vmk entry with
        | .error e => (.error e, [])
        | .ok plaintext =>
          let (updatedEntry, encryption) := encryptEntry node vmk
            (entry.revised (entry.version + 1) (draws.now 0)) (draws.nonce 0) plaintext
          (.ok (touchEnvelope node { envelope with entries := envelope.entries.set idx updatedEntry } vmk
            (draws.now 1)), [encryption])

/-- The loop of `rotateAllEntries`, whose `i`-th turn is at `entries`. -/
def rotateRest (oldVmk newVmk : Bytes) (draws : Draws) :
    Nat → List (VaultEntry Nat) → Except JsString (List (VaultEntry Nat)) × List Encryption
  | _, [] => (.ok [], [])
  | i, entry :: entries =>
    if entry.hsmResident then
      let (result, encryptions) := rotateRest oldVmk newVmk draws (i + 1) entries
      (result.map (entry :: ·), encryptions)
    else
      match decryptEntry node oldVmk entry with
      | .error e => (.error e, [])
      | .ok plaintext =>
        let (newEntry, encryption) := encryptEntry node newVmk
          (entry.revised 1 (draws.now i)) (draws.nonce i) plaintext
        let (result, encryptions) := rotateRest oldVmk newVmk draws (i + 1) entries
        (result.map (newEntry :: ·), encryption :: encryptions)

def rotateAllEntries (envelope : VaultEnvelope Nat) (oldVmk newVmk : Bytes) (draws : Draws) :
    Except JsString (VaultEnvelope Nat) × List Encryption :=
  let (result, encryptions) := rotateRest node oldVmk newVmk draws 0 envelope.entries
  (result.map fun newEntries =>
    touchEnvelope node
      { envelope with
        entries := newEntries
        metadata := { envelope.metadata with vmkVersion := envelope.metadata.vmkVersion + 1 } }
      newVmk (draws.now envelope.entries.length),
    encryptions)

end Operations

end OpenClaw.TeeVault
