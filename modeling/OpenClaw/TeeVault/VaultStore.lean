/-
# OpenClaw.TeeVault.VaultStore -- the vault envelope and its integrity check

An envelope has the sealed master key, the entries and a MAC.  The MAC is taken of the ids, versions,
ciphertexts and tags of the entries, each entry with `:` between its fields and `|` between the entries.  An
entry comes from a JSON file, so its texts are any strings and its numbers are any numbers.
-/
import OpenClaw.TeeVault.KeyHierarchy

namespace OpenClaw.TeeVault

open OpenClaw.Data OpenClaw.Reef

inductive BackendType where
  | yubihsm
  | dpapiTpm
  | dpapi
  | opensslPbkdf2
  deriving DecidableEq

inductive EntryType where
  | secret
  | apiToken
  | sshKey
  | privateKey
  | certificate
  deriving DecidableEq

structure VaultMetadata (ν : Type) where
  backend : BackendType
  createdAt : JsString
  lastModifiedAt : JsString
  vmkVersion : ν
  entryCount : ν
  deriving DecidableEq

structure VaultEntry (ν : Type) where
  id : JsString
  label : JsString
  type : EntryType
  tags : List JsString
  createdAt : JsString
  modifiedAt : JsString
  version : ν
  hsmResident : Bool
  hsmObjectId : Option ν
  iv : Option JsString
  ciphertext : Option JsString
  authTag : Option JsString
  deriving DecidableEq

structure VaultEnvelope (ν : Type) where
  metadata : VaultMetadata ν
  sealedVmk : JsString
  entries : List (VaultEntry ν)
  hmac : JsString
  deriving DecidableEq

section Integrity

variable {ν : Type} [JsonNumber ν] (node : NodeCrypto)

/-- `${e.id}:${e.version}:${e.ciphertext ?? ""}:${e.authTag ?? ""}` -/
def VaultEntry.summary (e : VaultEntry ν) : JsString :=
  e.id ++ units ":" ++ unitsOf (JsonNumber.text e.version) ++ units ":" ++ e.ciphertext.getD [] ++ units ":" ++
    e.authTag.getD []

/-- What the MAC is taken of. -/
def integrityPayload (entries : List (VaultEntry ν)) : JsString :=
  (units "|").intercalate (entries.map VaultEntry.summary)

def computeEnvelopeHmac (vmk : Bytes) (entries : List (VaultEntry ν)) : JsString :=
  unitsOf (hex (computeHmac node vmk (utf8String (integrityPayload entries))))

def verifyEnvelopeHmac (vmk : Bytes) (entries : List (VaultEntry ν)) (expectedHmac : JsString) : Bool :=
  verifyHmac node vmk (utf8String (integrityPayload entries)) (bufferFromHex expectedHmac)

end Integrity

section Envelopes

variable (node : NodeCrypto)

def createEmptyEnvelope (sealedVmk : JsString) (backend : BackendType) (vmk : Bytes) (now : JsString) :
    VaultEnvelope Nat :=
  let entries : List (VaultEntry Nat) := []
  { metadata := { backend, createdAt := now, lastModifiedAt := now, vmkVersion := 1, entryCount := 0 }
    sealedVmk, entries, hmac := computeEnvelopeHmac node vmk entries }

/-- The metadata and the MAC after a change of the entries. -/
def touchEnvelope (envelope : VaultEnvelope Nat) (vmk : Bytes) (now : JsString) : VaultEnvelope Nat :=
  { envelope with
    metadata := { envelope.metadata with lastModifiedAt := now, entryCount := envelope.entries.length }
    hmac := computeEnvelopeHmac node vmk envelope.entries }

end Envelopes

/-! ## What a touched envelope says -/

/-- The count and the MAC of an envelope are those of its entries. -/
structure Touched (node : NodeCrypto) (envelope : VaultEnvelope Nat) (vmk : Bytes) : Prop where
  count : envelope.metadata.entryCount = envelope.entries.length
  hmac : envelope.hmac = computeEnvelopeHmac node vmk envelope.entries

theorem touched_empty (node : NodeCrypto) (sealedVmk : JsString) (backend : BackendType) (vmk : Bytes)
    (now : JsString) : Touched node (createEmptyEnvelope node sealedVmk backend vmk now) vmk :=
  ⟨rfl, rfl⟩

theorem touched_touch (node : NodeCrypto) (envelope : VaultEnvelope Nat) (vmk : Bytes) (now : JsString) :
    Touched node (touchEnvelope node envelope vmk now) vmk :=
  ⟨rfl, rfl⟩

/-- The check accepts a MAC exactly when it reads as the MAC of the entries. -/
theorem verifyEnvelopeHmac_iff {ν : Type} [JsonNumber ν] {node : NodeCrypto} {vmk : Bytes}
    {entries : List (VaultEntry ν)} {expectedHmac : JsString} :
    verifyEnvelopeHmac node vmk entries expectedHmac = true ↔
      bufferFromHex expectedHmac = computeHmac node vmk (utf8String (integrityPayload entries)) :=
  verifyHmac_iff node

theorem Touched.accepted {node : NodeCrypto} {envelope : VaultEnvelope Nat} {vmk : Bytes}
    (h : Touched node envelope vmk) : verifyEnvelopeHmac node vmk envelope.entries envelope.hmac = true := by
  rw [verifyEnvelopeHmac_iff, h.hmac, computeEnvelopeHmac, bufferFromHex_hex]

end OpenClaw.TeeVault
