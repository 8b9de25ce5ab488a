/-
# OpenClaw.TeeVault.KeyHierarchy -- the keys of the vault, and what Node's crypto is taken to do

Every entry is sealed with a key of its own, derived from the master key, the id of the entry and its version.
`NodeCrypto` has the functions of Node that the vault calls, each with the law that the vault relies on: what
AES-GCM sealed is opened again, a ciphertext is as long as its plaintext, base64 is read back.

Encodings are computed here: hexadecimal text as `Buffer.from` reads it, and the comparison of two MACs byte by
byte.
-/
import OpenClaw.Reef.Canonical

namespace OpenClaw.TeeVault

open OpenClaw.Data OpenClaw.Reef

abbrev Bytes := List UInt8

/-- What `randomBytes(GCM_IV_LENGTH)` gives. -/
structure Iv where
  bytes : Bytes
  length_bytes : bytes.length = 12

/-- The functions of Node under the vault. -/
structure NodeCrypto where
  /-- `hkdf("sha256", key, Buffer.alloc(0), info, 32)` -/
  hkdf : Bytes → Bytes → Bytes
  /-- AES-256-GCM, from the key, the nonce and the plaintext to the ciphertext and the tag. -/
  gcmSeal : Bytes → Iv → Bytes → Bytes × Bytes
  /-- From the key, the nonce, the ciphertext and the tag; none when it throws. -/
  gcmOpen : Bytes → Bytes → Bytes → Bytes → Option Bytes
  /-- `createHmac("sha256", key).update(data).digest()` -/
  hmac : Bytes → Bytes → Bytes
  /-- `Buffer.from(text, "base64")`, which skips what is no base64. -/
  fromBase64 : JsString → Bytes
  gcmOpen_seal : ∀ key iv plaintext, gcmOpen key iv.bytes (gcmSeal key iv plaintext).1
    (gcmSeal key iv plaintext).2 = some plaintext
  length_ciphertext : ∀ key iv plaintext, (gcmSeal key iv plaintext).1.length = plaintext.length
  length_authTag : ∀ key iv plaintext, (gcmSeal key iv plaintext).2.length = 16
  fromBase64_base64 : ∀ bytes, fromBase64 (unitsOf (base64 bytes)) = bytes

variable (node : NodeCrypto)

/-! ## Keys -/

/-- What tells the key of an entry from the others under one master key. -/
def entryKeyInfo (entryId : JsString) (version : Text) : Bytes := utf8String (entryId ++ units "||" ++ unitsOf version)

def deriveEntryKey (vmk : Bytes) (entryId : JsString) (version : Text) : Bytes :=
  node.hkdf vmk (entryKeyInfo entryId version)

/-! ## Authenticated encryption -/

def aesGcmEncrypt (key : Bytes) (iv : Iv) (plaintext : Bytes) : Bytes × Bytes := node.gcmSeal key iv plaintext

def aesGcmDecrypt (key iv ciphertext authTag : Bytes) : Except JsString Bytes :=
  match node.gcmOpen key iv ciphertext authTag with
  | none => .error (units "Unsupported state or unable to authenticate data")
  | some plaintext => .ok plaintext

theorem aesGcmDecrypt_encrypt (key : Bytes) (iv : Iv) (plaintext : Bytes) :
    aesGcmDecrypt node key iv.bytes (aesGcmEncrypt node key iv plaintext).1 (aesGcmEncrypt node key iv plaintext).2 =
      .ok plaintext := by
  unfold aesGcmDecrypt aesGcmEncrypt
  rw [node.gcmOpen_seal]

/-! ## Message authentication -/

def computeHmac (key data : Bytes) : Bytes := node.hmac key data

/-- Lengths first, then every byte of the two. -/
def verifyHmac (key data expected : Bytes) : Bool :=
  let actual := computeHmac node key data
  if actual.length ≠ expected.length then false
  else ((actual.zip expected).foldl (fun diff (a, b) => diff ||| (a ^^^ b)) 0 : UInt8) = 0

theorem or_eq_zero {a b : UInt8} : a ||| b = 0 ↔ a = 0 ∧ b = 0 := by
  rw [← UInt8.toNat_inj, ← UInt8.toNat_inj, ← UInt8.toNat_inj]
  simp

theorem xor_eq_zero {a b : UInt8} : a ^^^ b = 0 ↔ a = b := by
  constructor
  · intro h
    have : a ^^^ b ^^^ b = 0 ^^^ b := by rw [h]
    simpa [UInt8.xor_assoc] using this
  · rintro rfl
    simp

theorem foldl_diff : ∀ (left right : Bytes) (diff : UInt8), left.length = right.length →
    ((left.zip right).foldl (fun diff (a, b) => diff ||| (a ^^^ b)) diff = 0 ↔ diff = 0 ∧ left = right)
  | [], [], diff, _ => by simp
  | a :: left, b :: right, diff, h => by
    have hlength : left.length = right.length := by simpa using h
    rw [List.zip_cons_cons, List.foldl_cons, foldl_diff left right _ hlength, or_eq_zero, xor_eq_zero]
    simp [and_assoc]

/-- **The comparison accepts the MAC and nothing else.** -/
theorem verifyHmac_iff {key data expected : Bytes} :
    verifyHmac node key data expected = true ↔ expected = computeHmac node key data := by
  unfold verifyHmac
  by_cases hlength : (computeHmac node key data).length = expected.length
  · simp only [hlength, ne_eq, not_true_eq_false, if_false, decide_eq_true_eq, foldl_diff _ _ _ hlength, true_and]
    exact eq_comm
  · simp only [ne_eq, hlength, not_false_eq_true, if_true, Bool.false_eq_true, false_iff]
    rintro rfl
    exact hlength rfl

/-! ## Hexadecimal text -/

/-- The value of one of `[0-9A-Fa-f]`. -/
def hexValue (unit : CodeUnit) : Option Nat :=
  if 0x41 ≤ unit.val ∧ unit.val ≤ 0x46 then some (unit.val - 0x37) else lowerHexValue unit

/-- `Buffer.from(text, "hex")`: the bytes in front of the first two units that are no byte. -/
def bufferFromHex : JsString → Bytes
  | high :: low :: rest =>
    match hexValue high, hexValue low with
    | some high, some low => UInt8.ofNat (high * 0x10 + low) :: bufferFromHex rest
    | _, _ => []
  | _ => []

theorem hexValue_lower {unit : CodeUnit} {n : Nat} (h : lowerHexValue unit = some n) : hexValue unit = some n := by
  unfold hexValue
  split
  · rename_i hupper
    unfold lowerHexValue at h
    rw [if_neg (by omega), if_neg (by omega)] at h
    cases h
  · exact h

@[simp] theorem bufferFromHex_hex (bytes : Bytes) : bufferFromHex (unitsOf (hex bytes)) = bytes := by
  induction bytes with
  | nil => rfl
  | cons byte rest ih =>
    obtain ⟨high, low, hunits, hhigh, hlow⟩ := unitsOf_hex_cons byte rest
    have hvalue : byte.toNat / 0x10 * 0x10 + byte.toNat % 0x10 = byte.toNat := by omega
    rw [hunits, bufferFromHex, hexValue_lower hhigh, hexValue_lower hlow]
    simp only [ih, hvalue, UInt8.ofNat_toNat]

end OpenClaw.TeeVault
