/-
# OpenClaw.Infra.DevicePublicKey -- one text for every encoding of a device key

A device shows its public key as PEM, base64 or base64url; a bootstrap token is bound to one text for
all of them.  This module follows `normalizeBootstrapPublicKey` of `device-bootstrap.ts` and
`ed25519-signature.ts`.  Node's own decoders are parameters: `KeyDecoder`.
-/
import Mathlib.Data.List.GetD
import OpenClaw.Data.JsStrings

namespace OpenClaw.Infra.DevicePublicKey

open OpenClaw.Data

/-! ## Base64 -/

def base64Alphabet : List Char :=
  ['A', 'B', 'C', 'D', 'E', 'F', 'G', 'H', 'I', 'J', 'K', 'L', 'M', 'N', 'O', 'P', 'Q', 'R',
   'S', 'T', 'U', 'V', 'W', 'X', 'Y', 'Z', 'a', 'b', 'c', 'd', 'e', 'f', 'g', 'h', 'i', 'j',
   'k', 'l', 'm', 'n', 'o', 'p', 'q', 'r', 's', 't', 'u', 'v', 'w', 'x', 'y', 'z', '0', '1',
   '2', '3', '4', '5', '6', '7', '8', '9', '+', '/']

def base64Digit (n : Nat) : Char := base64Alphabet.getD n 'A'

/-- `buf.toString("base64")` -/
def toBase64 : List UInt8 → List Char
  | [] => []
  | [a] => [base64Digit (a.toNat / 4), base64Digit (a.toNat % 4 * 16), '=', '=']
  | [a, b] =>
    [base64Digit (a.toNat / 4), base64Digit (a.toNat % 4 * 16 + b.toNat / 16), base64Digit (b.toNat % 16 * 4), '=']
  | a :: b :: c :: rest =>
    base64Digit (a.toNat / 4) :: base64Digit (a.toNat % 4 * 16 + b.toNat / 16) ::
      base64Digit (b.toNat % 16 * 4 + c.toNat / 64) :: base64Digit (c.toNat % 64) :: toBase64 rest

/-- `replaceAll(from, to)` for single characters. -/
def replaceChar (source target : Char) (text : List Char) : List Char :=
  text.map fun c => if c = source then target else c

def base64UrlEncode (bytes : List UInt8) : String :=
  String.ofList ((replaceChar '/' '_' (replaceChar '+' '-' (toBase64 bytes))).rdropWhile (· = '='))

/-! ## Keys -/

/-- What Node decodes: `Buffer.from(text, "base64")`, and the SPKI encoding of the key that
`crypto.createPublicKey` reads from a text, if it reads one. -/
structure KeyDecoder where
  decodeBase64 : String → List UInt8
  spkiDer : String → Option (List UInt8)

def ed25519SpkiPrefix : List UInt8 := [0x30, 0x2a, 0x30, 0x05, 0x06, 0x03, 0x2b, 0x65, 0x70, 0x03, 0x21, 0x00]

def maxBase64UrlDecodeInputLength : Nat := 4096

/-- `text.includes(part)` -/
def includes (text part : String) : Bool := text.toList.tails.any fun rest => part.toList.isPrefixOf rest

variable (decoder : KeyDecoder)

/-- `none` is the error of an oversized input. -/
def base64UrlDecode (input : String) : Option (List UInt8) :=
  if jsLength input > maxBase64UrlDecodeInputLength then none
  else
    let normalized := String.ofList (replaceChar '_' '/' (replaceChar '-' '+' input.toList))
    let padding := List.replicate ((4 - jsLength normalized % 4) % 4) '='
    some (decoder.decodeBase64 (normalized ++ String.ofList padding))

def deriveEd25519PublicKeyRaw (publicKeyPem : String) : Option (List UInt8) :=
  (decoder.spkiDer publicKeyPem).map fun spki =>
    if spki.length = ed25519SpkiPrefix.length + 32 ∧ ed25519SpkiPrefix.isPrefixOf spki then
      spki.drop ed25519SpkiPrefix.length
    else spki

/-- `none` is `null`, for a text that is no key. -/
def normalizeDevicePublicKeyBase64Url (publicKey : String) : Option String :=
  if includes publicKey "BEGIN" then (deriveEd25519PublicKeyRaw decoder publicKey).map base64UrlEncode
  else
    match base64UrlDecode decoder publicKey with
    | none => none
    | some raw => if raw.length = 0 then none else some (base64UrlEncode raw)

def normalizeBootstrapPublicKey (publicKey : String) : String :=
  let trimmed := trim publicKey
  if trimmed = "" then ""
  else if includes trimmed "BEGIN" ∨ trimmed.toList.any (fun c => c = '+' ∨ c = '/' ∨ c = '=') then
    (normalizeDevicePublicKeyBase64Url decoder trimmed).getD trimmed
  else trimmed

/-! ## Normalized keys -/

/-- A PEM text has a space in its label line, `-----BEGIN PUBLIC KEY-----`; so Node reads no key from a
text without one. -/
def NeedsLabel : Prop := ∀ text, ' ' ∉ text.toList → decoder.spkiDer text = none

theorem base64Digit_mem (n : Nat) : base64Digit n ∈ base64Alphabet := by
  unfold base64Digit
  by_cases h : n < base64Alphabet.length
  · rw [List.getD_eq_getElem _ _ h]
    exact List.getElem_mem h
  · rw [List.getD_eq_default _ _ (Nat.le_of_not_lt h)]
    decide

/-- Base64 text is digits, then padding. -/
theorem toBase64_digits (bytes : List UInt8) :
    ∃ digits padding, toBase64 bytes = digits ++ padding ∧ (∀ c ∈ digits, c ∈ base64Alphabet) ∧
      ∀ c ∈ padding, c = '=' := by
  induction bytes using toBase64.induct with
  | case1 => exact ⟨[], [], rfl, fun _ h => absurd h List.not_mem_nil, fun _ h => absurd h List.not_mem_nil⟩
  | case2 a =>
    refine ⟨[_, _], ['=', '='], rfl, ?_, by simp⟩
    simp [base64Digit_mem]
  | case3 a b =>
    refine ⟨[_, _, _], ['='], rfl, ?_, by simp⟩
    simp [base64Digit_mem]
  | case4 a b c rest ih =>
    obtain ⟨digits, padding, heq, hdigits, hpadding⟩ := ih
    refine ⟨_ :: _ :: _ :: _ :: digits, padding, by rw [toBase64, heq]; rfl, ?_, hpadding⟩
    simp only [List.mem_cons]
    rintro d (rfl | rfl | rfl | rfl | hd)
    · exact base64Digit_mem _
    · exact base64Digit_mem _
    · exact base64Digit_mem _
    · exact base64Digit_mem _
    · exact hdigits d hd

def base64UrlAlphabet : List Char :=
  ['A', 'B', 'C', 'D', 'E', 'F', 'G', 'H', 'I', 'J', 'K', 'L', 'M', 'N', 'O', 'P', 'Q', 'R',
   'S', 'T', 'U', 'V', 'W', 'X', 'Y', 'Z', 'a', 'b', 'c', 'd', 'e', 'f', 'g', 'h', 'i', 'j',
   'k', 'l', 'm', 'n', 'o', 'p', 'q', 'r', 's', 't', 'u', 'v', 'w', 'x', 'y', 'z', '0', '1',
   '2', '3', '4', '5', '6', '7', '8', '9', '-', '_']

/-- The encoder's two replacements, on one character. -/
def urlChar (c : Char) : Char := if (if c = '+' then '-' else c) = '/' then '_' else if c = '+' then '-' else c

theorem replaceChar_url (text : List Char) : replaceChar '/' '_' (replaceChar '+' '-' text) = text.map urlChar := by
  unfold replaceChar
  rw [List.map_map]
  rfl

theorem urlChar_mem : ∀ c ∈ base64Alphabet, urlChar c ∈ base64UrlAlphabet := by
  have hall : base64Alphabet.all (fun c => urlChar c ∈ base64UrlAlphabet) = true := by decide
  intro c hc
  exact of_decide_eq_true (List.all_eq_true.mp hall c hc)

/-- Trailing elements that are all dropped leave the rest. -/
theorem rdropWhile_append {α : Type} {p : α → Bool} (xs : List α) {ys : List α} (h : ∀ y ∈ ys, p y) :
    (xs ++ ys).rdropWhile p = xs.rdropWhile p := by
  induction ys using List.reverseRecOn with
  | nil => rw [List.append_nil]
  | append_singleton ys y ih =>
    rw [← List.append_assoc, List.rdropWhile_concat_pos _ _ _ (h y (by simp))]
    exact ih fun z hz => h z (List.mem_append_left _ hz)

/-- **Encoded keys are plain text**: base64url characters only. -/
theorem base64UrlEncode_chars {bytes : List UInt8} {c : Char}
    (h : c ∈ (base64UrlEncode bytes).toList) : c ∈ base64UrlAlphabet := by
  obtain ⟨digits, padding, heq, hdigits, hpadding⟩ := toBase64_digits bytes
  have hdropped : ∀ y ∈ padding.map urlChar, decide (y = '=') = true := by
    intro y hy
    obtain ⟨x, hx, rfl⟩ := List.mem_map.mp hy
    rw [hpadding x hx]
    decide
  rw [base64UrlEncode, String.toList_ofList, replaceChar_url, heq, List.map_append, rdropWhile_append _ hdropped] at h
  obtain ⟨x, hx, rfl⟩ := List.mem_map.mp ((List.rdropWhile_prefix _ _).subset h)
  exact urlChar_mem x (hdigits x hx)

theorem base64UrlAlphabet_plain : ∀ c ∈ base64UrlAlphabet,
    isJsWhitespace c = false ∧ c ≠ ' ' ∧ ¬ (c = '+' ∨ c = '/' ∨ c = '=') := by
  have hall : base64UrlAlphabet.all (fun c => isJsWhitespace c = false ∧ c ≠ ' ' ∧
      ¬ (c = '+' ∨ c = '/' ∨ c = '=')) = true := by decide
  intro c hc
  exact of_decide_eq_true (List.all_eq_true.mp hall c hc)

/-- Text without white space is its own trimmed text. -/
theorem trim_of_plain {s : String} (h : ∀ c ∈ s.toList, isJsWhitespace c = false) : trim s = s := by
  have hkept : stripBoth isJsWhitespace s.toList = s.toList := by
    unfold stripBoth
    have hleft : s.toList.dropWhile isJsWhitespace = s.toList := by
      rw [List.dropWhile_eq_self_iff]
      intro hl
      simp [h _ (List.getElem_mem hl)]
    rw [hleft, List.rdropWhile_eq_self_iff]
    intro hl
    simp [h _ (List.getLast_mem hl)]
  rw [trim, hkept, String.ofList_toList]

/-- An encoded key is normalized. -/
theorem normalizeBootstrapPublicKey_encoded (hlabel : NeedsLabel decoder) (bytes : List UInt8) :
    normalizeBootstrapPublicKey decoder (base64UrlEncode bytes) = base64UrlEncode bytes := by
  have hplain := fun c (hc : c ∈ (base64UrlEncode bytes).toList) =>
    base64UrlAlphabet_plain c (base64UrlEncode_chars hc)
  have htrim : trim (base64UrlEncode bytes) = base64UrlEncode bytes := trim_of_plain fun c hc => (hplain c hc).1
  have hspecial : ¬ (base64UrlEncode bytes).toList.any
      (fun c => c = '+' ∨ c = '/' ∨ c = '=') = true := by
    rw [List.any_eq_true]
    rintro ⟨c, hc, hmatch⟩
    exact (hplain c hc).2.2 (of_decide_eq_true hmatch)
  unfold normalizeBootstrapPublicKey
  rw [htrim]
  dsimp only
  split
  · rename_i hempty
    exact hempty.symm
  · split
    · rename_i hencoded
      rcases hencoded with hbegin | hmatch
      · -- The text has no space, so it is no PEM although it contains `BEGIN`.
        have hnone : decoder.spkiDer (base64UrlEncode bytes) = none := hlabel _ fun hspace => (hplain _ hspace).2.1 rfl
        rw [normalizeDevicePublicKeyBase64Url, if_pos hbegin, deriveEd25519PublicKeyRaw, hnone]
        rfl
      · exact absurd hmatch hspecial
    · rfl

/-- **A normalized key is its own normal form.** -/
theorem normalizeBootstrapPublicKey_idem (hlabel : NeedsLabel decoder) (publicKey : String) :
    normalizeBootstrapPublicKey decoder (normalizeBootstrapPublicKey decoder publicKey) =
      normalizeBootstrapPublicKey decoder publicKey := by
  have hcanonical : ∀ {text canonical : String},
      normalizeDevicePublicKeyBase64Url decoder text = some canonical → ∃ bytes, canonical = base64UrlEncode bytes := by
    intro text canonical h
    unfold normalizeDevicePublicKeyBase64Url at h
    split at h
    · obtain ⟨raw, -, rfl⟩ := Option.map_eq_some_iff.mp h
      exact ⟨raw, rfl⟩
    · split at h
      · cases h
      · split at h
        · cases h
        · cases h
          exact ⟨_, rfl⟩
  have hempty : normalizeBootstrapPublicKey decoder "" = "" := by
    have htrim : trim "" = "" := by decide
    simp [normalizeBootstrapPublicKey, htrim]
  by_cases htrim : trim publicKey = ""
  · have hblank : normalizeBootstrapPublicKey decoder publicKey = "" := by
      simp [normalizeBootstrapPublicKey, htrim]
    rw [hblank, hempty]
  · by_cases hspecial : includes (trim publicKey) "BEGIN" = true ∨
        (trim publicKey).toList.any (fun c => c = '+' ∨ c = '/' ∨ c = '=') = true
    · cases hkey : normalizeDevicePublicKeyBase64Url decoder (trim publicKey) with
      | some canonical =>
        have heq : normalizeBootstrapPublicKey decoder publicKey = canonical := by
          simp only [normalizeBootstrapPublicKey]
          rw [if_neg htrim, if_pos hspecial, hkey]
          rfl
        obtain ⟨bytes, rfl⟩ := hcanonical hkey
        rw [heq]
        exact normalizeBootstrapPublicKey_encoded decoder hlabel bytes
      | none =>
        have heq : normalizeBootstrapPublicKey decoder publicKey = trim publicKey := by
          simp only [normalizeBootstrapPublicKey]
          rw [if_neg htrim, if_pos hspecial, hkey]
          rfl
        rw [heq]
        simp only [normalizeBootstrapPublicKey, trim_trim]
        rw [if_neg htrim, if_pos hspecial, hkey]
        rfl
    · have heq : normalizeBootstrapPublicKey decoder publicKey = trim publicKey := by
        simp only [normalizeBootstrapPublicKey]
        rw [if_neg htrim, if_neg hspecial]
      rw [heq]
      simp only [normalizeBootstrapPublicKey, trim_trim]
      rw [if_neg htrim, if_neg hspecial]

end OpenClaw.Infra.DevicePublicKey
