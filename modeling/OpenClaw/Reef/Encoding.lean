/-
# OpenClaw.Reef.Encoding -- texts that are bytes

`fromBase64url` and `fromBase64` accept exactly what names bytes: no other alphabet, no stray bits, no
missing padding.  `decodeUtf8` throws on bytes that are no UTF-8 and drops a byte order mark.  This
follows the decoders of `encoding.ts`.
-/
import OpenClaw.Reef.Canonical
import OpenClaw.Reef.ReplayStore

namespace OpenClaw.Reef

open OpenClaw.Data

def base64urlAlphabet : Text := "ABCDEFGHIJKLMNOPQRSTUVWXYZabcdefghijklmnopqrstuvwxyz0123456789-_".toList

def base64Alphabet : Text := "ABCDEFGHIJKLMNOPQRSTUVWXYZabcdefghijklmnopqrstuvwxyz0123456789+/".toList

def base64urlDigit (n : Nat) : Char := base64urlAlphabet.getD (n % 0x40) '-'

def base64url : List UInt8 → Text
  | [] => []
  | [a] =>
    let bits := a.toNat * 0x10000
    [base64urlDigit (bits / 0x40000), base64urlDigit (bits / 0x1000)]
  | [a, b] =>
    let bits := a.toNat * 0x10000 + b.toNat * 0x100
    [base64urlDigit (bits / 0x40000), base64urlDigit (bits / 0x1000), base64urlDigit (bits / 0x40)]
  | a :: b :: c :: rest =>
    let bits := a.toNat * 0x10000 + b.toNat * 0x100 + c.toNat
    [base64urlDigit (bits / 0x40000), base64urlDigit (bits / 0x1000), base64urlDigit (bits / 0x40),
      base64urlDigit bits] ++ base64url rest

/-- The loop of `fromBase64url`: the bytes, and then what is left in the 32 bits, and how many bits count. -/
def base64urlLoop (bits : UInt32) (count : Nat) : Text → List UInt8 × UInt32 × Nat
  | [] => ([], bits, count)
  | character :: rest =>
    let bits := bits <<< 6 ||| UInt32.ofNat (base64urlAlphabet.idxOf character)
    if 8 ≤ count + 6 then
      let (output, left) := base64urlLoop bits (count + 6 - 8) rest
      ((bits >>> UInt32.ofNat (count + 6 - 8)).toUInt8 :: output, left)
    else base64urlLoop bits (count + 6) rest

def fromBase64url (value : Text) : Except String (List UInt8) :=
  if !(value.all (· ∈ base64urlAlphabet)) || value.length % 4 = 1 then .error "invalid base64url"
  else
    let (output, bits, count) := base64urlLoop 0 0 value
    if 0 < count ∧ bits &&& ((1 <<< UInt32.ofNat count) - 1) ≠ 0 then .error "invalid base64url padding"
    else .ok output

/-- The bytes of three digits, of which the last ones may stand for padding. -/
def base64Bytes (digits : List Nat) (count : Nat) : List UInt8 :=
  let bits := digits.foldl (fun bits digit => bits * 2 ^ 6 + digit) 0
  [UInt8.ofNat (bits / 2 ^ 16), UInt8.ofNat (bits / 2 ^ 8), UInt8.ofNat bits].take count

def base64Digits (characters : Text) : Option (List Nat) :=
  if characters.all (· ∈ base64Alphabet) then some (characters.map base64Alphabet.idxOf) else none

/-- Four characters at a time; only the last ones may be padded. -/
def base64Groups : Text → Option (List UInt8)
  | [] => some []
  | [a, b, '=', '='] => (base64Digits [a, b]).map fun digits => base64Bytes (digits ++ [0, 0]) 1
  | [a, b, c, '='] => (base64Digits [a, b, c]).map fun digits => base64Bytes (digits ++ [0]) 2
  | a :: b :: c :: d :: rest => do
    let digits ← base64Digits [a, b, c, d]
    let output ← base64Groups rest
    return base64Bytes digits 3 ++ output
  | _ => none

def fromBase64 (value : Text) : Except String (List UInt8) :=
  match base64Groups value with
  | none => .error "invalid base64"
  | some output => if base64 output ≠ value then .error "non-canonical base64" else .ok output

/-! ## Reading base64 back -/

theorem base64Alphabet_nodup : base64Alphabet.Nodup := by
  have hcodes : (base64Alphabet.map Char.toNat).Nodup := by decide
  exact hcodes.of_map

theorem base64urlAlphabet_nodup : base64urlAlphabet.Nodup := by
  have hcodes : (base64urlAlphabet.map Char.toNat).Nodup := by decide
  exact hcodes.of_map

/-- The place of a letter that stands there. -/
theorem idxOf_getD {alphabet : Text} (h : alphabet.Nodup) {n : Nat} (hn : n < alphabet.length) (c : Char) :
    alphabet.getD n c ∈ alphabet ∧ alphabet.idxOf (alphabet.getD n c) = n := by
  rw [List.getD_eq_getElem?_getD, List.getElem?_eq_getElem hn, Option.getD_some]
  exact ⟨List.getElem_mem hn, h.idxOf_getElem n hn⟩

theorem base64Digit_spec (n : Nat) : base64Digit n ∈ base64Alphabet ∧ base64Alphabet.idxOf (base64Digit n) = n % 0x40 :=
  idxOf_getD base64Alphabet_nodup (show n % 0x40 < 64 by omega) '='

theorem base64Digit_mem (n : Nat) : base64Digit n ∈ base64Alphabet := (base64Digit_spec n).1

theorem idxOf_base64Digit (n : Nat) : base64Alphabet.idxOf (base64Digit n) = n % 0x40 := (base64Digit_spec n).2

theorem base64Digit_ne (n : Nat) : base64Digit n ≠ '=' := by
  have hpadding : '=' ∉ base64Alphabet := by decide
  exact fun h => hpadding (h ▸ base64Digit_mem n)

theorem base64Digits_digits (ns : List Nat) : base64Digits (ns.map base64Digit) = some (ns.map (· % 0x40)) := by
  unfold base64Digits
  rw [if_pos (by simp [base64Digit_mem]), List.map_map]
  simp [Function.comp_def, idxOf_base64Digit]

/-- Three bytes from four digits. -/
theorem base64Bytes_three (a b c : UInt8) :
    base64Bytes [(a.toNat * 0x10000 + b.toNat * 0x100 + c.toNat) / 0x40000 % 0x40,
      (a.toNat * 0x10000 + b.toNat * 0x100 + c.toNat) / 0x1000 % 0x40,
      (a.toNat * 0x10000 + b.toNat * 0x100 + c.toNat) / 0x40 % 0x40,
      (a.toNat * 0x10000 + b.toNat * 0x100 + c.toNat) % 0x40] 3 = [a, b, c] := by
  have ha := a.toNat_lt
  have hb := b.toNat_lt
  have hc := c.toNat_lt
  simp only [base64Bytes, List.foldl_cons, List.foldl_nil, List.take_succ_cons, List.take_zero, List.cons.injEq,
    and_true, ← UInt8.toNat_inj, UInt8.toNat_ofNat']
  refine ⟨?_, ?_, ?_⟩ <;> omega

/-- Two bytes from three digits and padding. -/
theorem base64Bytes_two (a b : UInt8) : base64Bytes [(a.toNat * 0x10000 + b.toNat * 0x100) / 0x40000 % 0x40,
      (a.toNat * 0x10000 + b.toNat * 0x100) / 0x1000 % 0x40,
      (a.toNat * 0x10000 + b.toNat * 0x100) / 0x40 % 0x40, 0] 2 = [a, b] := by
  have ha := a.toNat_lt
  have hb := b.toNat_lt
  simp only [base64Bytes, List.foldl_cons, List.foldl_nil, List.take_succ_cons, List.take_zero, List.cons.injEq,
    and_true, ← UInt8.toNat_inj, UInt8.toNat_ofNat']
  refine ⟨?_, ?_⟩ <;> omega

/-- One byte from two digits and padding. -/
theorem base64Bytes_one (a : UInt8) :
    base64Bytes [a.toNat * 0x10000 / 0x40000 % 0x40, a.toNat * 0x10000 / 0x1000 % 0x40, 0, 0] 1 = [a] := by
  have ha := a.toNat_lt
  simp only [base64Bytes, List.foldl_cons, List.foldl_nil, List.take_succ_cons, List.take_zero, List.cons.injEq,
    and_true, ← UInt8.toNat_inj, UInt8.toNat_ofNat']
  omega

/-- Four characters none of which is padding. -/
theorem base64Groups_digits (w x y z : Nat) (rest : Text) :
    base64Groups (base64Digit w :: base64Digit x :: base64Digit y :: base64Digit z :: rest) =
      (base64Groups rest).map fun output => base64Bytes [w % 0x40, x % 0x40, y % 0x40, z % 0x40] 3 ++ output := by
  have hdigits := base64Digits_digits [w, x, y, z]
  simp only [List.map_cons, List.map_nil] at hdigits
  rw [base64Groups, hdigits]
  · cases base64Groups rest <;> rfl
  · intro hy
    exact absurd hy (base64Digit_ne y)
  · intro hz
    exact absurd hz (base64Digit_ne z)

/-- **What was encoded is read back.** -/
theorem base64Groups_base64 : ∀ bytes : List UInt8, base64Groups (base64 bytes) = some bytes
  | [] => rfl
  | [a] => by
    have hdigits := base64Digits_digits [a.toNat * 0x10000 / 0x40000, a.toNat * 0x10000 / 0x1000]
    simp only [List.map_cons, List.map_nil] at hdigits
    simp only [base64, base64Groups, hdigits, Option.map_some]
    exact congrArg some (base64Bytes_one a)
  | [a, b] => by
    have hdigits := base64Digits_digits [(a.toNat * 0x10000 + b.toNat * 0x100) / 0x40000,
      (a.toNat * 0x10000 + b.toNat * 0x100) / 0x1000, (a.toNat * 0x10000 + b.toNat * 0x100) / 0x40]
    simp only [List.map_cons, List.map_nil] at hdigits
    simp only [base64]
    rw [base64Groups, hdigits]
    · exact congrArg some (base64Bytes_two a b)
    · exact base64Digit_ne _
  | a :: b :: c :: rest => by
    simp only [base64, List.cons_append, List.nil_append]
    rw [base64Groups_digits, base64Bytes_three, base64Groups_base64 rest]
    rfl

theorem fromBase64_base64 (bytes : List UInt8) : fromBase64 (base64 bytes) = .ok bytes := by
  simp [fromBase64, base64Groups_base64]

/-- `decodeUtf8(value)` -/
def decodeUtf8 (value : List UInt8) : Option Text :=
  let text := utf8Decode value
  if utf8 text = value then some (decodeUtf8Utf8 text) else none

/-- `/^[0-9a-f]{64}$/` -/
def isHexHash (text : Text) : Bool := text.length = 64 && text.all fun c => isDigit c || ('a' ≤ c && c ≤ 'f')

/-- A text that was encoded is decoded, up to a byte order mark. -/
theorem decodeUtf8_utf8 (text : Text) : decodeUtf8 (utf8 text) = some (decodeUtf8Utf8 text) := by
  unfold decodeUtf8
  rw [utf8Decode_utf8]
  exact if_pos rfl

example : fromBase64 "AQIDBB==".toList = .error "non-canonical base64" := by decide +kernel

end OpenClaw.Reef
