/-
# OpenClaw.Reef.EncodingInverse -- each byte string has one encoding, and each accepted text names it

Encoding and decoding invert each other, for base64 and for base64url.  The decoder of base64url shifts its
digits through 32 bits, of which only the last six count: the overflow of a long text takes bits away that
have already been put out.
-/
import OpenClaw.Reef.Encoding

namespace OpenClaw.Reef

open OpenClaw.Data

/-! ## Shifting digits through 32 bits -/

theorem shiftIn_toNat (bits : UInt32) {digit : Nat} (h : digit < 0x40) :
    (bits <<< 6 ||| UInt32.ofNat digit).toNat = (bits.toNat * 0x40 + digit) % 2 ^ 32 := by
  have hmod : digit = digit % 2 ^ 32 := (Nat.mod_eq_of_lt (by omega)).symm
  rw [UInt32.toNat_or, UInt32.toNat_shiftLeft, UInt32.toNat_ofNat', show (6 : UInt32).toNat % 32 = 6 from rfl,
    ← Nat.or_mod_two_pow, ← Nat.shiftLeft_add_eq_or_of_lt (show digit < 2 ^ 6 by omega), Nat.shiftLeft_eq]

theorem shiftOut_toNat (bits : UInt32) {count : Nat} (h : count < 32) :
    (bits >>> UInt32.ofNat count).toUInt8.toNat = bits.toNat / 2 ^ count % 0x100 := by
  rw [UInt32.toNat_toUInt8, UInt32.toNat_shiftRight, UInt32.toNat_ofNat', Nat.mod_eq_of_lt (by omega : count < 2 ^ 32),
    Nat.mod_eq_of_lt h, Nat.shiftRight_eq_div_pow]

theorem idxOf_lt {character : Char} (h : character ∈ base64urlAlphabet) : base64urlAlphabet.idxOf character < 0x40 :=
  List.idxOf_lt_length_iff.mpr h

theorem base64urlDigit_spec (n : Nat) :
    base64urlDigit n ∈ base64urlAlphabet ∧ base64urlAlphabet.idxOf (base64urlDigit n) = n % 0x40 :=
  idxOf_getD base64urlAlphabet_nodup (show n % 0x40 < 64 by omega) '-'

theorem base64urlDigit_idxOf {character : Char} (h : character ∈ base64urlAlphabet) {n : Nat}
    (hn : n % 0x40 = base64urlAlphabet.idxOf character) : base64urlDigit n = character := by
  have hlt := List.idxOf_lt_length_iff.mpr h
  rw [base64urlDigit, hn, List.getD_eq_getElem?_getD, List.getElem?_eq_getElem hlt, Option.getD_some,
    List.getElem_idxOf]

theorem base64urlLoop_keep (bits : UInt32) (character : Char) (rest : Text) :
    base64urlLoop bits 0 (character :: rest) =
      base64urlLoop (bits <<< 6 ||| UInt32.ofNat (base64urlAlphabet.idxOf character)) 6 rest := rfl

theorem base64urlLoop_put (bits : UInt32) (count : Nat) (character : Char) (rest : Text) :
    let bits' := bits <<< 6 ||| UInt32.ofNat (base64urlAlphabet.idxOf character)
    base64urlLoop bits (count + 2) (character :: rest) =
      ((bits' >>> UInt32.ofNat count).toUInt8 :: (base64urlLoop bits' count rest).1,
        (base64urlLoop bits' count rest).2) := by
  rw [base64urlLoop]
  exact if_pos (by omega)

/-! ## Groups of four digits -/

/-- The bytes that the digits of a text name, none where the bits behind the last byte are not zero. -/
def base64urlBytes : Text → Option (List UInt8)
  | [] => some []
  | [_] => none
  | [a, b] =>
    let bits := base64urlAlphabet.idxOf a * 0x40 + base64urlAlphabet.idxOf b
    if bits % 0x10 = 0 then some [UInt8.ofNat (bits / 0x10)] else none
  | [a, b, c] =>
    let bits := (base64urlAlphabet.idxOf a * 0x40 + base64urlAlphabet.idxOf b) * 0x40 + base64urlAlphabet.idxOf c
    if bits % 4 = 0 then some [UInt8.ofNat (bits / 0x400), UInt8.ofNat (bits / 4)] else none
  | a :: b :: c :: d :: rest =>
    let bits := ((base64urlAlphabet.idxOf a * 0x40 + base64urlAlphabet.idxOf b) * 0x40 +
      base64urlAlphabet.idxOf c) * 0x40 + base64urlAlphabet.idxOf d
    (base64urlBytes rest).map fun bytes =>
      UInt8.ofNat (bits / 0x10000) :: UInt8.ofNat (bits / 0x100) :: UInt8.ofNat bits :: bytes

/-- What the loop leaves, when it is read. -/
def readLoop : List UInt8 × UInt32 × Nat → Option (List UInt8)
  | (output, bits, count) => if 0 < count ∧ bits &&& ((1 <<< UInt32.ofNat count) - 1) ≠ 0 then none else some output

theorem mask_two (bits : UInt32) : bits &&& ((1 <<< UInt32.ofNat 2) - 1) = 0 ↔ bits.toNat % 4 = 0 := by
  rw [← UInt32.toNat_inj, UInt32.toNat_and, show ((1 <<< UInt32.ofNat 2) - 1 : UInt32).toNat = 2 ^ 2 - 1 from rfl,
    Nat.and_two_pow_sub_one_eq_mod]
  rfl

theorem mask_four (bits : UInt32) : bits &&& ((1 <<< UInt32.ofNat 4) - 1) = 0 ↔ bits.toNat % 0x10 = 0 := by
  rw [← UInt32.toNat_inj, UInt32.toNat_and, show ((1 <<< UInt32.ofNat 4) - 1 : UInt32).toNat = 2 ^ 4 - 1 from rfl,
    Nat.and_two_pow_sub_one_eq_mod]
  rfl

/-- **The loop reads the digits in groups**, whatever stands in the bits before. -/
theorem readLoop_base64urlLoop : ∀ (text : Text) (bits : UInt32), (∀ c ∈ text, c ∈ base64urlAlphabet) →
    text.length % 4 ≠ 1 → readLoop (base64urlLoop bits 0 text) = base64urlBytes text
  | [], _, _, _ => rfl
  | [_], _, _, h => absurd rfl h
  | [a, b], bits, halphabet, _ => by
    rw [base64urlLoop_keep, base64urlLoop_put _ 4]
    have ha := idxOf_lt (halphabet a (by simp))
    have hx := shiftIn_toNat bits ha
    generalize bits <<< 6 ||| UInt32.ofNat (base64urlAlphabet.idxOf a) = x at hx ⊢
    have hb := idxOf_lt (halphabet b (by simp))
    have hy := shiftIn_toNat x hb
    generalize x <<< 6 ||| UInt32.ofNat (base64urlAlphabet.idxOf b) = y at hy ⊢
    have hbyte : (y >>> UInt32.ofNat 4).toUInt8 =
        UInt8.ofNat ((base64urlAlphabet.idxOf a * 0x40 + base64urlAlphabet.idxOf b) / 0x10) := by
      rw [← UInt8.toNat_inj, shiftOut_toNat _ (by omega), UInt8.toNat_ofNat']
      omega
    have hleft : y.toNat % 0x10 = (base64urlAlphabet.idxOf a * 0x40 + base64urlAlphabet.idxOf b) % 0x10 := by omega
    simp only [base64urlLoop, readLoop, base64urlBytes, Nat.zero_lt_succ, true_and, ne_eq, mask_four, ite_not,
      hbyte, hleft]
  | [a, b, c], bits, halphabet, _ => by
    rw [base64urlLoop_keep, base64urlLoop_put _ 4, base64urlLoop_put _ 2]
    have ha := idxOf_lt (halphabet a (by simp))
    have hx := shiftIn_toNat bits ha
    generalize bits <<< 6 ||| UInt32.ofNat (base64urlAlphabet.idxOf a) = x at hx ⊢
    have hb := idxOf_lt (halphabet b (by simp))
    have hy := shiftIn_toNat x hb
    dsimp only
    generalize x <<< 6 ||| UInt32.ofNat (base64urlAlphabet.idxOf b) = y at hy ⊢
    have hc := idxOf_lt (halphabet c (by simp))
    have hz := shiftIn_toNat y hc
    generalize y <<< 6 ||| UInt32.ofNat (base64urlAlphabet.idxOf c) = z at hz ⊢
    have hfirst : (y >>> UInt32.ofNat 4).toUInt8 = UInt8.ofNat (((base64urlAlphabet.idxOf a * 0x40 +
        base64urlAlphabet.idxOf b) * 0x40 + base64urlAlphabet.idxOf c) / 0x400) := by
      rw [← UInt8.toNat_inj, shiftOut_toNat _ (by omega), UInt8.toNat_ofNat']
      omega
    have hsecond : (z >>> UInt32.ofNat 2).toUInt8 = UInt8.ofNat (((base64urlAlphabet.idxOf a * 0x40 +
        base64urlAlphabet.idxOf b) * 0x40 + base64urlAlphabet.idxOf c) / 4) := by
      rw [← UInt8.toNat_inj, shiftOut_toNat _ (by omega), UInt8.toNat_ofNat']
      omega
    have hleft : z.toNat % 4 = ((base64urlAlphabet.idxOf a * 0x40 + base64urlAlphabet.idxOf b) * 0x40 +
        base64urlAlphabet.idxOf c) % 4 := by omega
    simp only [base64urlLoop, readLoop, base64urlBytes, Nat.zero_lt_succ, true_and, ne_eq, mask_two, ite_not,
      hfirst, hsecond, hleft]
  | a :: b :: c :: d :: rest, bits, halphabet, h => by
    rw [base64urlLoop_keep, base64urlLoop_put _ 4, base64urlLoop_put _ 2, base64urlLoop_put _ 0]
    have ha := idxOf_lt (halphabet a (by simp))
    have hx := shiftIn_toNat bits ha
    generalize bits <<< 6 ||| UInt32.ofNat (base64urlAlphabet.idxOf a) = x at hx ⊢
    have hb := idxOf_lt (halphabet b (by simp))
    have hy := shiftIn_toNat x hb
    dsimp only
    generalize x <<< 6 ||| UInt32.ofNat (base64urlAlphabet.idxOf b) = y at hy ⊢
    have hc := idxOf_lt (halphabet c (by simp))
    have hz := shiftIn_toNat y hc
    generalize y <<< 6 ||| UInt32.ofNat (base64urlAlphabet.idxOf c) = z at hz ⊢
    have hd := idxOf_lt (halphabet d (by simp))
    have hw := shiftIn_toNat z hd
    generalize z <<< 6 ||| UInt32.ofNat (base64urlAlphabet.idxOf d) = w at hw ⊢
    have ih := readLoop_base64urlLoop rest w (fun other hother => halphabet other (by simp [hother])) (by
      simp only [List.length_cons] at h
      omega)
    have hfirst : (y >>> UInt32.ofNat 4).toUInt8 = UInt8.ofNat ((((base64urlAlphabet.idxOf a * 0x40 +
        base64urlAlphabet.idxOf b) * 0x40 + base64urlAlphabet.idxOf c) * 0x40 +
        base64urlAlphabet.idxOf d) / 0x10000) := by
      rw [← UInt8.toNat_inj, shiftOut_toNat _ (by omega), UInt8.toNat_ofNat']
      omega
    have hsecond : (z >>> UInt32.ofNat 2).toUInt8 = UInt8.ofNat ((((base64urlAlphabet.idxOf a * 0x40 +
        base64urlAlphabet.idxOf b) * 0x40 + base64urlAlphabet.idxOf c) * 0x40 +
        base64urlAlphabet.idxOf d) / 0x100) := by
      rw [← UInt8.toNat_inj, shiftOut_toNat _ (by omega), UInt8.toNat_ofNat']
      omega
    have hthird : (w >>> UInt32.ofNat 0).toUInt8 = UInt8.ofNat (((base64urlAlphabet.idxOf a * 0x40 +
        base64urlAlphabet.idxOf b) * 0x40 + base64urlAlphabet.idxOf c) * 0x40 +
        base64urlAlphabet.idxOf d) := by
      rw [← UInt8.toNat_inj, shiftOut_toNat _ (by omega), UInt8.toNat_ofNat']
      omega
    rw [base64urlBytes, ← ih, hfirst, hsecond, hthird]
    unfold readLoop
    dsimp only
    split <;> simp_all

theorem fromBase64url_eq_ok {value : Text} {bytes : List UInt8} : fromBase64url value = .ok bytes ↔
    (∀ c ∈ value, c ∈ base64urlAlphabet) ∧ value.length % 4 ≠ 1 ∧ base64urlBytes value = some bytes := by
  by_cases hshape : (∀ c ∈ value, c ∈ base64urlAlphabet) ∧ value.length % 4 ≠ 1
  · obtain ⟨halphabet, hlength⟩ := hshape
    have hchecked : ¬(!(value.all (· ∈ base64urlAlphabet)) || value.length % 4 = 1) = true := by
      simp [hlength]
      exact halphabet
    rw [← readLoop_base64urlLoop value 0 halphabet hlength, fromBase64url, if_neg hchecked, readLoop]
    dsimp only
    constructor
    · intro h
      split at h
      · cases h
      · rename_i hrest
        cases h
        exact ⟨halphabet, hlength, if_neg hrest⟩
    · rintro ⟨-, -, h⟩
      split at h
      · cases h
      · rename_i hrest
        cases h
        exact if_neg hrest
  · constructor
    · intro h
      have hchecked : (!(value.all (· ∈ base64urlAlphabet)) || value.length % 4 = 1) = true := by
        by_contra hno
        apply hshape
        simpa using hno
      rw [fromBase64url, if_pos hchecked] at h
      cases h
    · rintro ⟨halphabet, hlength, -⟩
      exact absurd ⟨halphabet, hlength⟩ hshape

/-! ## Base64url both ways -/

theorem toNat_ofNat_of_lt {n : Nat} (h : n < 0x100) : (UInt8.ofNat n).toNat = n := by
  rw [UInt8.toNat_ofNat']
  exact Nat.mod_eq_of_lt h

/-- **The bytes that a text names are written as this text.** -/
theorem base64url_base64urlBytes : ∀ {value : Text} {bytes : List UInt8}, (∀ c ∈ value, c ∈ base64urlAlphabet) →
    base64urlBytes value = some bytes → base64url bytes = value
  | [], _, _, h => by
    cases h
    rfl
  | [_], _, _, h => by cases h
  | [a, b], bytes, halphabet, h => by
    have ha := idxOf_lt (halphabet a (by simp))
    have hb := idxOf_lt (halphabet b (by simp))
    rw [base64urlBytes] at h
    split at h
    case isFalse => cases h
    rename_i hleft
    cases h
    rw [base64url]
    rw [toNat_ofNat_of_lt (by omega), base64urlDigit_idxOf (halphabet a (by simp)) (by omega),
      base64urlDigit_idxOf (halphabet b (by simp)) (by omega)]
  | [a, b, c], bytes, halphabet, h => by
    have ha := idxOf_lt (halphabet a (by simp))
    have hb := idxOf_lt (halphabet b (by simp))
    have hc := idxOf_lt (halphabet c (by simp))
    rw [base64urlBytes] at h
    split at h
    case isFalse => cases h
    rename_i hleft
    cases h
    rw [base64url]
    rw [toNat_ofNat_of_lt (by omega), UInt8.toNat_ofNat', base64urlDigit_idxOf (halphabet a (by simp)) (by omega),
      base64urlDigit_idxOf (halphabet b (by simp)) (by omega),
      base64urlDigit_idxOf (halphabet c (by simp)) (by omega)]
  | a :: b :: c :: d :: rest, bytes, halphabet, h => by
    have ha := idxOf_lt (halphabet a (by simp))
    have hb := idxOf_lt (halphabet b (by simp))
    have hc := idxOf_lt (halphabet c (by simp))
    have hd := idxOf_lt (halphabet d (by simp))
    rw [base64urlBytes] at h
    obtain ⟨more, hmore, rfl⟩ := Option.map_eq_some_iff.mp h
    have ih := base64url_base64urlBytes (fun other hother => halphabet other (by simp [hother])) hmore
    rw [base64url, ih]
    rw [toNat_ofNat_of_lt (by omega), UInt8.toNat_ofNat', UInt8.toNat_ofNat',
      base64urlDigit_idxOf (halphabet a (by simp)) (by omega),
      base64urlDigit_idxOf (halphabet b (by simp)) (by omega),
      base64urlDigit_idxOf (halphabet c (by simp)) (by omega),
      base64urlDigit_idxOf (halphabet d (by simp)) (by omega)]
    rfl

theorem base64url_alphabet : ∀ bytes : List UInt8,
    (∀ c ∈ base64url bytes, c ∈ base64urlAlphabet) ∧ (base64url bytes).length % 4 ≠ 1
  | [] => by simp [base64url]
  | [a] => by simp [base64url, base64urlDigit_spec]
  | [a, b] => by simp [base64url, base64urlDigit_spec]
  | a :: b :: c :: rest => by
    obtain ⟨halphabet, hlength⟩ := base64url_alphabet rest
    simp only [base64url, List.cons_append, List.nil_append]
    constructor
    · intro other hother
      simp only [List.mem_cons] at hother
      rcases hother with rfl | rfl | rfl | rfl | hmem
      · exact (base64urlDigit_spec _).1
      · exact (base64urlDigit_spec _).1
      · exact (base64urlDigit_spec _).1
      · exact (base64urlDigit_spec _).1
      · exact halphabet other hmem
    · simp only [List.length_cons]
      omega

/-- **What was written names the bytes.** -/
theorem base64urlBytes_base64url : ∀ bytes : List UInt8, base64urlBytes (base64url bytes) = some bytes
  | [] => rfl
  | [a] => by
    have ha := a.toNat_lt
    simp only [base64url, base64urlBytes, (base64urlDigit_spec _).2]
    rw [if_pos (by omega)]
    congr 1
    simp only [List.cons.injEq, and_true, ← UInt8.toNat_inj, UInt8.toNat_ofNat']
    omega
  | [a, b] => by
    have ha := a.toNat_lt
    have hb := b.toNat_lt
    simp only [base64url, base64urlBytes, (base64urlDigit_spec _).2]
    rw [if_pos (by omega)]
    congr 1
    simp only [List.cons.injEq, and_true, ← UInt8.toNat_inj, UInt8.toNat_ofNat']
    refine ⟨?_, ?_⟩ <;> omega
  | a :: b :: c :: rest => by
    have ha := a.toNat_lt
    have hb := b.toNat_lt
    have hc := c.toNat_lt
    have ih := base64urlBytes_base64url rest
    simp only [base64url, List.cons_append, List.nil_append, base64urlBytes, (base64urlDigit_spec _).2, ih,
      Option.map_some]
    congr 1
    simp only [List.cons.injEq, and_true, ← UInt8.toNat_inj, UInt8.toNat_ofNat']
    refine ⟨?_, ?_, ?_⟩ <;> omega

/-- **Byte encodings are exact inverses.**  Each byte string is read back from its two encodings, and each
text that a decoder accepts is the encoding of the bytes that it names. -/
theorem encodings_inverse :
    (∀ bytes, fromBase64 (base64 bytes) = .ok bytes ∧ fromBase64url (base64url bytes) = .ok bytes) ∧
      (∀ value bytes, fromBase64 value = .ok bytes → base64 bytes = value) ∧
      ∀ value bytes, fromBase64url value = .ok bytes → base64url bytes = value := by
  refine ⟨fun bytes => ⟨fromBase64_base64 bytes, ?_⟩, ?_, ?_⟩
  · obtain ⟨halphabet, hlength⟩ := base64url_alphabet bytes
    exact fromBase64url_eq_ok.mpr ⟨halphabet, hlength, base64urlBytes_base64url bytes⟩
  · intro value bytes h
    unfold fromBase64 at h
    split at h
    · cases h
    · split at h
      · cases h
      · rename_i hsame
        cases h
        exact not_not.mp hsame
  · intro value bytes h
    obtain ⟨halphabet, -, hbytes⟩ := fromBase64url_eq_ok.mp h
    exact base64url_base64urlBytes halphabet hbytes

end OpenClaw.Reef
