/-
# OpenClaw.Data.Utf8 -- texts as bytes, and the decoder that replaces what is malformed

`utf8` is `TextEncoder.encode` on a text without lone surrogates.  `utf8Decode` is the UTF-8 decoder of
`TextDecoder` and `Buffer.toString`: it never fails, and puts U+FFFD where no code point can be read.  What
was encoded decodes to itself, and an encoding that was cut decodes to a cut text, with at most one
U+FFFD after it.
-/
import Mathlib.Data.List.Basic

namespace OpenClaw.Data

/-- The bytes of a text. -/
def utf8 (text : List Char) : List UInt8 := text.flatMap String.utf8EncodeChar

@[simp] theorem utf8_nil : utf8 [] = [] := rfl

@[simp] theorem utf8_cons (c : Char) (text : List Char) :
    utf8 (c :: text) = String.utf8EncodeChar c ++ utf8 text := rfl

@[simp] theorem utf8_append (text text' : List Char) : utf8 (text ++ text') = utf8 text ++ utf8 text' :=
  List.flatMap_append

/-- An ASCII character is one byte. -/
theorem utf8EncodeChar_ascii {c : Char} (h : c.toNat < 0x80) : String.utf8EncodeChar c = [UInt8.ofNat c.toNat] := by
  have hle : c.val.toNat ≤ 0x7f := Nat.le_of_lt_succ h
  unfold String.utf8EncodeChar
  rw [if_pos hle]
  rfl

/-! ## The decoder -/

/-- A code point of which some bytes are read: how many are still to come, between which bounds the next
one lies, and the bits so far. -/
structure PendingPoint where
  needed : Nat
  lower : Nat
  upper : Nat
  bits : Nat

def replacementCharacter : Char := '\uFFFD'

/-- The first byte of a code point. -/
def utf8Start (byte : Nat) : List Char × Option PendingPoint :=
  if byte ≤ 0x7F then ([Char.ofNat byte], none)
  else if 0xC2 ≤ byte ∧ byte ≤ 0xDF then ([], some ⟨1, 0x80, 0xBF, byte - 0xC0⟩)
  else if 0xE0 ≤ byte ∧ byte ≤ 0xEF then
    ([], some ⟨2, if byte = 0xE0 then 0xA0 else 0x80, if byte = 0xED then 0x9F else 0xBF, byte - 0xE0⟩)
  else if 0xF0 ≤ byte ∧ byte ≤ 0xF4 then
    ([], some ⟨3, if byte = 0xF0 then 0x90 else 0x80, if byte = 0xF4 then 0x8F else 0xBF, byte - 0xF0⟩)
  else ([replacementCharacter], none)

/-- One byte.  A byte that does not continue the pending code point is read again as a first one. -/
def utf8Step : Option PendingPoint → Nat → List Char × Option PendingPoint
  | none, byte => utf8Start byte
  | some pending, byte =>
    if byte < pending.lower ∨ pending.upper < byte then
      (replacementCharacter :: (utf8Start byte).1, (utf8Start byte).2)
    else
      let bits := pending.bits * 0x40 + (byte - 0x80)
      if pending.needed = 1 then ([Char.ofNat bits], none)
      else ([], some ⟨pending.needed - 1, 0x80, 0xBF, bits⟩)

/-- A code point that is pending at the end is replaced. -/
def utf8DecodeFrom : Option PendingPoint → List UInt8 → List Char
  | none, [] => []
  | some _, [] => [replacementCharacter]
  | pending, byte :: rest => (utf8Step pending byte.toNat).1 ++ utf8DecodeFrom (utf8Step pending byte.toNat).2 rest

attribute [grind =] utf8DecodeFrom

/-- `new TextDecoder().decode(bytes)`, and `buffer.toString("utf8")`. -/
def utf8Decode (bytes : List UInt8) : List Char := utf8DecodeFrom none bytes

/-! ## Reading an encoding -/

theorem utf8DecodeFrom_cons (pending : Option PendingPoint) (byte : UInt8) (rest : List UInt8) :
    utf8DecodeFrom pending (byte :: rest) =
      (utf8Step pending byte.toNat).1 ++ utf8DecodeFrom (utf8Step pending byte.toNat).2 rest := by
  cases pending <;> rfl

/-- A first byte that leaves a code point pending. -/
theorem utf8DecodeFrom_start {n : Nat} {pending : PendingPoint} (hn : n < 0x100)
    (h : utf8Start n = ([], some pending)) (rest : List UInt8) :
    utf8DecodeFrom none (UInt8.ofNat n :: rest) = utf8DecodeFrom (some pending) rest := by
  have hbyte : (UInt8.ofNat n).toNat = n := by simp; omega
  rw [utf8DecodeFrom_cons, hbyte, utf8Step, h]
  rfl

/-- A byte that continues a code point and does not end it. -/
theorem utf8DecodeFrom_more {n : Nat} {pending : PendingPoint} (hn : n < 0x100)
    (hlower : pending.lower ≤ n) (hupper : n ≤ pending.upper) (hneeded : pending.needed ≠ 1) (rest : List UInt8) :
    utf8DecodeFrom (some pending) (UInt8.ofNat n :: rest) =
      utf8DecodeFrom (some ⟨pending.needed - 1, 0x80, 0xBF, pending.bits * 0x40 + (n - 0x80)⟩) rest := by
  have hbyte : (UInt8.ofNat n).toNat = n := by simp; omega
  have hin : ¬ (n < pending.lower ∨ pending.upper < n) := by omega
  rw [utf8DecodeFrom_cons, hbyte, utf8Step, if_neg hin]
  simp [hneeded]

/-- The byte that ends a code point. -/
theorem utf8DecodeFrom_last {n : Nat} {pending : PendingPoint} (hn : n < 0x100)
    (hlower : pending.lower ≤ n) (hupper : n ≤ pending.upper) (hneeded : pending.needed = 1) (rest : List UInt8) :
    utf8DecodeFrom (some pending) (UInt8.ofNat n :: rest) =
      Char.ofNat (pending.bits * 0x40 + (n - 0x80)) :: utf8DecodeFrom none rest := by
  have hbyte : (UInt8.ofNat n).toNat = n := by simp; omega
  have hin : ¬ (n < pending.lower ∨ pending.upper < n) := by omega
  rw [utf8DecodeFrom_cons, hbyte, utf8Step, if_neg hin]
  simp [hneeded]

/-- No code point is a surrogate. -/
theorem char_bounds (c : Char) :
    c.toNat < 0xD800 ∨ 0xDFFF < c.toNat ∧ c.toNat < 0x110000 := c.valid

/-- The forms of an encoding: one byte up to `7F`, two up to `7FF`, three up to `FFFF`, then four. -/
theorem utf8EncodeChar_forms (c : Char) : (c.toNat ≤ 0x7F ∧ String.utf8EncodeChar c = [UInt8.ofNat c.toNat]) ∨
    (0x7F < c.toNat ∧ c.toNat ≤ 0x7FF ∧ String.utf8EncodeChar c =
      [UInt8.ofNat (c.toNat / 0x40 + 0xC0), UInt8.ofNat (c.toNat % 0x40 + 0x80)]) ∨
    (0x7FF < c.toNat ∧ c.toNat ≤ 0xFFFF ∧ String.utf8EncodeChar c =
      [UInt8.ofNat (c.toNat / 0x1000 + 0xE0), UInt8.ofNat (c.toNat / 0x40 % 0x40 + 0x80),
        UInt8.ofNat (c.toNat % 0x40 + 0x80)]) ∨ (0xFFFF < c.toNat ∧ String.utf8EncodeChar c =
      [UInt8.ofNat (c.toNat / 0x40000 + 0xF0), UInt8.ofNat (c.toNat / 0x1000 % 0x40 + 0x80),
        UInt8.ofNat (c.toNat / 0x40 % 0x40 + 0x80), UInt8.ofNat (c.toNat % 0x40 + 0x80)]) := by
  have hbounds := char_bounds c
  have hval : c.val.toNat = c.toNat := rfl
  unfold String.utf8EncodeChar
  simp only [hval]
  generalize c.toNat = n at hbounds
  by_cases h1 : n ≤ 0x7F
  · exact .inl ⟨h1, by rw [if_pos h1]⟩
  · by_cases h2 : n ≤ 0x7FF
    · refine .inr (.inl ⟨by omega, h2, ?_⟩)
      rw [if_neg h1, if_pos h2, show n / 64 % 0x20 = n / 0x40 by omega]
    · by_cases h3 : n ≤ 0xFFFF
      · refine .inr (.inr (.inl ⟨by omega, h3, ?_⟩))
        rw [if_neg h1, if_neg h2, if_pos h3, show n / 4096 % 0x10 = n / 0x1000 by omega]
      · refine .inr (.inr (.inr ⟨by omega, ?_⟩))
        rw [if_neg h1, if_neg h2, if_neg h3, show n / 262144 % 0x08 = n / 0x40000 by omega]

theorem utf8Start_two {n : Nat} (hlow : 0x7F < n) (hhigh : n ≤ 0x7FF) :
    utf8Start (n / 0x40 + 0xC0) = ([], some ⟨1, 0x80, 0xBF, n / 0x40⟩) := by
  have h1 : ¬ n / 0x40 + 0xC0 ≤ 0x7F := by omega
  have h2 : 0xC2 ≤ n / 0x40 + 0xC0 ∧ n / 0x40 + 0xC0 ≤ 0xDF := by omega
  rw [utf8Start, if_neg h1, if_pos h2]
  simp

theorem utf8Start_three {n : Nat} (hlow : 0x7FF < n) (hhigh : n ≤ 0xFFFF) :
    utf8Start (n / 0x1000 + 0xE0) = ([], some ⟨2, if n / 0x1000 = 0 then 0xA0 else 0x80,
      if n / 0x1000 = 0xD then 0x9F else 0xBF, n / 0x1000⟩) := by
  have h1 : ¬ n / 0x1000 + 0xE0 ≤ 0x7F := by omega
  have h2 : ¬ (0xC2 ≤ n / 0x1000 + 0xE0 ∧ n / 0x1000 + 0xE0 ≤ 0xDF) := by omega
  have h3 : 0xE0 ≤ n / 0x1000 + 0xE0 ∧ n / 0x1000 + 0xE0 ≤ 0xEF := by omega
  rw [utf8Start, if_neg h1, if_neg h2, if_pos h3]
  simp

theorem utf8Start_four {n : Nat} (hlow : 0xFFFF < n) (hhigh : n < 0x110000) :
    utf8Start (n / 0x40000 + 0xF0) = ([], some ⟨3, if n / 0x40000 = 0 then 0x90 else 0x80,
      if n / 0x40000 = 4 then 0x8F else 0xBF, n / 0x40000⟩) := by
  have h1 : ¬ n / 0x40000 + 0xF0 ≤ 0x7F := by omega
  have h2 : ¬ (0xC2 ≤ n / 0x40000 + 0xF0 ∧ n / 0x40000 + 0xF0 ≤ 0xDF) := by omega
  have h3 : ¬ (0xE0 ≤ n / 0x40000 + 0xF0 ∧ n / 0x40000 + 0xF0 ≤ 0xEF) := by omega
  have h4 : 0xF0 ≤ n / 0x40000 + 0xF0 ∧ n / 0x40000 + 0xF0 ≤ 0xF4 := by omega
  rw [utf8Start, if_neg h1, if_neg h2, if_neg h3, if_pos h4]
  simp

/-- **An encoded character decodes to itself**, whatever follows. -/
theorem utf8Decode_encodeChar (c : Char) (rest : List UInt8) :
    utf8Decode (String.utf8EncodeChar c ++ rest) = c :: utf8Decode rest := by
  have hbounds := char_bounds c
  unfold utf8Decode
  rcases utf8EncodeChar_forms c with ⟨h, he⟩ | ⟨hlow, hhigh, he⟩ | ⟨hlow, hhigh, he⟩ | ⟨hlow, he⟩
  · rw [he, List.cons_append, List.nil_append, utf8DecodeFrom_cons]
    have hbyte : (UInt8.ofNat c.toNat).toNat = c.toNat := by simp; omega
    rw [hbyte, utf8Step, utf8Start, if_pos h, Char.ofNat_toNat]
    rfl
  · rw [he, List.cons_append, List.cons_append, List.nil_append,
      utf8DecodeFrom_start (by omega) (utf8Start_two hlow hhigh),
      utf8DecodeFrom_last (by omega) (by simp only; omega) (by simp only; omega) rfl]
    have hbits : c.toNat / 0x40 * 0x40 + (c.toNat % 0x40 + 0x80 - 0x80) = c.toNat := by omega
    rw [hbits, Char.ofNat_toNat]
  · rw [he, List.cons_append, List.cons_append, List.cons_append, List.nil_append,
      utf8DecodeFrom_start (by omega) (utf8Start_three hlow hhigh),
      utf8DecodeFrom_more (by omega) (by simp only; split <;> omega) (by simp only; split <;> omega)
        (by simp),
      utf8DecodeFrom_last (by omega) (by simp only; omega) (by simp only; omega) rfl]
    have hbits : (c.toNat / 0x1000 * 0x40 + (c.toNat / 0x40 % 0x40 + 0x80 - 0x80)) * 0x40 +
        (c.toNat % 0x40 + 0x80 - 0x80) = c.toNat := by omega
    rw [hbits, Char.ofNat_toNat]
  · rw [he, List.cons_append, List.cons_append, List.cons_append, List.cons_append, List.nil_append,
      utf8DecodeFrom_start (by omega) (utf8Start_four hlow (by omega)),
      utf8DecodeFrom_more (by omega) (by simp only; split <;> omega) (by simp only; split <;> omega)
        (by simp),
      utf8DecodeFrom_more (by omega) (by simp only; omega) (by simp only; omega) (by simp),
      utf8DecodeFrom_last (by omega) (by simp only; omega) (by simp only; omega) rfl]
    have hbits : ((c.toNat / 0x40000 * 0x40 + (c.toNat / 0x1000 % 0x40 + 0x80 - 0x80)) * 0x40 +
        (c.toNat / 0x40 % 0x40 + 0x80 - 0x80)) * 0x40 + (c.toNat % 0x40 + 0x80 - 0x80) = c.toNat := by
      omega
    rw [hbits, Char.ofNat_toNat]

theorem utf8Decode_utf8_append (text : List Char) (rest : List UInt8) :
    utf8Decode (utf8 text ++ rest) = text ++ utf8Decode rest := by
  induction text with
  | nil => rfl
  | cons c text ih => rw [utf8_cons, List.append_assoc, utf8Decode_encodeChar, ih, List.cons_append]

/-- **What is encoded decodes to itself.** -/
@[simp] theorem utf8Decode_utf8 (text : List Char) : utf8Decode (utf8 text) = text := by
  have h := utf8Decode_utf8_append text []
  rwa [List.append_nil, show utf8Decode [] = [] from rfl, List.append_nil] at h

theorem utf8_injective : Function.Injective utf8 := Function.LeftInverse.injective utf8Decode_utf8

/-! ## A cut encoding -/

/-- An encoding of one character that is cut decodes to a replacement character. -/
theorem utf8Decode_cutChar (c : Char) {bytes : List UInt8} (hcut : bytes <+: String.utf8EncodeChar c)
    (hne : bytes ≠ []) (hproper : bytes ≠ String.utf8EncodeChar c) : utf8Decode bytes = [replacementCharacter] := by
  have hbounds := char_bounds c
  obtain ⟨k, rfl⟩ : ∃ k, bytes = (String.utf8EncodeChar c).take k :=
    ⟨bytes.length, List.prefix_iff_eq_take.mp hcut⟩
  unfold utf8Decode
  rcases utf8EncodeChar_forms c with ⟨h, he⟩ | ⟨hlow, hhigh, he⟩ | ⟨hlow, hhigh, he⟩ | ⟨hlow, he⟩
  · rw [he] at hne hproper ⊢
    rcases k with _ | k <;> simp at hne hproper
  · rw [he] at hne hproper ⊢
    rcases k with _ | _ | k
    · simp at hne
    · exact utf8DecodeFrom_start (by omega) (utf8Start_two hlow hhigh) []
    · simp at hproper
  · rw [he] at hne hproper ⊢
    rcases k with _ | _ | _ | k
    · simp at hne
    · exact utf8DecodeFrom_start (by omega) (utf8Start_three hlow hhigh) []
    · refine (utf8DecodeFrom_start (by omega) (utf8Start_three hlow hhigh) _).trans ?_
      exact utf8DecodeFrom_more (by omega) (by simp only; split <;> omega) (by simp only; split <;> omega) (by simp) []
    · simp at hproper
  · rw [he] at hne hproper ⊢
    rcases k with _ | _ | _ | _ | k
    · simp at hne
    · exact utf8DecodeFrom_start (by omega) (utf8Start_four hlow (by omega)) []
    · refine (utf8DecodeFrom_start (by omega) (utf8Start_four hlow (by omega)) _).trans ?_
      exact utf8DecodeFrom_more (by omega) (by simp only; split <;> omega) (by simp only; split <;> omega) (by simp) []
    · refine (utf8DecodeFrom_start (by omega) (utf8Start_four hlow (by omega)) _).trans ?_
      refine (utf8DecodeFrom_more (by omega) (by simp only; split <;> omega)
        (by simp only; split <;> omega) (by simp) _).trans ?_
      exact utf8DecodeFrom_more (by omega) (by simp only; omega) (by simp only; omega) (by simp) []
    · simp at hproper

/-- **A cut encoding decodes to a cut text**, and then to U+FFFD when the cut is inside a character. -/
theorem utf8Decode_cut (text : List Char) : ∀ {bytes : List UInt8}, bytes <+: utf8 text →
    ∃ front back, text = front ++ back ∧
      (bytes = utf8 front ∨ back ≠ [] ∧ utf8Decode bytes = front ++ [replacementCharacter]) := by
  induction text with
  | nil =>
    intro bytes h
    exact ⟨[], [], rfl, .inl (List.prefix_nil.mp h)⟩
  | cons c text ih =>
    intro bytes h
    rw [utf8_cons] at h
    by_cases hchar : String.utf8EncodeChar c <+: bytes
    · obtain ⟨more, rfl⟩ := hchar
      obtain ⟨front, back, rfl, hdecode⟩ := ih ((List.prefix_append_right_inj _).mp h)
      refine ⟨c :: front, back, rfl, ?_⟩
      rcases hdecode with rfl | ⟨hback, hdecode⟩
      · exact .inl rfl
      · exact .inr ⟨hback, by rw [utf8Decode_encodeChar, hdecode, List.cons_append]⟩
    · -- the cut is in front of the character or inside it
      have hcut : bytes <+: String.utf8EncodeChar c :=
        (List.prefix_or_prefix_of_prefix h (List.prefix_append _ _)).resolve_right hchar
      refine ⟨[], c :: text, rfl, ?_⟩
      by_cases hne : bytes = []
      · exact .inl hne
      · refine .inr ⟨by simp, utf8Decode_cutChar c hcut hne ?_⟩
        rintro rfl
        exact hchar (List.prefix_refl _)

end OpenClaw.Data
