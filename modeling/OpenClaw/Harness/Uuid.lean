/-
# OpenClaw.Harness.Uuid -- ids that sort in the order in which they are made

An id is a UUID of version 7: the time in milliseconds, a sequence number of 32 bits around the bits of
version and variant, and random bits.  In one millisecond, and while the clock stands behind, the sequence
number counts on; when it wraps around, the time that is kept moves on by one.

This follows `uuid.ts`.
-/
import Mathlib.Tactic.IntervalCases
import OpenClaw.Data.Digits
import OpenClaw.Data.Json

namespace OpenClaw.Harness

open OpenClaw.Data

/-- What the generator keeps; before the first call the time is `-Infinity`. -/
structure UuidState where
  lastTimestamp : Option Nat := none
  sequence : UInt32 := 0

/-- The 16 bytes that a call draws. -/
abbrev RandomBytes := Fin 16 → UInt8

/-- `getUint32(0)` of the four bytes from the sixth on. -/
def RandomBytes.sequence (random : RandomBytes) : UInt32 :=
  UInt32.ofNat (valueOf 0x100 [(random 6).toNat, (random 7).toNat, (random 8).toNat, (random 9).toNat])

/-- The time and the sequence number of the next id. -/
def UuidState.next (state : UuidState) (random : RandomBytes) (timestamp : Nat) : Nat × UInt32 :=
  match state.lastTimestamp with
  | none => (timestamp, random.sequence)
  | some last =>
    if last < timestamp then (timestamp, random.sequence)
    else
      let sequence := state.sequence + 1
      (if sequence = 0 then last + 1 else last, sequence)

/-- The bytes of an id.  A quotient is cut to its integer part, as `&` does. -/
def uuidBytes (lastTimestamp sequence : Nat) (random : RandomBytes) : List UInt8 :=
  [lastTimestamp / 0x10000000000 &&& 0xff, lastTimestamp / 0x100000000 &&& 0xff,
    lastTimestamp / 0x1000000 &&& 0xff, lastTimestamp / 0x10000 &&& 0xff,
    lastTimestamp / 0x100 &&& 0xff, lastTimestamp &&& 0xff,
    0x70 ||| (sequence >>> 28 &&& 0x0f), sequence >>> 20 &&& 0xff,
    0x80 ||| (sequence >>> 14 &&& 0x3f), sequence >>> 6 &&& 0xff,
    (sequence &&& 0x3f) <<< 2 ||| ((random 10).toNat &&& 0x03)].map UInt8.ofNat ++
    [random 11, random 12, random 13, random 14, random 15]

/-- `byte.toString(16).padStart(2, "0")` -/
def hexByte (byte : UInt8) : Text := [Json.hexChar (byte.toNat / 0x10), Json.hexChar (byte.toNat % 0x10)]

def formatUuid (bytes : List UInt8) : Text :=
  (bytes.take 4).flatMap hexByte ++ '-' :: (((bytes.drop 4).take 2).flatMap hexByte ++
    '-' :: (((bytes.drop 6).take 2).flatMap hexByte ++ '-' :: (((bytes.drop 8).take 2).flatMap hexByte ++
      '-' :: ((bytes.drop 10).take 6).flatMap hexByte)))

/-- `uuidv7()`, with the bytes that it draws and the reading of the clock. -/
def uuidv7 (state : UuidState) (random : RandomBytes) (timestamp : Nat) : Text × UuidState :=
  let (lastTimestamp, sequence) := state.next random timestamp
  (formatUuid (uuidBytes lastTimestamp sequence.toNat random), ⟨some lastTimestamp, sequence⟩)

/-- The ids of calls one after another; a call draws bytes and reads the clock. -/
def uuids (state : UuidState) : List (RandomBytes × Nat) → List Text
  | [] => []
  | (random, timestamp) :: calls =>
    let (id, state) := uuidv7 state random timestamp
    id :: uuids state calls

/-! ## The bytes of an id -/

theorem or_version {n : Nat} (h : n < 0x10) : 0x70 ||| n = 0x70 + n := by
  interval_cases n <;> rfl

theorem or_variant {n : Nat} (h : n < 0x40) : 0x80 ||| n = 0x80 + n := by
  interval_cases n <;> rfl

theorem shiftLeft_or {n m : Nat} (hm : m < 4) : n <<< 2 ||| m = n * 4 + m := by
  rw [← Nat.shiftLeft_add_eq_or_of_lt (show m < 2 ^ 2 by omega), Nat.shiftLeft_eq]

/-- The bytes as quotients and remainders. -/
theorem uuidBytes_eq (t s : Nat) (random : RandomBytes) :
    uuidBytes t s random = (digitsOf 0x100 6 t ++ [0x70 + s / 0x10000000 % 0x10, s / 0x100000 % 0x100,
      0x80 + s / 0x4000 % 0x40, s / 0x40 % 0x100, s % 0x40 * 4 + (random 10).toNat % 4]).map UInt8.ofNat ++
      [random 11, random 12, random 13, random 14, random 15] := by
  have hff : ∀ n, n &&& 0xff = n % 0x100 := fun n => Nat.and_two_pow_sub_one_eq_mod n 8
  have h3f : ∀ n, n &&& 0x3f = n % 0x40 := fun n => Nat.and_two_pow_sub_one_eq_mod n 6
  have h0f : ∀ n, n &&& 0x0f = n % 0x10 := fun n => Nat.and_two_pow_sub_one_eq_mod n 4
  have h03 : ∀ n, n &&& 0x03 = n % 4 := fun n => Nat.and_two_pow_sub_one_eq_mod n 2
  have hversion : 0x70 ||| s / 0x10000000 % 0x10 = 0x70 + s / 0x10000000 % 0x10 := or_version (by omega)
  have hvariant : 0x80 ||| s / 0x4000 % 0x40 = 0x80 + s / 0x4000 % 0x40 := or_variant (by omega)
  have hlow := shiftLeft_or (n := s % 0x40) (show (random 10).toNat % 4 < 4 by omega)
  unfold uuidBytes
  simp only [hff, h3f, h0f, h03, Nat.shiftRight_eq_div_pow, Nat.reducePow, hversion, hvariant, hlow, digitsOf,
    Nat.div_div_eq_div_mul, Nat.reduceMul, List.nil_append, List.cons_append]

theorem uuidBytes_length (t s : Nat) (random : RandomBytes) : (uuidBytes t s random).length = 16 := rfl

/-- **A later time, or a later number at the same time, makes later bytes.** -/
theorem uuidBytes_lt {t s t' s' : Nat} (random random' : RandomBytes) (ht' : t' < 2 ^ 48) (hs' : s' < 2 ^ 32)
    (hlt : t < t' ∨ t = t' ∧ s < s') : uuidBytes t s random < uuidBytes t' s' random' := by
  rw [uuidBytes_eq, uuidBytes_eq, append_lt_append_iff (by simp)]
  refine .inl (map_lt_map ?_ ?_)
  · -- no digit is cut
    intro x hx y hy hxy
    have hbyte : ∀ {t s : Nat} {random : RandomBytes}, ∀ n ∈ digitsOf 0x100 6 t ++ [0x70 + s / 0x10000000 % 0x10,
        s / 0x100000 % 0x100, 0x80 + s / 0x4000 % 0x40, s / 0x40 % 0x100,
        s % 0x40 * 4 + (random 10).toNat % 4], n < 0x100 := by
      intro t s random n hn
      rcases List.mem_append.mp hn with htime | hsequence
      · exact digitsOf_lt_base (by omega) 6 t n htime
      · simp only [List.mem_cons, List.not_mem_nil, or_false] at hsequence
        omega
    rw [UInt8.lt_iff_toNat_lt, UInt8.toNat_ofNat', UInt8.toNat_ofNat', Nat.mod_eq_of_lt (hbyte x hx),
      Nat.mod_eq_of_lt (hbyte y hy)]
    exact hxy
  · rw [append_lt_append_iff (by simp)]
    rcases hlt with htime | ⟨rfl, hsequence⟩
    · exact .inl (digitsOf_lt_digitsOf htime (by omega))
    · -- the bits of the number, from the highest ones on
      refine .inr ⟨rfl, ?_⟩
      refine cons_lt_cons_of_le (by omega) fun hversion => ?_
      refine cons_lt_cons_of_le (by omega) fun hhigh => ?_
      refine cons_lt_cons_of_le (by omega) fun hvariant => ?_
      refine cons_lt_cons_of_le (by omega) fun hmiddle => ?_
      exact List.cons_lt_cons_iff.mpr (.inl (by omega))

/-! ## The text of an id -/

theorem hexChar_lt : ∀ n < 16, ∀ m < 16, n < m → Json.hexChar n < Json.hexChar m := by decide

theorem hexByte_lt {x y : UInt8} (h : x < y) : hexByte x < hexByte y := by
  rw [UInt8.lt_iff_toNat_lt] at h
  have hx := x.toNat_lt
  have hy := y.toNat_lt
  unfold hexByte
  rw [List.cons_lt_cons_iff]
  rcases Nat.lt_or_ge (x.toNat / 0x10) (y.toNat / 0x10) with hhigh | hhigh
  · exact .inl (hexChar_lt _ (by omega) _ (by omega) hhigh)
  · have heq : x.toNat / 0x10 = y.toNat / 0x10 := by omega
    refine .inr ⟨by rw [heq], List.cons_lt_cons_iff.mpr (.inl ?_)⟩
    exact hexChar_lt _ (by omega) _ (by omega) (by omega)

theorem hexBytes_lt {bytes bytes' : List UInt8} (hlength : bytes.length = bytes'.length) (h : bytes < bytes') :
    bytes.flatMap hexByte < bytes'.flatMap hexByte :=
  flatMap_lt_flatMap (fun _ _ => rfl) (fun _ _ => hexByte_lt) hlength h

theorem hexBytes_length (bytes : List UInt8) : (bytes.flatMap hexByte).length = 2 * bytes.length := by
  induction bytes with
  | nil => rfl
  | cons byte rest ih =>
    rw [List.flatMap_cons, List.length_append, ih, List.length_cons]
    simp only [hexByte, List.length_cons, List.length_nil]
    omega

/-- A group of digits, and what comes behind its dash. -/
theorem group_lt {bytes bytes' : List UInt8} {rest rest' : Text} (hlength : bytes.length = bytes'.length)
    (h : bytes < bytes' ∨ bytes = bytes' ∧ rest < rest') :
    bytes.flatMap hexByte ++ '-' :: rest < bytes'.flatMap hexByte ++ '-' :: rest' := by
  rw [append_lt_append_iff (by rw [hexBytes_length, hexBytes_length, hlength])]
  rcases h with hbytes | ⟨rfl, hrest⟩
  · exact .inl (hexBytes_lt hlength hbytes)
  · exact .inr ⟨rfl, List.cons_lt_cons_iff.mpr (.inr ⟨rfl, hrest⟩)⟩

/-- **Later bytes make a later text.** -/
theorem formatUuid_lt {bytes bytes' : List UInt8} (hlength : bytes.length = 16) (hlength' : bytes'.length = 16)
    (h : bytes < bytes') : formatUuid bytes < formatUuid bytes' := by
  have hdrop : ∀ count, (bytes.drop count).length = (bytes'.drop count).length := by simp [hlength, hlength']
  have htake : ∀ start count, ((bytes.drop start).take count).length = ((bytes'.drop start).take count).length := by
    simp [hlength, hlength']
  unfold formatUuid
  refine group_lt (htake 0 4) ?_
  refine (take_lt_take_or (hdrop 0) h 4).imp_right (And.imp_right fun h => group_lt (htake 4 2) ?_)
  refine (take_lt_take_or (hdrop 4) h 2).imp_right (And.imp_right fun h => group_lt (htake 6 2) ?_)
  rw [List.drop_drop, List.drop_drop] at h
  refine (take_lt_take_or (hdrop 6) h 2).imp_right (And.imp_right fun h => group_lt (htake 8 2) ?_)
  rw [List.drop_drop, List.drop_drop] at h
  refine (take_lt_take_or (hdrop 8) h 2).imp_right (And.imp_right fun h => ?_)
  rw [List.drop_drop, List.drop_drop] at h
  -- the last group is all that is left
  have hrest : ∀ {bytes : List UInt8}, bytes.length = 16 → (bytes.drop 10).take 6 = bytes.drop 10 := by
    intro bytes hbytes
    exact List.take_of_length_le (by simp [hbytes])
  rw [hrest hlength, hrest hlength']
  exact hexBytes_lt (hdrop 10) h

/-- Version 7 and the variant of UUIDs, at their places in the text. -/
def HasVersionAndVariant (id : Text) : Prop := id[14]? = some '7' ∧ ∃ c ∈ ['8', '9', 'a', 'b'], id[19]? = some c

theorem hasVersionAndVariant_formatUuid (t s : Nat) (random : RandomBytes) :
    HasVersionAndVariant (formatUuid (uuidBytes t s random)) := by
  have hversion : (formatUuid (uuidBytes t s random))[14]? =
      some (Json.hexChar ((UInt8.ofNat (0x70 ||| (s >>> 28 &&& 0x0f))).toNat / 0x10)) := rfl
  have hvariant : (formatUuid (uuidBytes t s random))[19]? =
      some (Json.hexChar ((UInt8.ofNat (0x80 ||| (s >>> 14 &&& 0x3f))).toNat / 0x10)) := rfl
  constructor
  · have hlow : s >>> 28 &&& 0x0f < 0x10 := Nat.lt_succ_of_le Nat.and_le_right
    rw [hversion, or_version hlow, UInt8.toNat_ofNat', show (0x70 + (s >>> 28 &&& 0x0f)) % 2 ^ 8 / 0x10 = 7 by omega]
    rfl
  · have hlow : s >>> 14 &&& 0x3f < 0x40 := Nat.lt_succ_of_le Nat.and_le_right
    rw [hvariant, or_variant hlow, UInt8.toNat_ofNat']
    have hchars : ∀ n < 4, Json.hexChar (8 + n) ∈ ['8', '9', 'a', 'b'] := by decide
    refine ⟨_, ?_, rfl⟩
    rw [show (0x80 + (s >>> 14 &&& 0x3f)) % 2 ^ 8 / 0x10 = 8 + (s >>> 14 &&& 0x3f) / 0x10 by omega]
    exact hchars _ (by omega)

/-! ## Calls one after another -/

/-- The time and the number come after those that the generator keeps. -/
def UuidState.Before (state : UuidState) (t : Nat) (s : UInt32) : Prop :=
  ∀ last, state.lastTimestamp = some last → last < t ∨ last = t ∧ state.sequence < s

/-- Counting on without wrapping around. -/
theorem lt_succ_of_ne_zero {s : UInt32} (h : s + 1 ≠ 0) : s < s + 1 := by
  have hs := s.toNat_lt
  have hne : (s + 1).toNat ≠ 0 := fun hzero => h (UInt32.toNat_inj.mp hzero)
  rw [UInt32.toNat_add, UInt32.toNat_one] at hne
  rw [UInt32.lt_iff_toNat_lt, UInt32.toNat_add, UInt32.toNat_one]
  omega

/-- What a call does: the clock is taken, or the kept time moves on by one at most. -/
theorem UuidState.next_spec (state : UuidState) (random : RandomBytes) (timestamp : Nat) :
    state.Before (state.next random timestamp).1 (state.next random timestamp).2 ∧
      ((state.next random timestamp).1 = timestamp ∨
        ∃ last, state.lastTimestamp = some last ∧ (state.next random timestamp).1 ≤ last + 1) := by
  obtain ⟨last?, sequence⟩ := state
  unfold UuidState.next UuidState.Before
  cases last? with
  | none =>
    constructor
    · intro last h
      cases h
    · exact .inl rfl
  | some last =>
    dsimp only
    by_cases hclock : last < timestamp
    · rw [if_pos hclock]
      constructor
      · rintro _ ⟨⟩
        exact .inl hclock
      · exact .inl rfl
    · rw [if_neg hclock]
      by_cases hwrap : sequence + 1 = 0
      · rw [if_pos hwrap]
        constructor
        · rintro _ ⟨⟩
          exact .inl (Nat.lt_succ_self last)
        · exact .inr ⟨last, rfl, le_rfl⟩
      · rw [if_neg hwrap]
        constructor
        · rintro _ ⟨⟩
          exact .inr ⟨rfl, lt_succ_of_ne_zero hwrap⟩
        · exact .inr ⟨last, rfl, Nat.le_succ last⟩

theorem UuidState.Before.trans {state : UuidState} {t t' : Nat} {s s' : UInt32} (h : state.Before t s)
    (hlater : UuidState.Before ⟨some t, s⟩ t' s') : state.Before t' s' := by
  intro last hlast
  rcases hlater t rfl with htime | ⟨rfl, hsequence⟩
  · rcases h last hlast with hlt | ⟨rfl, -⟩
    · exact .inl (hlt.trans htime)
    · exact .inl htime
  · rcases h last hlast with hlt | ⟨rfl, hlt⟩
    · exact .inl hlt
    · exact .inr ⟨rfl, UInt32.lt_trans hlt hsequence⟩

/-- Clock and kept time leave room in 48 bits for the calls. -/
structure Room (state : UuidState) (calls : List (RandomBytes × Nat)) : Prop where
  clock : ∀ call ∈ calls, call.2 + calls.length < 2 ^ 48
  kept : ∀ last, state.lastTimestamp = some last → last + calls.length < 2 ^ 48

variable {calls : List (RandomBytes × Nat)}

theorem Room.next {state : UuidState} {random : RandomBytes} {timestamp : Nat}
    (h : Room state ((random, timestamp) :: calls)) : (state.next random timestamp).1 < 2 ^ 48 ∧
      Room ⟨some (state.next random timestamp).1, (state.next random timestamp).2⟩ calls := by
  obtain ⟨-, hnext⟩ := state.next_spec random timestamp
  have hroom : (state.next random timestamp).1 + calls.length < 2 ^ 48 := by
    rcases hnext with heq | ⟨last, hkept, hle⟩
    · have htimestamp := h.clock _ List.mem_cons_self
      rw [List.length_cons] at htimestamp
      rw [heq]
      exact Nat.lt_of_le_of_lt (Nat.le_succ _) htimestamp
    · have hkept := h.kept last hkept
      rw [List.length_cons] at hkept
      omega
  refine ⟨Nat.lt_of_le_of_lt (Nat.le_add_right _ _) hroom, ?_, ?_⟩
  · intro call hcall
    have hclock := h.clock call (List.mem_cons_of_mem _ hcall)
    rw [List.length_cons] at hclock
    exact Nat.lt_of_le_of_lt (Nat.le_succ _) hclock
  · rintro _ ⟨⟩
    exact hroom

/-- Every id that is made from a state on comes after what the state keeps. -/
theorem mem_uuids : ∀ {state : UuidState}, Room state calls → ∀ id ∈ uuids state calls, ∃ (t : Nat) (s : UInt32)
      (random : RandomBytes), id = formatUuid (uuidBytes t s.toNat random) ∧ t < 2 ^ 48 ∧ state.Before t s := by
  induction calls with
  | nil =>
    intro state _ id hid
    cases hid
  | cons call calls ih =>
    intro state hroom id hid
    obtain ⟨random, timestamp⟩ := call
    obtain ⟨hbefore, -⟩ := state.next_spec random timestamp
    obtain ⟨hbound, hroom'⟩ := hroom.next
    rcases List.mem_cons.mp hid with rfl | hmem
    · exact ⟨_, _, random, rfl, hbound, hbefore⟩
    · obtain ⟨t, s, random', rfl, ht, hlater⟩ := ih hroom' id hmem
      exact ⟨t, s, random', rfl, ht, hbefore.trans hlater⟩

theorem uuids_pairwise : ∀ {state : UuidState}, Room state calls → (uuids state calls).Pairwise (· < ·) := by
  induction calls with
  | nil =>
    intro state _
    exact .nil
  | cons call calls ih =>
    intro state hroom
    obtain ⟨random, timestamp⟩ := call
    obtain ⟨-, hroom'⟩ := hroom.next
    refine List.pairwise_cons.mpr ⟨?_, ih hroom'⟩
    intro id hid
    obtain ⟨t, s, random', rfl, ht, hlater⟩ := mem_uuids hroom' id hid
    refine formatUuid_lt (uuidBytes_length _ _ _) (uuidBytes_length _ _ _) ?_
    exact uuidBytes_lt random random' ht s.toNat_lt (hlater _ rfl)

/-- **Ids sort in the order of the calls**, and each is a UUID of version 7. -/
theorem uuids_increase (calls : List (RandomBytes × Nat)) (hclock : ∀ call ∈ calls, call.2 < 2 ^ 48 - calls.length) :
    (uuids {} calls).Pairwise (· < ·) ∧ ∀ id ∈ uuids {} calls, HasVersionAndVariant id := by
  have hroom : Room {} calls := by
    constructor
    · intro call hcall
      have hlt := hclock call hcall
      omega
    · rintro _ ⟨⟩
  refine ⟨uuids_pairwise hroom, ?_⟩
  intro id hid
  obtain ⟨t, s, random, rfl, -⟩ := mem_uuids hroom id hid
  exact hasVersionAndVariant_formatUuid t s.toNat random

/-- The number wraps around while the clock stands still. -/
theorem uuids_increase_wrap : (uuids {} [(fun _ => 0xff, 5), (fun _ => 0, 5)]).Pairwise (· < ·) ∧
    ∀ id ∈ uuids {} [(fun _ => 0xff, 5), (fun _ => 0, 5)], HasVersionAndVariant id :=
  uuids_increase _ (by simp)

end OpenClaw.Harness
