/-
# OpenClaw.Reef.Ulid -- ids that sort in the order in which a factory returned them

An id is a time of 48 bits and 80 bits of randomness, to base 32.  At a time that is not later than the last
one the factory adds one to the randomness.  When that runs over, the call throws and the randomness is left
at zero: a later call at the same time then returns an id below the last one.  As long as the clock moves on
after such a call, the ids increase.

This follows `ulid.ts`.
-/
import OpenClaw.Data.Digits
import OpenClaw.Data.JsNumeral

namespace OpenClaw.Reef

open OpenClaw.Data

/-! ## Base 32 -/

def crockford : Text := "0123456789ABCDEFGHJKMNPQRSTVWXYZ".toList

/-- The loop of `encodeTime` and of `encodeRandom`. -/
def encodeBase32 : Nat → Nat → Text → Text
  | 0, _, output => output
  | rounds + 1, value, output => encodeBase32 rounds (value >>> 5) (crockford.getD (value &&& 31) '0' :: output)

def encodeTime (time : Nat) : Text := encodeBase32 10 time []

def encodeRandom (bytes : List UInt8) : Text :=
  encodeBase32 16 (bytes.foldl (fun value byte => value <<< 8 ||| byte.toNat) 0) []

def ulid (time : Nat) (randomness : List UInt8) : Text := encodeTime time ++ encodeRandom randomness

/-! ## The factory -/

/-- Adds one, from the last byte on.  When the carry leaves the first byte it throws, with the bytes at zero. -/
def increment : List UInt8 → List UInt8 × Bool
  | [] => ([], true)
  | byte :: rest =>
    let (rest, carry) := increment rest
    if carry then ((byte + 1) :: rest, byte + 1 = 0) else (byte :: rest, false)

structure UlidFactory where
  lastTime : Int := -1
  randomness : List UInt8 := List.replicate 10 0
  deriving DecidableEq

/-- The reading of the clock, none when it is not finite, and what the generator returns if it is asked. -/
structure UlidCall where
  clock : Option Rat
  generated : List UInt8

/-- `Math.floor(clock())`, where it is a time. -/
def UlidCall.now (call : UlidCall) : Option Int :=
  (call.clock.map Rat.floor).filter fun now => isSafeInteger now && 0 ≤ now && now ≤ 0xffffffffffff

/-- A call: what it returns or throws, and what it leaves. -/
def UlidFactory.call (factory : UlidFactory) (call : UlidCall) : Except String Text × UlidFactory :=
  match call.now with
  | none => (.error "invalid ULID clock", factory)
  | some now =>
    if factory.lastTime < now then
      if call.generated.length ≠ 10 then (.error "invalid ULID rng", factory)
      else (.ok (ulid now.toNat call.generated), ⟨now, call.generated⟩)
    else
      match increment factory.randomness with
      | (randomness, true) => (.error "ULID monotonic overflow", ⟨factory.lastTime, randomness⟩)
      | (randomness, false) => (.ok (ulid factory.lastTime.toNat randomness), ⟨factory.lastTime, randomness⟩)

/-- The ids that calls return, one after another. -/
def ulids (factory : UlidFactory) : List UlidCall → List Text
  | [] => []
  | call :: calls =>
    let (returned, factory) := factory.call call
    returned.toOption.toList ++ ulids factory calls

/-! ## The order of ids -/

theorem crockford_lt : ∀ n < 32, ∀ m < 32, n < m → crockford.getD n '0' < crockford.getD m '0' := by decide

theorem encodeBase32_eq (rounds value : Nat) (output : Text) :
    encodeBase32 rounds value output = (digitsOf 32 rounds value).map (crockford.getD · '0') ++ output := by
  induction rounds generalizing value output with
  | zero => rfl
  | succ rounds ih =>
    have hdigit : value &&& 31 = value % 32 := Nat.and_two_pow_sub_one_eq_mod value 5
    rw [encodeBase32, ih, digitsOf, hdigit, Nat.shiftRight_eq_div_pow, List.map_append, List.append_assoc]
    rfl

theorem encodeBase32_length (rounds value : Nat) : (encodeBase32 rounds value []).length = rounds := by
  rw [encodeBase32_eq, List.append_nil, List.length_map, digitsOf_length]

theorem encodeBase32_lt {rounds n m : Nat} (hlt : n < m) (hm : m < 32 ^ rounds) :
    encodeBase32 rounds n [] < encodeBase32 rounds m [] := by
  rw [encodeBase32_eq, encodeBase32_eq, List.append_nil, List.append_nil]
  refine map_lt_map ?_ (digitsOf_lt_digitsOf hlt hm)
  intro x hx y hy hxy
  exact crockford_lt x (digitsOf_lt_base (by omega) _ _ x hx) y (digitsOf_lt_base (by omega) _ _ y hy) hxy

/-- The number that bytes are. -/
def bytesValue (bytes : List UInt8) : Nat := valueOf 0x100 (bytes.map UInt8.toNat)

theorem bytesValue_lt (bytes : List UInt8) : bytesValue bytes < 0x100 ^ bytes.length := by
  have hlt := @valueOf_lt 0x100 (bytes.map UInt8.toNat) ?_
  · rwa [List.length_map] at hlt
  · intro digit hdigit
    obtain ⟨byte, -, rfl⟩ := List.mem_map.mp hdigit
    exact byte.toNat_lt

theorem bytesValue_cons (byte : UInt8) (rest : List UInt8) :
    bytesValue (byte :: rest) = byte.toNat * 0x100 ^ rest.length + bytesValue rest := by
  rw [bytesValue, List.map_cons, valueOf_cons, List.length_map]
  rfl

theorem encodeRandom_eq (bytes : List UInt8) : encodeRandom bytes = encodeBase32 16 (bytesValue bytes) [] := by
  have hfold : ∀ start, bytes.foldl (fun value byte => value <<< 8 ||| byte.toNat) start =
      (bytes.map UInt8.toNat).foldl (fun value digit => value * 0x100 + digit) start := by
    induction bytes with
    | nil => exact fun _ => rfl
    | cons byte rest ih =>
      intro start
      rw [List.map_cons, List.foldl_cons, List.foldl_cons, ih]
      rw [← Nat.shiftLeft_add_eq_or_of_lt (show byte.toNat < 2 ^ 8 from byte.toNat_lt), Nat.shiftLeft_eq]
  rw [encodeRandom, hfold]
  rfl

/-- **A later time, or more randomness at the same time, makes a later id.** -/
theorem ulid_lt {t t' : Nat} {bytes bytes' : List UInt8} (ht' : t' < 2 ^ 48) (hlength : bytes'.length = 10)
    (h : t < t' ∨ t = t' ∧ bytesValue bytes < bytesValue bytes') : ulid t bytes < ulid t' bytes' := by
  unfold ulid encodeTime
  rw [append_lt_append_iff (by rw [encodeBase32_length, encodeBase32_length])]
  rcases h with htime | ⟨rfl, hrandom⟩
  · exact .inl (encodeBase32_lt htime (ht'.trans (by decide)))
  · refine .inr ⟨rfl, ?_⟩
    have hvalue := bytesValue_lt bytes'
    rw [hlength] at hvalue
    rw [encodeRandom_eq, encodeRandom_eq]
    exact encodeBase32_lt hrandom (hvalue.trans_le (by decide))

/-! ## Counting on -/

theorem increment_of_carry {rest : List UInt8} (h : (increment rest).2 = true) (byte : UInt8) :
    increment (byte :: rest) = ((byte + 1) :: (increment rest).1, decide (byte + 1 = 0)) := by
  rw [increment]
  exact if_pos h

theorem increment_of_room {rest : List UInt8} (h : ¬(increment rest).2 = true) (byte : UInt8) :
    increment (byte :: rest) = (byte :: (increment rest).1, false) := by
  rw [increment]
  exact if_neg h

theorem increment_length (bytes : List UInt8) : (increment bytes).1.length = bytes.length := by
  induction bytes with
  | nil => rfl
  | cons byte rest ih =>
    by_cases hcarry : (increment rest).2 = true
    · rw [increment_of_carry hcarry, List.length_cons, List.length_cons, ih]
    · rw [increment_of_room hcarry, List.length_cons, List.length_cons, ih]

theorem succ_eq_zero_iff (byte : UInt8) : byte + 1 = 0 ↔ byte = 0xff := by
  have hbyte := byte.toNat_lt
  rw [← UInt8.toNat_inj, ← UInt8.toNat_inj, UInt8.toNat_add]
  simp only [UInt8.reduceToNat]
  omega

theorem toNat_succ {byte : UInt8} (h : byte + 1 ≠ 0) : (byte + 1).toNat = byte.toNat + 1 := by
  have hbyte := byte.toNat_lt
  rw [Ne, succ_eq_zero_iff, ← UInt8.toNat_inj] at h
  rw [UInt8.toNat_add]
  simp only [UInt8.reduceToNat] at h ⊢
  omega

/-- The carry that leaves the first byte is what the bytes lack of one more. -/
theorem increment_value (bytes : List UInt8) : bytesValue (increment bytes).1 +
    (if (increment bytes).2 then 0x100 ^ bytes.length else 0) = bytesValue bytes + 1 := by
  induction bytes with
  | nil => rfl
  | cons byte rest ih =>
    have hlength := increment_length rest
    by_cases hcarry : (increment rest).2 = true
    · rw [if_pos hcarry] at ih
      rw [increment_of_carry hcarry, bytesValue_cons, bytesValue_cons, hlength, List.length_cons, Nat.pow_succ]
      by_cases hzero : byte + 1 = 0
      · rw [hzero, (succ_eq_zero_iff byte).mp hzero]
        simp only [decide_true, if_true, UInt8.reduceToNat]
        omega
      · rw [toNat_succ hzero, Nat.add_mul]
        simp only [hzero, decide_false, Bool.false_eq_true, if_false]
        omega
    · rw [if_neg hcarry] at ih
      rw [increment_of_room hcarry, bytesValue_cons, bytesValue_cons, hlength]
      simp only [Bool.false_eq_true, if_false]
      omega

/-! ## Ids one after another -/

/-- The call draws no new randomness: its time is not later than the last one. -/
def UlidFactory.countsOn (factory : UlidFactory) (call : UlidCall) : Bool := call.now.any (· ≤ factory.lastTime)

/-- The randomness is at its end. -/
def UlidFactory.exhausted (factory : UlidFactory) : Bool := factory.randomness.all (· = 0xff)

/-- Whether the randomness has run over at the time that the call leaves. -/
def UlidFactory.spentAfter (factory : UlidFactory) (call : UlidCall) (spent : Bool) : Bool :=
  if factory.countsOn call then factory.exhausted
  else if call.now.isSome && call.generated.length = 10 then false
  else spent

/-- Once the randomness has run over, no call counts on before one has drawn new randomness. -/
def MovesOn (factory : UlidFactory) (spent : Bool) : List UlidCall → Prop
  | [] => True
  | call :: calls =>
    (factory.countsOn call → spent = false) ∧ MovesOn (factory.call call).2 (factory.spentAfter call spent) calls

/-- What the factory keeps of the id that it returned last. -/
inductive Tracks : UlidFactory → Bool → Option Text → Prop where
  | fresh : Tracks {} false none
  | drawn (time : Nat) (bytes : List UInt8) (htime : time < 2 ^ 48) (hlength : bytes.length = 10) :
      Tracks ⟨time, bytes⟩ false (some (ulid time bytes))
  | spent (time : Nat) (htime : time < 2 ^ 48) :
      Tracks ⟨time, List.replicate 10 0⟩ true (some (ulid time (List.replicate 10 0xff)))

theorem now_bounds {call : UlidCall} {now : Int} (h : call.now = some now) : 0 ≤ now ∧ now < 2 ^ 48 := by
  obtain ⟨-, hbounds⟩ := Option.filter_eq_some_iff.mp h
  simp only [Bool.and_eq_true, decide_eq_true_eq] at hbounds
  omega

/-- Bytes at their end run over to zero, and others do not. -/
theorem increment_carry_iff (bytes : List UInt8) : (increment bytes).2 = true ↔ bytes.all (· = 0xff) = true := by
  induction bytes with
  | nil => simp [increment]
  | cons byte rest ih =>
    by_cases hcarry : (increment rest).2 = true
    · rw [increment_of_carry hcarry, List.all_cons, Iff.mp ih hcarry, Bool.and_true, decide_eq_true_eq,
        decide_eq_true_eq, succ_eq_zero_iff]
    · rw [increment_of_room hcarry, List.all_cons, Bool.eq_false_iff.mpr (mt ih.mpr hcarry), Bool.and_false]

theorem eq_full {bytes : List UInt8} (h : bytes.all (· = 0xff) = true) : bytes = List.replicate bytes.length 0xff :=
  List.eq_replicate_of_mem fun byte hbyte => by simpa using List.all_eq_true.mp h byte hbyte

theorem increment_full (count : Nat) : (increment (List.replicate count 0xff)).1 = List.replicate count 0 := by
  induction count with
  | zero => rfl
  | succ count ih =>
    have hcarry : (increment (List.replicate count 0xff)).2 = true := (increment_carry_iff _).mpr (by simp)
    rw [List.replicate_succ, increment_of_carry hcarry, ih]
    rfl

/-- A call: it is refused and leaves everything as it is, or draws, or counts on. -/
theorem call_cases (factory : UlidFactory) (call : UlidCall) :
    (∃ message, factory.call call = (.error message, factory) ∧ factory.countsOn call = false ∧
        ∀ spent, factory.spentAfter call spent = spent) ∨
      (∃ now, factory.lastTime < now ∧ 0 ≤ now ∧ now < 2 ^ 48 ∧ call.generated.length = 10 ∧
        factory.call call = (.ok (ulid now.toNat call.generated), ⟨now, call.generated⟩) ∧
        factory.countsOn call = false ∧ ∀ spent, factory.spentAfter call spent = false) ∨
      (factory.countsOn call = true ∧ (∀ spent, factory.spentAfter call spent = factory.exhausted) ∧
        0 ≤ factory.lastTime ∧
        factory.call call = (if (increment factory.randomness).2 then .error "ULID monotonic overflow"
            else .ok (ulid factory.lastTime.toNat (increment factory.randomness).1),
          ⟨factory.lastTime, (increment factory.randomness).1⟩)) := by
  cases hnow : call.now with
  | none =>
    refine .inl ⟨"invalid ULID clock", ?_, ?_, ?_⟩
    · rw [UlidFactory.call, hnow]
    · rw [UlidFactory.countsOn, hnow]
      rfl
    · intro spent
      rw [UlidFactory.spentAfter, UlidFactory.countsOn, hnow]
      rfl
  | some now =>
    obtain ⟨hpos, hbound⟩ := now_bounds hnow
    by_cases hlater : factory.lastTime < now
    · have hcounts : factory.countsOn call = false := by
        rw [UlidFactory.countsOn, hnow]
        simpa using hlater
      by_cases hlength : call.generated.length = 10
      · refine .inr (.inl ⟨now, hlater, hpos, hbound, hlength, ?_, hcounts, ?_⟩)
        · rw [UlidFactory.call, hnow]
          simp [hlater, hlength]
        · intro spent
          rw [UlidFactory.spentAfter, hcounts, hnow]
          simp [hlength]
      · refine .inl ⟨"invalid ULID rng", ?_, hcounts, ?_⟩
        · rw [UlidFactory.call, hnow]
          simp [hlater, hlength]
        · intro spent
          rw [UlidFactory.spentAfter, hcounts, hnow]
          simp [hlength]
    · have hcounts : factory.countsOn call = true := by
        rw [UlidFactory.countsOn, hnow]
        simpa using hlater
      refine .inr (.inr ⟨hcounts, ?_, by omega, ?_⟩)
      · intro spent
        rw [UlidFactory.spentAfter, if_pos hcounts]
      · rw [UlidFactory.call, hnow]
        simp only [hlater, if_false]
        cases hincrement : increment factory.randomness with
        | mk randomness carry => cases carry <;> rfl

theorem ulids_of_error {factory factory' : UlidFactory} {call : UlidCall} {message : String}
    (h : factory.call call = (.error message, factory')) (calls : List UlidCall) :
    ulids factory (call :: calls) = ulids factory' calls := by
  rw [ulids, h]
  rfl

theorem ulids_of_ok {factory factory' : UlidFactory} {call : UlidCall} {id : Text}
    (h : factory.call call = (.ok id, factory')) (calls : List UlidCall) :
    ulids factory (call :: calls) = id :: ulids factory' calls := by
  rw [ulids, h]
  rfl

/-- An id above the last one takes its place. -/
theorem cons_above_iff {last : Option Text} {id : Text} {ids : List Text} (h : ∀ top ∈ last, top < id) :
    ((∀ other ∈ id :: ids, ∀ top ∈ last, top < other) ∧ (id :: ids).Pairwise (· < ·)) ↔
      ((∀ other ∈ ids, ∀ top ∈ some id, top < other) ∧ ids.Pairwise (· < ·)) := by
  rw [List.pairwise_cons]
  constructor
  · rintro ⟨-, habove, hpairwise⟩
    refine ⟨?_, hpairwise⟩
    rintro other hother _ ⟨⟩
    exact habove other hother
  · rintro ⟨habove, hpairwise⟩
    have hids : ∀ other ∈ ids, id < other := fun other hother => habove other hother id rfl
    refine ⟨?_, hids, hpairwise⟩
    intro other hother top htop
    rcases List.mem_cons.mp hother with rfl | hmem
    · exact h top htop
    · exact List.lt_trans (h top htop) (hids other hmem)

/-- A call that draws returns an id above the last one. -/
theorem Tracks.above {factory : UlidFactory} {spent : Bool} {last : Option Text} (h : Tracks factory spent last)
    {now : Int} {bytes : List UInt8} (hlater : factory.lastTime < now) (hbound : now < 2 ^ 48)
    (hlength : bytes.length = 10) : ∀ top ∈ last, top < ulid now.toNat bytes := by
  have hbound' : now.toNat < 2 ^ 48 := by omega
  intro top htop
  cases h with
  | fresh => cases htop
  | drawn time bytes' =>
    cases htop
    have htime : time < now.toNat := by
      dsimp only at hlater
      omega
    exact ulid_lt hbound' hlength (.inl htime)
  | spent time =>
    cases htop
    have htime : time < now.toNat := by
      dsimp only at hlater
      omega
    exact ulid_lt hbound' hlength (.inl htime)

/-- **From where the factory stands, the ids increase exactly if the clock moves on.** -/
theorem ulids_above_iff {calls : List UlidCall} : ∀ {factory : UlidFactory} {spent : Bool} {last : Option Text},
    Tracks factory spent last →
    (((∀ id ∈ ulids factory calls, ∀ top ∈ last, top < id) ∧ (ulids factory calls).Pairwise (· < ·)) ↔
      MovesOn factory spent calls) := by
  induction calls with
  | nil =>
    intro factory spent last _
    simp [ulids, MovesOn]
  | cons call calls ih =>
    intro factory spent last htracks
    rcases call_cases factory call with ⟨message, hcall, hcounts, hspent⟩ |
      ⟨now, hlater, hpos, hbound, hlength, hcall, hcounts, hspent⟩ | ⟨hcounts, hspent, hpos, hcall⟩
    · rw [ulids_of_error hcall, MovesOn, hcall, hcounts, hspent]
      simpa using ih htracks
    · have htracks' : Tracks ⟨now, call.generated⟩ false (some (ulid now.toNat call.generated)) := by
        have hdrawn := Tracks.drawn now.toNat call.generated (by omega) hlength
        rwa [Int.toNat_of_nonneg hpos] at hdrawn
      rw [ulids_of_ok hcall, cons_above_iff (htracks.above hlater hbound hlength), ih htracks', MovesOn, hcall,
        hcounts, hspent]
      simp
    · cases htracks with
      | fresh =>
        dsimp only at hpos
        omega
      | drawn time bytes htime hlength =>
        have hvalue := increment_value bytes
        have hlength' := increment_length bytes
        by_cases hfull : bytes.all (· = 0xff) = true
        · -- the randomness runs over, and the call throws
          rw [if_pos ((increment_carry_iff bytes).mpr hfull)] at hcall
          have heq := eq_full hfull
          rw [hlength] at heq
          have hzero : (increment bytes).1 = List.replicate 10 0 := by
            rw [heq]
            exact increment_full 10
          have hexhausted : UlidFactory.exhausted ⟨time, bytes⟩ = true := hfull
          rw [hzero] at hcall
          rw [ulids_of_error hcall, MovesOn, hcall, hspent, hexhausted, heq, ih (Tracks.spent time htime)]
          simp
        · have hcarry : ¬(increment bytes).2 = true := mt (increment_carry_iff bytes).mp hfull
          rw [if_neg hcarry] at hvalue hcall
          have hexhausted : UlidFactory.exhausted ⟨time, bytes⟩ = false := Bool.eq_false_iff.mpr hfull
          have habove : ∀ top ∈ some (ulid time bytes), top < ulid time (increment bytes).1 := by
            rintro _ ⟨⟩
            exact ulid_lt htime (hlength'.trans hlength) (.inr ⟨rfl, by omega⟩)
          rw [ulids_of_ok hcall, MovesOn, hcall, hspent, hexhausted]
          dsimp only [Int.toNat_natCast]
          rw [cons_above_iff habove, ih (Tracks.drawn time _ htime (hlength'.trans hlength))]
          simp
      | spent time htime =>
        -- the randomness is at zero, and the next id is below the last one
        have hbelow : ulid time (increment (List.replicate 10 0)).1 < ulid time (List.replicate 10 0xff) :=
          ulid_lt htime (by decide) (.inr ⟨rfl, by decide⟩)
        have hcarry : ¬(increment (List.replicate 10 0)).2 = true := by decide
        rw [if_neg hcarry] at hcall
        rw [ulids_of_ok hcall, MovesOn, hcounts]
        constructor
        · rintro ⟨habove, -⟩
          exact absurd (habove _ List.mem_cons_self _ rfl) (List.lt_asymm hbelow)
        · rintro ⟨hfalse, -⟩
          exact absurd (hfalse rfl) (by simp)

/-- **When the ids of a factory increase**: exactly if after a call that ran over no call counts on before new
randomness is drawn. -/
theorem ulids_increase_iff (calls : List UlidCall) : (ulids {} calls).Pairwise (· < ·) ↔ MovesOn {} false calls := by
  rw [← ulids_above_iff Tracks.fresh]
  simp

/-- A call that throws, between two that return: the second id is below the first. -/
theorem ulids_after_overflow : ¬ ∀ calls, (ulids {} calls).Pairwise (· < ·) := by
  intro hall
  have hoverflow := hall (List.replicate 3 ⟨some 5, List.replicate 10 0xff⟩)
  exact absurd hoverflow (by decide)

end OpenClaw.Reef
