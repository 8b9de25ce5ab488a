/-
# OpenClaw.Reef.EnvelopeSize -- how large what a sender writes can get

Peers, ids, keys and base64 are written to JSON character by character, a byte each.  So the canonical bytes
of an envelope are as many as its fields are long, and a little more: within the limits of a receiver, which
are on the single fields and on the whole.

This follows the limits of `envelope.ts`.
-/
import Mathlib.Tactic.NormNum
import Mathlib.Tactic.Ring
import OpenClaw.Reef.Envelope

namespace OpenClaw.Reef

open OpenClaw.Data OpenClaw.Logic Json

/-! ## Characters that are written as they are -/

/-- A character that stands for itself between quotes, in one byte. -/
def isVerbatim (c : Char) : Bool := 0x20 ≤ c.toNat && c.toNat < 0x80 && c ≠ '"' && c ≠ '\\'

theorem quotePoint_verbatim {c : Char} (h : isVerbatim c = true) : quotePoint (.char c) = [c] := by
  simp only [isVerbatim, Bool.and_eq_true, decide_eq_true_eq] at h
  obtain ⟨⟨⟨hlow, -⟩, hquote⟩, hslash⟩ := h
  have hletter : escapeLetter c = none := by
    have hcontrol : ∀ control : Char, control.toNat < 0x20 → c ≠ control := by
      rintro control hlt rfl
      omega
    unfold escapeLetter
    rw [if_neg hquote, if_neg hslash, if_neg (hcontrol _ (by decide)), if_neg (hcontrol _ (by decide)),
      if_neg (hcontrol _ (by decide)), if_neg (hcontrol _ (by decide)), if_neg (hcontrol _ (by decide))]
  rw [quotePoint, hletter]
  exact if_neg (by omega)

theorem quote_verbatim {text : Text} (h : text.all isVerbatim = true) :
    quote (unitsOf text) = '"' :: (text ++ ['"']) := by
  rw [quote, quoteBody, codePoints_unitsOf, List.flatMap_map]
  have hbody : text.flatMap (fun c => quotePoint (.char c)) = text := by
    induction text with
    | nil => rfl
    | cons c rest ih =>
      rw [List.all_cons, Bool.and_eq_true] at h
      rw [List.flatMap_cons, quotePoint_verbatim h.1, ih h.2]
      rfl
  rw [hbody]

theorem utf8_length_verbatim {text : Text} (h : text.all isVerbatim = true) : (utf8 text).length = text.length := by
  induction text with
  | nil => rfl
  | cons c rest ih =>
    rw [List.all_cons, Bool.and_eq_true] at h
    have hc : c.toNat < 0x80 := by
      simp only [isVerbatim, Bool.and_eq_true, decide_eq_true_eq] at h
      exact h.1.1.1.2
    rw [utf8_cons, List.length_append, utf8EncodeChar_ascii hc, ih h.2]
    simp [Nat.add_comm]

theorem jsLength_verbatim {text : Text} (h : text.all isVerbatim = true) : text.jsLength = text.length := by
  unfold Text.jsLength
  induction text with
  | nil => rfl
  | cons c rest ih =>
    rw [List.all_cons, Bool.and_eq_true] at h
    have hc : c.toNat < 0x10000 := by
      simp only [isVerbatim, Bool.and_eq_true, decide_eq_true_eq] at h
      omega
    rw [List.flatMap_cons, List.length_append, ih h.2, codeUnits, if_pos hc, List.length_cons]
    simp [Nat.add_comm]

/-! ## Objects -/

theorem utf8_commas_length (parts : List Text) :
    (utf8 (commas parts)).length ≤ (parts.map fun part => (utf8 part).length + 1).sum := by
  induction parts with
  | nil => simp [commas, List.intercalate]
  | cons first rest ih =>
    rw [List.map_cons, List.sum_cons]
    by_cases h : rest = []
    · subst h
      rw [commas_singleton]
      simp
    · rw [commas_cons first h, utf8_append, utf8_cons, utf8EncodeChar_ascii (by decide)]
      simp only [List.length_append, List.length_singleton]
      omega

variable {ν : Type}

/-- The bytes that a member takes, with what stands around it. -/
def memberSize [JsonNumber ν] (member : JsString × Json ν) : Nat :=
  (utf8 (quote member.1)).length + (canonicalBytes member.2).length + 2

theorem canonicalBytes_object_le [JsonNumber ν] (members : List (JsString × Json ν)) :
    (canonicalBytes (.object members)).length ≤ 2 + (members.map memberSize).sum := by
  have hentries := utf8_commas_length ((sortByKey (canonicalMembers members)).map fun member =>
    quote member.1 ++ ':' :: member.2)
  have hsizes : (((sortByKey (canonicalMembers members)).map fun member =>
      quote member.1 ++ ':' :: member.2).map fun part => (utf8 part).length + 1).sum =
      (members.map memberSize).sum := by
    rw [List.map_map, ((sortByKey_perm (canonicalMembers members)).map _).sum_nat, canonicalMembers_eq, List.map_map]
    congr 1
    refine List.map_congr_left fun member _ => ?_
    simp only [Function.comp_apply, memberSize, canonicalBytes, utf8_append, utf8_cons,
      utf8EncodeChar_ascii (c := ':') (by decide), List.length_append, List.length_singleton]
    omega
  rw [canonicalBytes, canonicalJson, utf8_cons, utf8_append, utf8EncodeChar_ascii (by decide)]
  simp only [List.length_append, List.length_singleton, utf8_cons, utf8_nil, List.append_nil,
    utf8EncodeChar_ascii (c := '}') (by decide)]
  omega

theorem canonicalBytes_text [JsonNumber ν] {text : Text} (h : text.all isVerbatim = true) :
    (canonicalBytes (textJson text : Json ν)).length = text.length + 2 := by
  rw [canonicalBytes, textJson, canonicalJson, stringify, quote_verbatim h]
  simp only [utf8_cons, utf8_append, utf8_nil, List.append_nil, List.length_append, utf8_length_verbatim h,
    utf8EncodeChar_ascii (c := '"') (by decide), List.length_singleton]
  omega

/-! ## Fields -/

theorem base64_length (bytes : List UInt8) : (base64 bytes).length = 4 * ((bytes.length + 2) / 3) := by
  fun_induction base64 bytes with
  | case1 => rfl
  | case2 a bits => simp
  | case3 a b bits => simp
  | case4 a b c rest bits ih =>
    simp only [List.length_append, List.length_cons, List.length_nil, ih]
    omega

theorem base64_verbatim (bytes : List UInt8) : (base64 bytes).all isVerbatim = true := by
  have halphabet : base64Alphabet.all isVerbatim = true := by decide
  have hdigit : ∀ n, isVerbatim (base64Digit n) = true := fun n =>
    List.all_eq_true.mp halphabet _ (base64Digit_mem n)
  have hpad : isVerbatim '=' = true := by decide
  fun_induction base64 bytes with
  | case1 => rfl
  | case2 a bits => simp [hdigit, hpad]
  | case3 a b bits => simp [hdigit, hpad]
  | case4 a b c rest bits ih => simp [hdigit, ih]

theorem isDigit_bounds {c : Char} (h : isDigit c = true) : 0x30 ≤ c.toNat ∧ c.toNat ≤ 0x39 := by
  simp only [isDigit, Bool.and_eq_true, decide_eq_true_eq] at h
  exact h

/-- Letters and digits are written as they are. -/
theorem isHandleStart_verbatim {c : Char} (h : isHandleStart c = true) : isVerbatim c = true := by
  have hbounds : 0x30 ≤ c.toNat ∧ c.toNat ≤ 0x7A ∧ c.toNat ≠ 0x5C := by
    simp only [isHandleStart, isLower, isUpper, Bool.or_eq_true, Bool.and_eq_true, decide_eq_true_eq] at h
    rcases h with (hlower | hupper) | hdigit
    · have hlow : 0x61 ≤ c.toNat := hlower.1
      have hhigh : c.toNat ≤ 0x7A := hlower.2
      omega
    · have hlow : 0x41 ≤ c.toNat := hupper.1
      have hhigh : c.toNat ≤ 0x5A := hupper.2
      omega
    · have hdigit := isDigit_bounds hdigit
      omega
  simp only [isVerbatim, Bool.and_eq_true, decide_eq_true_eq]
  refine ⟨⟨⟨by omega, by omega⟩, ?_⟩, ?_⟩
  · rintro rfl
    exact absurd hbounds.1 (by decide)
  · rintro rfl
    exact hbounds.2.2 rfl

theorem ulid_verbatim {id : Text} (h : isUlid id = true) : id.length = 26 ∧ id.all isVerbatim = true := by
  simp only [isUlid, Bool.and_eq_true, decide_eq_true_eq] at h
  refine ⟨h.1.1, List.all_eq_true.mpr fun c hc => isHandleStart_verbatim ?_⟩
  have hchar := List.all_eq_true.mp h.1.2 c hc
  simp only [isUlidChar, Bool.or_eq_true, Bool.and_eq_true] at hchar
  simp only [isHandleStart, Bool.or_eq_true]
  rcases hchar with hdigit | hupper
  · exact .inr hdigit
  · exact .inl (.inr hupper.1.1.1.1)

/-! ## Peers -/

theorem digitsValue_ge (digits : Text) : ∀ value : Nat,
    value * 10 ^ digits.length ≤ digits.foldl (fun n c => 10 * n + (c.toNat - '0'.toNat)) value := by
  induction digits with
  | nil => intro value; simp
  | cons c rest ih =>
    intro value
    have hrest := ih (10 * value + (c.toNat - '0'.toNat))
    rw [List.foldl_cons, List.length_cons, Nat.pow_succ]
    refine Nat.le_trans ?_ hrest
    calc value * (10 ^ rest.length * 10) = 10 * value * 10 ^ rest.length := by ring
      _ ≤ (10 * value + (c.toNat - '0'.toNat)) * 10 ^ rest.length := Nat.mul_le_mul_right _ (Nat.le_add_right _ _)

theorem divRoundEven_ge (n d : Nat) : n / d ≤ divRoundEven n d := by
  simp only [divRoundEven]
  split
  · exact Nat.le_refl _
  · split
    · exact Nat.le_succ _
    · split
      · exact Nat.le_refl _
      · exact Nat.le_succ _

/-- A number that is too large for an exact double is not rounded below the bound. -/
theorem doubleOfNat_ge {n m : Nat} (hn : 2 ^ 53 ≤ n) (h : doubleOfNat n = some m) : 2 ^ 53 ≤ m := by
  have hlog : 53 ≤ Nat.log 2 n := Nat.le_log_of_pow_le (by decide) hn
  have hpow : 2 ^ Nat.log 2 n ≤ n := Nat.pow_log_le_self 2 (by omega)
  have hsplit : 2 ^ 52 * 2 ^ (Nat.log 2 n - 52) = 2 ^ Nat.log 2 n := by
    rw [← Nat.pow_add]
    congr 1
    omega
  have hquot : 2 ^ 52 ≤ n / 2 ^ (Nat.log 2 n - 52) := by
    rw [Nat.le_div_iff_mul_le (Nat.two_pow_pos _), hsplit]
    exact hpow
  have hround := hquot.trans (divRoundEven_ge n (2 ^ (Nat.log 2 n - 52)))
  obtain ⟨-, h⟩ := Option.ite_none_right_eq_some.mp h
  rw [← Option.some.inj h]
  calc 2 ^ 53 ≤ 2 ^ Nat.log 2 n := Nat.pow_le_pow_right (by decide) hlog
    _ = 2 ^ 52 * 2 ^ (Nat.log 2 n - 52) := hsplit.symm
    _ ≤ divRoundEven n (2 ^ (Nat.log 2 n - 52)) * 2 ^ (Nat.log 2 n - 52) := Nat.mul_le_mul_right _ hround

theorem epoch_length {epoch : Text} {keyEpoch : Nat} (h : isEpochText epoch = true)
    (hnumber : numberOfDigits epoch = some keyEpoch) (hsafe : isSafeInteger keyEpoch = true) : epoch.length ≤ 16 := by
  simp only [isEpochText, isDigits, Bool.and_eq_true, decide_eq_true_eq] at h
  obtain ⟨⟨hne, hdigits⟩, hhead⟩ := h
  obtain ⟨c, rest, rfl⟩ := List.exists_cons_of_ne_nil hne
  by_contra hlong
  rw [List.length_cons] at hlong
  have hc : 1 ≤ c.toNat - '0'.toNat := by
    have hbounds := isDigit_bounds (List.all_eq_true.mp hdigits c List.mem_cons_self)
    have hnot : c.toNat ≠ 0x30 := by
      intro heq
      have hzero : c = '0' := Char.toNat_inj.mp heq
      exact hhead (by rw [hzero]; rfl)
    show 1 ≤ c.toNat - 0x30
    omega
  have hvalue : 2 ^ 53 ≤ digitsValue (c :: rest) := by
    have hge := digitsValue_ge rest (10 * 0 + (c.toNat - '0'.toNat))
    have hpow : 10 ^ 16 ≤ 10 ^ rest.length := Nat.pow_le_pow_right (by omega) (by omega)
    calc 2 ^ 53 ≤ 1 * 10 ^ 16 := by norm_num
      _ ≤ (10 * 0 + (c.toNat - '0'.toNat)) * 10 ^ rest.length := Nat.mul_le_mul (by omega) hpow
      _ ≤ digitsValue (c :: rest) := hge
  have hlarge := doubleOfNat_ge hvalue hnumber
  have hbound := (isSafeInteger_iff.mp hsafe).2
  unfold maxSafeInteger at hbound
  omega

theorem epoch_verbatim {epoch : Text} (h : isEpochText epoch = true) : epoch.all isVerbatim = true := by
  simp only [isEpochText, isDigits, Bool.and_eq_true] at h
  refine List.all_eq_true.mpr fun c hc => isHandleStart_verbatim ?_
  simp [isHandleStart, List.all_eq_true.mp h.1.2 c hc]

theorem handle_size {handle : Text}
    (h : matchesHeadTail isHandleStart (fun c => isHandleStart c || c = '_' || c = '-') 62 handle = true) :
    handle.length ≤ 63 ∧ handle.all isVerbatim = true := by
  rcases handle with _ | ⟨first, tail⟩
  · cases h
  · simp only [matchesHeadTail, Bool.and_eq_true, decide_eq_true_eq] at h
    obtain ⟨⟨hfirst, htail⟩, hlength⟩ := h
    refine ⟨by rw [List.length_cons]; omega, ?_⟩
    rw [List.all_cons, isHandleStart_verbatim hfirst, Bool.true_and]
    refine List.all_eq_true.mpr fun c hc => ?_
    have hchar := List.all_eq_true.mp htail c hc
    simp only [Bool.or_eq_true, decide_eq_true_eq] at hchar
    rcases hchar with (hstart | rfl) | rfl
    · exact isHandleStart_verbatim hstart
    · decide
    · decide

theorem dropWhile_hash {value : Text} (h : '#' ∈ value) :
    value.dropWhile (· ≠ '#') = '#' :: (value.dropWhile (· ≠ '#')).drop 1 := by
  induction value with
  | nil => cases h
  | cons c rest ih =>
    by_cases hc : c = '#'
    · subst hc
      simp
    · rw [List.dropWhile_cons_of_pos (by simpa using hc)]
      exact ih ((List.mem_cons.mp h).resolve_left (Ne.symm hc))

/-- A handle of 63 characters at most, and an epoch of 16 digits. -/
theorem parseHandleEpoch_size {value : Text} {parsed : HandleEpoch} (h : parseHandleEpoch value = .ok parsed) :
    value.length ≤ 80 ∧ value.all isVerbatim = true := by
  simp only [parseHandleEpoch] at h
  split at h
  · rename_i hshape
    obtain ⟨hmem, hhandle, hepoch⟩ := hshape
    split at h
    · rename_i keyEpoch hnumber
      split at h
      · rename_i hsafe
        have hlength := epoch_length hepoch hnumber hsafe
        obtain ⟨hlong, hverbatim⟩ := handle_size hhandle
        have hvalue : value = value.takeWhile (· ≠ '#') ++ '#' :: (value.dropWhile (· ≠ '#')).drop 1 := by
          conv_lhs => rw [← List.takeWhile_append_dropWhile (p := fun c => decide (c ≠ '#')) (l := value)]
          rw [dropWhile_hash hmem]
          rfl
        rw [hvalue, List.length_append, List.length_cons, List.all_append, List.all_cons, hverbatim,
          epoch_verbatim hepoch]
        exact ⟨by omega, rfl⟩
      · cases h
    · cases h
  · cases h

theorem number_verbatim [JsonNumber ν] (n : ν) : (JsonNumber.text n).all isVerbatim = true := by
  have hothers : ['-', '+', '.', 'e', 'E'].all isVerbatim = true := by decide
  refine List.all_eq_true.mpr fun c hc => ?_
  have hnumeral := JsonNumber.text_numeral n c hc
  simp only [isNumeral, Bool.or_eq_true, decide_eq_true_eq] at hnumeral
  rcases hnumeral with hdigit | hmem
  · exact isHandleStart_verbatim (by simp [isHandleStart, hdigit])
  · exact List.all_eq_true.mp hothers c hmem

/-! ## Whole envelopes -/

/-- How JavaScript writes the integers that are safe. -/
class LawfulNumbers (ν : Type) [JsArithmetic ν] : Prop where
  text_integer : ∀ (n : ν) (k : Nat), JsNumber.integer n = some (k : Int) → isSafeInteger k = true →
    JsonNumber.text n = decimalText k
  integer_literal : ∀ k : Nat, isSafeInteger k = true → JsNumber.integer (JsArithmetic.literal k : ν) = some (k : Int)

instance : LawfulNumbers Nat where
  text_integer n k h _ := by
    have heq : (n : Int) = (k : Int) := Option.some.inj h
    rw [show n = k by omega]
    rfl
  integer_literal _ _ := rfl

/-- `Number.isSafeInteger(ts) && ts >= 0` -/
def isTime {ν : Type} [JsNumber ν] (ts : ν) : Bool := (JsNumber.integer ts).any fun n => isSafeInteger n && 0 ≤ n

section Whole

variable [JsArithmetic ν] [LawfulNumbers ν]

theorem canonicalBytes_number {ts : ν} (h : isTime ts = true) : (canonicalBytes (.number ts : Json ν)).length ≤ 16 := by
  obtain ⟨n, hinteger, htime⟩ := (Option.any_eq_true _ _).mp h
  rw [Bool.and_eq_true, decide_eq_true_eq] at htime
  obtain ⟨k, rfl⟩ := Int.eq_ofNat_of_zero_le htime.2
  have htext := LawfulNumbers.text_integer ts k hinteger htime.1
  have hbound := (isSafeInteger_iff.mp htime.1).2
  unfold maxSafeInteger at hbound
  have hdigits : (decimalText k).length ≤ 16 := (Nat.length_toDigits_le_iff (by decide) (by decide)).mpr (by omega)
  rw [canonicalBytes, canonicalJson, stringify, utf8_length_verbatim (number_verbatim ts), htext]
  exact hdigits

theorem key_length {name : String} (h : name.toList.all isVerbatim = true) :
    (utf8 (quote (key name))).length = name.toList.length + 2 := by
  rw [key, quote_verbatim h]
  simp only [utf8_cons, utf8_append, utf8_nil, List.append_nil, List.length_append, utf8_length_verbatim h,
    utf8EncodeChar_ascii (c := '"') (by decide), List.length_singleton]
  omega

omit [LawfulNumbers ν] in
theorem memberSize_text {name : String} {text : Text} (hname : name.toList.all isVerbatim = true)
    (htext : text.all isVerbatim = true) :
    memberSize (key name, (textJson text : Json ν)) = name.toList.length + text.length + 6 := by
  rw [memberSize, key_length hname, canonicalBytes_text htext]
  omega

theorem memberSize_number {name : String} {ts : ν} (hname : name.toList.all isVerbatim = true)
    (hts : isTime ts = true) : memberSize (key name, (.number ts : Json ν)) ≤ name.toList.length + 20 := by
  have hnumber := canonicalBytes_number hts
  show (utf8 (quote (key name))).length + (canonicalBytes (.number ts : Json ν)).length + 2 ≤ _
  rw [key_length hname]
  omega

/-- An envelope whose fields a sender has filled in. -/
structure WellSealed (envelope : Envelope ν) : Prop where
  version : envelope.v = JsArithmetic.literal 1
  id : isUlid envelope.id = true
  sender : ∃ parsed, parseHandleEpoch envelope.sender = .ok parsed
  recipient : ∃ parsed, parseHandleEpoch envelope.recipient = .ok parsed
  ts : isTime envelope.ts = true
  epk : ∃ bytes : List UInt8, bytes.length = 32 ∧ envelope.epk = base64 bytes
  n : ∃ bytes : List UInt8, bytes.length = 12 ∧ envelope.n = base64 bytes
  ct : ∃ bytes : List UInt8, bytes.length ≤ maxPlaintext + 16 ∧ envelope.ct = base64 bytes
  sig : ∃ bytes : List UInt8, bytes.length = 64 ∧ envelope.sig = base64 bytes

variable {envelope : Envelope ν}

theorem WellSealed.size (h : WellSealed envelope) : (canonicalBytes envelope.json).length ≤ maxEnvelopeBytes := by
  obtain ⟨hidLength, hid⟩ := ulid_verbatim h.id
  obtain ⟨_, hsenderOk⟩ := h.sender
  obtain ⟨_, hrecipientOk⟩ := h.recipient
  obtain ⟨hsenderLength, hsender⟩ := parseHandleEpoch_size hsenderOk
  obtain ⟨hrecipientLength, hrecipient⟩ := parseHandleEpoch_size hrecipientOk
  obtain ⟨epk, hepkLength, hepk⟩ := h.epk
  obtain ⟨n, hnLength, hn⟩ := h.n
  obtain ⟨ct, hctLength, hct⟩ := h.ct
  obtain ⟨sig, hsigLength, hsig⟩ := h.sig
  have hone : isTime envelope.v = true := by
    rw [h.version, isTime, LawfulNumbers.integer_literal 1 (by decide)]
    rfl
  -- the two numbers have sixteen digits at most, and base64 is four characters for three bytes
  have hv : memberSize (key "v", (.number envelope.v : Json ν)) ≤ 1 + 20 := memberSize_number (by decide) hone
  have hts : memberSize (key "ts", (.number envelope.ts : Json ν)) ≤ 2 + 20 := memberSize_number (by decide) h.ts
  have hidSize : memberSize (key "id", (textJson envelope.id : Json ν)) = 2 + _ + 6 := memberSize_text (by decide) hid
  have hfromSize : memberSize (key "from", (textJson envelope.sender : Json ν)) = 4 + _ + 6 :=
    memberSize_text (by decide) hsender
  have htoSize : memberSize (key "to", (textJson envelope.recipient : Json ν)) = 2 + _ + 6 :=
    memberSize_text (by decide) hrecipient
  have hbase64 : ∀ (name : String) (bytes : List UInt8), name.toList.all isVerbatim = true →
      memberSize (key name, (textJson (base64 bytes) : Json ν)) =
        name.toList.length + 4 * ((bytes.length + 2) / 3) + 6 := by
    intro name bytes hname
    rw [memberSize_text hname (base64_verbatim bytes), base64_length]
  have hepkSize : memberSize (key "epk", (textJson envelope.epk : Json ν)) = 3 + 4 * ((epk.length + 2) / 3) + 6 :=
    hepk ▸ hbase64 "epk" epk (by decide)
  have hnSize : memberSize (key "n", (textJson envelope.n : Json ν)) = 1 + 4 * ((n.length + 2) / 3) + 6 :=
    hn ▸ hbase64 "n" n (by decide)
  have hctSize : memberSize (key "ct", (textJson envelope.ct : Json ν)) = 2 + 4 * ((ct.length + 2) / 3) + 6 :=
    hct ▸ hbase64 "ct" ct (by decide)
  have hsigSize : memberSize (key "sig", (textJson envelope.sig : Json ν)) = 3 + 4 * ((sig.length + 2) / 3) + 6 :=
    hsig ▸ hbase64 "sig" sig (by decide)
  refine (canonicalBytes_object_le _).trans ?_
  simp only [Envelope.unsignedMembers, List.cons_append, List.nil_append, List.map_cons, List.map_nil, List.sum_cons,
    List.sum_nil]
  unfold maxPlaintext at hctLength
  unfold maxEnvelopeBytes
  omega

/-- **A sealed envelope is within every limit.** -/
theorem WellSealed.valid (h : WellSealed envelope) : validateEnvelope envelope = .ok () := by
  have hsize := h.size
  obtain ⟨hidLength, hid⟩ := ulid_verbatim h.id
  obtain ⟨_, hsenderOk⟩ := h.sender
  obtain ⟨_, hrecipientOk⟩ := h.recipient
  obtain ⟨hsenderLength, hsender⟩ := parseHandleEpoch_size hsenderOk
  obtain ⟨hrecipientLength, hrecipient⟩ := parseHandleEpoch_size hrecipientOk
  obtain ⟨epk, hepkLength, hepk⟩ := h.epk
  obtain ⟨n, hnLength, hn⟩ := h.n
  obtain ⟨ct, hctLength, hct⟩ := h.ct
  obtain ⟨sig, hsigLength, hsig⟩ := h.sig
  have hsafe : isSafeNumber envelope.ts = true := by
    obtain ⟨n, hinteger, htime⟩ := (Option.any_eq_true _ _).mp h.ts
    exact (Option.any_eq_true _ _).mpr ⟨n, hinteger, (Bool.and_eq_true_iff.mp htime).1⟩
  have hbase64 : ∀ bytes : List UInt8, (base64 bytes).jsLength = 4 * ((bytes.length + 2) / 3) := fun bytes => by
    rw [jsLength_verbatim (base64_verbatim bytes), base64_length]
  have hread : ∀ bytes : List UInt8, fromBase64 (base64 bytes) = .ok bytes := fromBase64_base64
  have hlimits : ¬ (80 < envelope.sender.jsLength ∨ 80 < envelope.recipient.jsLength ∨ 46 < envelope.epk.jsLength ∨
      18 < envelope.n.jsLength ∨ 90 < envelope.sig.jsLength ∨ maxCiphertextBase64 < envelope.ct.jsLength) := by
    rw [jsLength_verbatim hsender, jsLength_verbatim hrecipient, hepk, hn, hsig, hct, hbase64, hbase64, hbase64,
      hbase64]
    unfold maxPlaintext at hctLength
    unfold maxCiphertextBase64
    omega
  unfold validateEnvelope
  rw [if_neg (by simp [hsafe]), if_neg (by rw [jsLength_verbatim hid, hidLength]; simp), if_neg hlimits,
    if_neg (by simp [isBase64Of, hepk, hn, hsig, hct, hread, hepkLength, hnLength, hsigLength, Except.toOption]),
    if_neg (Nat.not_lt.mpr hsize)]

end Whole

end OpenClaw.Reef
