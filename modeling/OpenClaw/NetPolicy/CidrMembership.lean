/-
# OpenClaw.NetPolicy.CidrMembership -- which addresses an allowlist entry contains

`isIpInCidr` compares a literal with an exact address or with a CIDR range.  It takes the IPv4 form of a
mapped address on both sides, and leaves the prefix length as it was written.  So it is the membership in
the range exactly where the two families do not meet, and where the length of the mapped form happens not
to matter (`isIpInCidr_iff`).

This follows `ip.ts`.
-/
import Mathlib
import OpenClaw.NetPolicy.IpAddress

namespace OpenClaw.NetPolicy

open OpenClaw.Data

attribute [local instance] lawfulBEq_codeUnit

variable (js : Ipaddr)

/-- The comparison with an exact address. -/
def matchesExact : ParsedIpAddress → ParsedIpAddress → Bool
  | .ipv4 a, .ipv4 b => js.ipv4ToString a = js.ipv4ToString b
  | .ipv6 a, .ipv6 b => js.ipv6ToString a = js.ipv6ToString b
  | _, _ => false

/-- The comparison with a range; a `match` that throws is no match. -/
def matchesRange (prefixLength : Nat) : ParsedIpAddress → ParsedIpAddress → Bool
  | .ipv4 a, .ipv4 b => (js.ipv4Match a (b, prefixLength)).getD false
  | .ipv6 a, .ipv6 b => (js.ipv6Match a (b, prefixLength)).getD false
  | _, _ => false

def isIpInCidr (ip cidr : JsString) : Bool :=
  match parseCanonicalIpAddress js ip with
  | none => false
  | some normalizedIp =>
    let candidate := trimUnits cidr
    if candidate = [] then false
    else
      let comparableIp := normalizeIpv4MappedAddress js normalizedIp
      if unitOf '/' ∉ candidate then
        match parseCanonicalIpAddress js candidate with
        | none => false
        | some exact => matchesExact js comparableIp (normalizeIpv4MappedAddress js exact)
      else
        match js.parseCIDR candidate with
        | none => false
        | some (baseAddress, prefixLength) =>
          -- the base loses its 96 leading bits here, the length keeps them
          matchesRange js prefixLength comparableIp (normalizeIpv4MappedAddress js baseAddress)

/-! ## What an entry denotes -/

inductive Entry where
  | exact (a : ParsedIpAddress)
  | cidr (base : ParsedIpAddress) (prefixLength : Nat)

def parseEntry (cidr : JsString) : Option Entry :=
  let candidate := trimUnits cidr
  if candidate = [] then none
  else if unitOf '/' ∉ candidate then (parseCanonicalIpAddress js candidate).map .exact
  else (js.parseCIDR candidate).map fun range => .cidr range.1 range.2

/-- The length of a prefix among the 128 bits. -/
def prefixBits : ParsedIpAddress → Nat → Nat
  | .ipv4 _, n => 96 + n
  | .ipv6 _, n => n

/-- The addresses of an entry: the one that it writes, or all with the prefix. -/
def Entry.denotes : Entry → Set Address
  | exact a => {address a}
  | cidr base n => {x | leading 128 (prefixBits base n) x.bits = leading 128 (prefixBits base n) (address base).bits}

/-- An IPv6 prefix of fewer than 96 bits that every IPv4 address has. -/
def CoversIPv4 (base n : Nat) : Prop := n < 96 ∧ leading 128 n base = leading 128 n (mappedBlock * 2 ^ 32)

/-- Where the length of a range of base `base` may stay as it is written for the address `x`.

* `mapped`: behind a mapped base of 96 bits and more, the address is the base or outside the range.
* `short`: behind a mapped base of fewer bits, the two agree on that many bits of their IPv4 form.
* `outside`: behind a mapped base, an IPv6 address is outside the range.
* `disjoint`: no range of other IPv6 addresses covers the IPv4 ones. -/
structure LengthMeant (x base n : Nat) : Prop where
  mapped : IsIPv4 base → IsIPv4 x → 96 ≤ n →
    leading 32 (n - 96) (x % 2 ^ 32) = leading 32 (n - 96) (base % 2 ^ 32) → x = base
  short : IsIPv4 base → IsIPv4 x → n < 96 → leading 32 n (x % 2 ^ 32) = leading 32 n (base % 2 ^ 32)
  outside : IsIPv4 base → ¬ IsIPv4 x → n < 96 → leading 128 n x ≠ leading 128 n base
  disjoint : ¬ IsIPv4 base → IsIPv4 x → ¬ CoversIPv4 base n

/-- A range whose length is meant: one that is written in IPv4, or one with the conditions above. -/
def Entry.LengthMeant (x : Address) : Entry → Prop
  | exact _ => True
  | cidr (.ipv4 _) _ => True
  | cidr (.ipv6 base) n => NetPolicy.LengthMeant x.bits base.value n

/-! ## Prefixes of mapped addresses -/

/-- An IPv4 range among the 128 bits. -/
theorem leading_ipv4 (a b : IPv4) (n : Nat) :
    leading 128 (96 + n) (address (.ipv4 a)).bits = leading 128 (96 + n) (address (.ipv4 b)).bits ↔
      leading 32 n a.value = leading 32 n b.value := by
  have hsplit (v : IPv4) : leading 128 (96 + n) (address (.ipv4 v)).bits =
      mappedBlock * 2 ^ (min n 32) + leading 32 n v.value :=
    leading_low mappedBlock v.value
  rw [hsplit, hsplit]
  omega

/-- Shorter prefixes do not tell the IPv4 addresses apart. -/
theorem leading_ipv4_short (a : IPv4) {n : Nat} (h : n < 96) :
    leading 128 n (address (.ipv4 a)).bits = leading 128 n (mappedBlock * 2 ^ 32) := by
  have hle : n ≤ 96 := by omega
  have hhigh := leading_high (x := mappedBlock) a.value_lt hle
  have hzero := leading_high (x := mappedBlock) (Nat.two_pow_pos 32) hle
  rw [Nat.add_zero] at hzero
  exact hhigh.trans hzero.symm

/-- From 96 bits on, a prefix tells an IPv4 address from any other. -/
theorem isIPv4_of_leading {x y n : Nat} (h : 96 ≤ n) (hxy : leading 128 n x = leading 128 n y) :
    IsIPv4 x ↔ IsIPv4 y := by
  have hblock : leading 128 96 x = leading 128 96 y := leading_mono h hxy
  have hx : x / 2 ^ 32 = y / 2 ^ 32 := hblock
  unfold IsIPv4
  rw [hx]

/-! ## What the comparisons say -/

variable {js}

/-- Two literals compare equal when they are one address. -/
theorem matchesExact_iff (hjs : js.Documented) (a b : ParsedIpAddress) :
    matchesExact js (normalizeIpv4MappedAddress js a) (normalizeIpv4MappedAddress js b) = true ↔
      address a = address b := by
  by_cases ha : IsIPv4 (address a).bits <;> by_cases hb : IsIPv4 (address b).bits
  · obtain ⟨v, hv, hva⟩ := normalize_isIPv4 hjs ha
    obtain ⟨w, hw, hwb⟩ := normalize_isIPv4 hjs hb
    rw [hv, hw, hva, hwb, matchesExact, decide_eq_true_eq, hjs.ipv4ToString_inj.eq_iff]
    constructor
    · rintro rfl
      rfl
    · intro h
      apply IPv4.eq_of_value
      rw [← mod_of_ipv4 v, ← mod_of_ipv4 w, h]
  · obtain ⟨v, hv, -⟩ := normalize_isIPv4 hjs ha
    obtain ⟨w, -, hw, -⟩ := normalize_not_isIPv4 hjs hb
    rw [hv, hw]
    constructor
    · intro h
      cases h
    · intro h
      exact absurd (h ▸ ha) hb
  · obtain ⟨v, -, hv, -⟩ := normalize_not_isIPv4 hjs ha
    obtain ⟨w, hw, -⟩ := normalize_isIPv4 hjs hb
    rw [hv, hw]
    constructor
    · intro h
      cases h
    · intro h
      exact absurd (h ▸ hb) ha
  · obtain ⟨v, -, hv, hva⟩ := normalize_not_isIPv4 hjs ha
    obtain ⟨w, -, hw, hwb⟩ := normalize_not_isIPv4 hjs hb
    rw [hv, hw, hva, hwb, matchesExact, decide_eq_true_eq, hjs.ipv6ToString_inj.eq_iff, Address.mk.injEq]
    constructor
    · rintro rfl
      exact ⟨rfl, rfl⟩
    · rintro ⟨hvalue, hzone⟩
      exact IPv6.eq_of_value hvalue hzone

/-- In a range that is written in IPv4 are the IPv4 addresses with its prefix. -/
theorem matchesRange_ipv4 (hjs : js.Documented) (x : ParsedIpAddress) (b : IPv4) (n : Nat) :
    matchesRange js n (normalizeIpv4MappedAddress js x) (normalizeIpv4MappedAddress js (.ipv4 b)) = true ↔
      leading 128 (96 + n) (address x).bits = leading 128 (96 + n) (address (.ipv4 b)).bits := by
  have hbase : normalizeIpv4MappedAddress js (.ipv4 b) = .ipv4 b := rfl
  rw [hbase]
  by_cases hx : IsIPv4 (address x).bits
  · obtain ⟨v, hv, hvx⟩ := normalize_isIPv4 hjs hx
    rw [hv, hvx, matchesRange, hjs.ipv4Match_eq, Option.getD_some, decide_eq_true_eq, leading_ipv4]
  · obtain ⟨v, -, hv, -⟩ := normalize_not_isIPv4 hjs hx
    rw [hv]
    constructor
    · intro h
      cases h
    · intro h
      exact absurd ((isIPv4_of_leading (Nat.le_add_right 96 n) h).mpr (isIPv4_ipv4 b)) hx

/-- **A range that is written in IPv6** contains what its prefix says exactly for the addresses for which
its length is meant. -/
theorem matchesRange_ipv6 (hjs : js.Documented) (x : ParsedIpAddress) (b : IPv6) (n : Nat) :
    (matchesRange js n (normalizeIpv4MappedAddress js x) (normalizeIpv4MappedAddress js (.ipv6 b)) = true ↔
      leading 128 n (address x).bits = leading 128 n b.value) ↔ LengthMeant (address x).bits b.value n := by
  by_cases hx : IsIPv4 (address x).bits <;> by_cases hb : IsIPv4 b.value
  · obtain ⟨v, hv, hvx⟩ := normalize_isIPv4 hjs hx
    obtain ⟨w, hw, hwb⟩ := normalize_isIPv4 hjs (a := .ipv6 b) hb
    have hbits : b.value = (address (.ipv4 w)).bits := congrArg Address.bits hwb
    have hcode : matchesRange js n (.ipv4 v) (.ipv4 w) = true ↔ leading 32 n v.value = leading 32 n w.value := by
      rw [matchesRange, hjs.ipv4Match_eq, Option.getD_some, decide_eq_true_eq]
    rw [hv, hw, hvx, hbits, hcode]
    rcases Nat.lt_or_ge n 96 with hn | hn
    · rw [leading_ipv4_short v hn, leading_ipv4_short w hn]
      constructor
      · intro h
        refine ⟨fun _ _ hge => absurd hge (by omega), fun _ _ _ => ?_, fun _ h4 => absurd (isIPv4_ipv4 v) h4,
          fun h4 => absurd (isIPv4_ipv4 w) h4⟩
        rw [mod_of_ipv4, mod_of_ipv4]
        exact h.mpr rfl
      · intro h
        have hshort := h.short (isIPv4_ipv4 w) (isIPv4_ipv4 v) hn
        rw [mod_of_ipv4, mod_of_ipv4] at hshort
        exact iff_of_true hshort rfl
    · obtain ⟨m, rfl⟩ := Nat.exists_eq_add_of_le hn
      have hsame : v.value = w.value ↔ (address (.ipv4 v)).bits = (address (.ipv4 w)).bits :=
        Nat.add_left_cancel_iff.symm
      rw [leading_ipv4, leading_of_le (by omega), leading_of_le (by omega)]
      constructor
      · intro h
        refine ⟨fun _ _ _ hlead => ?_, fun _ _ hlt => absurd hlt (by omega),
          fun _ h4 => absurd (isIPv4_ipv4 v) h4, fun h4 => absurd (isIPv4_ipv4 w) h4⟩
        rw [mod_of_ipv4, mod_of_ipv4, Nat.add_sub_cancel_left] at hlead
        exact hsame.mp (h.mpr hlead)
      · intro h
        constructor
        · intro heq
          rw [heq]
        · intro hlead
          apply hsame.mpr
          apply h.mapped (isIPv4_ipv4 w) (isIPv4_ipv4 v) hn
          rw [mod_of_ipv4, mod_of_ipv4, Nat.add_sub_cancel_left]
          exact hlead
  · -- an IPv4 address and a range of other addresses are never compared
    obtain ⟨v, hv, hvx⟩ := normalize_isIPv4 hjs hx
    obtain ⟨w, -, hw, -⟩ := normalize_not_isIPv4 hjs (a := .ipv6 b) hb
    have hcode : ¬ matchesRange js n (.ipv4 v) (.ipv6 w) = true := Bool.false_ne_true
    rw [hv, hw, hvx, iff_false_left hcode]
    constructor
    · intro hout
      refine ⟨fun h4 => absurd h4 hb, fun h4 => absurd h4 hb, fun h4 => absurd h4 hb, fun _ _ hcovers => ?_⟩
      apply hout
      rw [leading_ipv4_short v hcovers.1]
      exact hcovers.2.symm
    · intro h hlead
      rcases Nat.lt_or_ge n 96 with hn | hn
      · refine h.disjoint hb (isIPv4_ipv4 v) ⟨hn, ?_⟩
        rw [← leading_ipv4_short v hn]
        exact hlead.symm
      · exact hb ((isIPv4_of_leading hn hlead).mp (isIPv4_ipv4 v))
  · obtain ⟨v, -, hv, hvx⟩ := normalize_not_isIPv4 hjs hx
    obtain ⟨w, hw, -⟩ := normalize_isIPv4 hjs (a := .ipv6 b) hb
    have hcode : ¬ matchesRange js n (.ipv6 v) (.ipv4 w) = true := Bool.false_ne_true
    rw [hv, hw, iff_false_left hcode]
    constructor
    · intro hout
      exact ⟨fun _ h4 => absurd h4 hx, fun _ h4 => absurd h4 hx, fun _ _ _ => hout, fun h4 => absurd hb h4⟩
    · intro h hlead
      rcases Nat.lt_or_ge n 96 with hn | hn
      · exact h.outside hb hx hn hlead
      · exact hx ((isIPv4_of_leading hn hlead).mpr hb)
  · obtain ⟨v, -, hv, hvx⟩ := normalize_not_isIPv4 hjs hx
    obtain ⟨w, -, hw, hwb⟩ := normalize_not_isIPv4 hjs (a := .ipv6 b) hb
    have hbits : b.value = w.value := congrArg Address.bits hwb
    have hcode : matchesRange js n (.ipv6 v) (.ipv6 w) = true ↔ leading 128 n v.value = leading 128 n w.value := by
      rw [matchesRange, hjs.ipv6Match_eq, Option.getD_some, decide_eq_true_eq]
    rw [hv, hw, hcode, hbits, hvx]
    refine iff_of_true Iff.rfl ⟨?_, ?_, ?_, ?_⟩
    · intro h4
      exact absurd h4 (hbits ▸ hb)
    · intro h4
      exact absurd h4 (hbits ▸ hb)
    · intro h4
      exact absurd h4 (hbits ▸ hb)
    · intro _ h4
      rw [hvx] at hx
      exact absurd h4 hx

/-! ## Membership -/

variable (js) in
/-- The comparison of a literal with an entry. -/
def Entry.contains (x : ParsedIpAddress) : Entry → Bool
  | exact a => matchesExact js (normalizeIpv4MappedAddress js x) (normalizeIpv4MappedAddress js a)
  | cidr base n => matchesRange js n (normalizeIpv4MappedAddress js x) (normalizeIpv4MappedAddress js base)

/-- What `isIpInCidr` compares a literal with. -/
theorem isIpInCidr_eq {ip cidr : JsString} {x : ParsedIpAddress} (hip : parseCanonicalIpAddress js ip = some x) :
    isIpInCidr js ip cidr = (parseEntry js cidr).any (Entry.contains js x) := by
  simp only [isIpInCidr, parseEntry, hip]
  split
  · rfl
  · split
    · cases parseCanonicalIpAddress js (trimUnits cidr) <;> rfl
    · cases js.parseCIDR (trimUnits cidr) <;> rfl

theorem contains_iff (hjs : js.Documented) (x : ParsedIpAddress) (entry : Entry) :
    (entry.contains js x = true ↔ address x ∈ entry.denotes) ↔ entry.LengthMeant (address x) := by
  cases entry with
  | exact a => exact iff_of_true (matchesExact_iff hjs x a) trivial
  | cidr base n =>
    cases base with
    | ipv4 b => exact iff_of_true (matchesRange_ipv4 hjs x b n) trivial
    | ipv6 b => exact matchesRange_ipv6 hjs x b n

/-- **Membership is prefix containment exactly where the length is meant**: for a literal, and every entry
that its text writes. -/
theorem isIpInCidr_iff (hjs : js.Documented) {ip : JsString} {x : ParsedIpAddress}
    (hip : parseCanonicalIpAddress js ip = some x) (cidr : JsString) :
    (isIpInCidr js ip cidr = true ↔ ∃ entry, parseEntry js cidr = some entry ∧ address x ∈ entry.denotes) ↔
      ∀ entry, parseEntry js cidr = some entry → entry.LengthMeant (address x) := by
  rw [isIpInCidr_eq hip]
  cases hentry : parseEntry js cidr with
  | none => simp
  | some entry => simpa using contains_iff hjs x entry

/-! ## A range that is written in mapped form -/

/-- The units of an address, and its zone. -/
def printUnits (width value : Nat) (zone : Option JsString) : JsString :=
  (digitsOf 0x10000 width value).map unitOfNat ++ (zone.map (unitOf '%' :: ·)).getD []

theorem printUnits_inj {width value other : Nat} {zone otherZone : Option JsString} (hv : value < 0x10000 ^ width)
    (ho : other < 0x10000 ^ width) (h : printUnits width value zone = printUnits width other otherZone) :
    value = other ∧ zone = otherZone := by
  obtain ⟨hdigits, hzones⟩ := List.append_inj h (by simp)
  constructor
  · have hback (n : Nat) : ((digitsOf 0x10000 width n).map unitOfNat).map Fin.val = digitsOf 0x10000 width n := by
      rw [List.map_map]
      calc (digitsOf 0x10000 width n).map (Fin.val ∘ unitOfNat) = (digitsOf 0x10000 width n).map id := by
            apply List.map_congr_left
            intro digit hdigit
            exact Nat.mod_eq_of_lt (digitsOf_lt_base (by decide) width n digit hdigit)
        _ = digitsOf 0x10000 width n := List.map_id _
    rw [← valueOf_digitsOf hv, ← valueOf_digitsOf ho, ← hback value, ← hback other, hdigits]
  · cases zone <;> cases otherZone <;> simp_all

theorem mod_two_pow_lt (value width : Nat) : value % 2 ^ width < 2 ^ width := Nat.mod_lt _ (Nat.two_pow_pos _)

/-- `value`, cut to the width of an IPv4 address. -/
def ipv4OfValue (value : Nat) : IPv4 := ⟨value % 2 ^ 32, mod_two_pow_lt value 32⟩

def ipv6OfValue (value : Nat) : IPv6 := ⟨value % 2 ^ 128, mod_two_pow_lt value 128, none⟩

/-- A package that reads `10.1.2.3` and `::ffff:10.0.0.0/104`, and prints addresses as bare units. -/
def officeIpaddr : Ipaddr where
  ipv4IsValid text := text = units "10.1.2.3"
  ipv4IsValidFourPartDecimal text := text = units "10.1.2.3"
  ipv4Parse _ := ipv4OfValue 0x0A010203
  ipv6IsValid _ := false
  ipv6Parse _ := ipv6OfValue 0
  parseCIDR text :=
    if text = units "::ffff:10.0.0.0/104" then some (.ipv6 (ipv6OfValue 0xFFFF0A000000), 104) else none
  ipv4ToString a := printUnits 2 a.value none
  ipv6ToString a := printUnits 8 a.value a.zoneId
  isIPv4MappedAddress a := a.value / 2 ^ 32 = mappedBlock
  toIPv4Address a := ipv4OfValue a.value
  ipv4Match a range := some (decide (leading 32 range.2 a.value = leading 32 range.2 range.1.value))
  ipv6Match a range := some (decide (leading 128 range.2 a.value = leading 128 range.2 range.1.value))

theorem officeIpaddr_documented : officeIpaddr.Documented where
  ipv4ToString_inj a b h := IPv4.eq_of_value (printUnits_inj a.value_lt b.value_lt h).1
  ipv6ToString_inj a b h :=
    IPv6.eq_of_value (printUnits_inj a.value_lt b.value_lt h).1 (printUnits_inj a.value_lt b.value_lt h).2
  isIPv4MappedAddress_iff _ := decide_eq_true_iff
  toIPv4Address_value _ _ := rfl
  ipv4Match_eq _ _ _ := rfl
  ipv6Match_eq _ _ _ := rfl

theorem officeIpaddr_literal :
    parseCanonicalIpAddress officeIpaddr (units "10.1.2.3") = some (.ipv4 (ipv4OfValue 0x0A010203)) :=
  rfl

theorem officeIpaddr_entry :
    parseEntry officeIpaddr (units "::ffff:10.0.0.0/104") = some (.cidr (.ipv6 (ipv6OfValue 0xFFFF0A000000)) 104) :=
  rfl

/-- `::ffff:10.0.0.0/104` is `10.0.0.0/8`, and does not contain `10.1.2.3`. -/
theorem mapped_range_misses :
    parseCanonicalIpAddress officeIpaddr (units "10.1.2.3") = some (.ipv4 (ipv4OfValue 0x0A010203)) ∧
      address (.ipv4 (ipv4OfValue 0x0A010203)) ∈ (Entry.cidr (.ipv6 (ipv6OfValue 0xFFFF0A000000)) 104).denotes ∧
      parseEntry officeIpaddr (units "::ffff:10.0.0.0/104") = some (.cidr (.ipv6 (ipv6OfValue 0xFFFF0A000000)) 104) ∧
      isIpInCidr officeIpaddr (units "10.1.2.3") (units "::ffff:10.0.0.0/104") = false :=
  ⟨officeIpaddr_literal, by simp only [Entry.denotes, prefixBits, Set.mem_ofPred_eq]; decide, officeIpaddr_entry,
    by rfl⟩

/-- `isIpInCidr_iff` for that range. -/
theorem isIpInCidr_iff_mapped : (isIpInCidr officeIpaddr (units "10.1.2.3") (units "::ffff:10.0.0.0/104") = true ↔
        ∃ entry, parseEntry officeIpaddr (units "::ffff:10.0.0.0/104") = some entry ∧
          address (.ipv4 (ipv4OfValue 0x0A010203)) ∈ entry.denotes) ↔
      ∀ entry, parseEntry officeIpaddr (units "::ffff:10.0.0.0/104") = some entry →
        entry.LengthMeant (address (.ipv4 (ipv4OfValue 0x0A010203))) :=
  isIpInCidr_iff officeIpaddr_documented officeIpaddr_literal (units "::ffff:10.0.0.0/104")

end OpenClaw.NetPolicy
