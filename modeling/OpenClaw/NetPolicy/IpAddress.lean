/-
# OpenClaw.NetPolicy.IpAddress -- canonical IP literals

`parseCanonicalIpAddress` reads an IPv4 literal of four decimal parts or an IPv6 literal, the latter also
with an IPv4 address in its last 32 bits.  An IPv4 address and its IPv4-mapped IPv6 form are one address:
`address` gives both the same 128 bits.

This follows `ip.ts`.  The package `ipaddr.js` is a parameter; `Documented` is what the results rely on.
-/
import Mathlib
import OpenClaw.Data.Digits
import OpenClaw.Data.JsText
import OpenClaw.Data.LeadingBits

namespace OpenClaw.NetPolicy

open OpenClaw.Data

theorem lawfulBEq_codeUnit : LawfulBEq CodeUnit := inferInstance

attribute [local instance] lawfulBEq_codeUnit

/-! ## Addresses of the package -/

structure IPv4 where
  value : Nat
  value_lt : value < 2 ^ 32

structure IPv6 where
  value : Nat
  value_lt : value < 2 ^ 128
  zoneId : Option JsString

inductive ParsedIpAddress where
  | ipv4 (a : IPv4)
  | ipv6 (a : IPv6)

theorem IPv4.eq_of_value {a b : IPv4} (h : a.value = b.value) : a = b := by
  cases a
  cases b
  subst h
  rfl

theorem IPv6.eq_of_value {a b : IPv6} (h : a.value = b.value) (hzone : a.zoneId = b.zoneId) : a = b := by
  cases a
  cases b
  subst h hzone
  rfl

/-- What the functions of `ipaddr.js` do.  The parsers are read only on texts that are valid; a call
that throws gives nothing. -/
structure Ipaddr where
  ipv4IsValid : JsString → Bool
  ipv4IsValidFourPartDecimal : JsString → Bool
  ipv4Parse : JsString → IPv4
  ipv6IsValid : JsString → Bool
  ipv6Parse : JsString → IPv6
  parseCIDR : JsString → Option (ParsedIpAddress × Nat)
  ipv4ToString : IPv4 → JsString
  ipv6ToString : IPv6 → JsString
  isIPv4MappedAddress : IPv6 → Bool
  toIPv4Address : IPv6 → IPv4
  ipv4Match : IPv4 → IPv4 × Nat → Option Bool
  ipv6Match : IPv6 → IPv6 × Nat → Option Bool

/-- The first 96 bits of the IPv4-mapped addresses, `::ffff:0:0/96`. -/
def mappedBlock : Nat := 0xFFFF

/-- The package's own description of the functions that compare addresses. -/
structure Ipaddr.Documented (js : Ipaddr) : Prop where
  /-- Different addresses print differently. -/
  ipv4ToString_inj : Function.Injective js.ipv4ToString
  ipv6ToString_inj : Function.Injective js.ipv6ToString
  isIPv4MappedAddress_iff : ∀ a, js.isIPv4MappedAddress a = true ↔ a.value / 2 ^ 32 = mappedBlock
  toIPv4Address_value : ∀ a, js.isIPv4MappedAddress a = true → (js.toIPv4Address a).value = a.value % 2 ^ 32
  /-- `match` compares the first bits of two addresses, and no more than there are. -/
  ipv4Match_eq : ∀ a b p, js.ipv4Match a (b, p) = some (decide (leading 32 p a.value = leading 32 p b.value))
  ipv6Match_eq : ∀ a b p, js.ipv6Match a (b, p) = some (decide (leading 128 p a.value = leading 128 p b.value))

/-! ## Literals -/

variable (js : Ipaddr)

def stripIpv6Brackets (value : JsString) : JsString :=
  if value.head? = some (unitOf '[') ∧ value.getLast? = some (unitOf ']') then
    (value.drop 1).take (value.length - 2)
  else value

def normalizeIpParseInput (raw : JsString) : Option JsString :=
  let trimmed := trimUnits raw
  if trimmed = [] then none else some (stripIpv6Brackets trimmed)

/-- `[^:%]+(?:\.[^:%]+){more}` on a text without `:` and `%`. -/
def dottedParts : Nat → JsString → Bool
  | 0, text => text ≠ []
  | more + 1, text =>
    match (text.drop 1).dropWhile (· ≠ unitOf '.') with
    | [] => false
    | _ :: rest => dottedParts more rest

/-- `/^(.*:)([^:%]+(?:\.[^:%]+){3})(%[0-9A-Za-z]+)?$/i`: its three groups. -/
def matchEmbeddedIpv4 (raw : JsString) : Option (JsString × JsString × JsString) :=
  let lead := raw.rdropWhile (· ≠ unitOf ':')
  let tail := raw.rtakeWhile (· ≠ unitOf ':')
  let embedded := tail.takeWhile (· ≠ unitOf '%')
  let zone := tail.dropWhile (· ≠ unitOf '%')
  if lead ≠ [] ∧ !lead.any isLineTerminator ∧ dottedParts 3 embedded ∧
      (zone = [] ∨ zone.drop 1 ≠ [] ∧ (zone.drop 1).all isAsciiAlnum) then
    some (lead, embedded, zone)
  else none

/-- `Number.parseInt(part, 10)` of a part that is decimal. -/
def parseDecimal (part : JsString) : Nat := valueOf 10 ((part.takeWhile isAsciiDigit).map (·.val - 0x30))

/-- `toString(16)` -/
def toHex (n : Nat) : JsString := (Nat.toDigits 16 n).map unitOf

def parseIpv6WithEmbeddedIpv4 (raw : JsString) : Option IPv6 :=
  if unitOf ':' ∉ raw ∨ unitOf '.' ∉ raw then none
  else
    match matchEmbeddedIpv4 raw with
    | none => none
    | some (lead, embedded, zone) =>
      if !js.ipv4IsValidFourPartDecimal embedded then none
      else
        match (embedded.splitOn (unitOf '.')).map parseDecimal with
        | a :: b :: c :: d :: _ =>
          let normalized := lead ++ toHex (a <<< 8 ||| b) ++ [unitOf ':'] ++ toHex (c <<< 8 ||| d) ++ zone
          if js.ipv6IsValid normalized then some (js.ipv6Parse normalized) else none
        | _ => none

def parseCanonicalIpAddress (raw : JsString) : Option ParsedIpAddress :=
  match normalizeIpParseInput raw with
  | none => none
  | some normalized =>
    -- the brackets of `[]` leave an empty text
    if normalized = [] then none
    else if js.ipv4IsValid normalized then
      if js.ipv4IsValidFourPartDecimal normalized then some (.ipv4 (js.ipv4Parse normalized)) else none
    else if js.ipv6IsValid normalized then some (.ipv6 (js.ipv6Parse normalized))
    else (parseIpv6WithEmbeddedIpv4 js normalized).map .ipv6

def normalizeIpv4MappedAddress : ParsedIpAddress → ParsedIpAddress
  | .ipv4 a => .ipv4 a
  | .ipv6 a => if js.isIPv4MappedAddress a then .ipv4 (js.toIPv4Address a) else .ipv6 a

/-! ## Addresses as such -/

/-- An address of either family in 128 bits; link-local addresses have a zone. -/
structure Address where
  bits : Nat
  zone : Option JsString

def IsIPv4 (bits : Nat) : Prop := bits / 2 ^ 32 = mappedBlock

instance : DecidablePred IsIPv4 := fun bits => inferInstanceAs (Decidable (bits / 2 ^ 32 = mappedBlock))

/-- The address of a literal: an IPv4 address is its IPv4-mapped form, and has no zone. -/
def address : ParsedIpAddress → Address
  | .ipv4 a => ⟨mappedBlock * 2 ^ 32 + a.value, none⟩
  | .ipv6 a => ⟨a.value, if IsIPv4 a.value then none else a.zoneId⟩

theorem isIPv4_ipv4 (a : IPv4) : IsIPv4 (address (.ipv4 a)).bits := by
  have ha := a.value_lt
  simp only [IsIPv4, address]
  omega

theorem mod_of_ipv4 (a : IPv4) : (address (.ipv4 a)).bits % 2 ^ 32 = a.value := by
  have ha := a.value_lt
  simp only [address]
  omega

/-- An IPv4 address is known by its last 32 bits. -/
theorem bits_of_isIPv4 {bits : Nat} (h : IsIPv4 bits) : bits = mappedBlock * 2 ^ 32 + bits % 2 ^ 32 := by
  have hsplit := Nat.div_add_mod bits (2 ^ 32)
  rw [h, Nat.mul_comm] at hsplit
  exact hsplit.symm

variable {js}

/-- What is compared of an IPv4 address of either form. -/
theorem normalize_isIPv4 (hjs : js.Documented) {a : ParsedIpAddress} (h : IsIPv4 (address a).bits) :
    ∃ v, normalizeIpv4MappedAddress js a = .ipv4 v ∧ address a = address (.ipv4 v) := by
  cases a with
  | ipv4 a => exact ⟨a, rfl, rfl⟩
  | ipv6 a =>
    have hmapped := (hjs.isIPv4MappedAddress_iff a).mpr h
    refine ⟨js.toIPv4Address a, if_pos hmapped, ?_⟩
    have hvalue : IsIPv4 a.value := h
    simp only [address, if_pos hvalue, hjs.toIPv4Address_value a hmapped]
    rw [← bits_of_isIPv4 hvalue]

/-- The other addresses are compared as they are. -/
theorem normalize_not_isIPv4 (hjs : js.Documented) {a : ParsedIpAddress} (h : ¬ IsIPv4 (address a).bits) :
    ∃ v, a = .ipv6 v ∧ normalizeIpv4MappedAddress js a = .ipv6 v ∧ address a = ⟨v.value, v.zoneId⟩ := by
  cases a with
  | ipv4 a => exact absurd (isIPv4_ipv4 a) h
  | ipv6 a =>
    have hvalue : ¬ IsIPv4 a.value := h
    refine ⟨a, rfl, if_neg fun hmapped => h ((hjs.isIPv4MappedAddress_iff a).mp hmapped), ?_⟩
    simp only [address, if_neg hvalue]

end OpenClaw.NetPolicy
