/-
# OpenClaw.TeeVault.VaultIntegrity -- what the integrity check of an envelope binds

An attacker without the master key writes an envelope of his own, and the check accepts it with the MAC of an
envelope of the owner.  What opens in it was sealed by the owner, under a key that names the id; and the payload
of the MAC has no other reading in which that id begins an entry.  So what is retrieved is the value of the entry
with that id.  The label is in neither: two entries may have changed their labels.
-/
import Mathlib.Data.List.Count
import OpenClaw.Data.Delimited
import OpenClaw.TeeVault.VaultHistory

namespace OpenClaw.TeeVault

open OpenClaw.Logic OpenClaw.Data OpenClaw.Reef

/-! ## Texts of ASCII -/

def bar : CodeUnit := unitOfNat 0x7C

def colon : CodeUnit := unitOfNat 0x3A

theorem units_bar : units "|" = [bar] := by decide

theorem units_bars : units "||" = [bar, bar] := by decide

theorem units_colon : units ":" = [colon] := by decide

def Ascii (s : JsString) : Prop := ∀ unit ∈ s, unit.val < 0x80

/-- A character that is one unit, and no delimiter. -/
def IsPlain (c : Char) : Prop := c.toNat < 0x80 ∧ c ≠ '|' ∧ c ≠ ':'

/-- A string without delimiters. -/
structure Plain (s : JsString) : Prop where
  ascii : Ascii s
  bars : bar ∉ s
  colons : colon ∉ s

theorem charUnits_ascii {c : Char} (h : c.toNat < 0x80) : charUnits c = [unitOfNat c.toNat] := by
  rw [charUnits, codeUnits, if_pos (by omega)]
  rfl

theorem plain_unitsOf {text : Text} (h : ∀ c ∈ text, IsPlain c) : Plain (unitsOf text) := by
  have hunits : ∀ unit ∈ unitsOf text, ∃ c ∈ text, unit.val = c.toNat := by
    intro unit hunit
    obtain ⟨c, hc, hunit⟩ := List.mem_flatMap.mp hunit
    rw [charUnits_ascii (h c hc).1, List.mem_singleton] at hunit
    have hlt := (h c hc).1
    refine ⟨c, hc, ?_⟩
    rw [hunit]
    exact Nat.mod_eq_of_lt (by omega)
  constructor
  · intro unit hunit
    obtain ⟨c, hc, heq⟩ := hunits unit hunit
    exact heq ▸ (h c hc).1
  · intro hbar
    obtain ⟨c, hc, heq⟩ := hunits bar hbar
    exact (h c hc).2.1 (Char.toNat_inj.mp heq.symm)
  · intro hcolon
    obtain ⟨c, hc, heq⟩ := hunits colon hcolon
    exact (h c hc).2.2 (Char.toNat_inj.mp heq.symm)

theorem plain_number {ν : Type} [JsonNumber ν] (n : ν) : Plain (unitsOf (JsonNumber.text n)) := by
  refine plain_unitsOf fun c hc => ?_
  have hnumeral := JsonNumber.text_numeral n c hc
  simp only [isNumeral, isDigit, Bool.or_eq_true, Bool.and_eq_true, decide_eq_true_eq] at hnumeral
  rcases hnumeral with ⟨hlow, hhigh⟩ | hmem
  · have hlow' : '0'.toNat ≤ c.toNat := hlow
    have hhigh' : c.toNat ≤ '9'.toNat := hhigh
    have h0 : '0'.toNat = 48 := rfl
    have h9 : '9'.toNat = 57 := rfl
    refine ⟨by omega, ?_, ?_⟩
    · rintro rfl
      exact absurd hhigh' (by decide)
    · rintro rfl
      exact absurd hhigh' (by decide)
  · have hall : ['-', '+', '.', 'e', 'E'].all (fun c => c.toNat < 0x80 ∧ c ≠ '|' ∧ c ≠ ':') = true := by decide
    simpa [IsPlain] using List.all_eq_true.mp hall c hmem

theorem isPlain_base64Digit (n : Nat) : IsPlain (base64Digit n) := by
  have hall : base64Alphabet.all (fun c => c.toNat < 0x80 ∧ c ≠ '|' ∧ c ≠ ':') = true := by decide
  simpa [IsPlain] using List.all_eq_true.mp hall _ (base64Digit_mem n)

theorem plain_base64 (bytes : Bytes) : Plain (unitsOf (base64 bytes)) := by
  refine plain_unitsOf ?_
  have hpad : IsPlain '=' := ⟨by decide, by decide, by decide⟩
  fun_induction base64 bytes <;> simp_all [isPlain_base64Digit]

theorem ascii_text {s : JsString} (h : Ascii s) : ∃ text, s = unitsOf text ∧ ∀ c ∈ text, c.toNat < 0x80 := by
  have hchar : ∀ unit ∈ s, (Char.ofNat unit.val).toNat = unit.val := fun unit hunit =>
    toNat_charOfNat (.inl (by have := h unit hunit; omega))
  refine ⟨s.map fun unit => Char.ofNat unit.val, ?_, ?_⟩
  · induction s with
    | nil => rfl
    | cons unit rest ih =>
      have hunit := hchar unit List.mem_cons_self
      rw [List.map_cons, unitsOf, List.flatMap_cons, ← unitsOf,
        ← ih (fun u hu => h u (List.mem_cons_of_mem _ hu)) (fun u hu => hchar u (List.mem_cons_of_mem _ hu)),
        charUnits_ascii (by rw [hunit]; exact h unit List.mem_cons_self), hunit]
      simp
  · intro c hc
    obtain ⟨unit, hunit, rfl⟩ := List.mem_map.mp hc
    rw [hchar unit hunit]
    exact h unit hunit

/-- **Only one string is encoded to given ASCII.** -/
theorem utf8String_ascii {s t : JsString} (ht : Ascii t) (h : utf8String s = utf8String t) : s = t := by
  obtain ⟨text, rfl, htext⟩ := ascii_text ht
  have hshown : (codePoints s).map CodePoint.shown = text := by
    have := utf8_injective ((utf8String_shown s).symm.trans (h.trans (utf8String_shown _)))
    rw [this, codePoints_unitsOf, List.map_map]
    exact List.map_id'' (fun _ => rfl) _
  have hpoints : codePoints s = text.map .char := by
    rw [← hshown, List.map_map]
    refine (List.map_id (codePoints s)).symm.trans (List.map_congr_left fun point hpoint => ?_)
    cases point with
    | char c => rfl
    | lone unit =>
      have hmem : replacementCharacter ∈ text := hshown ▸ List.mem_map.mpr ⟨.lone unit, hpoint, rfl⟩
      exact absurd (htext _ hmem) (by decide)
  calc s = (codePoints s).flatMap CodePoint.units := (units_codePoints s).symm
    _ = unitsOf text := by rw [hpoints, List.flatMap_map]; rfl

/-! ## What the owner wrote -/

variable {node : NodeCrypto} {sealedVmk : JsString} {backend : BackendType} {vmk : Bytes} {now : JsString}

theorem plain_uuid {s : JsString} (h : ∀ unit ∈ s, unit = 0x2D ∨ (lowerHexValue unit).isSome) : Plain s := by
  have hunit : ∀ unit ∈ s, unit.val < 0x80 ∧ unit ≠ bar ∧ unit ≠ colon := by
    intro unit hmem
    have hall : ∀ unit : CodeUnit, (lowerHexValue unit).isSome →
        0x30 ≤ unit.val ∧ unit.val ≤ 0x39 ∨ 0x61 ≤ unit.val ∧ unit.val ≤ 0x66 := by
      intro unit hsome
      unfold lowerHexValue at hsome
      split at hsome
      · exact .inl ‹_›
      · split at hsome
        · exact .inr ‹_›
        · cases hsome
    rcases h unit hmem with rfl | hsome
    · exact ⟨by decide, by decide, by decide⟩
    · have hrange := hall unit hsome
      refine ⟨by omega, ?_, ?_⟩
      · rintro rfl
        simp [bar] at hrange
      · rintro rfl
        simp [colon] at hrange
  exact ⟨fun unit hmem => (hunit unit hmem).1, fun hmem => (hunit _ hmem).2.1 rfl, fun hmem => (hunit _ hmem).2.2 rfl⟩

/-- Every id that was drawn is one of `randomUUID`. -/
theorem given_plain (script : List VaultCall) :
    ∀ pair ∈ (vaultAfter node sealedVmk backend vmk now script).given, Plain pair.1 := by
  refine run_invariant (P := fun v : Vault => ∀ pair ∈ v.given, Plain pair.1) ?_ script (by simp [emptyVault])
  intro v call h
  cases call with
  | addEntry params draws =>
    intro pair hpair
    simp only [vaultStep] at hpair
    split at hpair
    · rcases List.mem_cons.mp hpair with rfl | hold
      · exact plain_uuid draws.uuid.hexadecimal
      · exact h pair hold
    · exact h pair hpair
  | deleteEntry label draws => exact h
  | rotateEntry label draws => exact h
  | rotateAllEntries newVmk draws => exact h

/-- What an id was given stays given. -/
theorem given_lasts (script : List VaultCall) : ∀ {v : Vault} {pair : JsString × Held}, pair ∈ v.given →
    pair ∈ (run (vaultStep node) v script).given := by
  induction script with
  | nil => exact fun h => h
  | cons call rest ih =>
    intro v pair h
    refine ih ?_
    cases call with
    | addEntry params draws =>
      simp only [vaultStep]
      split
      · exact List.mem_cons_of_mem _ h
      · exact h
    | deleteEntry label draws => exact h
    | rotateEntry label draws => exact h
    | rotateAllEntries newVmk draws => exact h

/-- The summary of an entry: its id, and behind the first colon the rest. -/
theorem summary_eq {ν : Type} [JsonNumber ν] (e : VaultEntry ν) : ∃ rest, e.summary = e.id ++ colon :: rest := by
  refine ⟨unitsOf (JsonNumber.text e.version) ++ colon :: (e.ciphertext.getD [] ++ colon :: e.authTag.getD []), ?_⟩
  simp only [VaultEntry.summary, units_colon, List.append_assoc, List.cons_append, List.nil_append]

theorem plain_append_colon {s t : JsString} (hs : Ascii s ∧ bar ∉ s) (ht : Ascii t ∧ bar ∉ t) :
    Ascii (s ++ units ":" ++ t) ∧ bar ∉ s ++ units ":" ++ t := by
  rw [units_colon]
  constructor
  · intro unit hunit
    rcases List.mem_append.mp hunit with hunit | hunit
    · rcases List.mem_append.mp hunit with hunit | hunit
      · exact hs.1 unit hunit
      · rw [List.mem_singleton.mp hunit]
        decide
    · exact ht.1 unit hunit
  · have hne : bar ≠ colon := by decide
    simp [hs.2, ht.2, hne]

/-- The summary of an entry of the owner is ASCII, without bars. -/
theorem VaultInv.summary {v : Vault} {holdings : Holdings} (h : VaultInv node v holdings)
    (hgiven : ∀ pair ∈ v.given, Plain pair.1) {entry : VaultEntry Nat} (hentry : entry ∈ v.envelope.entries) :
    Plain entry.id ∧ Ascii entry.summary ∧ bar ∉ entry.summary := by
  obtain ⟨held, hheld, hholds⟩ := h.holds entry hentry
  have hid := hgiven _ (h.bound entry hentry held hheld)
  have hversion := plain_number entry.version
  have htexts : Plain (entry.ciphertext.getD []) ∧ Plain (entry.authTag.getD []) := by
    cases hholds with
    | value plaintext iv hseals =>
      rw [hseals.texts]
      exact ⟨plain_base64 _, plain_base64 _⟩
    | hsm hresident hciphertext htag =>
      rw [hciphertext, htag]
      exact ⟨plain_base64 [], plain_base64 []⟩
  refine ⟨hid, ?_⟩
  unfold VaultEntry.summary
  refine plain_append_colon (plain_append_colon (plain_append_colon ?_ ?_) ?_) ?_
  · exact ⟨hid.ascii, hid.bars⟩
  · exact ⟨hversion.ascii, hversion.bars⟩
  · exact ⟨htexts.1.ascii, htexts.1.bars⟩
  · exact ⟨htexts.2.ascii, htexts.2.bars⟩

theorem ascii_intercalate : ∀ {texts : List JsString}, (∀ text ∈ texts, Ascii text) →
    Ascii ([bar].intercalate texts)
  | [], _ => by simp [Ascii, List.intercalate]
  | [a], h => by simpa [List.intercalate] using h a List.mem_cons_self
  | a :: b :: rest, h => by
    rw [List.intercalate_cons_cons, List.append_assoc, List.singleton_append]
    have hrest := ascii_intercalate fun text htext => h text (List.mem_cons_of_mem a htext)
    intro unit hunit
    rcases List.mem_append.mp hunit with hunit | hunit
    · exact h a List.mem_cons_self unit hunit
    · rcases List.mem_cons.mp hunit with rfl | hunit
      · decide
      · exact hrest unit hunit

/-! ## What the attacker can do -/

section Attack

variable {ν : Type} [JsonNumber ν]

/-- Authenticity of AES-GCM under keys derived from the master key: what opens in the forged envelope was
sealed by the owner, with the key of the id and version that open it. -/
def Unforged (node : NodeCrypto) (v : Vault) (forged : VaultEnvelope ν) : Prop :=
  ∀ entry ∈ forged.entries, ∀ value, decryptEntry node v.vmk entry = .ok value →
    ∃ e ∈ v.encryptions, e.plaintext = value ∧
      entryKeyInfo e.entryId (JsonNumber.text e.version) = entryKeyInfo entry.id (JsonNumber.text entry.version)

/-- The MAC of the forged entries is that of the owner's only when the payloads are the same. -/
def MacBinds (node : NodeCrypto) (v snapshot : Vault) (forged : VaultEnvelope ν) : Prop :=
  computeHmac node v.vmk (utf8String (integrityPayload forged.entries)) =
      computeHmac node snapshot.vmk (utf8String (integrityPayload snapshot.envelope.entries)) →
    utf8String (integrityPayload forged.entries) = utf8String (integrityPayload snapshot.envelope.entries)

theorem retrieveEntry_eq_ok {forged : VaultEnvelope ν} {vmk : Bytes} {label : JsString} {entry : VaultEntry ν}
    {value : Bytes} (h : retrieveEntry node forged vmk label = .ok (entry, value)) :
    entry ∈ forged.entries ∧ entry.label = label ∧ decryptEntry node vmk entry = .ok value := by
  unfold retrieveEntry at h
  split at h
  · cases h
  · rename_i found hfind
    split at h
    · cases h
    · split at h
      · cases h
      · simp only [bind_eq_ok, pure_eq_ok, Prod.mk.injEq] at h
        obtain ⟨plaintext, hdecrypt, rfl, rfl⟩ := h
        exact ⟨List.mem_of_find?_eq_some hfind, by simpa using List.find?_some hfind, hdecrypt⟩

/-- Two bars in the middle, and none on either side of one of the two readings. -/
theorem keyInfo_id {id id' version version' : JsString} (hid : bar ∉ id) (hversion : bar ∉ version)
    (hversion' : bar ∉ version') (h : id' ++ units "||" ++ version' = id ++ units "||" ++ version) : id' = id := by
  rw [units_bars] at h
  have hcount := congrArg (List.count bar) h
  simp only [List.count_append, List.count_eq_zero_of_not_mem hid, List.count_eq_zero_of_not_mem hversion,
    List.count_eq_zero_of_not_mem hversion'] at hcount
  have hid' : bar ∉ id' := List.count_eq_zero.mp (by omega)
  simp only [List.append_assoc, List.cons_append, List.nil_append] at h
  exact (cut_unique hid' hid h).1

/-- A key of the owner names one id. -/
theorem entryKeyInfo_id {ν' : Type} [JsonNumber ν'] {id id' : JsString} {version : ν} {version' : ν'}
    (hid : Plain id) (h : entryKeyInfo id (JsonNumber.text version) = entryKeyInfo id' (JsonNumber.text version')) :
    id' = id := by
  have hascii : Ascii (id ++ units "||" ++ unitsOf (JsonNumber.text version)) := by
    intro unit hunit
    rcases List.mem_append.mp hunit with hunit | hunit
    · rcases List.mem_append.mp hunit with hunit | hunit
      · exact hid.ascii unit hunit
      · rw [units_bars] at hunit
        simp only [List.mem_cons, List.not_mem_nil, or_false, or_self] at hunit
        rw [hunit]
        decide
    · exact (plain_number version).ascii unit hunit
  have hsame := utf8String_ascii hascii h.symm
  exact keyInfo_id hid.bars (plain_number version).bars (plain_number version').bars hsame

/-- **An id that begins an entry of a payload of the owner is the id of an entry of his.** -/
theorem owner_of_payload {v : Vault} {holdings : Holdings} (h : VaultInv node v holdings)
    (hgiven : ∀ pair ∈ v.given, Plain pair.1) {entries : List (VaultEntry ν)} {entry : VaultEntry ν}
    (hentry : entry ∈ entries) (hid : Plain entry.id)
    (hpayload : utf8String (integrityPayload entries) = utf8String (integrityPayload v.envelope.entries)) :
    ∃ owner ∈ v.envelope.entries, owner.id = entry.id := by
  have hsummaries : ∀ text ∈ v.envelope.entries.map VaultEntry.summary, Ascii text ∧ bar ∉ text := by
    intro text htext
    obtain ⟨owner, howner, rfl⟩ := List.mem_map.mp htext
    exact (h.summary hgiven howner).2
  have hascii : Ascii (integrityPayload v.envelope.entries) := by
    rw [integrityPayload, units_bar]
    exact ascii_intercalate fun text htext => (hsummaries text htext).1
  have hsame := utf8String_ascii hascii hpayload
  unfold integrityPayload at hsame
  rw [units_bar] at hsame
  obtain ⟨rest, hsummary⟩ := summary_eq entry
  obtain ⟨before, after, hjoin, hboundary⟩ := intercalate_mem (c := bar) (List.mem_map_of_mem (f := VaultEntry.summary) hentry)
  have hstart : [bar].intercalate (v.envelope.entries.map VaultEntry.summary) =
      before ++ ((entry.id ++ [colon]) ++ (rest ++ after)) := by
    rw [← hsame, hjoin, hsummary]
    simp
  have hfree : bar ∉ entry.id ++ [colon] := by
    have hne : bar ≠ colon := by decide
    simp [hid.bars, hne]
  obtain ⟨text, htext, htail⟩ :=
    intercalate_boundary hfree (by simp) (fun text htext => (hsummaries text htext).2) hstart hboundary
  obtain ⟨owner, howner, rfl⟩ := List.mem_map.mp htext
  obtain ⟨ownerRest, hownerSummary⟩ := summary_eq owner
  obtain ⟨more, hmore⟩ := htail
  rw [hownerSummary, List.append_assoc, List.singleton_append] at hmore
  exact ⟨owner, howner, (cut_unique hid.colons (h.summary hgiven howner).1.colons hmore).1.symm⟩

/-- **What the integrity check binds.**  In an envelope that the check accepts with the MAC of a vault of the
owner, the value under a label is that of the owner's entry with the id that the envelope has there. -/
theorem vault_integrity (node : NodeCrypto) (sealedVmk : JsString) (backend : BackendType) (vmk : Bytes)
    (now : JsString) (script later : List VaultCall)
    (hfresh : FreshRun node sealedVmk backend vmk now (script ++ later)) (forged : VaultEnvelope ν)
    (hunforged : Unforged node (vaultAfter node sealedVmk backend vmk now (script ++ later)) forged)
    (hmac : MacBinds node (vaultAfter node sealedVmk backend vmk now (script ++ later))
      (vaultAfter node sealedVmk backend vmk now script) forged)
    (haccepted : verifyEnvelopeHmac node (vaultAfter node sealedVmk backend vmk now (script ++ later)).vmk
      forged.entries (vaultAfter node sealedVmk backend vmk now script).envelope.hmac = true)
    (label : JsString) (entry : VaultEntry ν) (value : Bytes)
    (hretrieve : retrieveEntry node forged (vaultAfter node sealedVmk backend vmk now (script ++ later)).vmk label =
      .ok (entry, value)) :
    entry.label = label ∧ ∃ owner ∈ (vaultAfter node sealedVmk backend vmk now script).envelope.entries,
      owner.id = entry.id ∧ heldAfter script owner.label = some (.value value) := by
  have hsnapshot := vaultInv_after ((guarded_append script later).mp hfresh).1
  have hpresent := vaultInv_after hfresh
  obtain ⟨hentry, hlabel, hdecrypt⟩ := retrieveEntry_eq_ok hretrieve
  -- the value was sealed by the owner, for this id
  obtain ⟨e, he, rfl, hinfo⟩ := hunforged entry hentry value hdecrypt
  have hgivenPlain : ∀ script, ∀ pair ∈ (vaultAfter node sealedVmk backend vmk now script).given, Plain pair.1 :=
    given_plain
  have huse := hpresent.usedIds e he
  have hid : entry.id = e.entryId := entryKeyInfo_id (hgivenPlain _ _ huse) hinfo
  -- and the id begins an entry of the owner's payload
  have hpayload := verifyEnvelopeHmac_iff.mp haccepted
  rw [hsnapshot.touched.hmac, computeEnvelopeHmac, bufferFromHex_hex] at hpayload
  obtain ⟨owner, howner, hownerId⟩ := owner_of_payload hsnapshot (hgivenPlain script) hentry
    (hid ▸ hgivenPlain _ _ huse) (hmac hpayload.symm)
  refine ⟨hlabel, owner, howner, hownerId, ?_⟩
  -- an id was given one value only
  obtain ⟨held, hheld, -⟩ := hsnapshot.holds owner howner
  have hgiven : (owner.id, held) ∈ (vaultAfter node sealedVmk backend vmk now (script ++ later)).given := by
    rw [vaultAfter, run_append]
    exact given_lasts later (hsnapshot.bound owner howner held hheld)
  have hpair := List.inj_on_of_nodup_map hpresent.givenIds hgiven huse (hownerId.trans hid)
  rw [hheld, (Prod.mk.inj hpair).2]

end Attack

/-! ## Two labels exchanged -/

/-- Two values are stored under two labels. -/
def twoValues : List VaultCall :=
  [.addEntry (sampleParams "a" [7]) (sampleDraws 0 isHex_zero), .addEntry (sampleParams "b" [8]) (sampleDraws 1 isHex_one)]

def twoValuesVault : Vault := vaultAfter openCrypto [] .dpapi [1] [] twoValues

/-- The envelope with the labels exchanged. -/
def exchanged : VaultEnvelope Nat :=
  { twoValuesVault.envelope with
    entries := twoValuesVault.envelope.entries.map fun entry =>
      { entry with label := if entry.label = units "a" then units "b" else units "a" } }

theorem twoValues_fresh : FreshRun openCrypto [] .dpapi [1] [] (twoValues ++ []) := by
  refine ⟨?_, ?_, trivial⟩
  · simp [Fresh, emptyVault]
  · have hgiven : ((vaultStep openCrypto (emptyVault openCrypto [] .dpapi [1] [])
        (.addEntry (sampleParams "a" [7]) (sampleDraws 0 isHex_zero))).given.map Prod.fst) = [[0x30]] := by decide
    unfold Fresh
    rw [hgiven]
    decide

theorem exchanged_unforged : Unforged openCrypto twoValuesVault exchanged := by
  intro entry hentry value hdecrypt
  have hopens : ∀ entry ∈ exchanged.entries, ∃ e ∈ twoValuesVault.encryptions,
      decryptEntry openCrypto twoValuesVault.vmk entry = .ok e.plaintext ∧ e.entryId = entry.id ∧
        e.version = entry.version := by decide
  obtain ⟨e, he, hopen, hid, hversion⟩ := hopens entry hentry
  rw [hopen] at hdecrypt
  exact ⟨e, he, Except.ok.inj hdecrypt, by rw [hid, hversion]⟩

theorem exchanged_accepted : verifyEnvelopeHmac openCrypto twoValuesVault.vmk exchanged.entries
    twoValuesVault.envelope.hmac = true := by decide

theorem exchanged_retrieves : ∃ entry, retrieveEntry openCrypto exchanged twoValuesVault.vmk (units "a") =
    .ok (entry, [8]) := by
  refine ⟨exchanged.entries.getLast (by decide), ?_⟩
  decide

theorem exchanged_macBinds : MacBinds openCrypto twoValuesVault twoValuesVault exchanged :=
  fun h => List.append_cancel_left h

theorem vault_integrity_exchanged : ∃ entry : VaultEntry Nat, entry.label = units "a" ∧ ∃ owner ∈ twoValuesVault.envelope.entries,
    owner.id = entry.id ∧ heldAfter twoValues owner.label = some (.value [8]) := by
  obtain ⟨entry, hretrieve⟩ := exchanged_retrieves
  exact ⟨entry, vault_integrity openCrypto [] .dpapi [1] [] twoValues [] twoValues_fresh exchanged
    exchanged_unforged exchanged_macBinds exchanged_accepted (units "a") entry [8] hretrieve⟩

/-- The value under a label need not be what the owner stored under it. -/
theorem labels_unbound : ¬ ∀ (node : NodeCrypto) sealedVmk backend vmk now script later
    (forged : VaultEnvelope Nat), FreshRun node sealedVmk backend vmk now (script ++ later) →
    Unforged node (vaultAfter node sealedVmk backend vmk now (script ++ later)) forged →
    MacBinds node (vaultAfter node sealedVmk backend vmk now (script ++ later))
      (vaultAfter node sealedVmk backend vmk now script) forged →
    verifyEnvelopeHmac node (vaultAfter node sealedVmk backend vmk now (script ++ later)).vmk forged.entries
      (vaultAfter node sealedVmk backend vmk now script).envelope.hmac = true →
    ∀ label entry value, retrieveEntry node forged
      (vaultAfter node sealedVmk backend vmk now (script ++ later)).vmk label = .ok (entry, value) →
    heldAfter script label = some (.value value) := by
  intro hall
  obtain ⟨entry, hretrieve⟩ := exchanged_retrieves
  have hheld := hall openCrypto [] .dpapi [1] [] twoValues [] exchanged twoValues_fresh exchanged_unforged
    exchanged_macBinds exchanged_accepted (units "a") entry [8] hretrieve
  have hstored : heldAfter twoValues (units "a") = some (.value [7]) := by decide
  rw [hstored] at hheld
  exact absurd hheld (by decide)

end OpenClaw.TeeVault
