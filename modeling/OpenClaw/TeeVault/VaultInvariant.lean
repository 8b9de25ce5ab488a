/-
# OpenClaw.TeeVault.VaultInvariant -- what every call keeps of a vault

`Holdings` is what the owner stored: a value for each label, or an object of the HSM.  `VaultInv` relates it to
the envelope: every label has one entry, which opens to what the owner stored.  It also says of the encryptions
made so far that none used the key of another one, and that each had the value that its id was given.

Rotations replace entries one for one; `VaultInv.reseal` is the rule for both.
-/
import Mathlib.Data.List.Nodup
import Mathlib.Logic.Function.Basic
import OpenClaw.Logic.Run
import OpenClaw.TeeVault.VaultEntries

namespace OpenClaw.TeeVault

open OpenClaw.Logic OpenClaw.Data OpenClaw.Reef

/-! ## Histories -/

/-- What an owner gives to an entry. -/
inductive Held where
  | value (bytes : Bytes)
  | hsm
  deriving DecidableEq

def StoreEntryParams.held (params : StoreEntryParams) : Held :=
  if params.hsmResident.getD false then .hsm else .value params.value

/-- A vault and its owner: the envelope, the master key, and what happened so far. -/
structure Vault where
  envelope : VaultEnvelope Nat
  vmk : Bytes
  encryptions : List Encryption
  /-- The ids drawn so far, each with what its entry was given. -/
  given : List (JsString × Held)
  masterKeys : List Bytes

inductive VaultCall where
  | addEntry (params : StoreEntryParams) (draws : Draws)
  | deleteEntry (label : JsString) (draws : Draws)
  | rotateEntry (label : JsString) (draws : Draws)
  | rotateAllEntries (newVmk : Bytes) (draws : Draws)

/-- What the caller has after a call: the new envelope, or its own one when the call threw. -/
def envelopeAfter (envelope : VaultEnvelope Nat) : Except JsString (VaultEnvelope Nat) → VaultEnvelope Nat
  | .ok updated => updated
  | .error _ => envelope

section Steps

variable (node : NodeCrypto)

def vaultStep (v : Vault) : VaultCall → Vault
  | .addEntry params draws =>
    let (result, encryptions) := addEntry node v.envelope v.vmk params draws
    { v with
      envelope := envelopeAfter v.envelope (result.map Prod.fst)
      encryptions := v.encryptions ++ encryptions
      given := if result.isOk then (draws.uuid.text, params.held) :: v.given else v.given }
  | .deleteEntry label draws =>
    { v with envelope := envelopeAfter v.envelope (deleteEntry node v.envelope v.vmk label draws) }
  | .rotateEntry label draws =>
    let (result, encryptions) := rotateEntry node v.envelope v.vmk label draws
    { v with
      envelope := envelopeAfter v.envelope result
      encryptions := v.encryptions ++ encryptions }
  | .rotateAllEntries newVmk draws =>
    let (result, encryptions) := rotateAllEntries node v.envelope v.vmk newVmk draws
    { v with
      envelope := envelopeAfter v.envelope result
      vmk := if result.isOk then newVmk else v.vmk
      encryptions := v.encryptions ++ encryptions
      masterKeys := newVmk :: v.masterKeys }

/-- A vault as it is created. -/
def emptyVault (sealedVmk : JsString) (backend : BackendType) (vmk : Bytes) (now : JsString) : Vault :=
  { envelope := createEmptyEnvelope node sealedVmk backend vmk now, vmk, encryptions := [], given := []
    masterKeys := [vmk] }

/-- What a call draws was not drawn before. -/
def Fresh (v : Vault) : VaultCall → Prop
  | .addEntry _ draws => draws.uuid.text ∉ v.given.map Prod.fst
  | .rotateAllEntries newVmk _ => newVmk ∉ v.masterKeys
  | _ => True

end Steps

/-! ## What the owner stored -/

abbrev Holdings := JsString → Option Held

/-- What is stored after a call: what a free label was given, and nothing under a deleted one. -/
def hold (holdings : Holdings) : VaultCall → Holdings
  | .addEntry params _ =>
    if (holdings params.label).isSome then holdings
    else Function.update holdings params.label (some params.held)
  | .deleteEntry label _ => Function.update holdings label none
  | _ => holdings

def heldAfter (script : List VaultCall) : Holdings := run hold (fun _ => none) script

/-! ## Entries that hold a value -/

variable {node : NodeCrypto} {vmk vmk' : Bytes} {entry : VaultEntry Nat} {plaintext : Bytes}

/-- The entry has the value sealed in it. -/
structure Seals (node : NodeCrypto) (vmk : Bytes) (entry : VaultEntry Nat) (plaintext : Bytes) (iv : Iv) : Prop where
  resident : entry.hsmResident = false
  texts : entry = entry.withSealed iv
    (aesGcmEncrypt node (deriveEntryKey node vmk entry.id (JsonNumber.text entry.version)) iv plaintext)

inductive Holds (node : NodeCrypto) (vmk : Bytes) (entry : VaultEntry Nat) : Held → Prop
  | value (plaintext : Bytes) (iv : Iv) : Seals node vmk entry plaintext iv → Holds node vmk entry (.value plaintext)
  | hsm : entry.hsmResident = true → entry.ciphertext = none → entry.authTag = none → Holds node vmk entry .hsm

theorem seals_encryptEntry (node : NodeCrypto) (vmk : Bytes) (iv : Iv) (plaintext : Bytes)
    (h : entry.hsmResident = false) : Seals node vmk (encryptEntry node vmk entry iv plaintext).1 plaintext iv :=
  ⟨h, rfl⟩

theorem decryptEntry_of_seals {iv : Iv} (h : Seals node vmk entry plaintext iv) :
    decryptEntry node vmk entry = .ok plaintext := by
  rw [decryptEntry, h.texts]
  simp only [VaultEntry.withSealed, bufferFromBase64, node.fromBase64_base64]
  exact aesGcmDecrypt_encrypt node _ _ _

@[simp] theorem VaultEntry.revised_resident (entry : VaultEntry Nat) (version : Nat) (modifiedAt : JsString) :
    (entry.revised version modifiedAt).hsmResident = entry.hsmResident := rfl

theorem base64_eq_nil {bytes : Bytes} : base64 bytes = [] ↔ bytes = [] := by
  match bytes with
  | [] => simp [base64]
  | [_] => simp [base64]
  | [_, _] => simp [base64]
  | _ :: _ :: _ :: _ => simp [base64]

/-- Of the texts of an entry that was sealed, only the ciphertext can be empty: that of the empty value is. -/
theorem missing_of_seals {iv : Iv} (h : Seals node vmk entry plaintext iv) :
    (missing entry.iv || missing entry.ciphertext || missing entry.authTag) = decide (plaintext = []) := by
  let key := deriveEntryKey node vmk entry.id (JsonNumber.text entry.version)
  have hiv : iv.bytes ≠ [] := by
    intro hnil
    have := iv.length_bytes
    simp [hnil] at this
  have htag : (node.gcmSeal key iv plaintext).2 ≠ [] := by
    intro hnil
    have := node.length_authTag key iv plaintext
    simp [hnil] at this
  have hciphertext : (node.gcmSeal key iv plaintext).1 = [] ↔ plaintext = [] := by
    rw [← List.length_eq_zero_iff, node.length_ciphertext, List.length_eq_zero_iff]
  rw [h.texts]
  simp only [missing, VaultEntry.withSealed, Option.getD_some, unitsOf_eq_nil, base64_eq_nil, aesGcmEncrypt]
  simp only [hiv, htag, key, hciphertext, decide_false, Bool.false_or, Bool.or_false]

/-- **What `retrieveEntry` gives for an entry with a sealed value.** -/
theorem retrieveEntry_of_seals {envelope : VaultEnvelope Nat} {label : JsString} {iv : Iv}
    (hfind : envelope.entries.find? (·.label = label) = some entry) (h : Seals node vmk entry plaintext iv) :
    retrieveEntry node envelope vmk label =
      if plaintext = [] then .error (units "Entry " ++ quoted label ++ units " has no encrypted data")
      else .ok (entry, plaintext) := by
  unfold retrieveEntry
  rw [hfind]
  simp only [h.resident, Bool.false_eq_true, if_false, missing_of_seals h, decide_eq_true_eq, decryptEntry_of_seals h]
  rfl

/-! ## The invariant -/

/-- What tells the key of one encryption from that of another. -/
def Encryption.slot (e : Encryption) : Bytes × JsString × Nat := (e.vmk, e.entryId, e.version)

/-- What stays of an entry when it is sealed again. -/
def VaultEntry.name (entry : VaultEntry Nat) : JsString × JsString := (entry.id, entry.label)

theorem encryptEntry_revised_name (node : NodeCrypto) (vmk : Bytes) (entry : VaultEntry Nat) (version : Nat)
    (modifiedAt : JsString) (iv : Iv) (plaintext : Bytes) :
    (encryptEntry node vmk (entry.revised version modifiedAt) iv plaintext).1.name = entry.name := rfl

structure VaultInv (node : NodeCrypto) (v : Vault) (holdings : Holdings) : Prop where
  touched : Touched node v.envelope v.vmk
  labels : (v.envelope.entries.map VaultEntry.label).Nodup
  ids : (v.envelope.entries.map VaultEntry.id).Nodup
  givenIds : (v.given.map Prod.fst).Nodup
  bound : ∀ entry ∈ v.envelope.entries, ∀ held, holdings entry.label = some held → (entry.id, held) ∈ v.given
  holds : ∀ entry ∈ v.envelope.entries, ∃ held, holdings entry.label = some held ∧ Holds node v.vmk entry held
  stored : ∀ label, (holdings label).isSome → ∃ entry ∈ v.envelope.entries, entry.label = label
  slots : (v.encryptions.map Encryption.slot).Nodup
  usedKeys : ∀ e ∈ v.encryptions, e.vmk ∈ v.masterKeys
  usedIds : ∀ e ∈ v.encryptions, (e.entryId, .value e.plaintext) ∈ v.given
  current : v.vmk ∈ v.masterKeys
  versions : ∀ e ∈ v.encryptions, ∀ entry ∈ v.envelope.entries, e.vmk = v.vmk → e.entryId = entry.id →
    e.version ≤ entry.version

variable {v : Vault} {holdings : Holdings}

theorem VaultInv.find (h : VaultInv node v holdings) (hentry : entry ∈ v.envelope.entries) :
    v.envelope.entries.find? (·.label = entry.label) = some entry := by
  cases hfind : v.envelope.entries.find? (·.label = entry.label) with
  | none =>
    have := List.find?_eq_none.mp hfind entry hentry
    simp at this
  | some found =>
    have hlabel : found.label = entry.label := by simpa using List.find?_some hfind
    exact congrArg some (List.inj_on_of_nodup_map h.labels (List.mem_of_find?_eq_some hfind) hentry hlabel)

/-- The rule for rotations: entries sealed again one for one, with encryptions that are theirs. -/
theorem VaultInv.reseal (h : VaultInv node v holdings) {envelope : VaultEnvelope Nat}
    {encryptions : List Encryption} {masterKeys : List Bytes} (htouched : Touched node envelope vmk')
    (hnames : envelope.entries.map VaultEntry.name = v.envelope.entries.map VaultEntry.name)
    (hholds : ∀ entry ∈ envelope.entries, ∀ held, holdings entry.label = some held → Holds node vmk' entry held)
    (hslots : (encryptions.map Encryption.slot).Nodup)
    (hnew : ∀ old ∈ v.encryptions, ∀ e ∈ encryptions, old.slot ≠ e.slot)
    (hentries : ∀ e ∈ encryptions, e.vmk = vmk' ∧ ∃ entry ∈ envelope.entries, e.entryId = entry.id ∧
      e.version = entry.version ∧ holdings entry.label = some (.value e.plaintext))
    (hversions : ∀ old ∈ v.encryptions, ∀ entry ∈ envelope.entries, old.vmk = vmk' → old.entryId = entry.id →
      old.version ≤ entry.version)
    (hkeys : ∀ key ∈ v.masterKeys, key ∈ masterKeys) (hkey : vmk' ∈ masterKeys) :
    VaultInv node
      { envelope, vmk := vmk', encryptions := v.encryptions ++ encryptions, given := v.given, masterKeys }
      holdings := by
  have hlabels : envelope.entries.map VaultEntry.label = v.envelope.entries.map VaultEntry.label := by
    simpa [Function.comp_def, VaultEntry.name] using congrArg (List.map Prod.snd) hnames
  have hids : envelope.entries.map VaultEntry.id = v.envelope.entries.map VaultEntry.id := by
    simpa [Function.comp_def, VaultEntry.name] using congrArg (List.map Prod.fst) hnames
  -- an entry has the id and the label of one that was there, and the other way round
  have hold : ∀ entry ∈ envelope.entries, ∃ old ∈ v.envelope.entries, old.id = entry.id ∧ old.label = entry.label := by
    intro entry hentry
    have hname := List.mem_map_of_mem (f := VaultEntry.name) hentry
    rw [hnames] at hname
    obtain ⟨old, hmem, heq⟩ := List.mem_map.mp hname
    exact ⟨old, hmem, (Prod.mk.inj heq).1, (Prod.mk.inj heq).2⟩
  have hidsNodup : (envelope.entries.map VaultEntry.id).Nodup := hids ▸ h.ids
  constructor
  case touched => exact htouched
  case labels => exact hlabels ▸ h.labels
  case ids => exact hidsNodup
  case givenIds => exact h.givenIds
  case bound =>
    intro entry hentry held hheld
    obtain ⟨old, hmem, hid, hlabel⟩ := hold entry hentry
    exact hid ▸ h.bound old hmem held (hlabel ▸ hheld)
  case holds =>
    intro entry hentry
    obtain ⟨old, hmem, -, hlabel⟩ := hold entry hentry
    obtain ⟨held, hheld, -⟩ := h.holds old hmem
    rw [hlabel] at hheld
    exact ⟨held, hheld, hholds entry hentry held hheld⟩
  case stored =>
    intro label hlabel
    obtain ⟨old, hmem, rfl⟩ := h.stored label hlabel
    have := List.mem_map_of_mem (f := VaultEntry.label) hmem
    rw [← hlabels] at this
    obtain ⟨entry, hentry, heq⟩ := List.mem_map.mp this
    exact ⟨entry, hentry, heq⟩
  case slots =>
    rw [List.map_append]
    refine List.nodup_append.mpr ⟨h.slots, hslots, ?_⟩
    intro slot hslot slot' hslot'
    obtain ⟨old, hmem, rfl⟩ := List.mem_map.mp hslot
    obtain ⟨e, he, rfl⟩ := List.mem_map.mp hslot'
    exact hnew old hmem e he
  case usedKeys =>
    intro e he
    rcases List.mem_append.mp he with hmem | hmem
    · exact hkeys _ (h.usedKeys e hmem)
    · exact (hentries e hmem).1 ▸ hkey
  case usedIds =>
    intro e he
    rcases List.mem_append.mp he with hmem | hmem
    · exact h.usedIds e hmem
    · obtain ⟨-, entry, hentry, hid, -, hheld⟩ := hentries e hmem
      obtain ⟨old, hmem, hold, hlabel⟩ := hold entry hentry
      rw [hid, ← hold]
      exact h.bound old hmem _ (hlabel ▸ hheld)
  case current => exact hkey
  case versions =>
    intro e he entry hentry hvmk hid
    rcases List.mem_append.mp he with hmem | hmem
    · exact hversions e hmem entry hentry hvmk hid
    · obtain ⟨-, other, hother, hotherId, hversion, -⟩ := hentries e hmem
      obtain rfl := List.inj_on_of_nodup_map hidsNodup hother hentry (hotherId.symm.trans hid)
      exact hversion.le

theorem vaultInv_empty (node : NodeCrypto) (sealedVmk : JsString) (backend : BackendType) (vmk : Bytes)
    (now : JsString) : VaultInv node (emptyVault node sealedVmk backend vmk now) (fun _ => none) := by
  constructor
  case touched => exact touched_empty node sealedVmk backend vmk now
  all_goals simp [emptyVault, createEmptyEnvelope]

/-! ## One call -/

/-- A label is held exactly when an entry has it. -/
theorem VaultInv.held_iff (h : VaultInv node v holdings) (label : JsString) :
    (holdings label).isSome ↔ v.envelope.entries.any (·.label = label) = true := by
  simp only [List.any_eq_true, decide_eq_true_eq]
  constructor
  · exact h.stored label
  · rintro ⟨entry, hentry, rfl⟩
    obtain ⟨held, hheld, -⟩ := h.holds entry hentry
    simp [hheld]

/-- The new entry of `addEntry` holds what the owner gave, and its key was never used. -/
theorem VaultInv.add (h : VaultInv node v holdings) (hids : entry.id ∉ v.given.map Prod.fst)
    (hlabel : holdings entry.label = none) {held : Held} (hholds : Holds node v.vmk entry held)
    {encryptions : List Encryption} (hslots : (encryptions.map Encryption.slot).Nodup)
    (hown : ∀ e ∈ encryptions, e.vmk = v.vmk ∧ e.entryId = entry.id ∧ e.version ≤ entry.version ∧
      held = .value e.plaintext) (now : JsString) :
    VaultInv node
      { v with
        envelope := touchEnvelope node { v.envelope with entries := v.envelope.entries ++ [entry] } v.vmk now
        encryptions := v.encryptions ++ encryptions
        given := (entry.id, held) :: v.given }
      (Function.update holdings entry.label (some held)) := by
  have hnewLabel : ∀ old ∈ v.envelope.entries, old.label ≠ entry.label := by
    intro old hold heq
    obtain ⟨held, hheld, -⟩ := h.holds old hold
    rw [heq, hlabel] at hheld
    cases hheld
  have hnewId : ∀ old ∈ v.envelope.entries, old.id ≠ entry.id := by
    intro old hold heq
    obtain ⟨held, hheld, -⟩ := h.holds old hold
    exact hids (heq ▸ List.mem_map_of_mem (h.bound old hold held hheld))
  have hnewUse : ∀ e ∈ v.encryptions, e.entryId ≠ entry.id := by
    intro e he heq
    exact hids (heq ▸ List.mem_map_of_mem (h.usedIds e he))
  constructor
  case touched => exact touched_touch node _ _ _
  case labels =>
    simp only [touchEnvelope, List.map_append, List.map_cons, List.map_nil]
    refine List.nodup_append.mpr ⟨h.labels, List.nodup_singleton _, ?_⟩
    intro label hmem label' hmem'
    obtain ⟨old, hold, rfl⟩ := List.mem_map.mp hmem
    rw [List.mem_singleton.mp hmem']
    exact hnewLabel old hold
  case ids =>
    simp only [touchEnvelope, List.map_append, List.map_cons, List.map_nil]
    refine List.nodup_append.mpr ⟨h.ids, List.nodup_singleton _, ?_⟩
    intro id hmem id' hmem'
    obtain ⟨old, hold, rfl⟩ := List.mem_map.mp hmem
    rw [List.mem_singleton.mp hmem']
    exact hnewId old hold
  case givenIds => exact List.nodup_cons.mpr ⟨hids, h.givenIds⟩
  case bound =>
    intro other hother held' hheld'
    rcases List.mem_append.mp hother with hold | hnew
    · rw [Function.update_of_ne (hnewLabel other hold)] at hheld'
      exact List.mem_cons_of_mem _ (h.bound other hold held' hheld')
    · rw [List.mem_singleton.mp hnew, Function.update_self] at hheld'
      rw [List.mem_singleton.mp hnew, ← Option.some.inj hheld']
      exact List.mem_cons_self
  case holds =>
    intro other hother
    rcases List.mem_append.mp hother with hold | hnew
    · rw [Function.update_of_ne (hnewLabel other hold)]
      exact h.holds other hold
    · rw [List.mem_singleton.mp hnew, Function.update_self]
      exact ⟨held, rfl, hholds⟩
  case stored =>
    intro label hstored
    by_cases heq : label = entry.label
    · exact ⟨entry, List.mem_append_right _ List.mem_cons_self, heq.symm⟩
    · rw [Function.update_of_ne heq] at hstored
      obtain ⟨old, hold, hlabel⟩ := h.stored label hstored
      exact ⟨old, List.mem_append_left _ hold, hlabel⟩
  case slots =>
    rw [List.map_append]
    refine List.nodup_append.mpr ⟨h.slots, hslots, ?_⟩
    intro slot hslot slot' hslot' heq
    obtain ⟨old, hold, rfl⟩ := List.mem_map.mp hslot
    obtain ⟨e, he, rfl⟩ := List.mem_map.mp hslot'
    have hid : old.entryId = e.entryId := congrArg (fun slot => slot.2.1) heq
    exact hnewUse old hold (hid.trans (hown e he).2.1)
  case usedKeys =>
    intro e he
    rcases List.mem_append.mp he with hold | hnew
    · exact h.usedKeys e hold
    · exact (hown e hnew).1 ▸ h.current
  case usedIds =>
    intro e he
    rcases List.mem_append.mp he with hold | hnew
    · exact List.mem_cons_of_mem _ (h.usedIds e hold)
    · rw [(hown e hnew).2.1, ← (hown e hnew).2.2.2]
      exact List.mem_cons_self
  case current => exact h.current
  case versions =>
    intro e he other hother hvmk hid
    rcases List.mem_append.mp he with hold | hnew <;> rcases List.mem_append.mp hother with hother | hother
    · exact h.versions e hold other hother hvmk hid
    · rw [List.mem_singleton.mp hother] at hid
      exact absurd hid (hnewUse e hold)
    · exact absurd (hid.symm.trans (hown e hnew).2.1) (hnewId other hother)
    · rw [List.mem_singleton.mp hother]
      exact (hown e hnew).2.2.1

theorem VaultInv.addEntry (h : VaultInv node v holdings) (params : StoreEntryParams) (draws : Draws)
    (hfresh : draws.uuid.text ∉ v.given.map Prod.fst) :
    VaultInv node (vaultStep node v (.addEntry params draws)) (hold holdings (.addEntry params draws)) := by
  unfold vaultStep TeeVault.addEntry hold
  by_cases hheld : (holdings params.label).isSome
  · -- the label is taken
    simp only [(h.held_iff params.label).mp hheld, if_true, hheld, envelopeAfter, Except.map, List.append_nil,
      Except.isOk, Except.toBool, Bool.false_eq_true, if_false]
    exact h
  · have hany : ¬v.envelope.entries.any (·.label = params.label) = true := fun hany =>
      hheld ((h.held_iff params.label).mpr hany)
    have hnone : holdings params.label = none := by simpa using hheld
    simp only [hany, hheld, Bool.false_eq_true, if_false, envelopeAfter, Except.map, Except.isOk, Except.toBool, if_true]
    by_cases hresident : params.hsmResident.getD false = true
    · have hparams : params.held = .hsm := by simp [StoreEntryParams.held, hresident]
      simp only [hresident, if_true, hparams]
      refine h.add ?_ ?_ ?_ ?_ ?_ _
      · exact hfresh
      · exact hnone
      · exact .hsm rfl rfl rfl
      · exact List.nodup_nil
      · simp
    · have hparams : params.held = .value params.value := by simp [StoreEntryParams.held, hresident]
      simp only [hresident, Bool.false_eq_true, if_false, hparams]
      refine h.add ?_ ?_ ?_ ?_ ?_ _
      · exact hfresh
      · exact hnone
      · exact .value _ _ (seals_encryptEntry node v.vmk _ _ rfl)
      · exact List.nodup_singleton _
      · intro e he
        rw [List.mem_singleton.mp he]
        exact ⟨rfl, rfl, le_rfl, rfl⟩

theorem VaultInv.deleteEntry (h : VaultInv node v holdings) (label : JsString) (draws : Draws) :
    VaultInv node (vaultStep node v (.deleteEntry label draws)) (hold holdings (.deleteEntry label draws)) := by
  unfold vaultStep TeeVault.deleteEntry hold
  cases hidx : v.envelope.entries.findIdx? (·.label = label) with
  | none =>
    have hnone : holdings label = none := by
      by_contra hheld
      obtain ⟨entry, hentry, hlabel⟩ := h.stored label (Option.isSome_iff_ne_none.mpr hheld)
      have := List.findIdx?_eq_none_iff.mp hidx entry hentry
      simp [hlabel] at this
    simp only [hidx, envelopeAfter]
    rw [show Function.update holdings label none = holdings by rw [← hnone, Function.update_eq_self]]
    exact h
  | some idx =>
    obtain ⟨hlt, hlabel, -⟩ := List.findIdx?_eq_some_iff_getElem.mp hidx
    simp only [decide_eq_true_eq] at hlabel
    have hsub : (v.envelope.entries.eraseIdx idx).Sublist v.envelope.entries := List.eraseIdx_sublist _ _
    have hkept : ∀ entry ∈ v.envelope.entries.eraseIdx idx, entry.label ≠ label := by
      intro entry hentry heq
      obtain ⟨i, hi, hne, rfl⟩ := List.mem_eraseIdx_iff_getElem.mp hentry
      have hi' : i < (v.envelope.entries.map (·.label)).length := by simpa using hi
      have hlt' : idx < (v.envelope.entries.map (·.label)).length := by simpa using hlt
      have hsame : (v.envelope.entries.map (·.label))[i] = (v.envelope.entries.map (·.label))[idx] := by
        simp [heq, hlabel]
      exact hne ((List.Nodup.getElem_inj_iff h.labels).mp hsame)
    simp only [hidx, envelopeAfter]
    constructor
    case touched => exact touched_touch node _ _ _
    case labels => exact h.labels.sublist (hsub.map _)
    case ids => exact h.ids.sublist (hsub.map _)
    case givenIds => exact h.givenIds
    case bound =>
      intro entry hentry held hheld
      rw [Function.update_of_ne (hkept entry hentry)] at hheld
      exact h.bound entry (hsub.mem hentry) held hheld
    case holds =>
      intro entry hentry
      rw [Function.update_of_ne (hkept entry hentry)]
      exact h.holds entry (hsub.mem hentry)
    case stored =>
      intro other hother
      by_cases heq : other = label
      · simp [heq] at hother
      · rw [Function.update_of_ne heq] at hother
        obtain ⟨entry, hentry, rfl⟩ := h.stored other hother
        obtain ⟨i, hi, rfl⟩ := List.mem_iff_getElem.mp hentry
        refine ⟨_, List.mem_eraseIdx_iff_getElem.mpr ⟨i, hi, ?_, rfl⟩, rfl⟩
        rintro rfl
        exact heq hlabel
    case slots => exact h.slots
    case usedKeys => exact h.usedKeys
    case usedIds => exact h.usedIds
    case current => exact h.current
    case versions => exact fun e he entry hentry => h.versions e he entry (hsub.mem hentry)

/-- A call that changes nothing and encrypts nothing. -/
theorem VaultInv.unchanged (h : VaultInv node v holdings) :
    VaultInv node { v with encryptions := v.encryptions ++ [] } holdings := by
  rw [List.append_nil]
  exact h

theorem VaultInv.rotateEntry (h : VaultInv node v holdings) (label : JsString) (draws : Draws) :
    VaultInv node (vaultStep node v (.rotateEntry label draws)) holdings := by
  unfold vaultStep TeeVault.rotateEntry
  cases hidx : v.envelope.entries.findIdx? (·.label = label) with
  | none =>
    simp only [hidx]
    exact h.unchanged
  | some idx =>
    obtain ⟨hlt, hlabel, -⟩ := List.findIdx?_eq_some_iff_getElem.mp hidx
    have hget : v.envelope.entries[idx]? = some v.envelope.entries[idx] := List.getElem?_eq_getElem hlt
    have hmem : v.envelope.entries[idx] ∈ v.envelope.entries := List.getElem_mem hlt
    generalize hentry : v.envelope.entries[idx] = entry at hget hmem
    simp only [hidx, hget]
    obtain ⟨held, hheld, hholds⟩ := h.holds entry hmem
    cases hholds with
    | hsm hresident hciphertext htag =>
      simp only [hresident, if_true]
      exact h.unchanged
    | value plaintext iv hseals =>
      simp only [hseals.resident, Bool.false_eq_true, if_false, decryptEntry_of_seals hseals]
      have hsealed := seals_encryptEntry node v.vmk (draws.nonce 0) plaintext
        ((entry.revised_resident (entry.version + 1) (draws.now 0)).trans hseals.resident)
      have hname := encryptEntry_revised_name node v.vmk entry (entry.version + 1) (draws.now 0)
        (draws.nonce 0) plaintext
      generalize hnew : (encryptEntry node v.vmk (entry.revised (entry.version + 1) (draws.now 0))
        (draws.nonce 0) plaintext).1 = newEntry at hsealed hname
      have hnewVersion : newEntry.version = entry.version + 1 := by rw [← hnew]; rfl
      have hnewMem : newEntry ∈ v.envelope.entries.set idx newEntry := List.mem_set hlt newEntry
      simp only [envelopeAfter]
      refine h.reseal ?_ ?_ ?_ (List.nodup_singleton _) ?_ ?_ ?_ (fun _ hkey => hkey) h.current
      · exact touched_touch node _ _ _
      · -- the names are those that were there
        simp only [touchEnvelope, List.map_set, hname]
        rw [← hentry]
        refine List.ext_getElem? fun i => ?_
        by_cases hi : idx = i
        · subst hi
          simp [hlt]
        · rw [List.getElem?_set_ne hi]
      · intro other hother held' hheld'
        rcases List.mem_or_eq_of_mem_set hother with hold | rfl
        · obtain ⟨held, hsame, hholds⟩ := h.holds other hold
          rw [hsame] at hheld'
          exact Option.some.inj hheld' ▸ hholds
        · rw [(Prod.mk.inj hname).2, hheld] at hheld'
          exact Option.some.inj hheld' ▸ .value plaintext _ hsealed
      · -- an older use of the entry was under an older version
        intro old hold e he heq
        rw [List.mem_singleton.mp he] at heq
        obtain ⟨hvmk, hrest⟩ := Prod.mk.inj heq
        obtain ⟨holdId, holdVersion⟩ := Prod.mk.inj hrest
        have := h.versions old hold entry hmem hvmk holdId
        have : old.version = entry.version + 1 := holdVersion
        omega
      · intro e he
        rw [List.mem_singleton.mp he]
        refine ⟨rfl, newEntry, hnewMem, ?_, ?_, ?_⟩
        · exact (Prod.mk.inj hname).1.symm
        · exact hnewVersion.symm
        · rw [(Prod.mk.inj hname).2, hheld]
          rfl
      · intro old hold other hother hvmk holdId
        rcases List.mem_or_eq_of_mem_set hother with hmemOther | rfl
        · exact h.versions old hold other hmemOther hvmk holdId
        · have := h.versions old hold entry hmem hvmk (holdId.trans (Prod.mk.inj hname).1)
          omega

/-- What the loop of `rotateAllEntries` makes of entries that hold what is stored. -/
structure RotatedRest (node : NodeCrypto) (newVmk : Bytes) (holdings : Holdings) (entries newEntries : List (VaultEntry Nat))
    (encryptions : List Encryption) : Prop where
  names : newEntries.map VaultEntry.name = entries.map VaultEntry.name
  holds : ∀ entry ∈ newEntries, ∀ held, holdings entry.label = some held → Holds node newVmk entry held
  uses : (encryptions.map Encryption.entryId).Sublist (entries.map VaultEntry.id)
  own : ∀ e ∈ encryptions, e.vmk = newVmk ∧ ∃ entry ∈ newEntries, e.entryId = entry.id ∧
    e.version = entry.version ∧ holdings entry.label = some (.value e.plaintext)

theorem rotateRest_spec (oldVmk newVmk : Bytes) (draws : Draws) (entries : List (VaultEntry Nat)) :
    ∀ i, (∀ entry ∈ entries, ∃ held, holdings entry.label = some held ∧ Holds node oldVmk entry held) →
      ∃ newEntries encryptions, rotateRest node oldVmk newVmk draws i entries = (.ok newEntries, encryptions) ∧
        RotatedRest node newVmk holdings entries newEntries encryptions := by
  induction entries with
  | nil =>
    intro i _
    exact ⟨[], [], rfl, rfl, by simp, by simp, by simp⟩
  | cons entry entries ih =>
    intro i hall
    obtain ⟨newEntries, encryptions, hrest, hspec⟩ :=
      ih (i + 1) fun other hother => hall other (List.mem_cons_of_mem _ hother)
    obtain ⟨held, hheld, hholds⟩ := hall entry List.mem_cons_self
    cases hholds with
    | hsm hresident hciphertext htag =>
      refine ⟨entry :: newEntries, encryptions, ?_, ?_, ?_, ?_, ?_⟩
      · rw [rotateRest, hrest]
        simp only [hresident, if_true, Except.map]
      · simp [hspec.names]
      · intro other hother held' hheld'
        rcases List.mem_cons.mp hother with rfl | hother
        · rw [hheld] at hheld'
          exact Option.some.inj hheld' ▸ .hsm hresident hciphertext htag
        · exact hspec.holds other hother held' hheld'
      · exact hspec.uses.trans (List.sublist_cons_self _ _)
      · intro e he
        obtain ⟨hvmk, other, hother, hrest⟩ := hspec.own e he
        exact ⟨hvmk, other, List.mem_cons_of_mem _ hother, hrest⟩
    | value plaintext iv hseals =>
      have hsealed := seals_encryptEntry node newVmk (draws.nonce i) plaintext
        ((entry.revised_resident 1 (draws.now i)).trans hseals.resident)
      have hname := encryptEntry_revised_name node newVmk entry 1 (draws.now i) (draws.nonce i) plaintext
      have hlabel := (Prod.mk.inj hname).2
      refine ⟨(encryptEntry node newVmk (entry.revised 1 (draws.now i)) (draws.nonce i) plaintext).1 :: newEntries,
        (encryptEntry node newVmk (entry.revised 1 (draws.now i)) (draws.nonce i) plaintext).2 :: encryptions,
        ?_, ?_, ?_, ?_, ?_⟩
      · rw [rotateRest, hrest]
        simp only [hseals.resident, Bool.false_eq_true, if_false, decryptEntry_of_seals hseals, Except.map]
      · simp [hspec.names, hname]
      · intro other hother held' hheld'
        rcases List.mem_cons.mp hother with rfl | hother
        · rw [hlabel, hheld] at hheld'
          exact Option.some.inj hheld' ▸ .value plaintext _ hsealed
        · exact hspec.holds other hother held' hheld'
      · exact hspec.uses.cons_cons entry.id
      · intro e he
        rcases List.mem_cons.mp he with rfl | he
        · exact ⟨rfl, _, List.mem_cons_self, rfl, rfl, hlabel ▸ hheld⟩
        · obtain ⟨hvmk, other, hother, hrest⟩ := hspec.own e he
          exact ⟨hvmk, other, List.mem_cons_of_mem _ hother, hrest⟩

theorem VaultInv.rotateAllEntries (h : VaultInv node v holdings) (newVmk : Bytes) (draws : Draws)
    (hfresh : newVmk ∉ v.masterKeys) :
    VaultInv node (vaultStep node v (.rotateAllEntries newVmk draws)) holdings := by
  obtain ⟨newEntries, encryptions, hrest, hspec⟩ := rotateRest_spec v.vmk newVmk draws v.envelope.entries 0 h.holds
  have hold : ∀ old ∈ v.encryptions, old.vmk ≠ newVmk := fun old hold heq => hfresh (heq ▸ h.usedKeys old hold)
  have hslots : (encryptions.map Encryption.slot).Nodup := by
    refine List.Nodup.of_map (fun slot => slot.2.1) ?_
    rw [List.map_map]
    exact h.ids.sublist hspec.uses
  unfold vaultStep TeeVault.rotateAllEntries
  simp only [hrest, Except.map, envelopeAfter, Except.isOk, Except.toBool, if_true]
  refine h.reseal ?_ hspec.names hspec.holds hslots ?_ hspec.own ?_ ?_ List.mem_cons_self
  · exact touched_touch node _ _ _
  · intro old hmem e he heq
    exact hold old hmem ((Prod.mk.inj heq).1.trans (hspec.own e he).1)
  · exact fun old hmem entry _ heq => absurd heq (hold old hmem)
  · exact fun key hkey => List.mem_cons_of_mem _ hkey

end OpenClaw.TeeVault
