/-
# OpenClaw.TeeVault.VaultHistory -- what the owner of a vault can rely on

Over any history of calls with fresh ids and fresh master keys: labels are unique, the entries are counted, the
integrity check accepts the envelope, no entry key is used twice, and a call that throws changes nothing.  A
stored value is retrieved exactly when it is not empty: `retrieveEntry` takes the ciphertext of the empty value
for one that is not there.
-/
import OpenClaw.Reef.Encoding
import OpenClaw.TeeVault.VaultInvariant

namespace OpenClaw.TeeVault

open OpenClaw.Logic OpenClaw.Data OpenClaw.Reef

variable {node : NodeCrypto} {v : Vault} {holdings : Holdings}

/-! ## Runs -/

/-- The vault after a script. -/
def vaultAfter (node : NodeCrypto) (sealedVmk : JsString) (backend : BackendType) (vmk : Bytes) (now : JsString)
    (script : List VaultCall) : Vault :=
  run (vaultStep node) (emptyVault node sealedVmk backend vmk now) script

/-- Ids and master keys are fresh throughout a script. -/
def FreshRun (node : NodeCrypto) (sealedVmk : JsString) (backend : BackendType) (vmk : Bytes) (now : JsString)
    (script : List VaultCall) : Prop :=
  Guarded (vaultStep node) Fresh (emptyVault node sealedVmk backend vmk now) script

theorem VaultInv.step (h : VaultInv node v holdings) (call : VaultCall) (hfresh : Fresh v call) :
    VaultInv node (vaultStep node v call) (hold holdings call) := by
  cases call with
  | addEntry params draws => exact h.addEntry params draws hfresh
  | deleteEntry label draws => exact h.deleteEntry label draws
  | rotateEntry label draws => exact h.rotateEntry label draws
  | rotateAllEntries newVmk draws => exact h.rotateAllEntries newVmk draws hfresh

/-- The envelope and what is stored go together through every script. -/
theorem VaultInv.run (script : List VaultCall) : ∀ {v : Vault} {holdings : Holdings}, VaultInv node v holdings →
    Guarded (vaultStep node) Fresh v script →
    VaultInv node (Logic.run (vaultStep node) v script) (Logic.run hold holdings script) := by
  induction script with
  | nil => exact fun h _ => h
  | cons call rest ih =>
    intro v holdings h hfresh
    exact ih (h.step call hfresh.1) hfresh.2

theorem vaultInv_after {sealedVmk : JsString} {backend : BackendType} {vmk : Bytes} {now : JsString}
    {script : List VaultCall} (hfresh : FreshRun node sealedVmk backend vmk now script) :
    VaultInv node (vaultAfter node sealedVmk backend vmk now script) (heldAfter script) :=
  (vaultInv_empty node sealedVmk backend vmk now).run script hfresh

/-! ## What the owner can rely on -/

/-- The call throws. -/
def Throws (node : NodeCrypto) (v : Vault) : VaultCall → Prop
  | .addEntry params draws => (addEntry node v.envelope v.vmk params draws).1.isOk = false
  | .deleteEntry label draws => (deleteEntry node v.envelope v.vmk label draws).isOk = false
  | .rotateEntry label draws => (rotateEntry node v.envelope v.vmk label draws).1.isOk = false
  | .rotateAllEntries newVmk draws => (rotateAllEntries node v.envelope v.vmk newVmk draws).1.isOk = false

structure Kept (node : NodeCrypto) (v : Vault) : Prop where
  labels : (v.envelope.entries.map VaultEntry.label).Nodup
  count : v.envelope.metadata.entryCount = v.envelope.entries.length
  accepted : verifyEnvelopeHmac node v.vmk v.envelope.entries v.envelope.hmac = true
  keys : (v.encryptions.map Encryption.slot).Nodup
  unchanged : ∀ call, Throws node v call →
    (vaultStep node v call).envelope = v.envelope ∧ (vaultStep node v call).vmk = v.vmk

/-- Every stored value is retrieved under its label. -/
def Retrieves (node : NodeCrypto) (v : Vault) (holdings : Holdings) : Prop :=
  ∀ label value, holdings label = some (.value value) →
    ∃ entry, retrieveEntry node v.envelope v.vmk label = .ok (entry, value)

theorem envelopeAfter_error {envelope : VaultEnvelope Nat} {result : Except JsString (VaultEnvelope Nat)}
    (h : result.isOk = false) : envelopeAfter envelope result = envelope := by
  cases result with
  | error e => rfl
  | ok updated => cases h

theorem throws_unchanged (v : Vault) (call : VaultCall) (h : Throws node v call) :
    (vaultStep node v call).envelope = v.envelope ∧ (vaultStep node v call).vmk = v.vmk := by
  cases call with
  | addEntry params draws =>
    have hthrows : (addEntry node v.envelope v.vmk params draws).1.isOk = false := h
    have hafter : (vaultStep node v (.addEntry params draws)).envelope =
        envelopeAfter v.envelope ((addEntry node v.envelope v.vmk params draws).1.map Prod.fst) := rfl
    refine ⟨?_, rfl⟩
    rw [hafter]
    cases hresult : (addEntry node v.envelope v.vmk params draws).1 with
    | error e => rfl
    | ok added =>
      rw [hresult] at hthrows
      cases hthrows
  | deleteEntry label draws => exact ⟨envelopeAfter_error h, rfl⟩
  | rotateEntry label draws => exact ⟨envelopeAfter_error h, rfl⟩
  | rotateAllEntries newVmk draws =>
    refine ⟨envelopeAfter_error h, ?_⟩
    unfold Throws at h
    simp [vaultStep, h]

theorem VaultInv.kept (h : VaultInv node v holdings) : Kept node v where
  labels := h.labels
  count := h.touched.count
  accepted := h.touched.accepted
  keys := h.slots
  unchanged := throws_unchanged v

/-- **A stored value is retrieved, unless it is empty.** -/
theorem VaultInv.retrieve (h : VaultInv node v holdings) {label : JsString} {value : Bytes}
    (hheld : holdings label = some (.value value)) :
    (∃ entry, retrieveEntry node v.envelope v.vmk label = .ok (entry, value)) ↔ value ≠ [] := by
  obtain ⟨entry, hentry, rfl⟩ := h.stored label (by simp [hheld])
  obtain ⟨held, hsame, hholds⟩ := h.holds entry hentry
  rw [hheld] at hsame
  obtain rfl := Option.some.inj hsame
  cases hholds with
  | value value iv hseals =>
    rw [retrieveEntry_of_seals (h.find hentry) hseals]
    by_cases hempty : value = []
    · simp [hempty]
    · simp [hempty]

/-- **The history of a vault.** -/
theorem vault_history (node : NodeCrypto) (sealedVmk : JsString) (backend : BackendType) (vmk : Bytes)
    (now : JsString) (script : List VaultCall) (hfresh : FreshRun node sealedVmk backend vmk now script) :
    Kept node (vaultAfter node sealedVmk backend vmk now script) ∧
      (Retrieves node (vaultAfter node sealedVmk backend vmk now script) (heldAfter script) ↔
        ∀ label value, heldAfter script label = some (.value value) → value ≠ []) := by
  have hinv := vaultInv_after hfresh
  refine ⟨hinv.kept, ?_⟩
  constructor
  · intro hretrieves label value hheld
    exact (hinv.retrieve hheld).mp (hretrieves label value hheld)
  · intro hvalues label value hheld
    exact (hinv.retrieve hheld).mpr (hvalues label value hheld)

/-! ## A vault to look at -/

/-- Sealing that hides nothing, but keeps the laws. -/
def openCrypto : NodeCrypto where
  hkdf key info := key ++ info
  gcmSeal _ _ plaintext := (plaintext, List.replicate 16 0)
  gcmOpen _ _ ciphertext authTag := if authTag = List.replicate 16 0 then some ciphertext else none
  hmac key data := key ++ data
  fromBase64 text := (((textOf text).map fromBase64).bind Except.toOption).getD []
  gcmOpen_seal _ _ _ := rfl
  length_ciphertext _ _ _ := rfl
  length_authTag _ _ _ := rfl
  fromBase64_base64 bytes := by simp [fromBase64_base64, Except.toOption]

theorem digit_hexadecimal {digit : Nat} (h : (lowerHexValue (unitOfNat (0x30 + digit))).isSome) :
    ∀ unit ∈ [unitOfNat (0x30 + digit)], unit = 0x2D ∨ (lowerHexValue unit).isSome := by
  intro unit hunit
  rw [List.mem_singleton.mp hunit]
  exact .inr h

/-- Draws of a call, by the digit of its id. -/
def sampleDraws (digit : Nat) (h : (lowerHexValue (unitOfNat (0x30 + digit))).isSome) : Draws where
  uuid := ⟨[unitOfNat (0x30 + digit)], digit_hexadecimal h⟩
  nonce _ := ⟨List.replicate 12 0, List.length_replicate⟩
  now _ := units "2026-04-21T00:00:00.000Z"

theorem isHex_zero : (lowerHexValue (unitOfNat (0x30 + 0))).isSome := rfl

theorem isHex_one : (lowerHexValue (unitOfNat (0x30 + 1))).isSome := rfl

def sampleParams (label : String) (value : Bytes) : StoreEntryParams :=
  ⟨units label, .secret, none, value, none, none⟩

/-- A value is stored, sealed again under a new version, and then under a new master key. -/
def sampleScript : List VaultCall :=
  [.addEntry (sampleParams "a" [7]) (sampleDraws 0 isHex_zero), .rotateEntry (units "a") (sampleDraws 0 isHex_zero),
    .rotateAllEntries [2] (sampleDraws 0 isHex_zero)]

theorem vault_history_three : Kept openCrypto (vaultAfter openCrypto [] .dpapi [1] [] sampleScript) ∧
    Retrieves openCrypto (vaultAfter openCrypto [] .dpapi [1] [] sampleScript) (heldAfter sampleScript) := by
  have hfresh : FreshRun openCrypto [] .dpapi [1] [] sampleScript := by
    refine ⟨?_, trivial, ?_, trivial⟩
    · simp [Fresh, emptyVault]
    · simp [Fresh, emptyVault, vaultStep]
  obtain ⟨hkept, hretrieves⟩ := vault_history openCrypto [] .dpapi [1] [] sampleScript hfresh
  refine ⟨hkept, hretrieves.mpr fun label value hheld => ?_⟩
  have hheldAfter : heldAfter sampleScript = Function.update (fun _ => none) (units "a") (some (.value [7])) := by
    simp [heldAfter, sampleScript, hold, sampleParams, StoreEntryParams.held]
  rw [hheldAfter, Function.update_apply] at hheld
  split at hheld
  · cases hheld
    simp
  · cases hheld

/-- A vault with the empty value under one label. -/
theorem empty_value_lost : ¬ ∀ (node : NodeCrypto) sealedVmk backend vmk now script,
    FreshRun node sealedVmk backend vmk now script →
    Retrieves node (vaultAfter node sealedVmk backend vmk now script) (heldAfter script) := by
  intro hall
  have hfresh : FreshRun openCrypto [] .dpapi [1] [] [.addEntry (sampleParams "a" []) (sampleDraws 0 isHex_zero)] := by
    refine ⟨?_, trivial⟩
    simp [Fresh, emptyVault]
  have hheld : heldAfter [.addEntry (sampleParams "a" []) (sampleDraws 0 isHex_zero)] (units "a") = some (.value []) := by
    simp [heldAfter, hold, sampleParams, StoreEntryParams.held]
  exact ((vaultInv_after hfresh).retrieve hheld).mp (hall _ _ _ _ _ _ hfresh _ _ hheld) rfl

end OpenClaw.TeeVault
