/-
# OpenClaw.WorkerEnvironments.EnvironmentCredentials -- a credential ends with its ownership

A stored credential matches its environment in every reachable state, so its owner epoch is the
environment's.  Ending an ownership moves the environment to a larger epoch for good; a credential of
the ended ownership can then not be found again, neither by environment nor by hash.
-/
import OpenClaw.WorkerEnvironments.EnvironmentOwnership

namespace OpenClaw.WorkerEnvironments.Environment

open OpenClaw.Logic OpenClaw.Data

theorem credentialsConsistent_run (script : List EnvironmentOp) {db : EnvironmentDb}
    (h : CredentialsConsistent db) : CredentialsConsistent (run applyOp db script) :=
  run_invariant (P := CredentialsConsistent) (fun db op hc => (call_spec db op).credential hc) script
    h

/-- The credential minted for environment `id` at `ownerEpoch` cannot be looked up in `db`: what is
found for that environment belongs to a later ownership. -/
def NeverFound (db : EnvironmentDb) (id : String) (ownerEpoch : Int) : Prop :=
  (∀ found, findCredential db id = .ok (some found) → ownerEpoch < found.ownerEpoch) ∧
  ∀ credentialHash found, findCredentialByHash db credentialHash = .ok (some found) →
    found.environmentId = id → ownerEpoch < found.ownerEpoch

theorem credentialFromRow_eq_ok {id : String} {row : CredentialRow} {record : WorkerCredentialRecord}
    (h : credentialFromRow id row = .ok record) : record.environmentId = id ∧ record.ownerEpoch = row.ownerEpoch := by
  simp only [credentialFromRow, bind_eq_ok, pure_eq_ok] at h
  obtain ⟨_, _, rfl⟩ := h
  exact ⟨rfl, rfl⟩

/-- Both lookups go through the environment's credential row. -/
theorem neverFound_of_rows {db : EnvironmentDb} {id : String} {ownerEpoch : Int}
    (h : ∀ credential, db.credentials.find id = some credential →
      ownerEpoch < credential.ownerEpoch) : NeverFound db id ownerEpoch := by
  constructor
  · intro found hfound
    unfold findCredential at hfound
    split at hfound
    · cases hfound
    · rename_i row hrow
      simp only [map_eq_ok] at hfound
      obtain ⟨_, hread, heq⟩ := hfound
      cases heq
      rw [(credentialFromRow_eq_ok hread).2]
      exact h row hrow
  · intro credentialHash found hfound hid
    unfold findCredentialByHash at hfound
    split at hfound
    · cases hfound
    · rename_i k row hrow
      simp only [map_eq_ok] at hfound
      obtain ⟨_, hread, heq⟩ := hfound
      cases heq
      obtain ⟨hk, hepoch⟩ := credentialFromRow_eq_ok hread
      rw [hepoch]
      have hmem := Table.mem_rows.mp (List.mem_of_find?_eq_some hrow)
      exact h row (hid ▸ hk ▸ hmem)

/-- A stored credential carries its environment's epoch. -/
theorem CredentialsConsistent.epoch {db : EnvironmentDb} (h : CredentialsConsistent db) {id : String}
    {credential : CredentialRow} (hcred : db.credentials.find id = some credential) :
    ∃ row, db.environments.find id = some row ∧ row.ownerEpoch = credential.ownerEpoch := by
  obtain ⟨record, hfind, hminted⟩ := h id credential hcred
  obtain ⟨row, hrow, hread⟩ := find_eq_some.mp hfind
  exact ⟨row, hrow, (recordOf_fromRow hread).ownerEpoch.symm.trans hminted.epoch⟩

/-- The call `op` ends the ownership of environment `id` in `db`: rebootstrapping, attaching,
detaching, draining, orphaning, or the repair of a duplicate owner. -/
def EndsOwnership (db : EnvironmentDb) (op : EnvironmentOp) (id : String) : Prop :=
  ∃ row row', db.environments.find id = some row ∧ (applyOp db op).environments.find id = some row' ∧
    endsOwnership row.state row'.state = true

/-- **Worker credential consistency.** From a database whose credentials match their environments, as
the empty one, every call keeps them matching: a stored credential's environment is ready, idle or
attached, has a receipt with the credential's bundle hash, and has the credential's owner epoch and
session.  A credential stored at some moment whose ownership a later call ends is never found
again. -/
theorem credentials_match_environments (start : EnvironmentDb) (hstart : CredentialsConsistent start)
    (script : List EnvironmentOp) :
    let db := run applyOp start script
    (∀ id credential, db.credentials.find id = some credential →
      ∃ record, find db id = .ok (some record) ∧ Minted record credential) ∧
    ∀ id credential, db.credentials.find id = some credential →
      ∀ between op, EndsOwnership (run applyOp db between) op id →
        ∀ later, NeverFound (run applyOp db (between ++ op :: later)) id credential.ownerEpoch := by
  intro db
  have hconsistent : CredentialsConsistent db := credentialsConsistent_run script hstart
  refine ⟨hconsistent, fun id credential hcred between op hends later => neverFound_of_rows ?_⟩
  intro found hfound
  rw [run_append, run_cons] at hfound
  set ended := run applyOp db between with hended
  obtain ⟨row₀, hrow₀, hepoch₀⟩ := hconsistent.epoch hcred
  -- The epoch does not go down up to the end of the ownership, goes up there, and stays up.
  obtain ⟨row₁, hrow₁, hle₁, -⟩ := epochsAdvance_run between db id row₀ hrow₀
  obtain ⟨_, row₂, hrow, hrow₂, hstate⟩ := hends
  rw [hrow₁] at hrow
  cases hrow
  obtain ⟨_, hrow₂', hstep⟩ := (call_spec ended op).epoch id row₁ hrow₁
  rw [hrow₂] at hrow₂'
  cases hrow₂'
  obtain ⟨row₃, hrow₃, hle₃, -⟩ := epochsAdvance_run later (applyOp ended op) id row₂ hrow₂
  have hlater : CredentialsConsistent (run applyOp (applyOp ended op) later) :=
    credentialsConsistent_run later
      ((call_spec ended op).credential (credentialsConsistent_run between hconsistent))
  obtain ⟨_, hrow₃', hepoch₃⟩ := hlater.epoch hfound
  rw [hrow₃] at hrow₃'
  cases hrow₃'
  calc credential.ownerEpoch = row₀.ownerEpoch := hepoch₀.symm
    _ ≤ row₁.ownerEpoch := hle₁
    _ < row₂.ownerEpoch := hstep.2 hstate
    _ ≤ row₃.ownerEpoch := hle₃
    _ = found.ownerEpoch := hepoch₃

/-- The demoted duplicate's credential cannot be found after the repair. -/
theorem credentials_match_environments_legacyDuplicates :
    NeverFound (run applyOp legacyDuplicates [.openStore 5]) "e2" 1 := by
  have hconsistent : CredentialsConsistent legacyDuplicates := by
    intro id credential hcred
    rw [legacyDuplicates, Table.find_upsert] at hcred
    split at hcred
    · rename_i hid
      subst hid
      cases hcred
      exact ⟨_, rfl, rfl, rfl, rfl, rfl⟩
    · cases hcred
  exact (credentials_match_environments legacyDuplicates hconsistent []).2 "e2" legacyCredential rfl
    [] (.openStore 5) ⟨_, _, rfl, rfl, rfl⟩ []

end OpenClaw.WorkerEnvironments.Environment
