/-
# OpenClaw.WorkerEnvironments.EnvironmentOwnership -- one owner per session, one epoch per attachment

Opening the store repairs whatever attachments an older version left: afterwards no two attached
environments hold the same session, and no call breaks that.  A transition into `attached` takes an
owner epoch above every owner epoch and every transcript run epoch stored at that moment; stored
owner epochs never go down, so a later attachment is above every earlier one.
-/
import OpenClaw.WorkerEnvironments.EnvironmentTransition

namespace OpenClaw.WorkerEnvironments.Environment

open OpenClaw.Logic OpenClaw.Data

/-! ## The repair -/

/-- An environment that still holds a session after the demotions was not demoted. -/
theorem foldlM_demote_survivor {nowMs : Int} {k sessionId : String} {row : EnvironmentRow} :
    ∀ {duplicates : List WorkerEnvironmentRecord} {db db' : EnvironmentDb},
      duplicates.foldlM (demoteDuplicate nowMs) db = .ok db' →
      db'.environments.find k = some row → rowSession row = some sessionId →
      db.environments.find k = some row ∧ ∀ d ∈ duplicates, d.environmentId ≠ k
  | [], db, db', h, hrow, _ => by
    rw [List.foldlM_nil, pure_eq_ok] at h
    subst h
    exact ⟨hrow, by simp⟩
  | duplicate :: rest, db, db', h, hrow, hs => by
    rw [List.foldlM_cons, bind_eq_ok] at h
    obtain ⟨db₁, h₁, hrest⟩ := h
    obtain ⟨hrow₁, hrestne⟩ := foldlM_demote_survivor hrest hrow hs
    obtain ⟨_, demoted, _, _, hidle, _, rfl⟩ := demoteDuplicate_eq_ok h₁
    have hne : duplicate.environmentId ≠ k := by
      rintro rfl
      rw [Table.find_upsert_self] at hrow₁
      cases hrow₁
      simp [rowSession, hidle] at hs
    refine ⟨?_, fun d hd => ?_⟩
    · rwa [Table.find_upsert_ne _ hne.symm] at hrow₁
    · rcases List.mem_cons.mp hd with rfl | hd
      · exact hne
      · exact hrestne d hd

/-- Of two owners of one session, at least one is a duplicate. -/
theorem mem_duplicateOwners {records : List WorkerEnvironmentRecord} {a b : WorkerEnvironmentRecord}
    {sessionId : String} (ha : a ∈ records) (hb : b ∈ records) (hne : a ≠ b)
    (hsa : attachedSession a = some sessionId) (hsb : attachedSession b = some sessionId) :
    a ∈ duplicateOwners records ∨ b ∈ duplicateOwners records := by
  set group := records.filter fun record => attachedSession record = some sessionId with hgroup
  have hmem : sessionId ∈ (records.filterMap attachedSession).eraseDups :=
    List.mem_eraseDups.mpr (List.mem_filterMap.mpr ⟨a, ha, hsa⟩)
  have hperm := toSorted_perm attachmentAuthority group
  have hain : a ∈ toSorted attachmentAuthority group := hperm.mem_iff.mpr (List.mem_filter.mpr ⟨ha, by simpa using hsa⟩)
  have hbin : b ∈ toSorted attachmentAuthority group := hperm.mem_iff.mpr (List.mem_filter.mpr ⟨hb, by simpa using hsb⟩)
  have htail : ∀ x ∈ (toSorted attachmentAuthority group).tail, x ∈ duplicateOwners records :=
    fun x hx => List.mem_flatMap.mpr ⟨sessionId, hmem, hx⟩
  cases hsorted : toSorted attachmentAuthority group with
  | nil => rw [hsorted] at hain; cases hain
  | cons owner rest =>
    rw [hsorted] at hain hbin htail
    rcases List.mem_cons.mp hain with rfl | hain
    · rcases List.mem_cons.mp hbin with rfl | hbin
      · exact absurd rfl hne
      · exact .inr (htail b hbin)
    · exact .inl (htail a hain)

/-- **Opening the store leaves one owner per session**, whatever the database was. -/
theorem reconcile_unique {nowMs : Int} {db db' : EnvironmentDb}
    (h : reconcileAttachedSessionOwners db nowMs = .ok db') : UniqueOwners db' := by
  simp only [reconcileAttachedSessionOwners, bind_eq_ok] at h
  obtain ⟨records, hrecords, hfold⟩ := h
  intro id₁ id₂ row₁ row₂ sessionId h₁ h₂ hs₁ hs₂
  by_contra hne
  obtain ⟨hrow₁, hkept₁⟩ := foldlM_demote_survivor hfold h₁ hs₁
  obtain ⟨hrow₂, hkept₂⟩ := foldlM_demote_survivor hfold h₂ hs₂
  obtain ⟨a, ha, hread₁⟩ := (listRows_mem hrecords).1 id₁ row₁ hrow₁
  obtain ⟨b, hb, hread₂⟩ := (listRows_mem hrecords).1 id₂ row₂ hrow₂
  have hreca := recordOf_fromRow hread₁
  have hrecb := recordOf_fromRow hread₂
  have hab : a ≠ b := by
    rintro rfl
    exact hne (hreca.environmentId.symm.trans hrecb.environmentId)
  rcases mem_duplicateOwners ha hb hab ((attachedSession_eq hreca).trans hs₁)
    ((attachedSession_eq hrecb).trans hs₂) with hd | hd
  · exact hkept₁ a hd hreca.environmentId
  · exact hkept₂ b hd hrecb.environmentId

/-! ## Runs -/

theorem uniqueOwners_run (script : List EnvironmentOp) {db : EnvironmentDb} (h : UniqueOwners db) :
    UniqueOwners (run applyOp db script) :=
  run_invariant (P := UniqueOwners) (fun db op hu => (call_spec db op).unique hu) script h

/-- No environment is lost, its owner epoch never goes down, and goes up when its ownership ends. -/
def EpochsAdvance (db db' : EnvironmentDb) : Prop :=
  ∀ id row, db.environments.find id = some row →
    ∃ row', db'.environments.find id = some row' ∧ EpochStep row row'

instance : Std.Refl EpochsAdvance := ⟨fun _ _ row h => ⟨row, h, .refl row⟩⟩

instance : IsTrans EnvironmentDb EpochsAdvance where
  trans a b c hab hbc id row hrow := by
    obtain ⟨row₁, hrow₁, h₁⟩ := hab id row hrow
    obtain ⟨row₂, hrow₂, h₂⟩ := hbc id row₁ hrow₁
    exact ⟨row₂, hrow₂, h₁.trans h₂⟩

theorem epochsAdvance_run (script : List EnvironmentOp) (db : EnvironmentDb) :
    EpochsAdvance db (run applyOp db script) :=
  run_rel (P := fun _ => True) (fun _ _ _ => trivial) (fun db op _ => (call_spec db op).epoch) script
    trivial

/-! ## Attachments -/

/-- The call `op` attaches an environment in `db` and returns its record. -/
def Attaches (db : EnvironmentDb) (op : EnvironmentOp) (record : WorkerEnvironmentRecord) : Prop :=
  ∃ input nowMs, op = .transition input nowMs ∧ input.target = .attached ∧ (op.call db).1 = .ok (.record record)

/-- `epoch` is above every owner epoch and every transcript run epoch stored in `db`. -/
def FreshEpoch (db : EnvironmentDb) (epoch : Int) : Prop :=
  (∀ id row, db.environments.find id = some row → row.ownerEpoch < epoch) ∧
  ∀ sessionId runEpoch head, db.heads.find (sessionId, runEpoch) = some head → runEpoch < epoch

/-- An attachment takes a fresh epoch and stores it. -/
theorem Attaches.fresh {db : EnvironmentDb} {op : EnvironmentOp} {record : WorkerEnvironmentRecord}
    (h : Attaches db op record) : FreshEpoch db record.ownerEpoch ∧
      ∃ id row, (applyOp db op).environments.find id = some row ∧ row.ownerEpoch = record.ownerEpoch := by
  obtain ⟨input, nowMs, rfl, htarget, hok⟩ := h
  have hbody := transact_returns hok
  simp only [EnvironmentOp.body, map_eq_ok] at hbody
  obtain ⟨⟨record', db'⟩, hcall, heq⟩ := hbody
  simp only [Prod.map_apply, id_eq, Prod.mk.injEq, EnvironmentReply.record.injEq] at heq
  obtain ⟨rfl, hdb'⟩ := heq
  obtain ⟨id, row, current, plan, ownerEpoch, db₁, hedge, -, hrow, -, -, -, hepoch, hread', rfl,
    hcred⟩ := transition_eq_ok hcall
  obtain ⟨henv, -⟩ := transitionCredential_frame hcred
  have hstored := (recordOf_fromRow hread').ownerEpoch
  have hglobal : nextGlobalOwnerEpoch db = .ok ownerEpoch := by
    simp only [transitionOwnerEpoch, htarget, acceptsBootstrapReceipt] at hepoch
    simpa using hepoch
  refine ⟨?_, id, _, ?_, hstored.symm⟩
  · rw [hstored]
    exact nextGlobalOwnerEpoch_fresh hglobal
  · change (transact (EnvironmentOp.transition input nowMs).body db).2.environments.find id = _
    rw [← hdb', henv]
    exact Table.find_upsert_self ..

/-- **Worker environment ownership.** The store was opened on a database left by whatever wrote it;
after any calls, re-openings and transcript head inserts, no two attached environments hold the same
session, every attachment takes an owner epoch above all owner and run epochs stored then, and every
later attachment takes a larger one. -/
theorem attachment_ownership (start : EnvironmentDb) (nowMs : Int)
    (hopen : ((EnvironmentOp.openStore nowMs).call start).1 = .ok .done)
    (script : List EnvironmentOp) :
    let db := run applyOp start (.openStore nowMs :: script)
    UniqueOwners db ∧
    ∀ op record, Attaches db op record → FreshEpoch db record.ownerEpoch ∧
      ∀ later op' record', Attaches (run applyOp db (op :: later)) op' record' →
        record.ownerEpoch < record'.ownerEpoch := by
  have hbody := transact_returns hopen
  simp only [EnvironmentOp.body, map_eq_ok] at hbody
  obtain ⟨opened, hopened, heq⟩ := hbody
  have hunique : UniqueOwners (applyOp start (.openStore nowMs)) := by
    have hdb : opened = applyOp start (.openStore nowMs) := (Prod.mk.inj heq).2
    exact hdb ▸ reconcile_unique hopened
  refine ⟨uniqueOwners_run script hunique, fun op record h => ⟨h.fresh.1, fun later op' record' h' => ?_⟩⟩
  obtain ⟨id, row, hrow, hepoch⟩ := h.fresh.2
  obtain ⟨row', hrow', hle, -⟩ := epochsAdvance_run later _ id row hrow
  rw [← hepoch]
  exact Int.lt_of_le_of_lt hle (h'.fresh.1.1 id row' hrow')

/-- An attached environment as an older version left it. -/
def legacyAttached (id sessionId : String) (ownerEpoch : Int) : EnvironmentRow where
  providerId := "p"
  profileId := "f"
  profileSnapshotJson := "\x7b\x7d"
  provisionOperationId := id
  leaseId := some id
  ssh := sshColumns (some
    { host := "h", port := 22, user := "u", hostKey := "ssh-ed25519 AAAA"
      keyRef := { source := .env, provider := "default", id := "WORKER_KEY" } })
  bootstrap := bootstrapColumns (some
    { bundleHash := String.ofList (List.replicate 64 'a'), openclawVersion := "1"
      protocolFeatures := [] })
  ownerEpoch
  teardownTerminalState := none
  state := .attached
  attachedSessionIdsJson := [sessionId]
  createdAtMs := 0
  updatedAtMs := 0
  stateChangedAtMs := 0
  idleSinceAtMs := none
  destroyRequestedAtMs := none
  lastError := none

/-- The credential of the second environment below. -/
def legacyCredential : CredentialRow where
  credentialHash := String.ofList (List.replicate 43 'h')
  bundleHash := String.ofList (List.replicate 64 'a')
  sessionId := some "s1"
  rpcSetVersion := 1
  ownerEpoch := 1
  expiresAtMs := 100
  deliveredAtMs := none

/-- Two environments attached to one session at the same epoch; the second has a credential. -/
def legacyDuplicates : EnvironmentDb where
  environments := (Table.empty.upsert "e1" (legacyAttached "e1" "s1" 1)).upsert "e2"
    (legacyAttached "e2" "s1" 1)
  credentials := Table.empty.upsert "e2" legacyCredential
  heads := Table.empty

/-- The store opens on a database with a duplicate owner, and demotes one. -/
theorem attachment_ownership_legacyDuplicates : UniqueOwners (run applyOp legacyDuplicates [.openStore 5]) :=
  (attachment_ownership legacyDuplicates 5 rfl []).1

end OpenClaw.WorkerEnvironments.Environment
