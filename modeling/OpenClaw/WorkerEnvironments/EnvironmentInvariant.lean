/-
# OpenClaw.WorkerEnvironments.EnvironmentInvariant -- what a call does to environments and credentials

Every writing operation touches one environment: its row, its credential row, or both; opening the
store repairs several, one after the other.  `KeySpec` says what happens to the touched environment:
its owner epoch does not go down, and goes up when its ownership ends; the session it holds it held
before, or no other environment holds it; and a credential that matched its environment still does.
`CallSpec` is the same for all environments, and composes.
-/
import OpenClaw.WorkerEnvironments.EnvironmentStore

namespace OpenClaw.WorkerEnvironments.Environment

open OpenClaw.Logic OpenClaw.Data

/-! ## What the reads and checks return -/

/-- The fields of a decoded record that the invariants are about. -/
structure RecordOf (environmentId : String) (row : EnvironmentRow)
    (record : WorkerEnvironmentRecord) : Prop where
  environmentId : record.environmentId = environmentId
  state : record.state = row.state
  ownerEpoch : record.ownerEpoch = row.ownerEpoch
  receipt : bootstrapReceiptFrom row.bootstrap = .ok record.bootstrapReceipt
  sessions : record.attachedSessionIds
    = normalizeSortedUniqueTrimmedStringList row.attachedSessionIdsJson
  shape : assertShape record.state record.leaseId record.sshEndpoint record.bootstrapReceipt
    record.attachedSessionIds = .ok ()

theorem normalizeAttachedSessionIds_eq {value ids : List String} (h : normalizeAttachedSessionIds value = .ok ids) :
    ids = normalizeSortedUniqueTrimmedStringList value := by
  simp only [normalizeAttachedSessionIds, bind_eq_ok, pure_eq_ok] at h
  obtain ⟨_, _, rfl⟩ := h
  rfl

variable {record : WorkerEnvironmentRecord} {id : String}

theorem recordOf_fromRow {environmentId : String} {row : EnvironmentRow}
    (h : fromRow environmentId row = .ok record) : RecordOf environmentId row record := by
  simp only [fromRow, bind_eq_ok, pure_eq_ok] at h
  obtain ⟨_, _, _, hreceipt, _, hids, _, hshape, rfl⟩ := h
  exact ⟨rfl, rfl, rfl, hreceipt, normalizeAttachedSessionIds_eq hids, hshape⟩

theorem find_eq_some {db : EnvironmentDb} : find db id = .ok (some record) ↔
      ∃ row, db.environments.find id = some row ∧ fromRow id row = .ok record := by
  unfold find
  cases db.environments.find id <;> simp

theorem getRequired_eq_ok {db : EnvironmentDb} : getRequired db id = .ok record ↔
      ∃ row, db.environments.find id = some row ∧ fromRow id row = .ok record := by
  simp only [getRequired, bind_eq_ok]
  constructor
  · rintro ⟨_ | _, h, hr⟩
    · cases hr
    · rw [pure_eq_ok] at hr
      exact Iff.mp find_eq_some (hr ▸ h)
  · intro h
    exact ⟨some record, Iff.mpr find_eq_some h, rfl⟩

/-- What an `update` that returns has done. -/
theorem update_eq_ok {db db' : EnvironmentDb} {state : WorkerEnvironmentState} {set : EnvironmentRow → EnvironmentRow}
    (h : update db id state set = .ok (record, db')) : ∃ row, db.environments.find id = some row ∧ row.state = state ∧
      fromRow id (set row) = .ok record ∧ db' = { db with environments := db.environments.upsert id (set row) } := by
  simp only [update, bind_eq_ok, pure_eq_ok, Table.updateOne_eq_ok, Prod.mk.injEq] at h
  obtain ⟨_, _, _, ⟨row, hrow, hstate, rfl⟩, _, hget, rfl, rfl⟩ := h
  obtain ⟨row', hrow', hread⟩ := Iff.mp getRequired_eq_ok hget
  rw [Table.find_upsert_self] at hrow'
  cases hrow'
  exact ⟨row, hrow, by simpa using hstate, hread, rfl⟩

theorem maxColumn_ge {column : List Int} {v : Int} (h : v ∈ column) : v ≤ maxColumn column := by
  unfold maxColumn
  cases hmax : column.max? with
  | none => rw [List.max?_eq_none_iff] at hmax; rw [hmax] at h; cases h
  | some m => exact (List.max?_eq_some_iff.mp hmax).2 v h

/-- **A global owner epoch is fresh**: above every owner epoch and every run epoch stored. -/
theorem nextGlobalOwnerEpoch_fresh {db : EnvironmentDb} {epoch : Int} (h : nextGlobalOwnerEpoch db = .ok epoch) :
    (∀ id row, db.environments.find id = some row → row.ownerEpoch < epoch) ∧
      ∀ sessionId runEpoch head, db.heads.find (sessionId, runEpoch) = some head → runEpoch < epoch := by
  unfold nextGlobalOwnerEpoch nextOwnerEpoch at h
  split at h
  · cases h
    constructor
    · intro id row hrow
      have hle : row.ownerEpoch ≤ maxColumn (db.environments.rows.map (·.2.ownerEpoch)) :=
        maxColumn_ge (List.mem_map_of_mem (f := (·.2.ownerEpoch)) (Table.mem_rows.mpr hrow))
      omega
    · intro sessionId runEpoch head hhead
      have hle : runEpoch ≤ maxColumn (db.heads.rows.map (·.1.2)) :=
        maxColumn_ge (List.mem_map_of_mem (f := (·.1.2)) (Table.mem_rows.mpr hhead))
      omega
  · cases h

/-- The shape check's word on attached sessions. -/
theorem assertShape_sessions {state : WorkerEnvironmentState} {leaseId : Option String}
    {sshEndpoint : Option WorkerSshEndpoint} {receipt : Option BootstrapReceipt}
    {sessionIds : List String} (h : assertShape state leaseId sshEndpoint receipt sessionIds = .ok ()) :
    sessionIds.length ≤ 1 ∧ (state ≠ .attached → sessionIds = []) := by
  have h' : (state = .attached → sessionIds.length = 1) ∧ (state ≠ .attached → sessionIds.length = 0) := by
    unfold assertShape at h
    split at h <;> simp only [bind_eq_ok, throwIf_eq_ok, not_and, not_not] at h
    · obtain ⟨_, _, _, _, _, _, _, h₁, h₂⟩ := h
      exact ⟨h₁, h₂⟩
    · obtain ⟨_, _, _, _, _, h₁, h₂⟩ := h
      exact ⟨h₁, h₂⟩
  by_cases hs : state = .attached
  · exact ⟨(h'.1 hs).le, fun hne => absurd hs hne⟩
  · exact ⟨(h'.2 hs).le.trans (Nat.zero_le 1), fun _ => List.length_eq_zero_iff.mp (h'.2 hs)⟩

/-! ## Sessions, ownership and credentials of one environment -/

/-- The session a row's environment holds, as `attachedSession` reads it from the record. -/
def rowSession (row : EnvironmentRow) : Option String :=
  if row.state = .attached then
    (normalizeSortedUniqueTrimmedStringList row.attachedSessionIdsJson).head?
  else none

theorem attachedSession_eq {row : EnvironmentRow} (h : RecordOf id row record) :
    attachedSession record = rowSession row := by
  rw [attachedSession, rowSession, h.state, h.sessions]

/-- **No two attached environments hold the same session.** -/
def UniqueOwners (db : EnvironmentDb) : Prop :=
  ∀ id₁ id₂ row₁ row₂ sessionId, db.environments.find id₁ = some row₁ →
    db.environments.find id₂ = some row₂ → rowSession row₁ = some sessionId →
    rowSession row₂ = some sessionId → id₁ = id₂

/-- Does this change of state end the ownership the credential was minted for?  Only `ready` to `idle`
keeps it. -/
def endsOwnership (source target : WorkerEnvironmentState) : Bool :=
  acceptsMint source && source ≠ target && !(source = .ready && target = .idle)

/-- The stored credential matches the environment it was minted for. -/
structure Minted (record : WorkerEnvironmentRecord) (credential : CredentialRow) : Prop where
  state : acceptsMint record.state = true
  bundle : record.bootstrapReceipt.map (·.bundleHash) = some credential.bundleHash
  epoch : record.ownerEpoch = credential.ownerEpoch
  session : record.attachedSessionIds.head? = credential.sessionId

def KeyConsistent (db : EnvironmentDb) (id : String) : Prop :=
  ∀ credential, db.credentials.find id = some credential →
    ∃ record, find db id = .ok (some record) ∧ Minted record credential

/-- **Every stored credential matches its environment.** -/
def CredentialsConsistent (db : EnvironmentDb) : Prop := ∀ id, KeyConsistent db id

/-! ## Steps -/

/-- The row of an environment after a step: its epoch did not go down, and went up if its ownership
ended. -/
def EpochStep (row row' : EnvironmentRow) : Prop :=
  row.ownerEpoch ≤ row'.ownerEpoch ∧ (endsOwnership row.state row'.state = true → row.ownerEpoch < row'.ownerEpoch)

theorem EpochStep.refl (row : EnvironmentRow) : EpochStep row row :=
  ⟨Int.le_refl _, fun h => by simp [endsOwnership] at h⟩

/-- An ownership that has ended by the second step had ended by the first, or ends in the second. -/
theorem EpochStep.trans {a b c : EnvironmentRow} (hab : EpochStep a b) (hbc : EpochStep b c) : EpochStep a c := by
  refine ⟨Int.le_trans hab.1 hbc.1, fun hac => ?_⟩
  have hends : endsOwnership a.state b.state = true ∨ endsOwnership b.state c.state = true := by
    revert hac
    cases a.state <;> cases b.state <;> cases c.state <;> decide
  rcases hends with h | h
  · exact Int.lt_of_lt_of_le (hab.2 h) hbc.1
  · exact Int.lt_of_le_of_lt hab.1 (hbc.2 h)

/-- What a call does to the environment `id`, the only one it touches. -/
structure KeySpec (id : String) (db db' : EnvironmentDb) : Prop where
  frame : ∀ k, k ≠ id → db'.environments.find k = db.environments.find k ∧
    db'.credentials.find k = db.credentials.find k
  epoch : ∀ row, db.environments.find id = some row →
    ∃ row', db'.environments.find id = some row' ∧ EpochStep row row'
  session : ∀ row' sessionId, db'.environments.find id = some row' →
    rowSession row' = some sessionId →
      (∃ row, db.environments.find id = some row ∧ rowSession row = some sessionId) ∨
      ∀ k row, k ≠ id → db.environments.find k = some row → rowSession row ≠ some sessionId
  credential : KeyConsistent db id → KeyConsistent db' id

/-- What a call does to all environments. -/
structure CallSpec (db db' : EnvironmentDb) : Prop where
  unique : UniqueOwners db → UniqueOwners db'
  epoch : ∀ id row, db.environments.find id = some row →
    ∃ row', db'.environments.find id = some row' ∧ EpochStep row row'
  credential : CredentialsConsistent db → CredentialsConsistent db'

theorem CallSpec.refl (db : EnvironmentDb) : CallSpec db db :=
  ⟨id, fun _ row h => ⟨row, h, .refl row⟩, id⟩

theorem CallSpec.trans {a b c : EnvironmentDb} (hab : CallSpec a b) (hbc : CallSpec b c) : CallSpec a c := by
  refine ⟨hbc.unique ∘ hab.unique, fun id row hrow => ?_, hbc.credential ∘ hab.credential⟩
  obtain ⟨row₁, hrow₁, h₁⟩ := hab.epoch id row hrow
  obtain ⟨row₂, hrow₂, h₂⟩ := hbc.epoch id row₁ hrow₁
  exact ⟨row₂, hrow₂, h₁.trans h₂⟩

theorem KeySpec.callSpec (id : String) {db db' : EnvironmentDb} (h : KeySpec id db db') : CallSpec db db' := by
  -- A session of the touched environment that another one holds was already held twice.
  have clash (hu : UniqueOwners db) (k : String) (hk : k ≠ id) (row row' : EnvironmentRow)
      (sessionId : String) (hrow : db'.environments.find k = some row)
      (hrow' : db'.environments.find id = some row') (hs : rowSession row = some sessionId)
      (hs' : rowSession row' = some sessionId) : False := by
    rw [(h.frame k hk).1] at hrow
    rcases h.session row' sessionId hrow' hs' with ⟨old, hold, hsold⟩ | hfree
    · exact hk (hu k id row old sessionId hrow hold hs hsold)
    · exact hfree k row hk hrow hs
  constructor
  · intro hu id₁ id₂ row₁ row₂ sessionId h₁ h₂ hs₁ hs₂
    by_cases e₁ : id₁ = id <;> by_cases e₂ : id₂ = id
    · rw [e₁, e₂]
    · subst e₁
      exact (clash hu id₂ e₂ row₂ row₁ sessionId h₂ h₁ hs₂ hs₁).elim
    · subst e₂
      exact (clash hu id₁ e₁ row₁ row₂ sessionId h₁ h₂ hs₁ hs₂).elim
    · rw [(h.frame id₁ e₁).1] at h₁
      rw [(h.frame id₂ e₂).1] at h₂
      exact hu id₁ id₂ row₁ row₂ sessionId h₁ h₂ hs₁ hs₂
  · intro k row hrow
    by_cases hk : k = id
    · subst hk
      exact h.epoch row hrow
    · exact ⟨row, by rw [(h.frame k hk).1, hrow], .refl row⟩
  · intro hc k
    by_cases hk : k = id
    · subst hk
      exact h.credential (hc k)
    · intro credential hcred
      rw [(h.frame k hk).2] at hcred
      obtain ⟨record, hfind, hminted⟩ := hc k credential hcred
      refine ⟨record, ?_, hminted⟩
      rwa [find, (h.frame k hk).1]

/-- A consistent credential matches the record its environment's row decodes to. -/
theorem KeyConsistent.minted {db : EnvironmentDb} {row : EnvironmentRow} {credential : CredentialRow}
    (h : KeyConsistent db id) (hrow : db.environments.find id = some row) (hread : fromRow id row = .ok record)
    (hcred : db.credentials.find id = some credential) : Minted record credential := by
  obtain ⟨record', hfind, hminted⟩ := h credential hcred
  obtain ⟨row', hrow', hread'⟩ := Iff.mp find_eq_some hfind
  rw [hrow] at hrow'
  cases hrow'
  rw [hread] at hread'
  cases hread'
  exact hminted

/-- An environment that was there before and after. -/
theorem KeySpec.ofRow {db db' : EnvironmentDb} {row row' : EnvironmentRow} {record' : WorkerEnvironmentRecord}
    (hframe : ∀ k, k ≠ id → db'.environments.find k = db.environments.find k ∧
    db'.credentials.find k = db.credentials.find k) (hrow : db.environments.find id = some row) (hrow' :
    db'.environments.find id = some row') (hread' : fromRow id row' = .ok record') (hepoch :
    EpochStep row row') (hsession : ∀ sessionId, rowSession row' = some sessionId → rowSession row = some sessionId ∨
    ∀ k r, k ≠ id → db.environments.find k = some r → rowSession r ≠ some sessionId) (hminted : KeyConsistent db id →
    ∀ credential, db'.credentials.find id = some credential → Minted record' credential) : KeySpec id db db' := by
  refine ⟨hframe, fun r hr => ?_, fun r sessionId hr hs => ?_, fun hc credential hcred => ?_⟩
  · rw [hrow] at hr
    cases hr
    exact ⟨row', hrow', hepoch⟩
  · rw [hrow'] at hr
    cases hr
    exact (hsession sessionId hs).imp_left fun h => ⟨row, hrow, h⟩
  · exact ⟨record', Iff.mpr find_eq_some ⟨row', hrow', hread'⟩, hminted hc credential hcred⟩

/-! ## One lemma per operation -/

section Operations

variable {db db' : EnvironmentDb}

/-- An update of columns that neither sessions nor credentials depend on. -/
theorem update_keeps {state : WorkerEnvironmentState} {set : EnvironmentRow → EnvironmentRow}
    (h : update db id state set = .ok (record, db')) (hset : ∀ row, (set row).state = row.state ∧
    (set row).bootstrap = row.bootstrap ∧ (set row).attachedSessionIdsJson = row.attachedSessionIdsJson ∧
    (set row).ownerEpoch = row.ownerEpoch) : KeySpec id db db' := by
  obtain ⟨row, hrow, -, hread, rfl⟩ := update_eq_ok h
  obtain ⟨hstate, hboot, hids, hepoch⟩ := hset row
  have hsession : rowSession (set row) = rowSession row := by simp [rowSession, hstate, hids]
  refine .ofRow (fun k hk => ⟨Table.find_upsert_ne _ hk _, rfl⟩) hrow (Table.find_upsert_self ..)
    hread ⟨hepoch.ge, fun he => by simp [hstate, endsOwnership] at he⟩
    (fun sessionId hs => .inl (hsession ▸ hs)) fun hc credential hcred => ?_
  obtain ⟨old, hfind, hminted⟩ := hc credential hcred
  obtain ⟨row', hrow', hread'⟩ := Iff.mp find_eq_some hfind
  rw [hrow] at hrow'
  cases hrow'
  have hold := recordOf_fromRow hread'
  have hnew := recordOf_fromRow hread
  have hreceipt : record.bootstrapReceipt = old.bootstrapReceipt := by
    have := hnew.receipt
    rw [hboot, hold.receipt] at this
    exact (Except.ok.inj this).symm
  refine ⟨?_, hreceipt ▸ hminted.bundle, ?_, ?_⟩
  · rw [hnew.state, hstate, ← hold.state]
    exact hminted.state
  · rw [hnew.ownerEpoch, hepoch, ← hold.ownerEpoch]
    exact hminted.epoch
  · rw [hnew.sessions, hids, ← hold.sessions]
    exact hminted.session

theorem createIntent_spec {input : IntentInput} {nowMs : Int} (h : createIntent input nowMs db = .ok (record, db')) :
    CallSpec db db' := by
  simp only [createIntent, bind_eq_ok, pure_eq_ok, Table.insertNew_eq_ok, Prod.mk.injEq] at h
  obtain ⟨id, -, _, _, _, _, _, _, _, _, _, ⟨hnone, rfl⟩, _, _, rfl, rfl⟩ := h
  refine KeySpec.callSpec id ⟨fun k hk => ⟨Table.find_upsert_ne _ hk _, rfl⟩,
    fun row hrow => ?_, fun row' sessionId hrow' hs => ?_, fun hc credential hcred => ?_⟩
  · rw [hnone] at hrow
    cases hrow
  · rw [Table.find_upsert_self] at hrow'
    cases hrow'
    simp [rowSession, intentRow] at hs
  · obtain ⟨_, hfind, -⟩ := hc credential hcred
    obtain ⟨_, hrow, -⟩ := Iff.mp find_eq_some hfind
    rw [hnone] at hrow
    cases hrow

theorem requestDestroy_spec {input : RequestDestroyInput} {nowMs : Int}
    (h : requestDestroy input nowMs db = .ok (record, db')) : CallSpec db db' := by
  simp only [requestDestroy, bind_eq_ok] at h
  obtain ⟨_, _, current, _, _, _, h⟩ := h
  split at h
  · cases h
    exact .refl db
  · rw [bind_eq_ok] at h
    obtain ⟨_, _, h⟩ := h
    exact (update_keeps h fun _ => ⟨rfl, rfl, rfl, rfl⟩).callSpec _

theorem recordError_spec {input : RecordErrorInput} {nowMs : Int} (h : recordError input nowMs db =
    .ok (record, db')) : CallSpec db db' := by
  simp only [recordError, bind_eq_ok] at h
  obtain ⟨_, _, _, _, h⟩ := h
  exact (update_keeps h fun _ => ⟨rfl, rfl, rfl, rfl⟩).callSpec _

theorem credentialInsert_spec {input : CredentialInput} {bundleHash : String}
    {sessionIds : List String} {ownerEpoch nowMs : Int} {row : CredentialRow}
    (h : credentialInsert input bundleHash sessionIds ownerEpoch nowMs = .ok row) :
    row.bundleHash = bundleHash ∧ row.ownerEpoch = ownerEpoch ∧ row.sessionId = sessionIds.head? := by
  simp only [credentialInsert, assertCredentialSessionBinding, bind_eq_ok, pure_eq_ok, throwIf_eq_ok, not_not] at h
  obtain ⟨_, _, _, hbinding, _, _, _, _, _, _, _, _, rfl⟩ := h
  exact ⟨rfl, rfl, hbinding⟩

theorem upsertCredential_eq_ok {credential : CredentialRow} (h : upsertCredential db id credential = .ok db') :
    db' = { db with credentials := db.credentials.upsert id credential } := by
  simp only [upsertCredential, bind_eq_ok, pure_eq_ok] at h
  obtain ⟨_, _, rfl⟩ := h
  rfl

theorem renewCredential_spec {input : RenewCredentialInput} {nowMs : Int} {credential : WorkerCredentialRecord}
    (h : renewCredential input nowMs db = .ok (credential, db')) : CallSpec db db' := by
  simp only [renewCredential, bind_eq_ok, getRequired_eq_ok, throwIf_eq_ok, Bool.not_eq_false] at h
  obtain ⟨id, -, current, ⟨row, hrow, hread⟩, _, -, _, hstate, _, -, h⟩ := h
  split at h
  · cases h
  · rename_i receipt hreceipt
    simp only [bind_eq_ok] at h
    obtain ⟨db₁, hupdate, minted, hinsert, db₂, hupsert, found, -, h⟩ := h
    have hdb' : db₂ = db' := by
      split at h
      · cases h
      · cases h
        rfl
    subst hdb'
    have hcurrent := recordOf_fromRow hread
    -- Updated or not, the row differs from the old one in its epoch at most.
    obtain ⟨row', record', hrow', hread', hframe, hcreds, hsame, hepoch⟩ :
        ∃ row' record', db₁.environments.find id = some row' ∧ fromRow id row' = .ok record' ∧
          (∀ k, k ≠ id → db₁.environments.find k = db.environments.find k) ∧
          db₁.credentials = db.credentials ∧
          (row'.state = row.state ∧ row'.bootstrap = row.bootstrap ∧
            row'.attachedSessionIdsJson = row.attachedSessionIdsJson) ∧
          row'.ownerEpoch = max 1 row.ownerEpoch := by
      rw [raiseOwnerEpoch, hcurrent.ownerEpoch] at hupdate
      split at hupdate
      · rw [map_eq_ok] at hupdate
        obtain ⟨⟨record', _⟩, hupdate, rfl⟩ := hupdate
        obtain ⟨row₁, hrow₁, -, hread₁, rfl⟩ := update_eq_ok hupdate
        rw [hrow] at hrow₁
        cases hrow₁
        exact ⟨_, record', Table.find_upsert_self .., hread₁,
          fun k hk => Table.find_upsert_ne _ hk _, rfl, ⟨rfl, rfl, rfl⟩, rfl⟩
      · rename_i he
        cases hupdate
        exact ⟨row, current, hrow, hread, fun _ _ => rfl, rfl, ⟨rfl, rfl, rfl⟩, (not_not.mp he).symm⟩
    obtain rfl := upsertCredential_eq_ok hupsert
    obtain ⟨hbundle, hcepoch, hsession⟩ := credentialInsert_spec hinsert
    have hnew := recordOf_fromRow hread'
    refine KeySpec.callSpec id (KeySpec.ofRow (fun k hk => ⟨hframe k hk, ?_⟩) hrow hrow'
      hread' ⟨?_, ?_⟩ (fun sessionId hs => .inl ?_) fun _ c hc => ?_)
    · rw [Table.find_upsert_ne _ hk, hcreds]
    · rw [hepoch]
      omega
    · intro he
      simp [hsame.1, endsOwnership] at he
    · simpa [rowSession, hsame] using hs
    · rw [Table.find_upsert_self] at hc
      cases hc
      have hrec : record'.bootstrapReceipt = current.bootstrapReceipt := by
        have := hnew.receipt
        rw [hsame.2.1, hcurrent.receipt] at this
        exact (Except.ok.inj this).symm
      refine ⟨?_, ?_, ?_, ?_⟩
      · rw [hnew.state, hsame.1, ← hcurrent.state]
        exact hstate
      · rw [hrec, hreceipt, hbundle]
        rfl
      · rw [hnew.ownerEpoch, hepoch, hcepoch, hcurrent.ownerEpoch]
      · rw [hnew.sessions, hsame.2.2, ← hcurrent.sessions, hsession]

theorem markCredentialDelivered_spec {input : DeliveredInput} {u : Unit}
    (h : markCredentialDelivered input db = .ok (u, db')) : CallSpec db db' := by
  simp only [markCredentialDelivered, bind_eq_ok, getRequired_eq_ok] at h
  obtain ⟨id, -, current, ⟨row, hrow, hread⟩, found, -, h⟩ := h
  split at h
  · cases h
  · simp only [bind_eq_ok, pure_eq_ok, Table.updateOne_eq_ok, Prod.mk.injEq] at h
    obtain ⟨_, _, _, _, _, _, _, _, _, _, _, _, _, _, _, ⟨old, hold, -, rfl⟩, -, rfl⟩ := h
    refine KeySpec.callSpec id (KeySpec.ofRow
      (fun k hk => ⟨rfl, Table.find_upsert_ne _ hk _⟩) hrow hrow hread (.refl row)
      (fun _ hs => .inl hs) fun hc c hcred => ?_)
    rw [Table.find_upsert_self] at hcred
    cases hcred
    have hminted := hc.minted hrow hread hold
    exact ⟨hminted.state, hminted.bundle, hminted.epoch, hminted.session⟩

end Operations

end OpenClaw.WorkerEnvironments.Environment
