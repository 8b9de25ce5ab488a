/-
# OpenClaw.WorkerEnvironments.EnvironmentTransition -- transitions, epochs and revocation together

`transition` decides in two separate tables which edges move the owner epoch (`ownerEndingTransition`
and the attach case) and which revoke the credential (`revokesCredential`).  The first section says,
edge by edge, how the two tables fit the ownership; `transition_spec` follows from it, and
`demoteDuplicate_spec` is its counterpart for the repair at start-up.
-/
import OpenClaw.WorkerEnvironments.EnvironmentInvariant

namespace OpenClaw.WorkerEnvironments.Environment

open OpenClaw.Logic OpenClaw.Data

/-! ## The two tables, edge by edge -/

section Edges

variable {source target : WorkerEnvironmentState}

/-- An edge that ends an ownership takes a global epoch. -/
theorem global_of_endsOwnership (hedge : canTransitionWorkerEnvironment source target = true)
    (h : endsOwnership source target = true) : acceptsBootstrapReceipt source target = false ∧
      (target = .attached || ownerEndingTransition source target) = true := by
  revert hedge h
  cases source <;> cases target <;> decide

/-- The only edge on which a credential outlives the transition is `ready` to `idle`; there the
receipt and the epoch stay. -/
theorem kept_edge (hedge : canTransitionWorkerEnvironment source target = true)
    (hmint : acceptsMint source = true) (haccepts : acceptsCredential source target = false)
    (hrevokes : revokesCredential source target = false) : source = .ready ∧ target = .idle := by
  revert hedge hmint haccepts hrevokes
  cases source <;> cases target <;> decide

/-- A credential is minted only into a state that may hold one. -/
theorem acceptsMint_of_acceptsCredential (source : WorkerEnvironmentState) {target : WorkerEnvironmentState}
    (h : acceptsCredential source target = true) : acceptsMint target = true := by
  revert h
  cases source <;> cases target <;> decide

end Edges

/-! ## What a plan says -/

theorem normalizeBootstrapReceipt_hash {value receipt : BootstrapReceipt}
    (h : normalizeBootstrapReceipt value = .ok receipt) : receipt.bundleHash = trim value.bundleHash := by
  simp only [normalizeBootstrapReceipt, bind_eq_ok, pure_eq_ok] at h
  obtain ⟨_, hhash, _, _, _, _, _, _, rfl⟩ := h
  exact (requiredText_eq_ok.mp hhash).1.symm

/-- A receipt the store has normalized: its hash is trimmed. -/
def ReceiptTrimmed (receipt : Option BootstrapReceipt) : Prop :=
  ∀ r, receipt = some r → trim r.bundleHash = r.bundleHash

theorem bootstrapReceiptFrom_trimmed {row : BootstrapColumns} {receipt : Option BootstrapReceipt}
    (h : bootstrapReceiptFrom row = .ok receipt) : ReceiptTrimmed receipt := by
  unfold bootstrapReceiptFrom at h
  intro r hr
  subst hr
  split at h
  · cases h
  · rw [map_eq_ok] at h
    obtain ⟨r', hr', heq⟩ := h
    cases heq
    rw [normalizeBootstrapReceipt_hash hr', trim_trim]
  · cases h

/-- Written and read again, a receipt keeps its bundle hash. -/
theorem bootstrapColumns_bundle {receipt receipt' : Option BootstrapReceipt} (htrimmed : ReceiptTrimmed receipt)
    (h : bootstrapReceiptFrom (bootstrapColumns receipt) = .ok receipt') :
    receipt'.map (·.bundleHash) = receipt.map (·.bundleHash) := by
  cases receipt with
  | none => cases h; rfl
  | some r =>
    simp only [bootstrapReceiptFrom, bootstrapColumns, Option.map_some, map_eq_ok] at h
    obtain ⟨r', hr', rfl⟩ := h
    rw [Option.map_some, Option.map_some, normalizeBootstrapReceipt_hash hr', htrimmed r rfl]

/-- The facts about a plan that the invariants need. -/
structure PlanOf (input : TransitionInput) (current : WorkerEnvironmentRecord)
    (plan : TransitionPlan) : Prop where
  source : current.state = input.source
  sessions : normalizeSortedUniqueTrimmedStringList plan.attachedSessionIds
    = plan.attachedSessionIds
  unattached : input.target ≠ .attached → plan.attachedSessionIds = []
  trimmed : ReceiptTrimmed plan.bootstrapReceipt
  kept : acceptsBootstrapReceipt input.source input.target = false →
    clearsBootstrapReceipt input.source input.target = false → plan.bootstrapReceipt = current.bootstrapReceipt
  credential : input.patch.credential.isSome = acceptsCredential input.source input.target
  receipt : acceptsCredential input.source input.target = true → plan.bootstrapReceipt.isSome = true

variable {input : TransitionInput} {current : WorkerEnvironmentRecord} {id : String}

theorem patchedSessionIds_sessions {row : EnvironmentRow} {ids : List String} (hcurrent : RecordOf id row current)
    (h : patchedSessionIds input current = .ok ids) :
    ∃ values, ids = normalizeSortedUniqueTrimmedStringList values := by
  unfold patchedSessionIds at h
  split at h
  · cases h
    exact ⟨[], rfl⟩
  · split at h
    · cases h
      exact ⟨_, hcurrent.sessions⟩
    · exact ⟨_, normalizeAttachedSessionIds_eq h⟩

theorem patchedBootstrapReceipt_trimmed {row : EnvironmentRow} {receipt : Option BootstrapReceipt}
    (hcurrent : RecordOf id row current) (h : patchedBootstrapReceipt input current = .ok receipt) :
    ReceiptTrimmed receipt := by
  unfold patchedBootstrapReceipt at h
  split at h
  · cases h
    intro r hr
    cases hr
  · split at h
    · cases h
      exact bootstrapReceiptFrom_trimmed hcurrent.receipt
    · rw [map_eq_ok] at h
      obtain ⟨r', hr', rfl⟩ := h
      intro r hr
      cases hr
      rw [normalizeBootstrapReceipt_hash hr', trim_trim]

theorem planTransition_spec {row : EnvironmentRow} {plan : TransitionPlan} (hcurrent : RecordOf id row current)
    (h : planTransition input current = .ok plan) : PlanOf input current plan := by
  simp only [planTransition, bind_eq_ok, pure_eq_ok, throwIf_eq_ok, not_and, not_not] at h
  obtain ⟨_, hsource, _, _, _, _, _, _, _, _, _, _, _, _, _, _, _, hpatch, _, _, _, hminted, _,
    hmissing, receipt, hreceipt, _, hproof, ids, hids, _, hshape, rfl⟩ := h
  obtain ⟨hshort, hunattached⟩ := assertShape_sessions hshape
  refine ⟨hsource, ?_, hunattached, patchedBootstrapReceipt_trimmed hcurrent hreceipt,
    fun haccepts hclears => ?_, ?_, fun haccepts => ?_⟩
  · obtain ⟨values, rfl⟩ := patchedSessionIds_sessions hcurrent hids
    exact normalize_idem_short hshort
  · have hnone : input.patch.bootstrapReceipt = none := by
      cases hb : input.patch.bootstrapReceipt with
      | none => rfl
      | some r => simp [hb, haccepts] at hpatch
    simp only [patchedBootstrapReceipt, hclears, hnone] at hreceipt
    exact (Except.ok.inj hreceipt).symm
  · cases hc : input.patch.credential <;>
      cases ha : acceptsCredential input.source input.target <;> simp_all
  · exact Option.isSome_iff_ne_none.mpr (by simpa using hproof haccepts)

/-! ## The session check and the epoch -/

theorem listRows_mem {db : EnvironmentDb} {records : List WorkerEnvironmentRecord}
    (h : listRows db false = .ok records) : (∀ id row, db.environments.find id = some row →
      ∃ record ∈ records, fromRow id row = .ok record) ∧
    ∀ record ∈ records, ∃ id row, db.environments.find id = some row ∧ fromRow id row = .ok record := by
  obtain ⟨hto, hfrom⟩ := mapM_mem h
  constructor
  · intro id row hrow
    exact hto (id, row) ((toSorted_perm _ _).mem_iff.mpr (Table.mem_rows.mpr hrow))
  · intro record hrecord
    obtain ⟨⟨id, row⟩, hmem, hread⟩ := hfrom record hrecord
    exact ⟨id, row, Table.mem_rows.mp ((toSorted_perm _ _).mem_iff.mp hmem), hread⟩

/-- A session that passed the check is held by no other environment. -/
theorem assertSessionFree_spec {db : EnvironmentDb} {id sessionId : String} {ids : List String}
    {u : Unit} (h : assertSessionFree db id .attached ids = .ok u)
    (hsession : ids.head? = some sessionId) (k : String) (row : EnvironmentRow) (hk : k ≠ id)
    (hrow : db.environments.find k = some row) : rowSession row ≠ some sessionId := by
  obtain ⟨rest, rfl⟩ := List.head?_eq_some_iff.mp hsession
  simp only [assertSessionFree, bind_eq_ok] at h
  obtain ⟨records, hrecords, h⟩ := h
  split at h
  · cases h
  · rename_i hnone
    obtain ⟨record, hmem, hread⟩ := (listRows_mem hrecords).1 k row hrow
    have hrec := recordOf_fromRow hread
    have hfree := List.find?_eq_none.mp hnone record hmem
    intro hs
    simp [hrec.environmentId, hk, attachedSession_eq hrec, hs] at hfree

theorem transitionOwnerEpoch_step {db : EnvironmentDb} {source target : WorkerEnvironmentState} {row : EnvironmentRow}
    {ownerEpoch : Int} (hrow : db.environments.find id = some row) (hcurrent : RecordOf id row current)
    (hedge : canTransitionWorkerEnvironment source target = true) (h : transitionOwnerEpoch db source target current =
    .ok ownerEpoch) : row.ownerEpoch ≤ ownerEpoch ∧ (endsOwnership source target = true →
      row.ownerEpoch < ownerEpoch) := by
  have hfresh (hg : nextGlobalOwnerEpoch db = .ok ownerEpoch) : row.ownerEpoch < ownerEpoch :=
    (nextGlobalOwnerEpoch_fresh hg).1 id row hrow
  unfold transitionOwnerEpoch at h
  rw [hcurrent.ownerEpoch] at h
  split at h
  · rename_i haccepts
    cases h
    refine ⟨by omega, fun hends => ?_⟩
    rw [(global_of_endsOwnership hedge hends).1] at haccepts
    cases haccepts
  · split at h
    · exact ⟨Int.le_of_lt (hfresh h), fun _ => hfresh h⟩
    · rename_i hglobal
      cases h
      exact ⟨Int.le_refl _, fun hends => absurd (global_of_endsOwnership hedge hends).2 hglobal⟩

/-! ## The transition -/

section Transition

variable {db db' : EnvironmentDb}

/-- Everything a transition that returns has done, in the order in which it did it. -/
theorem transition_eq_ok {input : TransitionInput} {nowMs : Int} {record : WorkerEnvironmentRecord}
    (h : transition input nowMs db = .ok (record, db')) :
    ∃ id row current plan ownerEpoch db₁,
      canTransitionWorkerEnvironment input.source input.target = true ∧
      required input.environmentId "id" = .ok id ∧
      db.environments.find id = some row ∧ fromRow id row = .ok current ∧
      planTransition input current = .ok plan ∧
      assertSessionFree db id input.target plan.attachedSessionIds = .ok () ∧
      transitionOwnerEpoch db input.source input.target current = .ok ownerEpoch ∧
      fromRow id (transitionRow plan input.target ownerEpoch input.patch.lastError nowMs row)
        = .ok record ∧
      db₁ = { db with
        environments := db.environments.upsert id
          (transitionRow plan input.target ownerEpoch input.patch.lastError nowMs row) } ∧
      transitionCredential db₁ id input plan ownerEpoch nowMs = .ok db' := by
  simp only [transition, bind_eq_ok, pure_eq_ok, throwIf_eq_ok, Bool.not_eq_false,
    getRequired_eq_ok, Prod.exists, Prod.mk.injEq] at h
  obtain ⟨_, hedge, id, hid, current, ⟨row, hrow, hread⟩, plan, hplan, _, hfree, ownerEpoch, hepoch,
    _, db₁, hupdate, _, hcred, rfl, rfl⟩ := h
  obtain ⟨row₁, hrow₁, -, hread', hdb₁⟩ := update_eq_ok hupdate
  rw [hrow] at hrow₁
  cases hrow₁
  exact ⟨id, row, current, plan, ownerEpoch, db₁, hedge, hid, hrow, hread, hplan, hfree, hepoch, hread', hdb₁, hcred⟩

/-- The credential part writes the credential of one environment. -/
theorem transitionCredential_frame {plan : TransitionPlan} {ownerEpoch nowMs : Int}
    (h : transitionCredential db id input plan ownerEpoch nowMs = .ok db') : db'.environments = db.environments ∧
      ∀ k, k ≠ id → db'.credentials.find k = db.credentials.find k := by
  have hrevoke : ∀ k, k ≠ id → (revokeCredential db id).credentials.find k
      = db.credentials.find k := fun k hk => Table.find_deleteKey_ne _ hk
  simp only [transitionCredential] at h
  split at h
  · simp only [bind_eq_ok] at h
    obtain ⟨_, _, hupsert⟩ := h
    obtain rfl := upsertCredential_eq_ok hupsert
    split
    · exact ⟨rfl, fun k hk => (Table.find_upsert_ne _ hk _).trans (hrevoke k hk)⟩
    · exact ⟨rfl, fun k hk => Table.find_upsert_ne _ hk _⟩
  · cases h
    split
    · exact ⟨rfl, hrevoke⟩
    · exact ⟨rfl, fun _ _ => rfl⟩

/-- **After a transition the credential matches the environment**: it was minted for the new
ownership, or the ownership stayed. -/
theorem transitionCredential_minted {plan : TransitionPlan} {current record : WorkerEnvironmentRecord}
    {row row' : EnvironmentRow} {ownerEpoch nowMs : Int} {credential : CredentialRow}
    (hedge : canTransitionWorkerEnvironment input.source input.target = true) (hcurrent : RecordOf id row current)
    (hplan : PlanOf input current plan) (hepoch : transitionOwnerEpoch db input.source input.target current =
    .ok ownerEpoch) (hrecord : RecordOf id row' record) (hstate : row'.state = input.target) (hboot :
    row'.bootstrap = bootstrapColumns plan.bootstrapReceipt) (hids : row'.attachedSessionIdsJson =
    plan.attachedSessionIds) (hownerEpoch : row'.ownerEpoch = ownerEpoch) {db₁ : EnvironmentDb} (h :
    transitionCredential db₁ id input plan ownerEpoch nowMs = .ok db') (hold : ∀ c, db₁.credentials.find id = some c →
    Minted current c) (hcred : db'.credentials.find id = some credential) : Minted record credential := by
  have hbundle := bootstrapColumns_bundle hplan.trimmed (hboot ▸ hrecord.receipt)
  have hsessions : record.attachedSessionIds = plan.attachedSessionIds := by
    rw [hrecord.sessions, hids, hplan.sessions]
  have hmatch := hplan.credential
  simp only [transitionCredential] at h
  split at h
  · -- A credential was minted: it carries the plan's receipt and session and the new epoch.
    rename_i input' receipt hc hr
    simp only [bind_eq_ok] at h
    obtain ⟨_, hinsert, hupsert⟩ := h
    obtain rfl := upsertCredential_eq_ok hupsert
    rw [Table.find_upsert_self] at hcred
    cases hcred
    obtain ⟨hb, he, hs⟩ := credentialInsert_spec hinsert
    refine ⟨?_, ?_, ?_, ?_⟩
    · rw [hrecord.state, hstate]
      refine acceptsMint_of_acceptsCredential input.source ?_
      rw [← hmatch, hc]
      rfl
    · rw [hbundle, hr, hb]
      rfl
    · rw [hrecord.ownerEpoch, hownerEpoch, he]
    · rw [hsessions, hs]
  · -- None was minted: the old one is there only if it was not revoked.
    rename_i hnone
    have haccepts : acceptsCredential input.source input.target = false := by
      by_contra ha
      rw [Bool.not_eq_false] at ha
      obtain ⟨c, hc⟩ := Option.isSome_iff_exists.mp (hmatch.trans ha)
      obtain ⟨r, hr⟩ := Option.isSome_iff_exists.mp (hplan.receipt ha)
      exact hnone c r hc hr
    cases hrevokes : revokesCredential input.source input.target with
    | true =>
      rw [hrevokes] at h
      cases h
      simp [revokeCredential] at hcred
    | false =>
      rw [hrevokes] at h
      cases h
      have hminted := hold credential hcred
      obtain ⟨hs, ht⟩ := kept_edge hedge (hplan.source ▸ hminted.state) haccepts hrevokes
      rw [hs, ht] at hepoch
      have hkept := hplan.kept (by rw [hs, ht]; rfl) (by rw [hs, ht]; rfl)
      refine ⟨?_, ?_, ?_, ?_⟩
      · rw [hrecord.state, hstate, ht]
        rfl
      · rw [hbundle, hkept]
        exact hminted.bundle
      · rw [hrecord.ownerEpoch, hownerEpoch, ← Except.ok.inj hepoch]
        exact hminted.epoch
      · have hready : current.attachedSessionIds = [] :=
          (assertShape_sessions hcurrent.shape).2 (by rw [hplan.source, hs]; decide)
        rw [hsessions, hplan.unattached (by rw [ht]; decide), ← hminted.session, hready]

theorem transition_spec {nowMs : Int} {record : WorkerEnvironmentRecord}
    (h : transition input nowMs db = .ok (record, db')) : CallSpec db db' := by
  obtain ⟨id, row, current, plan, ownerEpoch, db₁, hedge, -, hrow, hread, hplan, hfree, hepoch,
    hread', rfl, hcred⟩ := transition_eq_ok h
  have hcurrent := recordOf_fromRow hread
  have hplanOf := planTransition_spec hcurrent hplan
  obtain ⟨henv, hframe⟩ := transitionCredential_frame hcred
  have hstate : row.state = input.source := hcurrent.state ▸ hplanOf.source
  refine KeySpec.callSpec id (KeySpec.ofRow (fun k hk => ⟨?_, hframe k hk⟩) hrow
    (by rw [henv]; exact Table.find_upsert_self ..) hread' ?_ (fun sessionId hs => .inr ?_)
    fun hc credential hfound => ?_)
  · rw [henv]
    exact Table.find_upsert_ne _ hk _
  · have hstep := transitionOwnerEpoch_step hrow hcurrent hedge hepoch
    exact ⟨hstep.1, fun hends => hstep.2 (hstate ▸ hends)⟩
  · intro k r hk hr
    have htarget : input.target = .attached := by
      by_contra hne
      simp [rowSession, transitionRow, hne] at hs
    rw [htarget] at hfree
    refine assertSessionFree_spec hfree ?_ k r hk hr
    simpa [rowSession, transitionRow, htarget, hplanOf.sessions] using hs
  · exact transitionCredential_minted hedge hcurrent hplanOf hepoch (recordOf_fromRow hread') rfl rfl
      rfl rfl hcred (fun c hc' => hc.minted hrow hread hc') hfound

/-! ## The repair at start-up -/

theorem demoteDuplicate_eq_ok {nowMs : Int} {duplicate : WorkerEnvironmentRecord}
    (h : demoteDuplicate nowMs db duplicate = .ok db') :
    ∃ row row', db.environments.find duplicate.environmentId = some row ∧ row.state = .attached ∧
      row'.state = .idle ∧ row.ownerEpoch < row'.ownerEpoch ∧
      db' = { db with
        environments := db.environments.upsert duplicate.environmentId row'
        credentials := db.credentials.deleteKey duplicate.environmentId } := by
  simp only [demoteDuplicate, bind_eq_ok, pure_eq_ok, Prod.exists] at h
  obtain ⟨ownerEpoch, hepoch, _, db₁, hupdate, rfl⟩ := h
  obtain ⟨row, hrow, hstate, -, rfl⟩ := update_eq_ok hupdate
  exact ⟨row, _, hrow, hstate, rfl, (nextGlobalOwnerEpoch_fresh hepoch).1 _ row hrow, rfl⟩

theorem demoteDuplicate_spec {nowMs : Int} {duplicate : WorkerEnvironmentRecord}
    (h : demoteDuplicate nowMs db duplicate = .ok db') : CallSpec db db' := by
  obtain ⟨row, row', hrow, -, hidle, hlt, rfl⟩ := demoteDuplicate_eq_ok h
  refine KeySpec.callSpec duplicate.environmentId
    ⟨fun k hk => ⟨Table.find_upsert_ne _ hk _, Table.find_deleteKey_ne _ hk⟩, fun r hr => ?_,
      fun r sessionId hr hs => ?_, fun _ credential hcred => ?_⟩
  · rw [hrow] at hr
    cases hr
    exact ⟨row', Table.find_upsert_self .., Int.le_of_lt hlt, fun _ => hlt⟩
  · rw [Table.find_upsert_self] at hr
    cases hr
    simp [rowSession, hidle] at hs
  · simp at hcred

theorem foldlM_demote_spec {nowMs : Int} : ∀ {duplicates : List WorkerEnvironmentRecord}
    {db db' : EnvironmentDb}, duplicates.foldlM (demoteDuplicate nowMs) db = .ok db' →
      CallSpec db db'
  | [], db, db', h => by
    rw [List.foldlM_nil, pure_eq_ok] at h
    exact h ▸ .refl db
  | duplicate :: rest, db, db', h => by
    rw [List.foldlM_cons, bind_eq_ok] at h
    obtain ⟨db₁, h₁, hrest⟩ := h
    exact (demoteDuplicate_spec h₁).trans (foldlM_demote_spec hrest)

theorem reconcileAttachedSessionOwners_spec {nowMs : Int}
    (h : reconcileAttachedSessionOwners db nowMs = .ok db') : CallSpec db db' := by
  simp only [reconcileAttachedSessionOwners, bind_eq_ok] at h
  obtain ⟨_, _, h⟩ := h
  exact foldlM_demote_spec h

end Transition

/-! ## Calls -/

/-- **What any call does to the environments and their credentials.** -/
theorem call_spec (db : EnvironmentDb) (op : EnvironmentOp) : CallSpec db (applyOp db op) := by
  refine transact_keeps (P := CallSpec db) (.refl db) fun reply db' hbody => ?_
  cases op <;> simp only [EnvironmentOp.body, map_eq_ok] at hbody
  case openStore =>
    obtain ⟨_, hcall, ⟨⟩⟩ := hbody
    exact reconcileAttachedSessionOwners_spec hcall
  case insertHead =>
    obtain ⟨_, _, ⟨⟩⟩ := hbody
    exact ⟨id, fun _ row hrow => ⟨row, hrow, .refl row⟩, id⟩
  all_goals obtain ⟨⟨_, _⟩, hcall, ⟨⟩⟩ := hbody
  case createIntent => exact createIntent_spec hcall
  case requestDestroy => exact requestDestroy_spec hcall
  case transition => exact transition_spec hcall
  case renewCredential => exact renewCredential_spec hcall
  case markCredentialDelivered => exact markCredentialDelivered_spec hcall
  case recordError => exact recordError_spec hcall

end OpenClaw.WorkerEnvironments.Environment
