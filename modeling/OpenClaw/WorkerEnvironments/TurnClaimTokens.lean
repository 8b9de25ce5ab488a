/-
# OpenClaw.WorkerEnvironments.TurnClaimTokens -- three checks of one turn claim token

`validateTurnClaim`, `releaseTurn` and `updateAckCursors` check the same token with code of their own:
a read, and two guarded updates that match different columns.  On the stored texts they agree, because
every text is written trimmed; on the token's texts they do not: the updates trim the ids they are
given, the read compares them as they are.
-/
import OpenClaw.WorkerEnvironments.PlacementInvariant

namespace OpenClaw.WorkerEnvironments.Placement

open OpenClaw.Logic OpenClaw.Data

/-! ## The stored texts are trimmed -/

/-- The texts that a token is compared with. -/
structure TrimmedTexts (row : PlacementRow) : Prop where
  claimId : ∀ id, row.turnClaim.id = some id → Trimmed id
  runId : ∀ id, row.turnClaim.runId = some id → Trimmed id
  environmentId : ∀ id, row.metadata.environmentId = some id → Trimmed id

def AllTrimmed (db : PlacementDb) : Prop := ∀ k row, db.find k = some row → TrimmedTexts row

variable {current : WorkerSessionPlacementRecord} {record : WorkerSessionPlacementRecord} {row : PlacementRow}
    {sessionId : String} {nowMs : Int}

/-- Without a claim only the environment is left. -/
theorem TrimmedTexts.unclaimed (hnull : row.turnClaim = .null) (henv : ∀ id, row.metadata.environmentId = some id →
    Trimmed id) : TrimmedTexts row := by
  refine ⟨fun id h => ?_, fun id h => ?_, henv⟩
  · rw [hnull] at h
    cases h
  · rw [hnull] at h
    cases h

theorem nullableRequired_trimmed {value parsed : Option String} {field : String}
    (h : nullableRequired value field = .ok parsed) : ∀ text, parsed = some text → Trimmed text := by
  intro text htext
  cases value with
  | none =>
    cases h
    cases htext
  | some value =>
    simp only [nullableRequired, map_eq_ok] at h
    obtain ⟨_, hrequired, rfl⟩ := h
    cases htext
    exact requiredText_trimmed hrequired

/-- A trimmed text column parses to itself. -/
theorem nullableRequired_self {value parsed : Option String} {field : String}
    (h : nullableRequired value field = .ok parsed) (htrimmed : ∀ text, value = some text → Trimmed text) :
    parsed = value := by
  cases value with
  | none =>
    cases h
    rfl
  | some value =>
    simp only [nullableRequired, map_eq_ok] at h
    obtain ⟨text, hrequired, rfl⟩ := h
    rw [required, requiredText_of_trimmed (htrimmed value rfl)] at hrequired
    cases hrequired
    rfl

/-- The texts of a parsed claim. -/
theorem parseTurnClaim_trimmed {columns : TurnClaimColumns} {claim : PersistedTurnClaim}
    (h : parseTurnClaim columns = .ok (some claim)) :
    required (columns.id.getD "") "turn claim id" = .ok claim.claimId ∧
      required (columns.runId.getD "") "turn claim run id" = .ok claim.runId ∧
      isSafeInteger claim.generation = true ∧ 0 ≤ claim.generation ∧
      ∀ epoch, claim.ownerEpoch = some epoch → isSafeInteger epoch = true ∧ 1 ≤ epoch := by
  unfold parseTurnClaim at h
  split at h
  · cases h
  · rename_i owner howner
    simp only [bind_eq_ok] at h
    obtain ⟨claimId, hid, runId, hrun, h⟩ := h
    split at h
    · cases h
    · rename_i generation hgeneration
      simp only [bind_eq_ok, throwIf_eq_ok, not_or, Bool.not_eq_false] at h
      obtain ⟨_, ⟨hsafe, hnonneg⟩, h⟩ := h
      replace hnonneg := Int.not_lt.mp hnonneg
      cases owner with
      | «local» =>
        simp only [bind_eq_ok, throwIf_eq_ok, pure_eq_ok] at h
        obtain ⟨_, _, heq⟩ := h
        cases heq
        exact ⟨hid, hrun, hsafe, hnonneg, fun epoch h => by cases h⟩
      | worker =>
        simp only [bind_eq_ok, pure_eq_ok, normalizeEpoch_eq_ok] at h
        obtain ⟨epoch, ⟨rfl, hepoch, hpos⟩, heq⟩ := h
        cases heq
        refine ⟨hid, hrun, hsafe, hnonneg, fun epoch h => ?_⟩
        cases h
        exact ⟨hepoch, hpos⟩

theorem required_column {column : Option String} {field text : String}
    (h : required (column.getD "") field = .ok text) (htrimmed : ∀ id, column = some id → Trimmed id) :
    column = some text := by
  cases column with
  | none =>
    obtain ⟨rfl, hne⟩ := requiredText_eq_ok.mp h
    exact absurd (by decide) hne
  | some id =>
    rw [Option.getD_some, required, requiredText_of_trimmed (htrimmed id rfl)] at h
    cases h
    rfl

/-- The columns of a claim that was read are trimmed. -/
theorem TrimmedTexts.columns {columns : TurnClaimColumns} {claim : PersistedTurnClaim}
    (h : parseTurnClaim columns = .ok (some claim)) : (∀ id, claim.columns.id = some id → Trimmed id) ∧
      ∀ id, claim.columns.runId = some id → Trimmed id := by
  obtain ⟨hid, hrun, -⟩ := parseTurnClaim_trimmed h
  have hclaimId := requiredText_trimmed hid
  have hrunId := requiredText_trimmed hrun
  cases claim <;>
    exact ⟨fun id h => by cases h; exact hclaimId, fun id h => by cases h; exact hrunId⟩

/-- The environment of a record is trimmed. -/
theorem parseWorkerMetadata_environment {row m : WorkerMetadata} (h : parseWorkerMetadata row = .ok m) :
    nullableRequired row.environmentId "environment id" = .ok m.environmentId := by
  simp only [parseWorkerMetadata, bind_eq_ok, pure_eq_ok] at h
  obtain ⟨env, henv, _, _, _, _, _, _, _, _, _, _, _, _, rfl⟩ := h
  exact henv

theorem transitionValues_trimmed {target : WorkerSessionPlacementState}
    {patch : WorkerSessionPlacementTransitionPatch} {values : PlacementRow}
    (hcurrent : ∀ id, current.metadata.environmentId = some id → Trimmed id)
    (h : transitionValues current target patch nowMs = .ok values) : TrimmedTexts values := by
  refine .unclaimed (transitionValues_spec h).2.2.2 fun id hid => ?_
  simp only [transitionValues, bind_eq_ok, pure_eq_ok] at h
  obtain ⟨env, henv, _, _, _, _, _, _, _, _, _, _, _, _, _, _, _, _, _, _, rfl⟩ := h
  unfold patched at henv
  split at henv
  · cases henv
    cases hid
  · split at henv
    · cases henv
      exact hcurrent id hid
    · exact nullableRequired_trimmed henv id hid

/-! ## What a call does to the stored claims -/

/-- The sessions whose waiters a returning call wakes. -/
def PlacementOp.signals : PlacementOp → PlacementReply → List String
  | .releaseTurn claim _, _ => [trim claim.sessionId]
  | .startReconcile input _ _, .advanced _ true => [trim input.sessionId]
  | .fail input _, .advanced _ true => [trim input.sessionId]
  | .clearLocalTurnClaimsAfterRestart _, .cleared sessionIds => sessionIds
  | _, _ => []

/-- A call writes trimmed texts, and every claim that it clears is signalled. -/
structure ClaimEffect (db db' : PlacementDb) (signals : List String) : Prop where
  trimmed : AllTrimmed db'
  signalled : ∀ k row row', db.find k = some row → db'.find k = some row' →
    row.turnClaim.owner ≠ none → row'.turnClaim.owner = none → k ∈ signals

/-- One row written, in a table that differs from the old one at most in that row. -/
theorem ClaimEffect.write {db db₁ : PlacementDb} {k : String} {row' : PlacementRow}
    {signals : List String} (h : AllTrimmed db) (hframe : ∀ k', k' ≠ k → db₁.find k' = db.find k')
    (htexts : TrimmedTexts row')
    (hsignal : ∀ row, db.find k = some row → row.turnClaim.owner ≠ none → row'.turnClaim.owner = none →
      k ∈ signals) : ClaimEffect db (db₁.upsert k row') signals := by
  constructor
  · intro k' row hrow
    by_cases hk : k' = k
    · subst hk
      rw [Table.find_upsert_self] at hrow
      cases hrow
      exact htexts
    · rw [Table.find_upsert_ne _ hk, hframe k' hk] at hrow
      exact h k' row hrow
  · intro k' row row₁ hrow hrow₁ hsome hnone
    by_cases hk : k' = k
    · subst hk
      rw [Table.find_upsert_self] at hrow₁
      cases hrow₁
      exact hsignal row hrow hsome hnone
    · rw [Table.find_upsert_ne _ hk, hframe k' hk, hrow] at hrow₁
      cases hrow₁
      exact absurd hnone hsome

section Effects

variable {db db' : PlacementDb}

/-- What is trimmed in the record of a row. -/
theorem record_environment_trimmed (h : fromRow sessionId row = .ok record) :
    ∀ id, record.metadata.environmentId = some id → Trimmed id :=
  nullableRequired_trimmed (parseWorkerMetadata_environment (recordOf_fromRow h).parses.metadata)

/-- A row that keeps its environment, with the columns of a claim that was read, or none. -/
theorem TrimmedTexts.reclaimed {row row' : PlacementRow} (hread : fromRow sessionId row = .ok record)
    (henv : ∀ id, row'.metadata.environmentId = some id → Trimmed id) {claim : Option PersistedTurnClaim}
    (hclaim : ∀ c, claim = some c → record.turnClaim = some c) (hcolumns :
    row'.turnClaim = (claim.map (·.columns)).getD .null) : TrimmedTexts row' := by
  cases claim with
  | none => exact .unclaimed hcolumns henv
  | some claim =>
    have hparsed := (recordOf_fromRow hread).parses.turnClaim
    rw [hclaim claim rfl] at hparsed
    obtain ⟨hid, hrun⟩ := TrimmedTexts.columns hparsed
    refine ⟨fun id h => ?_, fun id h => ?_, henv⟩
    · rw [hcolumns] at h
      exact hid id h
    · rw [hcolumns] at h
      exact hrun id h

theorem localRow_trimmed (identity : WorkerSessionPlacementIdentity) (nowMs : Int) :
    TrimmedTexts (localRow identity nowMs) :=
  .unclaimed rfl fun _ h => by cases h

theorem ensureLocal_trimmed {db₁ : PlacementDb} {identity : WorkerSessionPlacementIdentity} (h : AllTrimmed db)
    (he : ensureLocal db identity nowMs = .ok (current, db₁)) : AllTrimmed db₁ := by
  simp only [ensureLocal, bind_eq_ok] at he
  obtain ⟨_ | found, hfind, he⟩ := he
  · simp only [insertLocal, bind_eq_ok, Table.insertNew_eq_ok, pure_eq_ok, Prod.mk.injEq] at he
    obtain ⟨_, ⟨hnone, rfl⟩, record, hrecord, rfl, rfl⟩ := he
    intro k row hrow
    rw [Table.find_upsert] at hrow
    split at hrow
    · cases hrow
      exact localRow_trimmed identity nowMs
    · exact h k row hrow
  · simp only [bind_eq_ok, pure_eq_ok, Prod.mk.injEq] at he
    obtain ⟨_, _, rfl, rfl⟩ := he
    exact h

theorem startDispatch_effect {input : WorkerSessionPlacementIdentity} {now : Clock} (hread : Readable db)
    (h : AllTrimmed db) (hcall : startDispatch input now db = .ok (record, db')) : ClaimEffect db db' [] := by
  simp only [startDispatch, bind_eq_ok, pure_eq_ok, throwIf_eq_ok, Table.updateOne_eq_ok, Prod.exists,
    Prod.mk.injEq] at hcall
  obtain ⟨identity, -, current, db₁, hensure, _, -, next, -, _, ⟨row, hrow, -, rfl⟩, _, -, rfl, rfl⟩ := hcall
  obtain ⟨row₁, hrow₁, -, hcurrent, hframe, hsame⟩ := ensureLocal_spec hread hensure
  have htexts := ensureLocal_trimmed h hensure
  rw [(recordOf_fromRow hcurrent).sessionId] at hrow ⊢
  rw [hrow₁] at hrow
  cases hrow
  have hold := htexts _ _ hrow₁
  refine .write h hframe ⟨hold.claimId, hold.runId, fun _ h => by cases h⟩
    fun old hrow hsome hnone => ?_
  -- the claim columns are left alone
  cases hsame old hrow
  exact absurd hnone hsome

theorem transition_effect {input : TransitionInput} (h : AllTrimmed db)
    (hcall : transition input nowMs db = .ok (record, db')) : ClaimEffect db db' [] := by
  simp only [transition, updateTransition, bind_eq_ok, pure_eq_ok, throwIf_eq_ok, getRequired_eq_ok,
    Table.updateOne_eq_ok, not_not, Prod.mk.injEq] at hcall
  obtain ⟨_, -, _, -, sessionId, -, current, ⟨row, hrow, hcurrent⟩, _, -, _, hunclaimed, values, hvalues,
    _, ⟨_, -, -, rfl⟩, _, -, rfl, rfl⟩ := hcall
  have hrec := recordOf_fromRow hcurrent
  refine .write h (fun _ _ => rfl) (transitionValues_trimmed (record_environment_trimmed hcurrent) hvalues)
    fun old hold hsome _ => ?_
  -- there is no claim to clear
  rw [hrec.sessionId, hrow] at hold
  cases hold
  rw [hrec.owner, hunclaimed] at hsome
  exact absurd rfl hsome

theorem startDrain_effect {input : WorkerOwnerInput} {expectedGeneration nowMs : Int} (h : AllTrimmed db)
    (hcall : startDrain input expectedGeneration nowMs db = .ok (record, db')) : ClaimEffect db db' [] := by
  simp only [startDrain, bind_eq_ok, pure_eq_ok, throwIf_eq_ok, getRequired_eq_ok,
    Table.updateOne_eq_ok, Prod.mk.injEq] at hcall
  obtain ⟨sessionId, _, _, _, _, _, current, ⟨row, hrow, hcurrent⟩, _, -, values, hvalues,
    _, _, _, ⟨_, _, _, rfl⟩, _, -, rfl, rfl⟩ := hcall
  have hrec := recordOf_fromRow hcurrent
  have htexts := transitionValues_trimmed (record_environment_trimmed hcurrent) hvalues
  obtain ⟨-, -, -, hnull⟩ := transitionValues_spec hvalues
  refine .write h (fun _ _ => rfl) (.reclaimed hcurrent htexts.environmentId (fun _ => id)
    (by rw [hnull])) fun old hold hsome hnone => ?_
  rw [hrow] at hold
  cases hold
  -- a stored claim is written again
  cases hclaim : current.turnClaim with
  | none =>
    rw [hrec.owner, hclaim] at hsome
    exact absurd rfl hsome
  | some claim =>
    rw [hclaim] at hnone
    cases claim <;> cases hnone

theorem startReconcile_effect {input : WorkerOwnerInput} {expectedGeneration nowMs : Int}
    {outcome : WorkerSessionPlacementRecord × Bool} (h : AllTrimmed db)
    (hcall : startReconcile input expectedGeneration nowMs db = .ok (outcome, db')) :
    ClaimEffect db db' (if outcome.2 then [trim input.sessionId] else []) := by
  simp only [startReconcile, bind_eq_ok, pure_eq_ok, throwIf_eq_ok, getRequired_eq_ok,
    Table.updateOne_eq_ok, Prod.mk.injEq] at hcall
  obtain ⟨sessionId, hid, _, _, _, _, current, ⟨row, hrow, hcurrent⟩, _, -, values, hvalues,
    _, ⟨_, _, _, rfl⟩, _, -, rfl, rfl⟩ := hcall
  obtain ⟨rfl, -⟩ := requiredText_eq_ok.mp hid
  have hrec := recordOf_fromRow hcurrent
  refine .write h (fun _ _ => rfl) (transitionValues_trimmed (record_environment_trimmed hcurrent) hvalues)
    fun old hold hsome _ => ?_
  rw [hrow] at hold
  cases hold
  cases hclaim : current.turnClaim with
  | none =>
    rw [hrec.owner, hclaim] at hsome
    exact absurd rfl hsome
  | some claim => exact List.mem_singleton.mpr rfl

theorem fail_effect {input : FailInput} {nowMs : Int} {outcome : WorkerSessionPlacementRecord × Bool}
    (h : AllTrimmed db) (hcall : fail input nowMs db = .ok (outcome, db')) :
    ClaimEffect db db' (if outcome.2 then [trim input.sessionId] else []) := by
  simp only [fail, bind_eq_ok, throwIf_eq_ok, getRequired_eq_ok] at hcall
  obtain ⟨sessionId, hid, error, _, current, ⟨row, hrow, hcurrent⟩, _, _, hcall⟩ := hcall
  obtain ⟨rfl, -⟩ := requiredText_eq_ok.mp hid
  have hrec := recordOf_fromRow hcurrent
  have hold := h _ _ hrow
  split at hcall
  · simp only [bind_eq_ok, pure_eq_ok, Table.updateOne_eq_ok, Prod.mk.injEq] at hcall
    obtain ⟨_, ⟨row₁, hrow₁, _, rfl⟩, _, -, rfl, rfl⟩ := hcall
    rw [hrow] at hrow₁
    cases hrow₁
    refine .write h (fun _ _ => rfl) ⟨hold.claimId, hold.runId, hold.environmentId⟩
      fun old hrow' hsome hnone => ?_
    rw [hrow] at hrow'
    cases hrow'
    exact absurd hnone hsome
  · simp only [bind_eq_ok, pure_eq_ok, throwIf_eq_ok, Table.updateOne_eq_ok, Prod.mk.injEq] at hcall
    obtain ⟨_, -, next, -, _, ⟨row₁, hrow₁, _, rfl⟩, _, -, rfl, rfl⟩ := hcall
    rw [hrow] at hrow₁
    cases hrow₁
    refine .write h (fun _ _ => rfl) (.reclaimed hcurrent hold.environmentId
      (fun c hc => (Option.filter_eq_some_iff.mp hc).1) rfl) fun old hrow' hsome hnone => ?_
    rw [hrow] at hrow'
    cases hrow'
    cases hclaim : current.turnClaim with
    | none =>
      rw [hrec.owner, hclaim] at hsome
      exact absurd rfl hsome
    | some claim =>
      rw [hclaim] at hnone
      cases claim with
      | worker => exact List.mem_singleton.mpr rfl
      | «local» => cases hnone

theorem claimTurn_effect {input : ClaimTurnInput} {now : Clock} {claim : WorkerSessionTurnClaim}
    (hread : Readable db) (h : AllTrimmed db) (hcall : claimTurn input now db = .ok (claim, db')) :
    ClaimEffect db db' [] := by
  simp only [claimTurn, bind_eq_ok, pure_eq_ok, Table.updateOne_eq_ok, Prod.exists, Prod.mk.injEq] at hcall
  obtain ⟨identity, -, claimId, hid, runId, hrun, owner, -, current, db₁, hensure, _, -, _, -, _,
    ⟨row, hrow, -, rfl⟩, rfl, rfl⟩ := hcall
  obtain ⟨row₁, hrow₁, -, hcurrent, hframe, -⟩ := ensureLocal_spec hread hensure
  have htexts := ensureLocal_trimmed h hensure
  rw [(recordOf_fromRow hcurrent).sessionId] at hrow ⊢
  rw [hrow₁] at hrow
  cases hrow
  refine .write h hframe ⟨fun id h => ?_, fun id h => ?_, (htexts _ _ hrow₁).environmentId⟩
    fun _ _ _ hnone => by cases hnone
  · cases h
    exact requiredText_trimmed hid
  · cases h
    exact requiredText_trimmed hrun

theorem releaseTurn_effect {claim : WorkerSessionTurnClaim} (h : AllTrimmed db)
    (hcall : releaseTurn claim nowMs db = .ok (record, db')) : ClaimEffect db db' [trim claim.sessionId] := by
  simp only [releaseTurn, bind_eq_ok, pure_eq_ok, Table.updateOne_eq_ok, Prod.mk.injEq] at hcall
  obtain ⟨sessionId, hid, _, _, _, _, _, _, _, _, _, ⟨row, hrow, _, rfl⟩, _, -, rfl, rfl⟩ := hcall
  obtain ⟨rfl, -⟩ := requiredText_eq_ok.mp hid
  exact .write h (fun _ _ => rfl) (.unclaimed rfl (h _ _ hrow).environmentId)
    fun _ _ _ _ => List.mem_singleton.mpr rfl

theorem updateAckCursors_effect {input : AckInput} (h : AllTrimmed db) (hcall :
    updateAckCursors input nowMs db = .ok (record, db')) : ClaimEffect db db' [] := by
  simp only [updateAckCursors, bind_eq_ok] at hcall
  obtain ⟨sessionId, _, _, _, _, _, _, _, hcall⟩ := hcall
  split at hcall
  · cases hcall
  · simp only [bind_eq_ok, pure_eq_ok, Table.updateOne_eq_ok, Prod.mk.injEq] at hcall
    obtain ⟨_, _, _, _, _, _, _, _, _, _, _, _, _, ⟨row, hrow, _, rfl⟩, _, -, rfl, rfl⟩ := hcall
    have hold := h _ _ hrow
    refine .write h (fun _ _ => rfl) ⟨hold.claimId, hold.runId, hold.environmentId⟩
      fun old hrow' hsome hnone => ?_
    rw [hrow] at hrow'
    cases hrow'
    exact absurd hnone hsome

theorem clearLocalTurnClaimsAfterRestart_effect {sessionIds : List String} (h : AllTrimmed db)
    (hcall : clearLocalTurnClaimsAfterRestart nowMs db = .ok (sessionIds, db')) : ClaimEffect db db' sessionIds := by
  simp only [clearLocalTurnClaimsAfterRestart, bind_eq_ok, pure_eq_ok, Prod.mk.injEq] at hcall
  obtain ⟨_, _, rfl, rfl⟩ := hcall
  constructor
  · intro k row hrow
    simp only [Table.find_updateWhere, Option.map_eq_some_iff] at hrow
    obtain ⟨old, hold, rfl⟩ := hrow
    split
    · exact .unclaimed rfl (h k old hold).environmentId
    · exact h k old hold
  · intro k row row' hrow hrow' hsome hnone
    rw [Table.find_updateWhere, hrow, Option.map_some, Option.some.injEq] at hrow'
    split at hrow'
    · rename_i hlocal
      exact List.mem_map.mpr ⟨(k, row), List.mem_filter.mpr ⟨Table.mem_rows.mpr hrow, hlocal⟩, rfl⟩
    · subst hrow'
      exact absurd hnone hsome

end Effects

/-- **What a returning call does to the stored claims.** -/
theorem call_effect {db db' : PlacementDb} {op : PlacementOp} {reply : PlacementReply}
    (hread : Readable db) (h : AllTrimmed db) (hbody : op.body db = .ok (reply, db')) :
    ClaimEffect db db' (op.signals reply) := by
  cases op <;> simp only [PlacementOp.body, map_eq_ok] at hbody <;>
    obtain ⟨⟨outcome, _⟩, hcall, ⟨⟩⟩ := hbody
  case startDispatch => exact startDispatch_effect hread h hcall
  case transition => exact transition_effect h hcall
  case startDrain => exact startDrain_effect h hcall
  case startReconcile =>
    obtain ⟨record, released⟩ := outcome
    cases released <;> exact startReconcile_effect h hcall
  case fail =>
    obtain ⟨record, released⟩ := outcome
    cases released <;> exact fail_effect h hcall
  case claimTurn => exact claimTurn_effect hread h hcall
  case releaseTurn => exact releaseTurn_effect h hcall
  case updateAckCursors => exact updateAckCursors_effect h hcall
  case clearLocalTurnClaimsAfterRestart => exact clearLocalTurnClaimsAfterRestart_effect h hcall

theorem trimmed_call {db : PlacementDb} (hread : Readable db) (h : AllTrimmed db) (op : PlacementOp) :
    AllTrimmed (applyOp db op) := by
  refine transact_keeps (P := AllTrimmed) h fun reply db' hbody => ?_
  exact (call_effect hread h hbody).trimmed

/-! ## The three checks -/

/-- The ids of a token as the guarded updates read them. -/
def trimmedOwner : WorkerSessionTurnOwner → WorkerSessionTurnOwner
  | .«local» => .«local»
  | .worker environmentId ownerEpoch => .worker (trim environmentId) ownerEpoch

def trimmedToken (claim : WorkerSessionTurnClaim) : WorkerSessionTurnClaim :=
  { claim with
    sessionId := trim claim.sessionId
    claimId := trim claim.claimId
    runId := trim claim.runId
    owner := trimmedOwner claim.owner }

/-- The stored claim of the token's session is this token. -/
def HoldsClaim (db : PlacementDb) (claim : WorkerSessionTurnClaim) : Prop :=
  ∃ sessionId current, required claim.sessionId "session id" = .ok sessionId ∧
    getRequired db sessionId = .ok current ∧
    claimMatches current claim.claimId claim.runId claim = true

/-- No id of the token carries surrounding white space. -/
structure TrimmedIds (claim : WorkerSessionTurnClaim) : Prop where
  claimId : trim claim.claimId = claim.claimId
  runId : trim claim.runId = claim.runId
  owner : trimmedOwner claim.owner = claim.owner

/-- A cursor that does not fall behind the stored one. -/
def CursorAdvances (stored : Option Int) (cursor : Option Int) : Prop :=
  ∀ value, cursor = some value → isSafeInteger value = true ∧ 0 ≤ value ∧ ∀ old, stored = some old → old ≤ value

/-- The cursors of an acknowledgement advance the stored ones of its session. -/
def CursorsAdvance (db : PlacementDb) (input : AckInput) : Prop :=
  ∀ current, getRequired db (trim input.claim.sessionId) = .ok current →
    CursorAdvances current.metadata.lastTranscriptAckCursor input.transcript ∧
      CursorAdvances current.metadata.lastLiveEventAckCursor input.liveEvent

def Accepts (db : PlacementDb) (claim : WorkerSessionTurnClaim) : Prop := validateTurnClaim claim db = .ok true

/-- **The three checks agree on a token.** -/
structure ChecksAgree (db : PlacementDb) (claim : WorkerSessionTurnClaim) : Prop where
  release : ∀ nowMs, Accepts db claim ↔ (releaseTurn claim nowMs db).isOk = true
  ack : claim.owner.kind = .worker → ∀ transcript liveEvent nowMs,
    CursorsAdvance db { claim, transcript, liveEvent } →
    (Accepts db claim ↔ (updateAckCursors { claim, transcript, liveEvent } nowMs db).isOk = true)

section Checks

variable {db : PlacementDb} {claim : WorkerSessionTurnClaim}

/-- What a stored claim that matches a token says about the record it was read from. -/
theorem claimMatches_iff {claimId runId : String} : claimMatches current claimId runId claim = true ↔
      ∃ persisted, current.turnClaim = some persisted ∧ persisted.claimId = claimId ∧ persisted.runId = runId ∧
      persisted.generation = claim.placementGeneration ∧ persisted.owner = claim.owner.kind ∧
      ∀ environmentId ownerEpoch, claim.owner = .worker environmentId ownerEpoch →
      persisted.ownerEpoch = some ownerEpoch ∧ workerMayFinish current.state = true ∧
      current.metadata.environmentId = some environmentId ∧ current.metadata.activeOwnerEpoch = some ownerEpoch := by
  unfold claimMatches
  cases current.turnClaim with
  | none => simp
  | some persisted => cases claim.owner <;> simp [and_assoc]

theorem accepts_iff : Accepts db claim ↔ HoldsClaim db claim := by
  unfold Accepts validateTurnClaim HoldsClaim
  simp only [bind_eq_ok]
  constructor
  · rintro ⟨sessionId, hid, _ | current, hfind, h⟩
    · cases h
    · rw [pure_eq_ok] at h
      exact ⟨sessionId, current, hid, getRequired_eq_ok.mpr (find_eq_some.mp hfind), h⟩
  · rintro ⟨sessionId, current, hid, hget, hmatch⟩
    exact ⟨sessionId, hid, some current, find_eq_some.mpr (getRequired_eq_ok.mp hget), pure_eq_ok.mpr hmatch⟩

/-- The texts of the claim in a record are trimmed. -/
theorem persisted_trimmed (h : fromRow sessionId row = .ok current) {persisted : PersistedTurnClaim}
    (hclaim : current.turnClaim = some persisted) : Trimmed persisted.claimId ∧ Trimmed persisted.runId := by
  have hparsed := (recordOf_fromRow h).parses.turnClaim
  rw [hclaim] at hparsed
  obtain ⟨hid, hrun, -⟩ := parseTurnClaim_trimmed hparsed
  exact ⟨requiredText_trimmed hid, requiredText_trimmed hrun⟩

theorem required_trim {value field : String} : required (trim value) field = required value field := by
  rw [required, required, requiredText, requiredText, trim_trim]

/-- **The read accepts** a token that is stored up to white space, and carries none. -/
theorem holdsClaim_iff : HoldsClaim db claim ↔ HoldsClaim db (trimmedToken claim) ∧ TrimmedIds claim := by
  constructor
  · rintro ⟨sessionId, current, hid, hget, hmatch⟩
    obtain ⟨row, -, hrow⟩ := getRequired_eq_ok.mp hget
    obtain ⟨persisted, hclaim, hclaimId, hrunId, hgeneration, hkind, hworker⟩ := Iff.mp claimMatches_iff hmatch
    obtain ⟨htrimId, htrimRun⟩ := persisted_trimmed hrow hclaim
    have hids : TrimmedIds claim := by
      refine ⟨hclaimId ▸ htrimId.1, hrunId ▸ htrimRun.1, ?_⟩
      cases howner : claim.owner with
      | «local» => rfl
      | worker environmentId ownerEpoch =>
        obtain ⟨-, -, henv, -⟩ := hworker _ _ howner
        rw [trimmedOwner, (record_environment_trimmed hrow _ henv).1]
    refine ⟨⟨sessionId, current, required_trim.trans hid, hget, ?_⟩, hids⟩
    rw [trimmedToken, hids.claimId, hids.runId, hids.owner]
    exact hmatch
  · rintro ⟨⟨sessionId, current, hid, hget, hmatch⟩, hids⟩
    refine ⟨sessionId, current, required_trim.symm.trans hid, hget, ?_⟩
    rw [trimmedToken, hids.claimId, hids.runId, hids.owner] at hmatch
    exact hmatch

theorem required_of_trim {value field text : String} (htrim : text = trim value)
    (htrimmed : Trimmed text) : required value field = .ok text :=
  requiredText_eq_ok.mpr ⟨htrim.symm, htrimmed.2⟩

/-- The claim columns of a row that decodes to a record with a claim. -/
theorem claimColumns_of_fromRow (h : fromRow sessionId row = .ok current) (htexts : TrimmedTexts row)
    {persisted : PersistedTurnClaim} (hclaim : current.turnClaim = some persisted) :
    row.turnClaim.owner = some persisted.owner ∧ row.turnClaim.id = some persisted.claimId ∧
      row.turnClaim.runId = some persisted.runId ∧ row.turnClaim.generation = some persisted.generation ∧
      row.turnClaim.ownerEpoch = persisted.ownerEpoch := by
  have hrec := recordOf_fromRow h
  have hparsed := hrec.parses.turnClaim
  rw [hclaim] at hparsed
  obtain ⟨hid, hrun, -⟩ := parseTurnClaim_trimmed hparsed
  obtain ⟨howner, hcolumns⟩ := parseTurnClaim_columns hparsed
  obtain ⟨hgeneration, hepoch⟩ := hcolumns persisted rfl
  exact ⟨howner, required_column hid htexts.claimId, required_column hrun htexts.runId, hgeneration, hepoch⟩

/-- **A release succeeds** with a token whose claim and run ids match once they are trimmed. -/
theorem releaseTurn_isOk (hread : Readable db) (htexts : AllTrimmed db) (nowMs : Int) :
    (releaseTurn claim nowMs db).isOk = true ↔
      ∃ sessionId current, required claim.sessionId "session id" = .ok sessionId ∧
        getRequired db sessionId = .ok current ∧
        claimMatches current (trim claim.claimId) (trim claim.runId) claim = true := by
  constructor
  · intro hok
    cases hcall : releaseTurn claim nowMs db with
    | error message =>
      rw [hcall] at hok
      cases hok
    | ok result =>
      simp only [releaseTurn, bind_eq_ok, throwIf_eq_ok, Bool.not_eq_false] at hcall
      obtain ⟨sessionId, hid, claimId, hclaimId, runId, hrunId, current, hget, _, hmatch, -⟩ := hcall
      obtain ⟨rfl, -⟩ := requiredText_eq_ok.mp hclaimId
      obtain ⟨rfl, -⟩ := requiredText_eq_ok.mp hrunId
      exact ⟨sessionId, current, hid, hget, hmatch⟩
  · rintro ⟨sessionId, current, hid, hget, hmatch⟩
    obtain ⟨row, hrow, hcurrent⟩ := getRequired_eq_ok.mp hget
    obtain ⟨persisted, hclaim, hclaimId, hrunId, hgeneration, -, -⟩ := Iff.mp claimMatches_iff hmatch
    obtain ⟨htrimId, htrimRun⟩ := persisted_trimmed hcurrent hclaim
    obtain ⟨-, hcolId, hcolRun, hcolGeneration, -⟩ := claimColumns_of_fromRow hcurrent (htexts _ _ hrow) hclaim
    obtain ⟨record, hrecord⟩ := ((hread _ _ hrow).unclaimed nowMs).readable
    have hcall : releaseTurn claim nowMs db = .ok (record,
        db.upsert sessionId { row with turnClaim := .null, updatedAtMs := nowMs }) := by
      simp only [releaseTurn, bind_eq_ok, pure_eq_ok, throwIf_eq_ok, Table.updateOne_eq_ok, Prod.mk.injEq]
      refine ⟨sessionId, hid, _, required_of_trim hclaimId htrimId, _, required_of_trim hrunId htrimRun,
        current, hget, (), ?_, _, ⟨row, hrow, ?_, rfl⟩, record, getRequired_upsert.mpr hrecord, rfl, rfl⟩
      · rw [hclaimId, hrunId, hmatch]
        exact Bool.noConfusion
      · rw [hcolId, hcolRun, hcolGeneration, hgeneration]
        simp
    rw [hcall]
    rfl

/-- A cursor that advances is taken over. -/
theorem advanceCursor_isOk {stored cursor : Option Int} {field : String}
    (hstored : normalizeCursor stored field = .ok stored) (h : CursorAdvances stored cursor) :
    ∃ next, advanceCursor stored cursor field = .ok next ∧ normalizeCursor next field = .ok next := by
  cases cursor with
  | none => exact ⟨stored, rfl, hstored⟩
  | some value =>
    obtain ⟨hsafe, hnonneg, hle⟩ := h value rfl
    have hvalue : normalizeCursor (some value) field = .ok (some value) := by
      simp [normalizeCursor, hsafe, hnonneg]
    refine ⟨some value, ?_, hvalue⟩
    unfold advanceCursor
    dsimp only
    rw [hvalue]
    cases stored with
    | none => rfl
    | some old =>
      have hmax : max old value = value := Int.max_eq_right (hle old rfl)
      exact congrArg (fun n => Except.ok (some n)) hmax

/-- The stored row after an acknowledgement. -/
def ackedRow (row : PlacementRow) (transcript liveEvent : Option Int) (nowMs : Int) : PlacementRow :=
  { row with
    metadata := { row.metadata with
      lastTranscriptAckCursor := transcript
      lastLiveEventAckCursor := liveEvent }
    updatedAtMs := nowMs }

/-- A worker's row stays readable with other cursors. -/
theorem ackedRow_readable (h : fromRow sessionId row = .ok current) (hstate : workerMayFinish row.state = true)
    {transcript liveEvent : Option Int} (htranscript : normalizeCursor transcript "transcript ACK cursor" =
    .ok transcript) (hlive : normalizeCursor liveEvent "live ACK cursor" = .ok liveEvent) (nowMs : Int) :
    ∃ record, fromRow sessionId (ackedRow row transcript liveEvent nowMs) = .ok record := by
  have hp := (recordOf_fromRow h).parses
  have hmeta : parseWorkerMetadata (ackedRow row transcript liveEvent nowMs).metadata =
      .ok { current.metadata with
        lastTranscriptAckCursor := transcript
        lastLiveEventAckCursor := liveEvent } := by
    have hparsed := hp.metadata
    simp only [parseWorkerMetadata, bind_eq_ok, pure_eq_ok] at hparsed ⊢
    obtain ⟨env, henv, epoch, hepoch, manifest, hmanifest, dir, hdir, bundle, hbundle, _, _, _, _, hm⟩ := hparsed
    refine ⟨env, henv, epoch, hepoch, manifest, hmanifest, dir, hdir, bundle, hbundle, _, htranscript, _, hlive, ?_⟩
    rw [← hm]
  refine ⟨_, fromRow_eq_ok.mpr ⟨_, _, _, ⟨hmeta, hp.errorColumn, hp.turnClaim, ?_, ?_⟩, rfl⟩⟩
  · have hshape := hp.metadataShape
    unfold workerMayFinish at hstate
    revert hshape hstate
    unfold ackedRow
    cases row.state <;> simp [assertMetadataShape]
  · have hshape := hp.claimShape
    unfold assertClaimShape at hshape ⊢
    exact hshape

/-- The cursors of a record are in range. -/
theorem record_cursors (h : fromRow sessionId row = .ok current) :
    normalizeCursor current.metadata.lastTranscriptAckCursor "transcript ACK cursor" =
      .ok current.metadata.lastTranscriptAckCursor ∧
      normalizeCursor current.metadata.lastLiveEventAckCursor "live ACK cursor" =
      .ok current.metadata.lastLiveEventAckCursor := by
  have hparsed := (recordOf_fromRow h).parses.metadata
  simp only [parseWorkerMetadata, bind_eq_ok, pure_eq_ok] at hparsed
  obtain ⟨_, _, _, _, _, _, _, _, _, _, transcript, htranscript, live, hlive, hm⟩ := hparsed
  rw [← hm]
  have ht := normalizeCursor_eq htranscript
  have hl := normalizeCursor_eq hlive
  subst ht hl
  exact ⟨htranscript, hlive⟩

/-- **An acknowledgement succeeds** with a worker token whose ids match once they are trimmed. -/
theorem updateAckCursors_isOk (htexts : AllTrimmed db) {transcript liveEvent : Option Int}
    (hworker : claim.owner.kind = .worker) (nowMs : Int)
    (hcursors : CursorsAdvance db { claim, transcript, liveEvent }) :
    (updateAckCursors { claim, transcript, liveEvent } nowMs db).isOk = true ↔ HoldsClaim db (trimmedToken claim) := by
  obtain ⟨environmentId, ownerEpoch, howner⟩ : ∃ environmentId ownerEpoch,
      claim.owner = .worker environmentId ownerEpoch := by
    cases howner : claim.owner with
    | «local» =>
      rw [howner] at hworker
      cases hworker
    | worker environmentId ownerEpoch => exact ⟨_, _, rfl⟩
  constructor
  · intro hok
    cases hcall : updateAckCursors { claim, transcript, liveEvent } nowMs db with
    | error message =>
      rw [hcall] at hok
      cases hok
    | ok result =>
      simp only [updateAckCursors, howner, bind_eq_ok, throwIf_eq_ok, not_or, not_not, Bool.not_eq_false] at hcall
      obtain ⟨sessionId, hid, claimId, hclaimId, runId, hrunId, _, -, env, henv, epoch, hepoch,
        current, hget, _, ⟨hstate, henvironment, hactive, hclaim⟩, -⟩ := hcall
      obtain ⟨rfl, -⟩ := requiredText_eq_ok.mp hclaimId
      obtain ⟨rfl, -⟩ := requiredText_eq_ok.mp hrunId
      obtain ⟨rfl, -⟩ := requiredText_eq_ok.mp henv
      obtain ⟨rfl, -⟩ := normalizeEpoch_eq_ok.mp hepoch
      refine ⟨sessionId, current, required_trim.trans hid, hget, Iff.mpr claimMatches_iff ?_⟩
      refine ⟨_, hclaim, rfl, rfl, rfl, ?_, ?_⟩
      · rw [trimmedToken, howner]
        rfl
      · intro environmentId' ownerEpoch' howner'
        rw [trimmedToken, howner, trimmedOwner] at howner'
        cases howner'
        exact ⟨rfl, hstate, henvironment, hactive⟩
  · rintro ⟨sessionId, current, hid, hget, hmatch⟩
    obtain ⟨row, hrow, hcurrent⟩ := getRequired_eq_ok.mp hget
    have htexts := htexts _ _ hrow
    have hrec := recordOf_fromRow hcurrent
    obtain ⟨persisted, hclaim, hclaimId, hrunId, hgeneration, hkind, hmatched⟩ := Iff.mp claimMatches_iff hmatch
    obtain ⟨hepoch, hstate, henv, hactive⟩ := hmatched (trim environmentId) ownerEpoch (by
      rw [trimmedToken, howner, trimmedOwner])
    obtain ⟨htrimId, htrimRun⟩ := persisted_trimmed hcurrent hclaim
    have htrimEnv := record_environment_trimmed hcurrent _ henv
    have hparsed := hrec.parses.turnClaim
    rw [hclaim] at hparsed
    obtain ⟨-, -, hsafe, hnonneg, hepochs⟩ := parseTurnClaim_trimmed hparsed
    obtain ⟨hcolOwner, hcolId, hcolRun, hcolGeneration, hcolEpoch⟩ := claimColumns_of_fromRow hcurrent htexts hclaim
    have hpersisted : persisted =
        .worker (trim claim.claimId) (trim claim.runId) claim.placementGeneration ownerEpoch := by
      cases persisted with
      | «local» => cases hepoch
      | worker claimId runId generation epoch =>
        simp only [PersistedTurnClaim.claimId, PersistedTurnClaim.runId, trimmedToken,
          PersistedTurnClaim.generation, PersistedTurnClaim.ownerEpoch, Option.some.injEq] at *
        rw [hclaimId, hrunId, hgeneration, hepoch]
    subst hpersisted
    replace hid := required_trim.symm.trans hid
    obtain ⟨rfl, -⟩ := requiredText_eq_ok.mp hid
    obtain ⟨hadvanceTranscript, hadvanceLive⟩ := hcursors current hget
    obtain ⟨hstoredTranscript, hstoredLive⟩ := record_cursors hcurrent
    obtain ⟨nextTranscript, htranscript, hokTranscript⟩ := advanceCursor_isOk hstoredTranscript hadvanceTranscript
    obtain ⟨nextLive, hlive, hokLive⟩ := advanceCursor_isOk hstoredLive hadvanceLive
    obtain ⟨record, hrecord⟩ := ackedRow_readable hcurrent (hrec.state ▸ hstate) hokTranscript hokLive nowMs
    have hrowEnv : row.metadata.environmentId = some (trim environmentId) := by
      rw [← henv]
      exact (nullableRequired_self (parseWorkerMetadata_environment hrec.parses.metadata)
        htexts.environmentId).symm
    have hrowEpoch : row.metadata.activeOwnerEpoch = some ownerEpoch := by
      rw [← hactive, parseWorkerMetadata_epoch hrec.parses.metadata]
    obtain ⟨hepochSafe, hepochPos⟩ := hepochs ownerEpoch rfl
    have hcall : updateAckCursors { claim, transcript, liveEvent } nowMs db = .ok (record,
        db.upsert (trim claim.sessionId) (ackedRow row nextTranscript nextLive nowMs)) := by
      simp only [updateAckCursors, howner, bind_eq_ok, pure_eq_ok, throwIf_eq_ok, not_or, not_not,
        Bool.not_eq_false, Table.updateOne_eq_ok, Prod.mk.injEq]
      refine ⟨_, hid, _, required_of_trim rfl htrimId, _, required_of_trim rfl htrimRun, (),
        ⟨hsafe, Int.not_lt.mpr hnonneg⟩, _, required_of_trim rfl htrimEnv, ownerEpoch,
        normalizeEpoch_eq_ok.mpr ⟨rfl, hepochSafe, hepochPos⟩, current, hget, (),
        ⟨hstate, henv, hactive, hclaim⟩, nextTranscript, htranscript, nextLive, hlive, _,
        ⟨row, hrow, ?_, rfl⟩, record, getRequired_upsert.mpr hrecord, rfl, rfl⟩
      simp [hrec.state, hrec.generation, hrowEnv, hrowEpoch, holdsWorkerClaim, hcolOwner, hcolId, hcolRun,
        hcolGeneration, hcolEpoch, PersistedTurnClaim.owner, PersistedTurnClaim.claimId,
        PersistedTurnClaim.runId, PersistedTurnClaim.generation, PersistedTurnClaim.ownerEpoch]
    rw [hcall]
    rfl

/-- **The three checks agree on a token exactly if** it carries no white space around its ids, or is not
the stored claim up to white space. -/
theorem checksAgree_iff (hread : Readable db) (htexts : AllTrimmed db) :
    ChecksAgree db claim ↔ (HoldsClaim db (trimmedToken claim) → TrimmedIds claim) := by
  have haccepts : Accepts db claim ↔ HoldsClaim db (trimmedToken claim) ∧ TrimmedIds claim :=
    accepts_iff.trans holdsClaim_iff
  -- the release compares the environment of a worker as it is
  have hrelease : ∀ nowMs, (releaseTurn claim nowMs db).isOk = true ↔
      HoldsClaim db (trimmedToken claim) ∧ trimmedOwner claim.owner = claim.owner := by
    intro nowMs
    rw [releaseTurn_isOk hread htexts]
    constructor
    · rintro ⟨sessionId, current, hid, hget, hmatch⟩
      obtain ⟨row, -, hrow⟩ := getRequired_eq_ok.mp hget
      have howner : trimmedOwner claim.owner = claim.owner := by
        obtain ⟨_, -, -, -, -, -, hworker⟩ := Iff.mp claimMatches_iff hmatch
        cases howner : claim.owner with
        | «local» => rfl
        | worker environmentId ownerEpoch =>
          obtain ⟨-, -, henv, -⟩ := hworker _ _ howner
          rw [trimmedOwner, (record_environment_trimmed hrow _ henv).1]
      refine ⟨⟨sessionId, current, required_trim.trans hid, hget, ?_⟩, howner⟩
      rw [trimmedToken, howner]
      exact hmatch
    · rintro ⟨⟨sessionId, current, hid, hget, hmatch⟩, howner⟩
      refine ⟨sessionId, current, required_trim.symm.trans hid, hget, ?_⟩
      rw [trimmedToken, howner] at hmatch
      exact hmatch
  constructor
  · intro hagree hholds
    cases howner : claim.owner with
    | «local» =>
      have hok := (hrelease 0).mpr ⟨hholds, by rw [howner]; rfl⟩
      exact (haccepts.mp ((hagree.release 0).mpr hok)).2
    | worker environmentId ownerEpoch =>
      have hworker : claim.owner.kind = .worker := by
        rw [howner]
        rfl
      have hcursors : CursorsAdvance db { claim, transcript := none, liveEvent := none } :=
        fun _ _ => ⟨fun _ h => (by cases h), fun _ h => (by cases h)⟩
      have hok := (updateAckCursors_isOk htexts hworker 0 hcursors).mpr hholds
      exact (haccepts.mp ((hagree.ack hworker none none 0 hcursors).mpr hok)).2
  · intro hids
    refine ⟨fun nowMs => ?_, fun hworker transcript liveEvent nowMs hcursors => ?_⟩
    · rw [haccepts, hrelease]
      exact ⟨fun h => ⟨h.1, h.2.owner⟩, fun h => ⟨h.1, hids h.1⟩⟩
    · rw [haccepts, updateAckCursors_isOk htexts hworker nowMs hcursors]
      exact ⟨And.left, fun h => ⟨h, hids h⟩⟩

end Checks

end OpenClaw.WorkerEnvironments.Placement
