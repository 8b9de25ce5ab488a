/-
# OpenClaw.WorkerEnvironments.PlacementInvariant -- what a call does to the placement table

The operations write one row by hand-built column sets.  `CallSpec` says what a call does to the
table: every row it leaves is readable, and every row that was there has moved by a `RowStep`: it
stayed in its state at its generation, or it took one edge of the transition table and one
generation.  Each operation gets one lemma of that form; the run-level results follow by the
invariant and the monotonicity rules.
-/
import OpenClaw.WorkerEnvironments.PlacementRowShape
import OpenClaw.WorkerEnvironments.PlacementStore

namespace OpenClaw.WorkerEnvironments.Placement

open OpenClaw.Logic OpenClaw.Data

/-! ## The row invariant and the row step -/

/-- A row the store can read again, at a generation it can still compare. -/
structure RowOk (sessionId : String) (row : PlacementRow) : Prop where
  readable : ∃ record, fromRow sessionId row = .ok record
  safe : isSafeInteger row.transitionGeneration = true
  nonneg : 0 ≤ row.transitionGeneration

/-- **The table invariant.** Every stored row is readable. -/
def Readable (db : PlacementDb) : Prop := ∀ k row, db.find k = some row → RowOk k row

/-- What a call may do to the stored claim of a row. -/
inductive ClaimStep (row row' : PlacementRow) : Prop where
  | dropped (owner : row'.turnClaim.owner = none)
  | kept (owner : row'.turnClaim.owner = row.turnClaim.owner)
      (generation : row'.turnClaim.generation = row.turnClaim.generation)
  | taken (generation : row'.turnClaim.generation = some row.transitionGeneration)
      (localState : row'.turnClaim.owner = some .«local» → row.state = .«local»)

/-- What a call may do to a stored row. -/
structure RowStep (row row' : PlacementRow) : Prop where
  move : row'.state = row.state ∧ row'.transitionGeneration = row.transitionGeneration ∨
    canTransitionWorkerSessionPlacement row.state row'.state = true ∧
      row'.transitionGeneration = row.transitionGeneration + 1
  claim : ClaimStep row row'

theorem RowStep.refl (row : PlacementRow) : RowStep row row := ⟨.inl ⟨rfl, rfl⟩, .kept rfl rfl⟩

variable {record : WorkerSessionPlacementRecord} {row row' : PlacementRow} {current : WorkerSessionPlacementRecord}
    {nowMs : Int} {db : PlacementDb}

theorem RowStep.generation_le (h : RowStep row row') : row.transitionGeneration ≤ row'.transitionGeneration := by
  rcases h.move with ⟨-, h⟩ | ⟨-, h⟩ <;> omega

theorem RowStep.generation_lt (h : RowStep row row') (hstate : row.state ≠ row'.state) :
    row.transitionGeneration < row'.transitionGeneration := by
  rcases h.move with ⟨h, -⟩ | ⟨-, h⟩
  · exact absurd h.symm hstate
  · omega

/-- What a call does to the table. -/
structure CallSpec (db db' : PlacementDb) : Prop where
  readable : Readable db'
  step : ∀ k row, db.find k = some row → ∃ row', db'.find k = some row' ∧ RowStep row row'

theorem CallSpec.refl (h : Readable db) : CallSpec db db :=
  ⟨h, fun _ row hrow => ⟨row, hrow, .refl row⟩⟩

/-- One row written, in a table that differs from the old one at most in that row. -/
theorem CallSpec.write {db db₁ : PlacementDb} {k : String} {row' : PlacementRow} (h : Readable db)
    (hframe : ∀ k', k' ≠ k → db₁.find k' = db.find k') (hok : RowOk k row')
    (hstep : ∀ row, db.find k = some row → RowStep row row') : CallSpec db (db₁.upsert k row') := by
  constructor
  · intro k' r hr
    by_cases hk : k' = k
    · subst hk
      rw [Table.find_upsert_self] at hr
      cases hr
      exact hok
    · rw [Table.find_upsert_ne _ hk, hframe k' hk] at hr
      exact h k' r hr
  · intro k' r hr
    by_cases hk : k' = k
    · subst hk
      exact ⟨row', Table.find_upsert_self .., hstep r hr⟩
    · exact ⟨r, by rw [Table.find_upsert_ne _ hk, hframe k' hk, hr], .refl r⟩

/-- The common case: the table is the old one, and the row was there. -/
theorem CallSpec.rewrite {k : String} (h : Readable db) (hrow : db.find k = some row) (hok : RowOk k row')
    (hstep : RowStep row row') : CallSpec db (db.upsert k row') :=
  .write h (fun _ _ => rfl) hok fun r hr => by
    rw [hrow] at hr
    cases hr
    exact hstep

/-! ## What the reads return -/

/-- The record of a row agrees with its columns. -/
structure RecordOf (sessionId : String) (row : PlacementRow)
    (record : WorkerSessionPlacementRecord) : Prop where
  sessionId : record.sessionId = sessionId
  state : record.state = row.state
  generation : record.generation = row.transitionGeneration
  owner : row.turnClaim.owner = record.turnClaim.map (·.owner)
  claim : ∀ c, record.turnClaim = some c → row.turnClaim.generation = some c.generation
  parses : Parses row record.metadata record.recoveryError record.turnClaim

theorem recordOf_fromRow {sessionId : String} {row : PlacementRow} (h : fromRow sessionId row = .ok record) :
    RecordOf sessionId row record := by
  obtain ⟨m, e, claim, hp, rfl⟩ := fromRow_eq_ok.mp h
  obtain ⟨howner, hcolumns⟩ := parseTurnClaim_columns hp.turnClaim
  exact ⟨rfl, rfl, rfl, howner, fun c hc => (hcolumns c hc).1, hp⟩

@[simp] theorem getRequired_upsert {k : String} {row : PlacementRow} : getRequired (db.upsert k row) k = .ok record ↔
      fromRow k row = .ok record := by
  simp [getRequired_eq_ok]

theorem nextGeneration_eq_ok {generation next : Int} : nextGeneration generation = .ok next ↔
      isSafeInteger (generation + 1) = true ∧ next = generation + 1 := by
  unfold nextGeneration
  split
  · rename_i h
    simpa [h] using eq_comm
  · rename_i h
    simp [h]

theorem localRow_readable (sessionId : String) (identity : WorkerSessionPlacementIdentity)
    (nowMs : Int) : RowOk sessionId (localRow identity nowMs) :=
  ⟨⟨_, fromRow_eq_ok.mpr ⟨emptyWorkerMetadata, none, none, ⟨rfl, rfl, rfl, rfl, rfl⟩, rfl⟩⟩, rfl, Int.le_refl 0⟩

/-- `ensureLocal` returns the record of the session's row, old or just inserted. -/
theorem ensureLocal_spec {db db₁ : PlacementDb} {identity : WorkerSessionPlacementIdentity} (h : Readable db)
    (he : ensureLocal db identity nowMs = .ok (current, db₁)) : ∃ row, db₁.find identity.sessionId = some row ∧
      RowOk identity.sessionId row ∧ fromRow identity.sessionId row = .ok current ∧
      (∀ k, k ≠ identity.sessionId → db₁.find k = db.find k) ∧ ∀ old, db.find identity.sessionId = some old →
      old = row := by
  simp only [ensureLocal, bind_eq_ok] at he
  obtain ⟨_ | found, hfind, he⟩ := he
  · simp only [insertLocal, bind_eq_ok, Table.insertNew_eq_ok, pure_eq_ok, Prod.mk.injEq] at he
    obtain ⟨_, ⟨hnone, rfl⟩, record, hrecord, rfl, rfl⟩ := he
    rw [getRequired_upsert] at hrecord
    refine ⟨localRow identity nowMs, Table.find_upsert_self .., localRow_readable .., hrecord,
      fun k hk => Table.find_upsert_ne _ hk _, fun old hold => ?_⟩
    rw [hnone] at hold
    cases hold
  · simp only [bind_eq_ok, pure_eq_ok, Prod.mk.injEq] at he
    obtain ⟨_, _, rfl, rfl⟩ := he
    obtain ⟨row, hrow, hrecord⟩ := find_eq_some.mp hfind
    refine ⟨row, hrow, h _ _ hrow, hrecord, fun _ _ => rfl, fun old hold => ?_⟩
    rw [hrow] at hold
    exact (Option.some.inj hold).symm

theorem transitionValues_spec {target : WorkerSessionPlacementState} {patch : WorkerSessionPlacementTransitionPatch}
    {values : PlacementRow} (h : transitionValues current target patch nowMs = .ok values) : values.state = target ∧
      values.transitionGeneration = current.generation + 1 ∧ isSafeInteger values.transitionGeneration = true ∧
      values.turnClaim = .null := by
  simp only [transitionValues, bind_eq_ok, pure_eq_ok] at h
  obtain ⟨_, _, _, _, next, hnext, _, _, _, _, _, _, _, _, _, _, _, _, _, _, rfl⟩ := h
  obtain ⟨hsafe, rfl⟩ := nextGeneration_eq_ok.mp hnext
  exact ⟨rfl, rfl, hsafe, rfl⟩

/-! ## One lemma per operation -/

section Operations

variable {db db' : PlacementDb}

/-- A row that moves along an edge of the table, to the next generation. -/
theorem RowOk.moved {sessionId : String} (h : RowOk sessionId row) (hgen :
    row'.transitionGeneration = row.transitionGeneration + 1) (hsafe : isSafeInteger row'.transitionGeneration =
    true) (hread : fromRow sessionId row' = .ok record) : RowOk sessionId row' :=
  ⟨⟨record, hread⟩, hsafe, by have := h.nonneg; omega⟩

/-- A row that keeps its generation. -/
theorem RowOk.stayed {sessionId : String} (h : RowOk sessionId row) (hgen :
    row'.transitionGeneration = row.transitionGeneration) (hread : fromRow sessionId row' = .ok record) :
    RowOk sessionId row' :=
  ⟨⟨record, hread⟩, hgen ▸ h.safe, hgen ▸ h.nonneg⟩

theorem startDispatch_spec {input : WorkerSessionPlacementIdentity} {now : Clock} (h : Readable db)
    (hcall : startDispatch input now db = .ok (record, db')) : CallSpec db db' := by
  simp only [startDispatch, bind_eq_ok, pure_eq_ok, throwIf_eq_ok, Table.updateOne_eq_ok,
    Prod.exists, Prod.mk.injEq] at hcall
  obtain ⟨identity, -, current, db₁, hensure, _, hstate, next, hnext, _, ⟨row, hrow, hguard, rfl⟩,
    _, hread, rfl, rfl⟩ := hcall
  obtain ⟨row₁, hrow₁, hok, hcurrent, hframe, hsame⟩ := ensureLocal_spec h hensure
  have hrec := recordOf_fromRow hcurrent
  obtain ⟨hsafe, rfl⟩ := nextGeneration_eq_ok.mp hnext
  rw [hrec.sessionId] at hrow hread ⊢
  rw [hrow₁] at hrow
  cases hrow
  rw [getRequired_upsert] at hread
  rw [hrec.generation] at hsafe hread ⊢
  refine .write h hframe (hok.moved rfl hsafe hread) fun old hold => ?_
  cases hsame old hold
  refine ⟨.inr ⟨?_, rfl⟩, .kept rfl rfl⟩
  rw [hrec.state, not_and_or, not_not, not_not] at hstate
  rcases hstate with hstate | hstate <;> rw [hstate] <;> rfl

theorem updateTransition_spec {current record : WorkerSessionPlacementRecord} {k : String} {row : PlacementRow}
    {target : WorkerSessionPlacementState} {patch : WorkerSessionPlacementTransitionPatch} (h : Readable db)
    (hrow : db.find k = some row) (hcurrent : fromRow k row = .ok current)
    (hedge : canTransitionWorkerSessionPlacement row.state target = true)
    (hcall : updateTransition db current target patch nowMs = .ok (record, db')) : CallSpec db db' := by
  have hrec := recordOf_fromRow hcurrent
  simp only [updateTransition, bind_eq_ok, pure_eq_ok, Table.updateOne_eq_ok, hrec.sessionId, Prod.mk.injEq] at hcall
  obtain ⟨values, hvalues, _, ⟨_, _, _, rfl⟩, _, hread, rfl, rfl⟩ := hcall
  rw [getRequired_upsert] at hread
  obtain ⟨hstate, hgen, hsafe, hnull⟩ := transitionValues_spec hvalues
  rw [hrec.generation] at hgen
  refine .rewrite h hrow ((h k row hrow).moved hgen hsafe hread) ⟨.inr ⟨hstate ▸ hedge, hgen⟩, ?_⟩
  exact .dropped (by rw [hnull]; rfl)

theorem transition_spec {input : TransitionInput} (h : Readable db) (hcall :
    transition input nowMs db = .ok (record, db')) : CallSpec db db' := by
  simp only [transition, bind_eq_ok, throwIf_eq_ok, getRequired_eq_ok, not_or, not_not, Bool.not_eq_false] at hcall
  obtain ⟨_, hedge, _, _, sessionId, _, current, ⟨row, hrow, hcurrent⟩, _, ⟨hsource, _⟩, _, _, hcall⟩ := hcall
  refine updateTransition_spec h hrow hcurrent ?_ hcall
  rw [← (recordOf_fromRow hcurrent).state, hsource]
  exact hedge

theorem startDrain_spec {input : WorkerOwnerInput} {expectedGeneration nowMs : Int} (h : Readable db)
    (hcall : startDrain input expectedGeneration nowMs db = .ok (record, db')) : CallSpec db db' := by
  simp only [startDrain, bind_eq_ok, pure_eq_ok, throwIf_eq_ok, getRequired_eq_ok, not_or, not_not,
    Table.updateOne_eq_ok, Prod.mk.injEq] at hcall
  obtain ⟨sessionId, _, _, _, _, _, current, ⟨row, hrow, hcurrent⟩, _, ⟨hstate, _⟩, values, hvalues,
    _, _, _, ⟨_, _, _, rfl⟩, _, ⟨_, hrow', hread⟩, rfl, rfl⟩ := hcall
  rw [Table.find_upsert_self] at hrow'
  cases hrow'
  have hrec := recordOf_fromRow hcurrent
  obtain ⟨hdraining, hgen, hsafe, hnull⟩ := transitionValues_spec hvalues
  rw [hrec.generation] at hgen
  refine .rewrite h hrow ((h _ _ hrow).moved hgen hsafe hread) ⟨.inr ⟨?_, hgen⟩, ?_⟩
  · rw [← hrec.state, hstate]
    change canTransitionWorkerSessionPlacement .active values.state = true
    rw [hdraining]
    decide
  · cases hclaim : current.turnClaim with
    | none => exact .dropped (by simp [hnull, TurnClaimColumns.null])
    | some claim =>
      refine .kept ?_ ?_
      · rw [hrec.owner, hclaim]
        cases claim <;> rfl
      · rw [hrec.claim claim hclaim]
        cases claim <;> rfl

theorem startReconcile_spec {input : WorkerOwnerInput} {expectedGeneration nowMs : Int}
    {outcome : WorkerSessionPlacementRecord × Bool} (h : Readable db)
    (hcall : startReconcile input expectedGeneration nowMs db = .ok (outcome, db')) : CallSpec db db' := by
  simp only [startReconcile, bind_eq_ok, pure_eq_ok, throwIf_eq_ok, getRequired_eq_ok, not_or,
    not_not, Table.updateOne_eq_ok, Prod.mk.injEq] at hcall
  obtain ⟨sessionId, _, _, _, _, _, current, ⟨row, hrow, hcurrent⟩, _, ⟨hstate, _⟩, values, hvalues,
    _, ⟨_, _, _, rfl⟩, _, ⟨_, hrow', hread⟩, _, rfl⟩ := hcall
  rw [Table.find_upsert_self] at hrow'
  cases hrow'
  have hrec := recordOf_fromRow hcurrent
  obtain ⟨hreconciling, hgen, hsafe, hnull⟩ := transitionValues_spec hvalues
  rw [hrec.generation] at hgen
  refine .rewrite h hrow ((h _ _ hrow).moved hgen hsafe hread) ⟨.inr ⟨?_, hgen⟩, ?_⟩
  · rw [← hrec.state, hstate, hreconciling]
    decide
  · exact .dropped (by rw [hnull]; rfl)

theorem fail_spec {input : FailInput} {outcome : WorkerSessionPlacementRecord × Bool} (h : Readable db)
    (hcall : fail input nowMs db = .ok (outcome, db')) : CallSpec db db' := by
  simp only [fail, bind_eq_ok, throwIf_eq_ok, getRequired_eq_ok] at hcall
  obtain ⟨sessionId, _, error, _, current, ⟨row, hrow, hcurrent⟩, _, _, hcall⟩ := hcall
  have hrec := recordOf_fromRow hcurrent
  split at hcall
  · simp only [bind_eq_ok, pure_eq_ok, Table.updateOne_eq_ok, getRequired_eq_ok,
      Prod.mk.injEq] at hcall
    obtain ⟨_, ⟨row₁, hrow₁, _, rfl⟩, _, ⟨_, hrow', hread⟩, _, rfl⟩ := hcall
    rw [hrow] at hrow₁
    cases hrow₁
    rw [Table.find_upsert_self] at hrow'
    cases hrow'
    exact .rewrite h hrow ((h _ _ hrow).stayed rfl hread) ⟨.inl ⟨rfl, rfl⟩, .kept rfl rfl⟩
  · simp only [bind_eq_ok, pure_eq_ok, throwIf_eq_ok, Table.updateOne_eq_ok, getRequired_eq_ok,
      Prod.mk.injEq, Bool.not_eq_false] at hcall
    obtain ⟨_, hedge, next, hnext, _, ⟨row₁, hrow₁, _, rfl⟩, _, ⟨_, hrow', hread⟩, _, rfl⟩ := hcall
    rw [hrow] at hrow₁
    cases hrow₁
    rw [Table.find_upsert_self] at hrow'
    cases hrow'
    obtain ⟨hsafe, rfl⟩ := nextGeneration_eq_ok.mp hnext
    rw [hrec.generation] at hsafe hread ⊢
    rw [hrec.state] at hedge
    refine .rewrite h hrow ((h _ _ hrow).moved rfl hsafe hread) ⟨.inr ⟨hedge, rfl⟩, ?_⟩
    cases hclaim : current.turnClaim with
    | none => exact .dropped rfl
    | some claim =>
      cases claim with
      | worker => exact .dropped rfl
      | «local» id runId generation =>
        refine .kept ?_ ?_
        · rw [hrec.owner, hclaim]
          rfl
        · rw [hrec.claim _ hclaim]
          rfl

theorem requiredText_parses {value field w : String} (h : required value field = .ok w)
    (field' : String) : required w field' = .ok w :=
  requiredText_of_trimmed (requiredText_trimmed h) _

/-- The claim `claimTurn` stores. -/
def storedClaim (claimId runId : String) (generation : Int) :
    WorkerSessionTurnOwner → PersistedTurnClaim
  | .«local» => .«local» claimId runId generation
  | .worker _ ownerEpoch => .worker claimId runId generation ownerEpoch

/-- The columns `claimTurn` writes parse back to the claim they were written for. -/
theorem parseTurnClaim_claimColumns {input owner : WorkerSessionTurnOwner}
    {claimId runId id₀ runId₀ f₁ f₂ : String} {generation : Int}
    (howner : normalizeOwner input = .ok owner) (hid : required id₀ f₁ = .ok claimId)
    (hrun : required runId₀ f₂ = .ok runId) (hsafe : isSafeInteger generation = true) (hnonneg : 0 ≤ generation) :
    parseTurnClaim (claimColumns owner claimId runId generation) =
      .ok (some (storedClaim claimId runId generation owner)) := by
  simp only [parseTurnClaim, claimColumns, bind_eq_ok]
  refine ⟨claimId, requiredText_parses hid _, runId, requiredText_parses hrun _, (), ?_, ?_⟩
  · simp [hsafe, hnonneg]
  · cases input with
    | «local» =>
      cases howner
      rfl
    | worker environmentId ownerEpoch =>
      simp only [normalizeOwner, bind_eq_ok, pure_eq_ok, normalizeEpoch_eq_ok] at howner
      obtain ⟨_, _, epoch, ⟨rfl, hepoch, hpos⟩, rfl⟩ := howner
      simp only [WorkerSessionTurnOwner.kind, bind_eq_ok, pure_eq_ok]
      exact ⟨_, normalizeEpoch_eq_ok.mpr ⟨rfl, hepoch, hpos⟩, rfl⟩

/-- An admitted owner's claim passes the shape check of the current record. -/
theorem claimShape_of_admitted {owner : WorkerSessionTurnOwner} (claimId runId : String) (generation : Int)
    (h : assertOwnerAdmitted current owner = .ok ()) :
    assertClaimShape current.state current.metadata (some (storedClaim claimId runId generation owner)) = .ok () := by
  cases owner with
  | «local» =>
    simp only [assertOwnerAdmitted, throwIf_eq_ok, not_not] at h
    simp [assertClaimShape, storedClaim, h]
  | worker environmentId ownerEpoch =>
    simp only [assertOwnerAdmitted, throwIf_eq_ok, not_or, not_not] at h
    simp [assertClaimShape, storedClaim, h]

theorem claimTurn_spec {input : ClaimTurnInput} {now : Clock} {claim : WorkerSessionTurnClaim}
    (h : Readable db) (hcall : claimTurn input now db = .ok (claim, db')) : CallSpec db db' := by
  simp only [claimTurn, bind_eq_ok, pure_eq_ok, throwIf_eq_ok, Table.updateOne_eq_ok, Prod.exists,
    Prod.mk.injEq] at hcall
  obtain ⟨identity, -, claimId, hid, runId, hrun, owner, howner, current, db₁, hensure, _, -, _,
    hadmitted, _, ⟨row, hrow, -, rfl⟩, rfl, rfl⟩ := hcall
  obtain ⟨row₁, hrow₁, hok, hcurrent, hframe, hsame⟩ := ensureLocal_spec h hensure
  have hrec := recordOf_fromRow hcurrent
  rw [hrec.sessionId] at hrow ⊢
  rw [hrow₁] at hrow
  cases hrow
  have hclaim := claimShape_of_admitted claimId runId row.transitionGeneration hadmitted
  have hlocal : owner.kind = .«local» → row.state = .«local» := by
    cases owner with
    | «local» =>
      simp only [assertOwnerAdmitted, throwIf_eq_ok, not_not] at hadmitted
      exact fun _ => hrec.state ▸ hadmitted
    | worker => intro hk; cases hk
  have hparsed := parseTurnClaim_claimColumns howner hid hrun hok.safe hok.nonneg
  rw [hrec.generation]
  have hok' : RowOk identity.sessionId { row with
      turnClaim := claimColumns owner claimId runId row.transitionGeneration
      updatedAtMs := now.second } := by
    refine hok.stayed rfl (fromRow_eq_ok.mpr ⟨current.metadata, current.recoveryError,
      some (storedClaim claimId runId row.transitionGeneration owner), ?_, rfl⟩)
    exact ⟨hrec.parses.metadata, hrec.parses.errorColumn, hparsed, hrec.parses.metadataShape, hrec.state ▸ hclaim⟩
  refine .write h hframe hok' fun old hold => ?_
  cases hsame old hold
  exact ⟨.inl ⟨rfl, rfl⟩, .taken rfl fun ho => hlocal (Option.some.inj ho)⟩

theorem releaseTurn_spec {claim : WorkerSessionTurnClaim} (h : Readable db)
    (hcall : releaseTurn claim nowMs db = .ok (record, db')) : CallSpec db db' := by
  simp only [releaseTurn, bind_eq_ok, pure_eq_ok, throwIf_eq_ok, Table.updateOne_eq_ok, Prod.mk.injEq] at hcall
  obtain ⟨sessionId, _, _, _, _, _, _, _, _, _, _, ⟨row, hrow, _, rfl⟩, _, hread, rfl, rfl⟩ := hcall
  rw [getRequired_upsert] at hread
  exact .rewrite h hrow ((h _ _ hrow).stayed rfl hread) ⟨.inl ⟨rfl, rfl⟩, .dropped rfl⟩

theorem updateAckCursors_spec {input : AckInput} (h : Readable db) (hcall :
    updateAckCursors input nowMs db = .ok (record, db')) : CallSpec db db' := by
  simp only [updateAckCursors, bind_eq_ok] at hcall
  obtain ⟨sessionId, _, _, _, _, _, _, _, hcall⟩ := hcall
  split at hcall
  · cases hcall
  · simp only [bind_eq_ok, pure_eq_ok, throwIf_eq_ok, Table.updateOne_eq_ok, Prod.mk.injEq] at hcall
    obtain ⟨_, _, _, _, _, _, _, _, _, _, _, _, _, ⟨row, hrow, _, rfl⟩, _, hread, rfl, rfl⟩ := hcall
    rw [getRequired_upsert] at hread
    exact .rewrite h hrow ((h _ _ hrow).stayed rfl hread) ⟨.inl ⟨rfl, rfl⟩, .kept rfl rfl⟩

/-- A readable row stays readable without its claim. -/
theorem RowOk.unclaimed {sessionId : String} {row : PlacementRow} (h : RowOk sessionId row)
    (nowMs : Int) : RowOk sessionId { row with turnClaim := .null, updatedAtMs := nowMs } := by
  obtain ⟨record, hread⟩ := h.readable
  have hp := (recordOf_fromRow hread).parses
  exact h.stayed rfl (fromRow_eq_ok.mpr
    ⟨_, _, none, ⟨hp.metadata, hp.errorColumn, rfl, hp.metadataShape, rfl⟩, rfl⟩)

theorem clearLocalTurnClaimsAfterRestart_spec {sessionIds : List String} (h : Readable db)
    (hcall : clearLocalTurnClaimsAfterRestart nowMs db = .ok (sessionIds, db')) : CallSpec db db' := by
  simp only [clearLocalTurnClaimsAfterRestart, bind_eq_ok, pure_eq_ok, Prod.mk.injEq] at hcall
  obtain ⟨_, _, -, rfl⟩ := hcall
  constructor
  · intro k row hrow
    simp only [Table.find_updateWhere, Option.map_eq_some_iff] at hrow
    obtain ⟨old, hold, rfl⟩ := hrow
    split
    · exact (h k old hold).unclaimed nowMs
    · exact h k old hold
  · intro k row hrow
    refine ⟨_, by rw [Table.find_updateWhere, hrow, Option.map_some], ?_⟩
    split
    · exact ⟨.inl ⟨rfl, rfl⟩, .dropped rfl⟩
    · exact .refl row

end Operations

/-! ## Calls and runs -/

/-- **What any call does to the table.** -/
theorem call_spec (h : Readable db) (op : PlacementOp) : CallSpec db (applyOp db op) := by
  refine transact_keeps (P := CallSpec db) (.refl h) fun reply db' hbody => ?_
  cases op <;> simp only [PlacementOp.body, map_eq_ok] at hbody <;>
    obtain ⟨⟨_, _⟩, hcall, ⟨⟩⟩ := hbody
  case startDispatch => exact startDispatch_spec h hcall
  case transition => exact transition_spec h hcall
  case startDrain => exact startDrain_spec h hcall
  case startReconcile => exact startReconcile_spec h hcall
  case fail => exact fail_spec h hcall
  case claimTurn => exact claimTurn_spec h hcall
  case releaseTurn => exact releaseTurn_spec h hcall
  case updateAckCursors => exact updateAckCursors_spec h hcall
  case clearLocalTurnClaimsAfterRestart => exact clearLocalTurnClaimsAfterRestart_spec h hcall

theorem readable_run (script : List PlacementOp) (h : Readable db) : Readable (run applyOp db script) :=
  run_invariant (P := Readable) (fun _ op hdb => (call_spec hdb op).readable) script h

theorem readable_empty : Readable Table.empty := fun _ _ h => by cases h

/-- No row is lost, its generation never decreases, and a changed state has a larger one. -/
def Advances (db db' : PlacementDb) : Prop :=
  ∀ k row, db.find k = some row → ∃ row', db'.find k = some row' ∧
    row.transitionGeneration ≤ row'.transitionGeneration ∧
    (row.state ≠ row'.state → row.transitionGeneration < row'.transitionGeneration)

instance : Std.Refl Advances := ⟨fun _ _ row h => ⟨row, h, Int.le_refl _, fun hne => absurd rfl hne⟩⟩

instance : IsTrans PlacementDb Advances where
  trans a b c hab hbc k row hrow := by
    obtain ⟨row₁, hrow₁, hle₁, hlt₁⟩ := hab k row hrow
    obtain ⟨row₂, hrow₂, hle₂, hlt₂⟩ := hbc k row₁ hrow₁
    refine ⟨row₂, hrow₂, Int.le_trans hle₁ hle₂, fun hne => ?_⟩
    by_cases h : row.state = row₁.state
    · exact Int.lt_of_le_of_lt hle₁ (hlt₂ (h ▸ hne))
    · exact Int.lt_of_lt_of_le (hlt₁ h) hle₂

theorem CallSpec.advances {db db' : PlacementDb} (h : CallSpec db db') : Advances db db' := by
  intro k row hrow
  obtain ⟨row', hrow', hstep⟩ := h.step k row hrow
  exact ⟨row', hrow', hstep.generation_le, hstep.generation_lt⟩

/-- **The placement row invariant.** After any calls with any arguments on an empty table, every row
decodes through `fromRow` and has the shape of its state; whatever is called next, no row's
generation decreases, a changed state means a larger generation, and a call that throws leaves the
table as it was. -/
theorem placement_rows_readable (script later : List PlacementOp) (op : PlacementOp) :
    (∀ sessionId row, (placementsAfter script).find sessionId = some row →
      (∃ record, fromRow sessionId row = .ok record) ∧ RowShape row) ∧
    Advances (placementsAfter script) (placementsAfter (script ++ later)) ∧
    (∀ error, (op.call (placementsAfter script)).1 = .error error →
      (op.call (placementsAfter script)).2 = placementsAfter script) := by
  have h : Readable (placementsAfter script) := readable_run script readable_empty
  refine ⟨fun sessionId row hrow => ?_, ?_, fun error => transact_throws⟩
  · obtain ⟨record, hread⟩ := (h sessionId row hrow).readable
    exact ⟨⟨record, hread⟩, rowShape_of_fromRow hread⟩
  · rw [placementsAfter, placementsAfter, run_append]
    exact run_rel (P := Readable) (fun _ op hdb => (call_spec hdb op).readable)
      (fun _ op hdb => (call_spec hdb op).advances) later h

end OpenClaw.WorkerEnvironments.Placement
