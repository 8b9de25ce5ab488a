/-
# OpenClaw.WorkerEnvironments.PlacementRowShape -- which placement rows can be read

`fromRow_eq_ok` says what a readable row is: its columns parse, and they pass `assertRecordShape`; the
`switch` that follows drops nothing.  `RowShape` is the shape such a row has, stated per state: which
columns are null, when a recovery error is there, and which claims a state may carry.
-/
import OpenClaw.WorkerEnvironments.PlacementRowCodec

namespace OpenClaw.WorkerEnvironments.Placement

open OpenClaw.Logic OpenClaw.Data

/-! ## Reading a row -/

/-- The `switch` of `fromRow` keeps every column that the shape check let through. -/
theorem recordParts_of_shape {state : WorkerSessionPlacementState} {m : WorkerMetadata}
    {recoveryError : Option String} {claim : Option PersistedTurnClaim}
    (hmeta : assertMetadataShape state m recoveryError = .ok ()) (hclaim : assertClaimShape state m claim = .ok ()) :
    recordParts state m recoveryError claim = .ok (claim, m, recoveryError) := by
  obtain ⟨env, epoch, manifest, dir, bundle, transcript, live⟩ := m
  cases state <;> rcases claim with _ | ⟨_ | _⟩ <;> cases epoch <;>
    simp_all [assertMetadataShape, assertClaimShape, recordParts, localTurnClaimForState,
      workerTurnClaimForState, unclaimedTurnForState, ownedWorkerMetadata, emptyWorkerMetadata,
      PersistedTurnClaim.owner, blank]

/-- The record a readable row decodes to. -/
def decoded (sessionId : String) (row : PlacementRow) (m : WorkerMetadata)
    (recoveryError : Option String) (turnClaim : Option PersistedTurnClaim) : WorkerSessionPlacementRecord where
  sessionId
  agentId := row.agentId
  sessionKey := row.sessionKey
  state := row.state
  generation := row.transitionGeneration
  turnClaim
  metadata := m
  recoveryError
  createdAtMs := row.createdAtMs
  updatedAtMs := row.updatedAtMs
  stateChangedAtMs := row.stateChangedAtMs

/-- The columns of `row` parse to these values, and the values pass the shape check. -/
structure Parses (row : PlacementRow) (m : WorkerMetadata) (recoveryError : Option String)
    (claim : Option PersistedTurnClaim) : Prop where
  metadata : parseWorkerMetadata row.metadata = .ok m
  errorColumn : nullableRequired row.recoveryError "recovery error" = .ok recoveryError
  turnClaim : parseTurnClaim row.turnClaim = .ok claim
  metadataShape : assertMetadataShape row.state m recoveryError = .ok ()
  claimShape : assertClaimShape row.state m claim = .ok ()

variable {record : WorkerSessionPlacementRecord}

/-- **What `fromRow` accepts**, and what it returns. -/
theorem fromRow_eq_ok {sessionId : String} {row : PlacementRow} : fromRow sessionId row = .ok record ↔
      ∃ m recoveryError claim, Parses row m recoveryError claim ∧ record =
      decoded sessionId row m recoveryError claim := by
  constructor
  · intro h
    simp only [fromRow, assertRecordShape, bind_eq_ok, pure_eq_ok] at h
    obtain ⟨m, hm, e, he, c, hc, _, ⟨_, hshape, hclaim⟩, parts, hparts, rfl⟩ := h
    rw [recordParts_of_shape hshape hclaim] at hparts
    cases hparts
    exact ⟨m, e, c, ⟨hm, he, hc, hshape, hclaim⟩, rfl⟩
  · rintro ⟨m, e, c, h, rfl⟩
    simp only [fromRow, assertRecordShape, bind_eq_ok, pure_eq_ok]
    exact ⟨m, h.metadata, e, h.errorColumn, c, h.turnClaim, (), ⟨(), h.metadataShape, h.claimShape⟩,
      _, recordParts_of_shape h.metadataShape h.claimShape, rfl⟩

theorem find_eq_some {db : PlacementDb} {sessionId : String} : find db sessionId = .ok (some record) ↔
      ∃ row, db.find sessionId = some row ∧ fromRow sessionId row = .ok record := by
  unfold find
  cases db.find sessionId <;> simp

theorem getRequired_eq_ok {db : PlacementDb} {sessionId : String} : getRequired db sessionId = .ok record ↔
      ∃ row, db.find sessionId = some row ∧ fromRow sessionId row = .ok record := by
  simp only [getRequired, bind_eq_ok]
  constructor
  · rintro ⟨_ | _, h, hr⟩
    · cases hr
    · rw [pure_eq_ok] at hr
      exact find_eq_some.mp (hr ▸ h)
  · intro h
    exact ⟨some record, find_eq_some.mpr h, rfl⟩

/-! ## The shape of a readable row -/

/-- What the rows of a state say about a nullable column. -/
inductive Nullability where
  | null
  | nullable
  | notNull

def Nullability.Allows {α : Type} : Nullability → Option α → Prop
  | .null, value => value = none
  | .nullable, _ => True
  | .notNull, value => value.isSome

/-- The nullability of every metadata column in the rows of one state. -/
structure MetadataRules where
  environmentId : Nullability
  activeOwnerEpoch : Nullability
  workspace : Nullability
  workerBundleHash : Nullability
  ackCursors : Nullability
  recoveryError : Nullability

def metadataRules : WorkerSessionPlacementState → MetadataRules
  | .«local» | .requested => ⟨.null, .null, .null, .null, .null, .null⟩
  | .provisioning => ⟨.nullable, .null, .null, .null, .null, .null⟩
  | .syncing => ⟨.notNull, .null, .null, .notNull, .null, .null⟩
  | .starting => ⟨.notNull, .null, .notNull, .notNull, .null, .null⟩
  | .active | .draining | .reconciling | .reclaimed =>
    ⟨.notNull, .notNull, .notNull, .notNull, .nullable, .null⟩
  | .failed => ⟨.nullable, .nullable, .nullable, .nullable, .nullable, .notNull⟩

structure MetadataRules.Hold (rules : MetadataRules) (m : WorkerMetadata)
    (recoveryError : Option String) : Prop where
  environmentId : rules.environmentId.Allows m.environmentId
  activeOwnerEpoch : rules.activeOwnerEpoch.Allows m.activeOwnerEpoch
  workspaceBaseManifestRef : rules.workspace.Allows m.workspaceBaseManifestRef
  remoteWorkspaceDir : rules.workspace.Allows m.remoteWorkspaceDir
  workerBundleHash : rules.workerBundleHash.Allows m.workerBundleHash
  lastTranscriptAckCursor : rules.ackCursors.Allows m.lastTranscriptAckCursor
  lastLiveEventAckCursor : rules.ackCursors.Allows m.lastLiveEventAckCursor
  recoveryError : rules.recoveryError.Allows recoveryError

/-- The state-dependent shape of a row. -/
structure RowShape (row : PlacementRow) : Prop where
  metadata : (metadataRules row.state).Hold row.metadata row.recoveryError
  recoveryError : row.recoveryError.isSome ↔ row.state = .failed
  localClaim : row.turnClaim.owner = some .«local» → row.state = .«local» ∨ row.state = .requested ∨ row.state = .failed
  workerClaim : row.turnClaim.owner = some .worker →
    (row.state = .active ∨ row.state = .draining) ∧ row.turnClaim.ownerEpoch = row.metadata.activeOwnerEpoch

theorem metadataShape_rules {state : WorkerSessionPlacementState} {m : WorkerMetadata}
    {recoveryError : Option String} (h : assertMetadataShape state m recoveryError = .ok ()) :
    (metadataRules state).Hold m recoveryError := by
  obtain ⟨env, epoch, manifest, dir, bundle, transcript, live⟩ := m
  cases state <;> constructor <;> cases epoch <;>
    simp_all [assertMetadataShape, metadataRules, Nullability.Allows, blank, Option.isSome_iff_ne_none]

theorem nullableRequired_isSome {value parsed : Option String} {field : String}
    (h : nullableRequired value field = .ok parsed) : parsed.isSome = value.isSome := by
  unfold nullableRequired at h
  cases value with
  | none => cases h; rfl
  | some v =>
    simp only [map_eq_ok] at h
    obtain ⟨_, _, rfl⟩ := h
    rfl

theorem nullableEpoch_eq {value parsed : Option Int} {field : String}
    (h : nullableEpoch value field = .ok parsed) : parsed = value := by
  unfold nullableEpoch normalizeEpoch at h
  cases value with
  | none => cases h; rfl
  | some v =>
    simp only [map_eq_ok] at h
    obtain ⟨_, h, rfl⟩ := h
    split at h
    · cases h
    · cases h; rfl

theorem normalizeCursor_eq {value parsed : Option Int} {field : String}
    (h : normalizeCursor value field = .ok parsed) : parsed = value := by
  unfold normalizeCursor at h
  split at h
  · cases h
  · cases h; rfl

/-- Parsing keeps which metadata columns are null. -/
theorem parseWorkerMetadata_allows {row m : WorkerMetadata} {rules : MetadataRules}
    {recoveryError parsedError : Option String} (h : parseWorkerMetadata row = .ok m)
    (he : nullableRequired recoveryError "recovery error" = .ok parsedError)
    (hm : rules.Hold m parsedError) : rules.Hold row recoveryError := by
  have transfer {α : Type} (n : Nullability) {a b : Option α} (hab : a.isSome = b.isSome)
      (ha : n.Allows a) : n.Allows b := by
    cases n <;> cases a <;> cases b <;> simp_all [Nullability.Allows]
  simp only [parseWorkerMetadata, bind_eq_ok, pure_eq_ok] at h
  obtain ⟨env, henv, epoch, hepoch, manifest, hmanifest, dir, hdir, bundle, hbundle, transcript,
    htranscript, live, hlive, rfl⟩ := h
  refine ⟨transfer _ (nullableRequired_isSome henv) hm.environmentId, ?_,
    transfer _ (nullableRequired_isSome hmanifest) hm.workspaceBaseManifestRef,
    transfer _ (nullableRequired_isSome hdir) hm.remoteWorkspaceDir,
    transfer _ (nullableRequired_isSome hbundle) hm.workerBundleHash, ?_, ?_,
    transfer _ (nullableRequired_isSome he) hm.recoveryError⟩
  · exact nullableEpoch_eq hepoch ▸ hm.activeOwnerEpoch
  · exact normalizeCursor_eq htranscript ▸ hm.lastTranscriptAckCursor
  · exact normalizeCursor_eq hlive ▸ hm.lastLiveEventAckCursor

theorem parseWorkerMetadata_epoch {row m : WorkerMetadata} (h : parseWorkerMetadata row = .ok m) :
    m.activeOwnerEpoch = row.activeOwnerEpoch := by
  simp only [parseWorkerMetadata, bind_eq_ok, pure_eq_ok] at h
  obtain ⟨_, _, _, hepoch, _, _, _, _, _, _, _, _, _, _, rfl⟩ := h
  exact nullableEpoch_eq hepoch

theorem normalizeEpoch_eq_ok {value epoch : Int} {field : String} : normalizeEpoch value field = .ok epoch ↔
      value = epoch ∧ isSafeInteger value = true ∧ 1 ≤ value := by
  unfold normalizeEpoch
  split
  · rename_i h
    simp only [Bool.or_eq_true, Bool.not_eq_true', decide_eq_true_eq] at h
    simp only [reduceCtorEq, false_iff, not_and]
    rintro rfl hs
    rcases h with h | h
    · simp [hs] at h
    · omega
  · rename_i h
    simp only [Bool.or_eq_true, Bool.not_eq_true', decide_eq_true_eq, not_or, Bool.not_eq_false] at h
    simp only [Except.ok.injEq]
    exact ⟨fun e => ⟨e, h.1, by omega⟩, And.left⟩

/-- What a parsed claim says about the claim columns. -/
theorem parseTurnClaim_columns {row : TurnClaimColumns} {claim : Option PersistedTurnClaim}
    (h : parseTurnClaim row = .ok claim) : row.owner = claim.map (·.owner) ∧
      ∀ c, claim = some c → row.generation = some c.generation ∧ row.ownerEpoch = c.ownerEpoch := by
  unfold parseTurnClaim at h
  split at h
  · rename_i ho
    cases h
    exact ⟨ho, fun _ h => by cases h⟩
  · rename_i owner ho
    simp only [bind_eq_ok] at h
    obtain ⟨_, _, _, _, h⟩ := h
    split at h
    · cases h
    · rename_i generation hg
      simp only [bind_eq_ok] at h
      obtain ⟨_, _, h⟩ := h
      cases owner with
      | «local» =>
        simp only [bind_eq_ok, throwIf_eq_ok, pure_eq_ok, not_not] at h
        obtain ⟨_, he, rfl⟩ := h
        refine ⟨ho, fun c hc => ?_⟩
        cases hc
        exact ⟨hg, he⟩
      | worker =>
        simp only [bind_eq_ok, pure_eq_ok, normalizeEpoch_eq_ok] at h
        obtain ⟨epoch, ⟨he, -, hpos⟩, rfl⟩ := h
        refine ⟨ho, fun c hc => ?_⟩
        cases hc
        refine ⟨hg, ?_⟩
        cases hrow : row.ownerEpoch with
        | none => simp [hrow] at he hpos
        | some e => simpa [hrow, PersistedTurnClaim.ownerEpoch] using he

/-- **A readable row has the shape of its state.** -/
theorem rowShape_of_fromRow {sessionId : String} {row : PlacementRow} (h : fromRow sessionId row = .ok record) :
    RowShape row := by
  obtain ⟨m, e, claim, hp, rfl⟩ := fromRow_eq_ok.mp h
  have hrules := parseWorkerMetadata_allows hp.metadata hp.errorColumn
    (metadataShape_rules hp.metadataShape)
  obtain ⟨howner, hcolumns⟩ := parseTurnClaim_columns hp.turnClaim
  have hclaim := hp.claimShape
  refine ⟨hrules, ?_, fun hl => ?_, fun hw => ?_⟩
  · have := hrules.recoveryError
    revert this
    cases row.state <;> simp [metadataRules, Nullability.Allows]
  · rcases claim with _ | ⟨_ | _⟩
    · simp [hl] at howner
    · simp only [assertClaimShape, throwIf_eq_ok] at hclaim
      by_contra hstate
      simp only [not_or] at hstate
      exact hclaim hstate
    · simp [hl, PersistedTurnClaim.owner] at howner
  · rcases claim with _ | ⟨_ | _⟩
    · simp [hw] at howner
    · simp [hw, PersistedTurnClaim.owner] at howner
    · simp only [assertClaimShape, throwIf_eq_ok, not_or, not_not] at hclaim
      refine ⟨or_iff_not_and_not.mpr hclaim.1, ?_⟩
      rw [(hcolumns _ rfl).2, ← parseWorkerMetadata_epoch hp.metadata, hclaim.2]
      rfl

end OpenClaw.WorkerEnvironments.Placement
