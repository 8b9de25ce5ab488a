/-
# OpenClaw.WorkerEnvironments.PlacementRowCodec -- placement rows and their decoding

`worker_session_placements` holds one row per session.  `fromRow` decodes it and throws on a row that
breaks the shape of its state; every operation of the store reads through it.  This module follows
`placement-row-codec.ts`.  The columns `state` and `turn_claim_owner` are enumerations here: the
table's own `CHECK` admits no other text.
-/
import OpenClaw.Data.Table
import OpenClaw.WorkerEnvironments.PlacementRecord

namespace OpenClaw.WorkerEnvironments.Placement

open OpenClaw.Logic OpenClaw.Data

/-! ## Rows -/

/-- The five `turn_claim_*` columns. -/
structure TurnClaimColumns where
  owner : Option TurnClaimOwner
  id : Option String
  runId : Option String
  generation : Option Int
  ownerEpoch : Option Int
  deriving DecidableEq

def TurnClaimColumns.null : TurnClaimColumns where
  owner := none
  id := none
  runId := none
  generation := none
  ownerEpoch := none

/-- A row of `worker_session_placements`, keyed by the session id. -/
structure PlacementRow where
  agentId : String
  sessionKey : String
  state : WorkerSessionPlacementState
  transitionGeneration : Int
  metadata : WorkerMetadata
  recoveryError : Option String
  turnClaim : TurnClaimColumns
  createdAtMs : Int
  updatedAtMs : Int
  stateChangedAtMs : Int
  deriving DecidableEq

abbrev PlacementDb := Table String PlacementRow

/-! ## Decoding -/

def parseTurnClaim (row : TurnClaimColumns) : Except String (Option PersistedTurnClaim) :=
  match row.owner with
  | none => .ok none
  | some owner => do
    let claimId ← required (row.id.getD "") "turn claim id"
    let runId ← required (row.runId.getD "") "turn claim run id"
    match row.generation with
    | none => .error "Worker session placement turn claim generation is invalid"
    | some generation =>
      throwIf (isSafeInteger generation = false ∨ generation < 0)
        "Worker session placement turn claim generation is invalid"
      match owner with
      | .«local» =>
        throwIf (row.ownerEpoch ≠ none)
          "Local turn claim cannot retain a worker owner epoch"
        return some (.«local» claimId runId generation)
      | .worker =>
        let ownerEpoch ← normalizeEpoch (row.ownerEpoch.getD 0) "turn claim owner epoch"
        return some (.worker claimId runId generation ownerEpoch)

def parseWorkerMetadata (row : WorkerMetadata) : Except String WorkerMetadata := do
  let environmentId ← nullableRequired row.environmentId "environment id"
  let activeOwnerEpoch ← nullableEpoch row.activeOwnerEpoch "active owner epoch"
  let workspaceBaseManifestRef ←
    nullableRequired row.workspaceBaseManifestRef "workspace base manifest ref"
  let remoteWorkspaceDir ← nullableRequired row.remoteWorkspaceDir "remote workspace directory"
  let workerBundleHash ← nullableRequired row.workerBundleHash "worker bundle hash"
  let lastTranscriptAckCursor ←
    normalizeCursor row.lastTranscriptAckCursor "transcript ACK cursor"
  let lastLiveEventAckCursor ← normalizeCursor row.lastLiveEventAckCursor "live ACK cursor"
  return { environmentId, activeOwnerEpoch, workspaceBaseManifestRef, remoteWorkspaceDir,
           workerBundleHash, lastTranscriptAckCursor, lastLiveEventAckCursor }

def ownedWorkerMetadata (parsed : WorkerMetadata) (state : WorkerSessionPlacementState) :
    Except String WorkerMetadata := do
  throwIf (parsed.environmentId = none ∨ parsed.activeOwnerEpoch = none ∨
      parsed.workspaceBaseManifestRef = none ∨ parsed.remoteWorkspaceDir = none ∨
      parsed.workerBundleHash = none)
    s!"Worker session placement {state.text} requires complete worker ownership"
  return parsed

/-- The `switch` of `fromRow`: what each state's record keeps of the parsed columns. -/
def recordParts (state : WorkerSessionPlacementState) (parsed : WorkerMetadata)
    (recoveryError : Option String) (turnClaim : Option PersistedTurnClaim) :
    Except String (Option PersistedTurnClaim × WorkerMetadata × Option String) :=
  match state with
  | .«local» | .requested => do
    return (← localTurnClaimForState turnClaim state, emptyWorkerMetadata, none)
  | .provisioning => do
    return (← unclaimedTurnForState turnClaim state,
      { emptyWorkerMetadata with environmentId := parsed.environmentId }, none)
  | .syncing => do
    throwIf (parsed.environmentId = none ∨ parsed.workerBundleHash = none)
      "Syncing worker session placement requires an environment and bundle"
    return (← unclaimedTurnForState turnClaim state,
      { emptyWorkerMetadata with
        environmentId := parsed.environmentId
        workerBundleHash := parsed.workerBundleHash }, none)
  | .starting => do
    throwIf (parsed.environmentId = none ∨ parsed.workspaceBaseManifestRef = none ∨
        parsed.remoteWorkspaceDir = none ∨ parsed.workerBundleHash = none)
      "Starting worker session placement requires complete workspace metadata"
    return (← unclaimedTurnForState turnClaim state,
      { emptyWorkerMetadata with
        environmentId := parsed.environmentId
        workspaceBaseManifestRef := parsed.workspaceBaseManifestRef
        remoteWorkspaceDir := parsed.remoteWorkspaceDir
        workerBundleHash := parsed.workerBundleHash }, none)
  | .active | .draining => do
    return (← workerTurnClaimForState turnClaim state, ← ownedWorkerMetadata parsed state, none)
  | .reconciling | .reclaimed => do
    return (← unclaimedTurnForState turnClaim state, ← ownedWorkerMetadata parsed state, none)
  | .failed => do
    throwIf (recoveryError = none) "Failed worker session placement requires a recovery error"
    return (← localTurnClaimForState turnClaim state, parsed, recoveryError)

def fromRow (sessionId : String) (row : PlacementRow) :
    Except String WorkerSessionPlacementRecord := do
  let parsed ← parseWorkerMetadata row.metadata
  let recoveryError ← nullableRequired row.recoveryError "recovery error"
  let turnClaim ← parseTurnClaim row.turnClaim
  assertRecordShape row.state parsed recoveryError turnClaim
  let (turnClaim, metadata, recoveryError) ← recordParts row.state parsed recoveryError turnClaim
  return { sessionId, agentId := row.agentId, sessionKey := row.sessionKey, state := row.state,
           generation := row.transitionGeneration, turnClaim, metadata, recoveryError,
           createdAtMs := row.createdAtMs, updatedAtMs := row.updatedAtMs,
           stateChangedAtMs := row.stateChangedAtMs }

/-! ## Reading -/

def find (db : PlacementDb) (sessionId : String) : Except String (Option WorkerSessionPlacementRecord) :=
  match db.find sessionId with
  | none => .ok none
  | some row => some <$> fromRow sessionId row

def getRequired (db : PlacementDb) (sessionId : String) :
    Except String WorkerSessionPlacementRecord := do
  match ← find db sessionId with
  | none => .error s!"Unknown worker session placement: {sessionId}"
  | some record => return record

def assertIdentity (record : WorkerSessionPlacementRecord)
    (identity : WorkerSessionPlacementIdentity) : Except String Unit :=
  throwIf (record.agentId ≠ identity.agentId ∨ record.sessionKey ≠ identity.sessionKey)
    s!"Worker session placement identity changed for {identity.sessionId}"

/-! ## Writing -/

/-- The row `insertLocal` writes. -/
def localRow (identity : WorkerSessionPlacementIdentity) (nowMs : Int) : PlacementRow where
  agentId := identity.agentId
  sessionKey := identity.sessionKey
  state := .«local»
  transitionGeneration := 0
  metadata := emptyWorkerMetadata
  recoveryError := none
  turnClaim := .null
  createdAtMs := nowMs
  updatedAtMs := nowMs
  stateChangedAtMs := nowMs

def insertLocal (db : PlacementDb) (identity : WorkerSessionPlacementIdentity) (nowMs : Int) :
    Except String (WorkerSessionPlacementRecord × PlacementDb) := do
  let db ← db.insertNew identity.sessionId (localRow identity nowMs)
  return (← getRequired db identity.sessionId, db)

def ensureLocal (db : PlacementDb) (identity : WorkerSessionPlacementIdentity) (nowMs : Int) :
    Except String (WorkerSessionPlacementRecord × PlacementDb) := do
  match ← find db identity.sessionId with
  | some current =>
    assertIdentity current identity
    return (current, db)
  | none => insertLocal db identity nowMs

/-- A patched column: cleared in the states that clear it, else the current value or the patch. -/
def patched {α : Type} (clears : Bool) (current : Option α) (patch : Option (Option α))
    (normalize : Option α → Except String (Option α)) : Except String (Option α) :=
  if clears then .ok none
  else
    match patch with
    | none => .ok current
    | some value => normalize value

def transitionValues (current : WorkerSessionPlacementRecord) (target : WorkerSessionPlacementState)
    (patch : WorkerSessionPlacementTransitionPatch) (nowMs : Int) : Except String PlacementRow := do
  let clearsWorkerMetadata := target = .«local» || target = .requested
  let clearsOwnerEpoch := clearsWorkerMetadata || target = .provisioning || target = .syncing || target = .starting
  let m := current.metadata
  let environmentId ← patched clearsWorkerMetadata m.environmentId patch.environmentId
    (nullableRequired · "environment id")
  let activeOwnerEpoch ← patched clearsOwnerEpoch m.activeOwnerEpoch patch.activeOwnerEpoch
    (nullableEpoch · "active owner epoch")
  let generation ← nextGeneration current.generation
  let workspaceBaseManifestRef ← patched clearsWorkerMetadata m.workspaceBaseManifestRef
    patch.workspaceBaseManifestRef (nullableRequired · "workspace base manifest ref")
  let remoteWorkspaceDir ← patched clearsWorkerMetadata m.remoteWorkspaceDir
    patch.remoteWorkspaceDir (nullableRequired · "remote workspace directory")
  let workerBundleHash ← patched clearsWorkerMetadata m.workerBundleHash patch.workerBundleHash
    (nullableRequired · "worker bundle hash")
  let lastTranscriptAckCursor ← patched clearsWorkerMetadata m.lastTranscriptAckCursor
    patch.lastTranscriptAckCursor (normalizeCursor · "transcript ACK cursor")
  let lastLiveEventAckCursor ← patched clearsWorkerMetadata m.lastLiveEventAckCursor
    patch.lastLiveEventAckCursor (normalizeCursor · "live ACK cursor")
  let recoveryError ← patched clearsWorkerMetadata current.recoveryError patch.recoveryError
    (nullableRequired · "recovery error")
  let metadata : WorkerMetadata :=
    { environmentId, activeOwnerEpoch, workspaceBaseManifestRef, remoteWorkspaceDir,
      workerBundleHash, lastTranscriptAckCursor, lastLiveEventAckCursor }
  assertRecordShape target metadata recoveryError none
  return { agentId := current.agentId, sessionKey := current.sessionKey, state := target,
           transitionGeneration := generation, metadata, recoveryError, turnClaim := .null,
           createdAtMs := current.createdAtMs, updatedAtMs := nowMs, stateChangedAtMs := nowMs }

end OpenClaw.WorkerEnvironments.Placement
