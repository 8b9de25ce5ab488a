/-
# OpenClaw.WorkerEnvironments.PlacementRecord -- session placements: states, records, checks

A session runs locally or on a worker environment; its placement record says where, at which
generation, with which worker ownership, and which turn currently holds the session.  This module
follows `placement-state.ts` and `placement-record.ts`: the ten states with their transition table,
the record with its state-dependent metadata, and the checks a record must pass.

The TypeScript record is a union over the states whose members differ in which metadata may be null.
Here it is one structure with nullable metadata; `assertRecordShape` is the check that makes the
difference, as it is in the source.
-/
import OpenClaw.Data.JsPrim

namespace OpenClaw.WorkerEnvironments.Placement

open OpenClaw.Logic OpenClaw.Data

/-! ## States -/

inductive WorkerSessionPlacementState where
  | «local»
  | requested
  | provisioning
  | syncing
  | starting
  | active
  | draining
  | reconciling
  | reclaimed
  | failed
  deriving DecidableEq

def WorkerSessionPlacementState.text : WorkerSessionPlacementState → String
  | .«local» => "local"
  | .requested => "requested"
  | .provisioning => "provisioning"
  | .syncing => "syncing"
  | .starting => "starting"
  | .active => "active"
  | .draining => "draining"
  | .reconciling => "reconciling"
  | .reclaimed => "reclaimed"
  | .failed => "failed"

/-- `WORKER_SESSION_PLACEMENT_TRANSITIONS` -/
def placementTransitions : WorkerSessionPlacementState → List WorkerSessionPlacementState
  | .«local» => [.requested]
  | .requested => [.provisioning, .failed]
  | .provisioning => [.syncing, .failed]
  | .syncing => [.starting, .failed]
  | .starting => [.active, .failed]
  | .active => [.draining]
  | .draining => [.reconciling]
  | .reconciling => [.«local», .reclaimed, .failed]
  | .reclaimed => [.requested]
  | .failed => []

def canTransitionWorkerSessionPlacement (source target : WorkerSessionPlacementState) : Bool :=
  target ∈ placementTransitions source

/-! ## Identities, claims, metadata -/

structure WorkerSessionPlacementIdentity where
  sessionId : String
  agentId : String
  sessionKey : String

inductive TurnClaimOwner where
  | «local»
  | worker
  deriving DecidableEq

inductive WorkerSessionTurnOwner where
  | «local»
  | worker (environmentId : String) (ownerEpoch : Int)
  deriving DecidableEq

/-- The kind of an owner, as the `turn_claim_owner` column stores it. -/
def WorkerSessionTurnOwner.kind : WorkerSessionTurnOwner → TurnClaimOwner
  | .«local» => .«local»
  | .worker _ _ => .worker

/-- The token `claimTurn` hands out. -/
structure WorkerSessionTurnClaim where
  sessionId : String
  claimId : String
  runId : String
  placementGeneration : Int
  owner : WorkerSessionTurnOwner
  deriving DecidableEq

/-- A stored turn claim; `ownerEpoch` is null exactly for a local claim. -/
inductive PersistedTurnClaim where
  | «local» (claimId runId : String) (generation : Int)
  | worker (claimId runId : String) (generation ownerEpoch : Int)
  deriving DecidableEq

namespace PersistedTurnClaim

def owner : PersistedTurnClaim → TurnClaimOwner
  | .«local» .. => .«local»
  | .worker .. => .worker

def claimId : PersistedTurnClaim → String
  | .«local» id _ _ | .worker id _ _ _ => id

def runId : PersistedTurnClaim → String
  | .«local» _ id _ | .worker _ id _ _ => id

def generation : PersistedTurnClaim → Int
  | .«local» _ _ g | .worker _ _ g _ => g

def ownerEpoch : PersistedTurnClaim → Option Int
  | .«local» .. => none
  | .worker _ _ _ e => some e

end PersistedTurnClaim

/-- The nullable worker columns of a placement (`ParsedWorkerMetadata`). -/
structure WorkerMetadata where
  environmentId : Option String
  activeOwnerEpoch : Option Int
  workspaceBaseManifestRef : Option String
  remoteWorkspaceDir : Option String
  workerBundleHash : Option String
  lastTranscriptAckCursor : Option Int
  lastLiveEventAckCursor : Option Int
  deriving DecidableEq

/-- `EMPTY_WORKER_METADATA` -/
def emptyWorkerMetadata : WorkerMetadata where
  environmentId := none
  activeOwnerEpoch := none
  workspaceBaseManifestRef := none
  remoteWorkspaceDir := none
  workerBundleHash := none
  lastTranscriptAckCursor := none
  lastLiveEventAckCursor := none

structure WorkerSessionPlacementRecord where
  sessionId : String
  agentId : String
  sessionKey : String
  state : WorkerSessionPlacementState
  generation : Int
  turnClaim : Option PersistedTurnClaim
  metadata : WorkerMetadata
  recoveryError : Option String
  createdAtMs : Int
  updatedAtMs : Int
  stateChangedAtMs : Int
  deriving DecidableEq

/-- A caller's patch: an absent field keeps the current value, a present one replaces it and may be
null. -/
structure WorkerSessionPlacementTransitionPatch where
  environmentId : Option (Option String) := none
  activeOwnerEpoch : Option (Option Int) := none
  workspaceBaseManifestRef : Option (Option String) := none
  remoteWorkspaceDir : Option (Option String) := none
  workerBundleHash : Option (Option String) := none
  lastTranscriptAckCursor : Option (Option Int) := none
  lastLiveEventAckCursor : Option (Option Int) := none
  recoveryError : Option (Option String) := none

/-! ## Value checks -/

def required (value field : String) : Except String String :=
  requiredText s!"Worker session placement {field} must be a non-empty string" value

def nullableRequired (value : Option String) (field : String) : Except String (Option String) :=
  match value with
  | none => .ok none
  | some value => some <$> required value field

def normalizeEpoch (value : Int) (field : String) : Except String Int :=
  if !isSafeInteger value || value < 1 then
    .error s!"Worker session placement {field} must be a positive safe integer"
  else .ok value

def nullableEpoch (value : Option Int) (field : String) : Except String (Option Int) :=
  match value with
  | none => .ok none
  | some value => some <$> normalizeEpoch value field

def normalizeCursor (value : Option Int) (field : String) : Except String (Option Int) :=
  if value.any fun v => !isSafeInteger v || v < 0 then
    .error s!"Worker session placement {field} must be a non-negative safe integer"
  else .ok value

def advanceCursor (current value : Option Int) (field : String) : Except String (Option Int) :=
  match value with
  | none => .ok current
  | some value => do
    match ← normalizeCursor (some value) field, current with
    | some next, some current => return some (max current next)
    | next, current => return next.or current

def normalizeIdentity (input : WorkerSessionPlacementIdentity) :
    Except String WorkerSessionPlacementIdentity := do
  let sessionId ← required input.sessionId "session id"
  let agentId ← required input.agentId "agent id"
  let sessionKey ← required input.sessionKey "session key"
  return { sessionId, agentId, sessionKey }

def nextGeneration (generation : Int) : Except String Int :=
  if isSafeInteger (generation + 1) then .ok (generation + 1)
  else .error "Worker session placement generation is exhausted"

/-! ## Claims per state -/

def localTurnClaimForState (turnClaim : Option PersistedTurnClaim)
    (state : WorkerSessionPlacementState) : Except String (Option PersistedTurnClaim) :=
  if turnClaim.map (·.owner) = some .worker then
    .error s!"Worker turn claim cannot survive placement {state.text}"
  else .ok turnClaim

def workerTurnClaimForState (turnClaim : Option PersistedTurnClaim)
    (state : WorkerSessionPlacementState) : Except String (Option PersistedTurnClaim) :=
  if turnClaim.map (·.owner) = some .«local» then
    .error s!"Local turn claim cannot survive placement {state.text}"
  else .ok turnClaim

def unclaimedTurnForState (turnClaim : Option PersistedTurnClaim)
    (state : WorkerSessionPlacementState) : Except String (Option PersistedTurnClaim) :=
  if turnClaim ≠ none then .error s!"Turn claim cannot survive placement {state.text}"
  else .ok none

/-! ## The record's shape -/

/-- JavaScript's `!value` for a nullable string. -/
def blank (value : Option String) : Bool := value = none || value = some ""

/-- The first half of `assertRecordShape`: which metadata a state may and must carry. -/
def assertMetadataShape (state : WorkerSessionPlacementState) (m : WorkerMetadata)
    (recoveryError : Option String) : Except String Unit :=
  match state with
  | .«local» | .requested =>
    throwIf (m.environmentId ≠ none ∨ m.activeOwnerEpoch ≠ none ∨
        m.workspaceBaseManifestRef ≠ none ∨ m.remoteWorkspaceDir ≠ none ∨
        m.workerBundleHash ≠ none ∨ m.lastTranscriptAckCursor ≠ none ∨
        m.lastLiveEventAckCursor ≠ none ∨ recoveryError ≠ none)
      s!"Worker session placement {state.text} cannot retain worker metadata"
  | .provisioning =>
    throwIf (m.activeOwnerEpoch ≠ none ∨ m.workspaceBaseManifestRef ≠ none ∨
        m.remoteWorkspaceDir ≠ none ∨ m.workerBundleHash ≠ none ∨
        m.lastTranscriptAckCursor ≠ none ∨ m.lastLiveEventAckCursor ≠ none ∨
        recoveryError ≠ none)
      "Provisioning worker session placement can only retain an environment id"
  | .syncing =>
    throwIf (blank m.environmentId ∨ m.activeOwnerEpoch ≠ none ∨
        m.workspaceBaseManifestRef ≠ none ∨ m.remoteWorkspaceDir ≠ none ∨
        blank m.workerBundleHash ∨ m.lastTranscriptAckCursor ≠ none ∨
        m.lastLiveEventAckCursor ≠ none ∨ recoveryError ≠ none)
      "Syncing worker session placement requires an environment and bundle"
  | .starting =>
    throwIf (blank m.environmentId ∨ m.activeOwnerEpoch ≠ none ∨
        blank m.workspaceBaseManifestRef ∨ blank m.remoteWorkspaceDir ∨
        blank m.workerBundleHash ∨ m.lastTranscriptAckCursor ≠ none ∨
        m.lastLiveEventAckCursor ≠ none ∨ recoveryError ≠ none)
      "Starting worker session placement requires complete workspace metadata"
  | .active | .draining | .reconciling | .reclaimed =>
    match m.activeOwnerEpoch with
    | none => .error s!"Worker session placement {state.text} requires complete worker ownership"
    | some epoch => do
      throwIf (blank m.environmentId ∨ blank m.workspaceBaseManifestRef ∨
          blank m.remoteWorkspaceDir ∨ blank m.workerBundleHash ∨ recoveryError ≠ none)
        s!"Worker session placement {state.text} requires complete worker ownership"
      let _ ← normalizeEpoch epoch "active owner epoch"
  | .failed => throwIf (blank recoveryError) "Failed worker session placement requires a recovery error"

/-- The second half of `assertRecordShape`: which claim a state may carry. -/
def assertClaimShape (state : WorkerSessionPlacementState) (m : WorkerMetadata)
    (turnClaim : Option PersistedTurnClaim) : Except String Unit :=
  match turnClaim with
  | none => .ok ()
  | some (.«local» ..) =>
    throwIf (state ≠ .«local» ∧ state ≠ .requested ∧ state ≠ .failed)
      "Local turn claim requires local, dispatch-barrier, or failed placement"
  | some (.worker _ _ _ ownerEpoch) =>
    throwIf (¬(state = .active ∨ state = .draining) ∨ m.activeOwnerEpoch ≠ some ownerEpoch)
      "Worker turn claim requires the active or draining worker owner epoch"

def assertRecordShape (state : WorkerSessionPlacementState) (m : WorkerMetadata)
    (recoveryError : Option String) (turnClaim : Option PersistedTurnClaim) :
    Except String Unit := do
  assertMetadataShape state m recoveryError
  assertClaimShape state m turnClaim

end OpenClaw.WorkerEnvironments.Placement
