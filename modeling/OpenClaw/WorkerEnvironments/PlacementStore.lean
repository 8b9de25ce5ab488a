/-
# OpenClaw.WorkerEnvironments.PlacementStore -- the operations on session placements

The nine operations that write `worker_session_placements`, and the reads that validate a turn claim
or a worker owner, from `placement-store.ts` and `placement-turn-claims.ts`.  Each is one write
transaction: it reads the current record through the row codec, checks it against what the caller
expects, and writes with a guarded `UPDATE` that must hit exactly one row.

Argument checks that the source runs before it opens the transaction are part of the body here; they
write nothing, so a throw leaves the table alone either way.  `now` is read at most twice in a call.
-/
import OpenClaw.Logic.Run
import OpenClaw.WorkerEnvironments.PlacementRowCodec

namespace OpenClaw.WorkerEnvironments.Placement

open OpenClaw.Logic OpenClaw.Data

/-- The readings of `now()` in one call: the first and the second. -/
structure Clock where
  first : Int
  second : Int

/-! ## Placement transitions -/

/-- The columns of a stored claim. -/
def PersistedTurnClaim.columns : PersistedTurnClaim → TurnClaimColumns
  | .«local» id runId generation =>
    { owner := some .«local», id := some id, runId := some runId, generation := some generation,
      ownerEpoch := none }
  | .worker id runId generation ownerEpoch =>
    { owner := some .worker, id := some id, runId := some runId, generation := some generation,
      ownerEpoch := some ownerEpoch }

def updateTransition (db : PlacementDb) (current : WorkerSessionPlacementRecord)
    (target : WorkerSessionPlacementState) (patch : WorkerSessionPlacementTransitionPatch)
    (nowMs : Int) : Except String (WorkerSessionPlacementRecord × PlacementDb) := do
  let values ← transitionValues current target patch nowMs
  let db ← db.updateOne current.sessionId
    (fun row => row.state = current.state && row.transitionGeneration = current.generation &&
      row.turnClaim.owner = none)
    (fun _ => values)
    s!"Worker session placement {current.sessionId} changed during transition"
  return (← getRequired db current.sessionId, db)

/-- The columns `startDispatch` sets; it leaves the claim columns alone. -/
def requestedRow (row : PlacementRow) (generation updatedAtMs : Int) : PlacementRow :=
  { row with
    state := .requested
    metadata := emptyWorkerMetadata
    transitionGeneration := generation
    recoveryError := none
    updatedAtMs
    stateChangedAtMs := updatedAtMs }

def startDispatch (input : WorkerSessionPlacementIdentity) (now : Clock) (db : PlacementDb) :
    Except String (WorkerSessionPlacementRecord × PlacementDb) := do
  let identity ← normalizeIdentity input
  let (current, db) ← ensureLocal db identity now.first
  throwIf (current.state ≠ .«local» ∧ current.state ≠ .reclaimed)
    s!"Cannot dispatch session {identity.sessionId} from placement {current.state.text}"
  let generation ← nextGeneration current.generation
  -- An in-flight local claim is preserved while admission closes.
  let db ← db.updateOne current.sessionId
    (fun row => row.state = current.state && row.transitionGeneration = current.generation)
    (fun row => requestedRow row generation now.second)
    s!"Session {identity.sessionId} placement changed during dispatch barrier"
  return (← getRequired db identity.sessionId, db)

structure TransitionInput where
  sessionId : String
  source : WorkerSessionPlacementState
  target : WorkerSessionPlacementState
  expectedGeneration : Int
  patch : WorkerSessionPlacementTransitionPatch := {}

def transition (input : TransitionInput) (nowMs : Int) (db : PlacementDb) :
    Except String (WorkerSessionPlacementRecord × PlacementDb) := do
  throwIf (canTransitionWorkerSessionPlacement input.source input.target = false)
    s!"Illegal worker session placement transition: {input.source.text} -> {input.target.text}"
  throwIf (input.source = .draining ∧ input.target = .reconciling)
    "Use startReconcile after fencing the drained worker environment"
  let sessionId ← required input.sessionId "session id"
  let current ← getRequired db sessionId
  throwIf (current.state ≠ input.source ∨ current.generation ≠ input.expectedGeneration)
    s!"Worker session placement {sessionId} changed: expected {input.source.text}@{input.expectedGeneration}, found {current.state.text}@{current.generation}"
  throwIf (current.turnClaim ≠ none)
    s!"Cannot transition session {sessionId} during an active turn"
  updateTransition db current input.target input.patch nowMs

/-- The worker ownership a caller expects to find. -/
structure WorkerOwnerInput where
  sessionId : String
  environmentId : String
  ownerEpoch : Int

def startDrain (input : WorkerOwnerInput) (expectedGeneration nowMs : Int) (db : PlacementDb) :
    Except String (WorkerSessionPlacementRecord × PlacementDb) := do
  let sessionId ← required input.sessionId "session id"
  let environmentId ← required input.environmentId "environment id"
  let ownerEpoch ← normalizeEpoch input.ownerEpoch "active owner epoch"
  let current ← getRequired db sessionId
  throwIf (current.state ≠ .active ∨ current.generation ≠ expectedGeneration ∨
      current.metadata.environmentId ≠ some environmentId ∨
      current.metadata.activeOwnerEpoch ≠ some ownerEpoch)
    s!"Cannot drain stale worker placement for session {sessionId}"
  let values ← transitionValues current .draining {} nowMs
  -- The admitted worker may finish under its old claim.
  let turnClaim := (current.turnClaim.map (·.columns)).getD values.turnClaim
  assertRecordShape .draining
    { values.metadata with environmentId := some environmentId, activeOwnerEpoch := some ownerEpoch }
    values.recoveryError current.turnClaim
  let db ← db.updateOne sessionId
    (fun row => row.state = .active && row.transitionGeneration = current.generation &&
      row.metadata.environmentId = some environmentId &&
      row.metadata.activeOwnerEpoch = some ownerEpoch)
    (fun _ => { values with turnClaim })
    s!"Worker session placement {sessionId} changed during drain"
  return (← getRequired db sessionId, db)

/-- The claim columns hold exactly the worker claim `claim`. -/
def holdsWorkerClaim (row : TurnClaimColumns) (claimId runId : String) (generation : Int)
    (ownerEpoch : Option Int) : Bool :=
  row.owner = some .worker && row.id = some claimId && row.runId = some runId &&
    row.generation = some generation && row.ownerEpoch = ownerEpoch && row.ownerEpoch ≠ none

/-- `startReconcile`, with the flag that says whether a stored claim was released. -/
def startReconcile (input : WorkerOwnerInput) (expectedGeneration nowMs : Int) (db : PlacementDb) :
    Except String ((WorkerSessionPlacementRecord × Bool) × PlacementDb) := do
  let sessionId ← required input.sessionId "session id"
  let environmentId ← required input.environmentId "environment id"
  let ownerEpoch ← normalizeEpoch input.ownerEpoch "active owner epoch"
  let current ← getRequired db sessionId
  throwIf (current.state ≠ .draining ∨ current.generation ≠ expectedGeneration ∨
      current.metadata.environmentId ≠ some environmentId ∨
      current.metadata.activeOwnerEpoch ≠ some ownerEpoch)
    s!"Cannot reconcile stale worker placement for session {sessionId}"
  let releasedClaim := current.turnClaim.isSome
  let values ← transitionValues current .reconciling {} nowMs
  let claimGuard := fun (row : TurnClaimColumns) =>
    match current.turnClaim with
    | some claim => holdsWorkerClaim row claim.claimId claim.runId claim.generation claim.ownerEpoch
    | none => row.owner = none
  let db ← db.updateOne sessionId
    (fun row => row.state = .draining && row.transitionGeneration = current.generation &&
      row.metadata.environmentId = some environmentId &&
      row.metadata.activeOwnerEpoch = some ownerEpoch && claimGuard row.turnClaim)
    (fun _ => values)
    s!"Worker session placement {sessionId} changed during reconcile"
  return ((← getRequired db sessionId, releasedClaim), db)

structure FailInput where
  sessionId : String
  recoveryError : String
  expectedGeneration : Option Int := none

/-- The columns `fail` sets when the placement has not failed yet: only a local claim survives. -/
def failedRow (row : PlacementRow) (localClaim : Option PersistedTurnClaim) (recoveryError : String)
    (generation updatedAtMs : Int) : PlacementRow :=
  { row with
    state := .failed
    transitionGeneration := generation
    recoveryError := some recoveryError
    turnClaim := (localClaim.map (·.columns)).getD .null
    updatedAtMs
    stateChangedAtMs := updatedAtMs }

/-- `fail`, with the flag that says whether a worker claim was released. -/
def fail (input : FailInput) (nowMs : Int) (db : PlacementDb) :
    Except String ((WorkerSessionPlacementRecord × Bool) × PlacementDb) := do
  let sessionId ← required input.sessionId "session id"
  let recoveryError ← required input.recoveryError "recovery error"
  let current ← getRequired db sessionId
  throwIf (input.expectedGeneration.any (current.generation ≠ ·))
    s!"Worker session placement {sessionId} changed before failure"
  if current.state = .failed then
    let db ← db.updateOne sessionId
      (fun row => row.state = .failed && row.transitionGeneration = current.generation)
      (fun row => { row with recoveryError := some recoveryError, updatedAtMs := nowMs })
      s!"Worker session placement {sessionId} changed during failure update"
    return ((← getRequired db sessionId, false), db)
  throwIf (canTransitionWorkerSessionPlacement current.state .failed = false)
    s!"Cannot fail worker session placement from {current.state.text}"
  let localClaim := current.turnClaim.filter (·.owner = .«local»)
  let generation ← nextGeneration current.generation
  let db ← db.updateOne sessionId
    (fun row => row.state = current.state && row.transitionGeneration = current.generation)
    (fun row => failedRow row localClaim recoveryError generation nowMs)
    s!"Worker session placement {sessionId} changed during failure"
  let releasedClaim := current.turnClaim.any (·.owner = .worker)
  return ((← getRequired db sessionId, releasedClaim), db)

/-! ## Turn claims -/

structure ClaimTurnInput extends WorkerSessionPlacementIdentity where
  owner : WorkerSessionTurnOwner
  claimId : String
  runId : String

def normalizeOwner : WorkerSessionTurnOwner → Except String WorkerSessionTurnOwner
  | .«local» => .ok .«local»
  | .worker environmentId ownerEpoch => do
    let environmentId ← required environmentId "turn owner environment id"
    let ownerEpoch ← normalizeEpoch ownerEpoch "turn owner epoch"
    return .worker environmentId ownerEpoch

/-- May `owner` take a turn on the current placement? -/
def assertOwnerAdmitted (current : WorkerSessionPlacementRecord) :
    WorkerSessionTurnOwner → Except String Unit
  | .«local» =>
    throwIf (current.state ≠ .«local»)
      s!"Local turn rejected for session {current.sessionId} in placement {current.state.text}"
  | .worker environmentId ownerEpoch =>
    throwIf (current.state ≠ .active ∨ current.metadata.environmentId ≠ some environmentId ∨
        current.metadata.activeOwnerEpoch ≠ some ownerEpoch)
      s!"Worker turn rejected for session {current.sessionId}: stale owner"

/-- The claim columns `claimTurn` writes. -/
def claimColumns (owner : WorkerSessionTurnOwner) (claimId runId : String) (generation : Int) : TurnClaimColumns where
  owner := some owner.kind
  id := some claimId
  runId := some runId
  generation := some generation
  ownerEpoch :=
    match owner with
    | .«local» => none
    | .worker _ ownerEpoch => some ownerEpoch

def claimTurn (input : ClaimTurnInput) (now : Clock) (db : PlacementDb) :
    Except String (WorkerSessionTurnClaim × PlacementDb) := do
  let identity ← normalizeIdentity input.toWorkerSessionPlacementIdentity
  let claimId ← required input.claimId "turn claim id"
  let runId ← required input.runId "turn claim run id"
  let owner ← normalizeOwner input.owner
  let (current, db) ← ensureLocal db identity now.first
  throwIf (current.turnClaim ≠ none)
    s!"Session {identity.sessionId} already has an active turn claim"
  assertOwnerAdmitted current owner
  let db ← db.updateOne current.sessionId
    (fun row => row.state = current.state && row.transitionGeneration = current.generation &&
      row.turnClaim.owner = none)
    (fun row => { row with
      turnClaim := claimColumns owner claimId runId current.generation
      updatedAtMs := now.second })
    s!"Session {identity.sessionId} placement changed during turn admission"
  return ({ sessionId := current.sessionId, claimId, runId,
            placementGeneration := current.generation, owner }, db)

def workerMayFinish (state : WorkerSessionPlacementState) : Bool := state = .active || state = .draining

/-- The stored claim is the presented one, and a worker's placement still belongs to its owner. -/
def claimMatches (current : WorkerSessionPlacementRecord) (claimId runId : String)
    (claim : WorkerSessionTurnClaim) : Bool :=
  match current.turnClaim with
  | none => false
  | some persisted =>
    persisted.claimId = claimId && persisted.runId = runId &&
      persisted.generation = claim.placementGeneration && persisted.owner = claim.owner.kind &&
      match claim.owner with
      | .«local» => true
      | .worker environmentId ownerEpoch =>
        persisted.ownerEpoch = some ownerEpoch && workerMayFinish current.state &&
          current.metadata.environmentId = some environmentId &&
          current.metadata.activeOwnerEpoch = some ownerEpoch

def releaseTurn (claim : WorkerSessionTurnClaim) (nowMs : Int) (db : PlacementDb) :
    Except String (WorkerSessionPlacementRecord × PlacementDb) := do
  let sessionId ← required claim.sessionId "session id"
  let claimId ← required claim.claimId "turn claim id"
  let runId ← required claim.runId "turn claim run id"
  let current ← getRequired db sessionId
  throwIf (claimMatches current claimId runId claim = false)
    s!"Session {sessionId} turn claim changed before release"
  let db ← db.updateOne sessionId
    (fun row => row.turnClaim.id = some claimId && row.turnClaim.runId = some runId &&
      row.turnClaim.generation = some claim.placementGeneration)
    (fun row => { row with turnClaim := .null, updatedAtMs := nowMs })
    s!"Session {sessionId} turn claim changed during release"
  return (← getRequired db sessionId, db)

/-- `clearLocalTurnClaimsAfterRestart`: the sessions whose local claim was cleared. -/
def clearLocalTurnClaimsAfterRestart (nowMs : Int) (db : PlacementDb) :
    Except String (List String × PlacementDb) := do
  let isLocal := fun (row : PlacementRow) => decide (row.turnClaim.owner = some .«local»)
  let sessionIds := (db.rows.filter (isLocal ·.2)).map (·.1)
  let (db, numAffectedRows) := db.updateWhere isLocal
    fun row => { row with turnClaim := .null, updatedAtMs := nowMs }
  throwIf (numAffectedRows ≠ sessionIds.length)
    "Local turn claims changed during restart recovery"
  return (sessionIds, db)

def validateTurnClaim (claim : WorkerSessionTurnClaim) (db : PlacementDb) : Except String Bool := do
  let sessionId ← required claim.sessionId "session id"
  match ← find db sessionId with
  | none => return false
  | some current => return claimMatches current claim.claimId claim.runId claim

structure AckInput where
  claim : WorkerSessionTurnClaim
  transcript : Option Int := none
  liveEvent : Option Int := none

def updateAckCursors (input : AckInput) (nowMs : Int) (db : PlacementDb) :
    Except String (WorkerSessionPlacementRecord × PlacementDb) := do
  let sessionId ← required input.claim.sessionId "session id"
  let claimId ← required input.claim.claimId "turn claim id"
  let runId ← required input.claim.runId "turn claim run id"
  let placementGeneration := input.claim.placementGeneration
  throwIf (isSafeInteger placementGeneration = false ∨ placementGeneration < 0)
    "Worker session placement turn claim generation is invalid"
  match input.claim.owner with
  | .«local» => .error "Only a worker turn claim can acknowledge worker cursors"
  | .worker environmentId ownerEpoch =>
    let environmentId ← required environmentId "environment id"
    let ownerEpoch ← normalizeEpoch ownerEpoch "active owner epoch"
    let current ← getRequired db sessionId
    throwIf (workerMayFinish current.state = false ∨
        current.metadata.environmentId ≠ some environmentId ∨
        current.metadata.activeOwnerEpoch ≠ some ownerEpoch ∨
        current.turnClaim ≠ some (.worker claimId runId placementGeneration ownerEpoch))
      s!"Cannot ACK stale worker turn for session {sessionId}"
    let transcript ← advanceCursor current.metadata.lastTranscriptAckCursor input.transcript
      "transcript ACK cursor"
    let liveEvent ← advanceCursor current.metadata.lastLiveEventAckCursor input.liveEvent
      "live ACK cursor"
    let db ← db.updateOne sessionId
      (fun row => row.state = current.state && row.transitionGeneration = current.generation &&
        row.metadata.environmentId = some environmentId &&
        row.metadata.activeOwnerEpoch = some ownerEpoch &&
        holdsWorkerClaim row.turnClaim claimId runId placementGeneration (some ownerEpoch))
      (fun row => { row with
        metadata := { row.metadata with
          lastTranscriptAckCursor := transcript
          lastLiveEventAckCursor := liveEvent }
        updatedAtMs := nowMs })
      s!"Worker session placement {sessionId} changed during ACK"
    return (← getRequired db sessionId, db)

/-! ## Calls and runs -/

/-- A call of one of the nine writing operations, with its arguments and its clock. -/
inductive PlacementOp where
  | startDispatch (input : WorkerSessionPlacementIdentity) (now : Clock)
  | transition (input : TransitionInput) (nowMs : Int)
  | startDrain (input : WorkerOwnerInput) (expectedGeneration nowMs : Int)
  | startReconcile (input : WorkerOwnerInput) (expectedGeneration nowMs : Int)
  | fail (input : FailInput) (nowMs : Int)
  | claimTurn (input : ClaimTurnInput) (now : Clock)
  | releaseTurn (claim : WorkerSessionTurnClaim) (nowMs : Int)
  | updateAckCursors (input : AckInput) (nowMs : Int)
  | clearLocalTurnClaimsAfterRestart (nowMs : Int)

/-- What a writing operation returns. -/
inductive PlacementReply where
  | record (record : WorkerSessionPlacementRecord)
  | advanced (record : WorkerSessionPlacementRecord) (releasedClaim : Bool)
  | claim (claim : WorkerSessionTurnClaim)
  | cleared (sessionIds : List String)

/-- The body of a call: what it returns and writes, or the error it throws. -/
def PlacementOp.body (op : PlacementOp) (db : PlacementDb) : Except String (PlacementReply × PlacementDb) :=
  match op with
  | .startDispatch input now => Prod.map .record id <$> Placement.startDispatch input now db
  | .transition input nowMs => Prod.map .record id <$> Placement.transition input nowMs db
  | .startDrain input expectedGeneration nowMs =>
    Prod.map .record id <$> Placement.startDrain input expectedGeneration nowMs db
  | .startReconcile input expectedGeneration nowMs =>
    Prod.map (fun o => .advanced o.1 o.2) id <$>
      Placement.startReconcile input expectedGeneration nowMs db
  | .fail input nowMs => Prod.map (fun o => .advanced o.1 o.2) id <$> Placement.fail input nowMs db
  | .claimTurn input now => Prod.map .claim id <$> Placement.claimTurn input now db
  | .releaseTurn claim nowMs => Prod.map .record id <$> Placement.releaseTurn claim nowMs db
  | .updateAckCursors input nowMs => Prod.map .record id <$> Placement.updateAckCursors input nowMs db
  | .clearLocalTurnClaimsAfterRestart nowMs =>
    Prod.map .cleared id <$> Placement.clearLocalTurnClaimsAfterRestart nowMs db

/-- A call as the store makes it: one write transaction. -/
def PlacementOp.call (op : PlacementOp) (db : PlacementDb) : Except String PlacementReply × PlacementDb :=
  transact op.body db

/-- The table after one call, whatever it returned. -/
def applyOp (db : PlacementDb) (op : PlacementOp) : PlacementDb := (op.call db).2

/-- The table after a script of calls on an empty table. -/
def placementsAfter (script : List PlacementOp) : PlacementDb := run applyOp Table.empty script

end OpenClaw.WorkerEnvironments.Placement
