/-
# OpenClaw.WorkerEnvironments.EnvironmentStore -- the operations on worker environments

The second half of `store.ts`: the database of environments, credentials and transcript commit heads,
the operations the store writes with, and the repair it runs each time it is opened.  Each operation
is one write transaction.  Argument checks that the source runs before it opens the transaction are
part of the body here; they write nothing.
-/
import OpenClaw.Logic.Run
import OpenClaw.WorkerEnvironments.EnvironmentRecord
import OpenClaw.WorkerEnvironments.TranscriptCommitStore

namespace OpenClaw.WorkerEnvironments.Environment

open OpenClaw.Logic OpenClaw.Data

/-- The tables the store reads and writes; the heads are written by the transcript commit store. -/
structure EnvironmentDb where
  environments : Table String EnvironmentRow
  credentials : Table String CredentialRow
  heads : Table (String × Int) TranscriptCommitStore.HeadRow

/-! ## Queries -/

def find (db : EnvironmentDb) (environmentId : String) : Except String (Option WorkerEnvironmentRecord) :=
  match db.environments.find environmentId with
  | none => .ok none
  | some row => some <$> fromRow environmentId row

def findCredential (db : EnvironmentDb) (environmentId : String) : Except String (Option WorkerCredentialRecord) :=
  match db.credentials.find environmentId with
  | none => .ok none
  | some row => some <$> credentialFromRow environmentId row

def findCredentialByHash (db : EnvironmentDb) (credentialHash : String) :
    Except String (Option WorkerCredentialRecord) :=
  match db.credentials.rows.find? (·.2.credentialHash = credentialHash) with
  | none => .ok none
  | some (environmentId, row) => some <$> credentialFromRow environmentId row

def getRequired (db : EnvironmentDb) (environmentId : String) :
    Except String WorkerEnvironmentRecord := do
  match ← find db environmentId with
  | none => .error s!"Unknown worker environment: {environmentId}"
  | some record => return record

def nextOwnerEpoch (ownerEpoch : Int) : Except String Int :=
  if isSafeInteger (ownerEpoch + 1) then .ok (ownerEpoch + 1)
  else .error "Worker environment owner epoch is exhausted"

/-- `SELECT max(column)`, with 0 for an empty table. -/
def maxColumn (column : List Int) : Int := column.max?.getD 0

def nextGlobalOwnerEpoch (db : EnvironmentDb) : Except String Int :=
  nextOwnerEpoch (max (maxColumn (db.environments.rows.map (·.2.ownerEpoch)))
    (maxColumn (db.heads.rows.map (·.1.2))))

def terminalStates : List WorkerEnvironmentState := [.destroyed, .failed, .orphaned]

/-- `ORDER BY created_at_ms, environment_id`, after `provider_id` when reconciling. -/
def rowBefore (reconcile : Bool) (a b : String × EnvironmentRow) : Bool :=
  let provider (r : String × EnvironmentRow) := if reconcile then r.2.providerId.toList else []
  provider a < provider b ||
    (provider a = provider b &&
      (a.2.createdAtMs < b.2.createdAtMs ||
        (a.2.createdAtMs = b.2.createdAtMs && a.1.toList < b.1.toList)))

def listRows (db : EnvironmentDb) (reconcile : Bool) : Except String (List WorkerEnvironmentRecord) :=
  let rows := if reconcile then
      db.environments.rows.filter (·.2.state ∉ terminalStates)
    else db.environments.rows
  (toSorted (rowBefore reconcile) rows).mapM fun (environmentId, row) => fromRow environmentId row

/-! ## Writes -/

/-- The partial unique index on (`provider_id`, `lease_id`). -/
def leaseConflict (db : EnvironmentDb) (id : String) (set : EnvironmentRow → EnvironmentRow) : Bool :=
  match db.environments.find id with
  | none => false
  | some row =>
    (set row).leaseId ≠ none && db.environments.rows.any fun (other, r) =>
      other ≠ id && r.providerId = row.providerId && r.leaseId = (set row).leaseId

def update (db : EnvironmentDb) (id : String) (state : WorkerEnvironmentState)
    (set : EnvironmentRow → EnvironmentRow) :
    Except String (WorkerEnvironmentRecord × EnvironmentDb) := do
  throwIf (leaseConflict db id set)
    "UNIQUE constraint failed: worker_environments.provider_id, worker_environments.lease_id"
  let environments ← db.environments.updateOne id (fun row => row.state = state) set
    s!"Worker environment {id} changed during update"
  let db := { db with environments }
  return (← getRequired db id, db)

def revokeCredential (db : EnvironmentDb) (environmentId : String) : EnvironmentDb :=
  { db with credentials := db.credentials.deleteKey environmentId }

def upsertCredential (db : EnvironmentDb) (environmentId : String) (credential : CredentialRow) :
    Except String EnvironmentDb := do
  throwIf (db.credentials.rows.any fun (other, r) =>
      other ≠ environmentId && r.credentialHash = credential.credentialHash)
    "UNIQUE constraint failed: worker_environment_credentials.credential_hash"
  return { db with credentials := db.credentials.upsert environmentId credential }

structure CredentialInput where
  credentialHash : String
  sessionId : Option String
  rpcSetVersion : Int
  expiresAtMs : Int

def credentialInsert (input : CredentialInput) (bundleHash : String)
    (attachedSessionIds : List String) (ownerEpoch nowMs : Int) : Except String CredentialRow := do
  let sessionId ← normalizeSessionId input.sessionId
  assertCredentialSessionBinding attachedSessionIds sessionId
  let expiresAtMs ← normalizeExpiry input.expiresAtMs
  throwIf (expiresAtMs ≤ nowMs) "Worker credential expiry must be in the future"
  let credentialHash ← normalizeCredentialHash input.credentialHash
  let rpcSetVersion ← normalizeRpcSetVersion input.rpcSetVersion
  return { credentialHash, bundleHash, sessionId, rpcSetVersion, ownerEpoch, expiresAtMs,
           deliveredAtMs := none }

/-! ## Opening the store -/

/-- `compareAttachmentAuthority(left, right) < 0` -/
def attachmentAuthority (left right : WorkerEnvironmentRecord) : Bool :=
  if left.ownerEpoch ≠ right.ownerEpoch then left.ownerEpoch > right.ownerEpoch
  else if left.stateChangedAtMs ≠ right.stateChangedAtMs then
    left.stateChangedAtMs > right.stateChangedAtMs
  else jsLt left.environmentId right.environmentId

/-- The session an attached environment holds. -/
def attachedSession (record : WorkerEnvironmentRecord) : Option String :=
  if record.state = .attached then record.attachedSessionIds.head? else none

/-- The attached environments that lose to a stronger owner of the same session, session by session
in the order in which the sessions come up. -/
def duplicateOwners (records : List WorkerEnvironmentRecord) : List WorkerEnvironmentRecord :=
  (records.filterMap attachedSession).eraseDups.flatMap fun sessionId =>
    (toSorted attachmentAuthority
      (records.filter fun record => attachedSession record = some sessionId)).tail

def demoteDuplicate (nowMs : Int) (db : EnvironmentDb) (duplicate : WorkerEnvironmentRecord) :
    Except String EnvironmentDb := do
  let ownerEpoch ← nextGlobalOwnerEpoch db
  let (_, db) ← update db duplicate.environmentId .attached fun row => { row with
    ownerEpoch
    state := .idle
    attachedSessionIdsJson := []
    updatedAtMs := nowMs
    stateChangedAtMs := nowMs
    idleSinceAtMs := some nowMs }
  return revokeCredential db duplicate.environmentId

def reconcileAttachedSessionOwners (db : EnvironmentDb) (nowMs : Int) :
    Except String EnvironmentDb := do
  let records ← listRows db false
  (duplicateOwners records).foldlM (demoteDuplicate nowMs) db

/-! ## The operations -/

structure IntentInput where
  environmentId : String
  providerId : String
  profileId : String
  profileSnapshot : String
  provisionOperationId : String

/-- The row `createIntent` inserts. -/
def intentRow (providerId profileId profileSnapshot provisionOperationId : String)
    (createdAtMs : Int) : EnvironmentRow where
  providerId
  profileId
  profileSnapshotJson := profileSnapshot
  provisionOperationId
  leaseId := none
  ssh := .null
  bootstrap := .null
  ownerEpoch := 0
  teardownTerminalState := none
  state := .requested
  attachedSessionIdsJson := []
  createdAtMs
  updatedAtMs := createdAtMs
  stateChangedAtMs := createdAtMs
  idleSinceAtMs := none
  destroyRequestedAtMs := none
  lastError := none

def createIntent (input : IntentInput) (createdAtMs : Int) (db : EnvironmentDb) :
    Except String (WorkerEnvironmentRecord × EnvironmentDb) := do
  let environmentId ← required input.environmentId "id"
  let providerId ← required input.providerId "provider id"
  let profileId ← required input.profileId "profile id"
  let provisionOperationId ← required input.provisionOperationId "provision operation id"
  throwIf (db.environments.rows.any fun (_, r) => r.provisionOperationId = provisionOperationId)
    "UNIQUE constraint failed: worker_environments.provision_operation_id"
  let environments ← db.environments.insertNew environmentId
    (intentRow providerId profileId input.profileSnapshot provisionOperationId createdAtMs)
  let db := { db with environments }
  return (← getRequired db environmentId, db)

structure RequestDestroyInput where
  environmentId : String
  state : WorkerEnvironmentState
  terminalState : Option TeardownTerminalState := none
  lastError : Option String := none

def requestDestroy (input : RequestDestroyInput) (requestedAtMs : Int) (db : EnvironmentDb) :
    Except String (WorkerEnvironmentRecord × EnvironmentDb) := do
  let environmentId ← required input.environmentId "id"
  let current ← getRequired db environmentId
  throwIf (current.state ≠ input.state)
    s!"Worker environment {environmentId} changed before destroy request"
  if current.destroyRequestedAtMs ≠ none then return (current, db)
  let terminalState := input.terminalState.getD .destroyed
  let lastError ← input.lastError.mapM (required · "last error")
  update db environmentId input.state fun row => { row with
    updatedAtMs := requestedAtMs
    destroyRequestedAtMs := some requestedAtMs
    teardownTerminalState := some terminalState
    lastError := lastError.or row.lastError }

/-- A caller's patch: an absent field keeps the current value. -/
structure TransitionPatch where
  leaseId : Option (Option String) := none
  sshEndpoint : Option (Option WorkerSshEndpoint) := none
  bootstrapReceipt : Option BootstrapReceipt := none
  attachedSessionIds : Option (List String) := none
  lastError : Option (Option String) := none
  credential : Option CredentialInput := none

structure TransitionInput where
  environmentId : String
  source : WorkerEnvironmentState
  target : WorkerEnvironmentState
  expectedOwnerEpoch : Option Int := none
  patch : TransitionPatch := {}

section TransitionRules

variable (source target : WorkerEnvironmentState)

def clearsLeaseAfterTeardownFailure : Bool := target = .failed && source = .destroying

def acceptsBootstrapReceipt : Bool := source = .bootstrapping && target = .ready

def acceptsCredential : Bool := acceptsBootstrapReceipt source target || target = .attached

def clearsBootstrapReceipt : Bool := target = .bootstrapping && (source = .ready || source = .idle)

def revokesCredential : Bool :=
  clearsBootstrapReceipt source target || target = .attached ||
    (source = .attached && target = .idle) || target = .draining || target = .destroyed ||
    target = .failed || target = .orphaned

def ownerEndingTransition : Bool :=
  (source = .ready || source = .idle || source = .attached) &&
    (target = .bootstrapping || (source = .attached && target = .idle) || target = .draining ||
      target = .destroyed || target = .failed || target = .orphaned)

end TransitionRules

/-- `patch.field === null` -/
def isExplicitNull {α : Type} : Option (Option α) → Bool
  | some none => true
  | _ => false

/-- What a transition is going to write. -/
structure TransitionPlan where
  leaseId : Option String
  sshEndpoint : Option WorkerSshEndpoint
  bootstrapReceipt : Option BootstrapReceipt
  attachedSessionIds : List String

def patchedLeaseId (current : WorkerEnvironmentRecord) :
    Option (Option String) → Except String (Option String)
  | none => .ok current.leaseId
  | some none => .ok none
  | some (some leaseId) => some <$> required leaseId "lease id"

def patchedSshEndpoint (current : WorkerEnvironmentRecord) :
    Option (Option WorkerSshEndpoint) → Except String (Option WorkerSshEndpoint)
  | none => .ok current.sshEndpoint
  | some none => .ok none
  | some (some endpoint) => some <$> normalizeWorkerSshEndpoint endpoint

def patchedBootstrapReceipt (input : TransitionInput) (current : WorkerEnvironmentRecord) :
    Except String (Option BootstrapReceipt) :=
  if clearsBootstrapReceipt input.source input.target then .ok none
  else
    match input.patch.bootstrapReceipt with
    | none => .ok current.bootstrapReceipt
    | some receipt => some <$> normalizeBootstrapReceipt receipt

def patchedSessionIds (input : TransitionInput) (current : WorkerEnvironmentRecord) : Except String (List String) :=
  if input.target ≠ .attached then .ok []
  else
    match input.patch.attachedSessionIds with
    | none => .ok current.attachedSessionIds
    | some sessionIds => normalizeAttachedSessionIds sessionIds

/-- The checks of `transition` on the current record and the patch, up to `assertShape`. -/
def planTransition (input : TransitionInput) (current : WorkerEnvironmentRecord) :
    Except String TransitionPlan := do
  let { source, target, patch, .. } := input
  throwIf (current.state ≠ source)
    s!"Worker environment {current.environmentId} state conflict: expected {source.text}, found {current.state.text}"
  throwIf (input.expectedOwnerEpoch.any (current.ownerEpoch ≠ ·))
    s!"Worker environment {current.environmentId} owner epoch changed"
  throwIf (target = .attached ∧ current.destroyRequestedAtMs ≠ none)
    "Cannot attach worker after destroy is requested"
  let clearsLease := clearsLeaseAfterTeardownFailure source target
  throwIf (clearsLease ∧
      (current.destroyRequestedAtMs = none ∨ current.teardownTerminalState ≠ some .failed))
    "Failed bootstrap transition requires durable provider teardown intent"
  throwIf (clearsLease ∧ (!isExplicitNull patch.leaseId ∨ !isExplicitNull patch.sshEndpoint))
    "Failed bootstrap transition requires explicit lease clearing after provider teardown"
  let leaseId ← patchedLeaseId current patch.leaseId
  throwIf (!noLease current.leaseId ∧ leaseId ≠ current.leaseId ∧ !clearsLease)
    "Worker environment provider lease id is immutable once persisted"
  let sshEndpoint ← patchedSshEndpoint current patch.sshEndpoint
  let acceptsReceipt := acceptsBootstrapReceipt source target
  throwIf (patch.bootstrapReceipt.isSome ∧ !acceptsReceipt)
    "Bootstrap receipt can only be recorded when a worker becomes ready"
  throwIf (acceptsReceipt ∧ patch.bootstrapReceipt.isNone)
    "Ready worker transition requires a bootstrap receipt"
  let acceptsCredential := acceptsCredential source target
  let label := if target = .ready then "Ready" else "Attached"
  throwIf (patch.credential.isSome ∧ !acceptsCredential)
    "Worker credential cannot be minted during this transition"
  throwIf (acceptsCredential ∧ patch.credential.isNone)
    s!"{label} worker transition requires a worker credential"
  let bootstrapReceipt ← patchedBootstrapReceipt input current
  throwIf (acceptsCredential ∧ bootstrapReceipt.isNone) s!"{label} worker requires bootstrap proof"
  let attachedSessionIds ← patchedSessionIds input current
  assertShape target leaseId sshEndpoint bootstrapReceipt attachedSessionIds
  return { leaseId, sshEndpoint, bootstrapReceipt, attachedSessionIds }

/-- The check that no other environment is attached to the session. -/
def assertSessionFree (db : EnvironmentDb) (environmentId : String)
    (target : WorkerEnvironmentState) (attachedSessionIds : List String) : Except String Unit :=
  match target, attachedSessionIds with
  | .attached, attachedSessionId :: _ => do
    let records ← listRows db false
    match records.find? fun record => record.environmentId ≠ environmentId &&
        attachedSession record = some attachedSessionId with
    | some existingOwner =>
      .error s!"Session {attachedSessionId} is already attached to worker environment {existingOwner.environmentId}"
    | none => return ()
  | _, _ => .ok ()

def transitionOwnerEpoch (db : EnvironmentDb) (source target : WorkerEnvironmentState)
    (current : WorkerEnvironmentRecord) : Except String Int :=
  if acceptsBootstrapReceipt source target then .ok (max 1 current.ownerEpoch)
  else if target = .attached || ownerEndingTransition source target then nextGlobalOwnerEpoch db
  else .ok current.ownerEpoch

def sshColumns (sshEndpoint : Option WorkerSshEndpoint) : SshColumns where
  host := sshEndpoint.map (·.host)
  port := sshEndpoint.map (·.port)
  user := sshEndpoint.map (·.user)
  hostKey := sshEndpoint.map (·.hostKey)
  keyRefJson := sshEndpoint.map (·.keyRef)

def bootstrapColumns (bootstrapReceipt : Option BootstrapReceipt) : BootstrapColumns where
  bundleHash := bootstrapReceipt.map (·.bundleHash)
  openclawVersion := bootstrapReceipt.map (·.openclawVersion)
  protocolFeaturesJson := bootstrapReceipt.map (·.protocolFeatures)

/-- `"lastError" in patch ? patch.lastError?.trim() || null : null` -/
def patchedLastError : Option (Option String) → Option String
  | some (some lastError) => if trim lastError = "" then none else some (trim lastError)
  | _ => none

/-- The columns a transition sets. -/
def transitionRow (plan : TransitionPlan) (target : WorkerEnvironmentState) (ownerEpoch : Int)
    (lastError : Option (Option String)) (updatedAtMs : Int) (row : EnvironmentRow) : EnvironmentRow :=
  { row with
    leaseId := plan.leaseId
    ssh := sshColumns plan.sshEndpoint
    bootstrap := bootstrapColumns plan.bootstrapReceipt
    ownerEpoch
    state := target
    attachedSessionIdsJson := plan.attachedSessionIds
    updatedAtMs
    stateChangedAtMs := updatedAtMs
    idleSinceAtMs := if target = .idle then some updatedAtMs else none
    lastError := patchedLastError lastError }

/-- The credential part of a transition: revoke, then mint. -/
def transitionCredential (db : EnvironmentDb) (environmentId : String) (input : TransitionInput)
    (plan : TransitionPlan) (ownerEpoch updatedAtMs : Int) : Except String EnvironmentDb := do
  let db := if revokesCredential input.source input.target then revokeCredential db environmentId
    else db
  match input.patch.credential, plan.bootstrapReceipt with
  | some credential, some receipt => do
    let row ← credentialInsert credential receipt.bundleHash plan.attachedSessionIds ownerEpoch
      updatedAtMs
    upsertCredential db environmentId row
  | _, _ => return db

def transition (input : TransitionInput) (updatedAtMs : Int) (db : EnvironmentDb) :
    Except String (WorkerEnvironmentRecord × EnvironmentDb) := do
  let { source, target, .. } := input
  throwIf (canTransitionWorkerEnvironment source target = false)
    s!"Illegal worker environment transition: {source.text} -> {target.text}"
  let environmentId ← required input.environmentId "id"
  let current ← getRequired db environmentId
  let plan ← planTransition input current
  assertSessionFree db environmentId target plan.attachedSessionIds
  let ownerEpoch ← transitionOwnerEpoch db source target current
  let (record, db) ← update db environmentId source
    (transitionRow plan target ownerEpoch input.patch.lastError updatedAtMs)
  let db ← transitionCredential db environmentId input plan ownerEpoch updatedAtMs
  return (record, db)

def acceptsMint (state : WorkerEnvironmentState) : Bool := state = .ready || state = .idle || state = .attached

structure RenewCredentialInput extends CredentialInput where
  environmentId : String
  expectedOwnerEpoch : Int

/-- The owner epoch of the row, raised when it differs. -/
def raiseOwnerEpoch (db : EnvironmentDb) (environmentId : String) (current : WorkerEnvironmentRecord)
    (ownerEpoch updatedAtMs : Int) : Except String EnvironmentDb :=
  if ownerEpoch ≠ current.ownerEpoch then
    Prod.snd <$> update db environmentId current.state
      fun row => { row with ownerEpoch, updatedAtMs }
  else .ok db

/-- `renewCredential`, which is `writeCredential`. -/
def renewCredential (input : RenewCredentialInput) (updatedAtMs : Int) (db : EnvironmentDb) :
    Except String (WorkerCredentialRecord × EnvironmentDb) := do
  let environmentId ← required input.environmentId "id"
  let current ← getRequired db environmentId
  throwIf (current.ownerEpoch ≠ input.expectedOwnerEpoch)
    s!"Worker environment {environmentId} owner epoch changed"
  throwIf (acceptsMint current.state = false)
    s!"Cannot mint worker credential in state {current.state.text}"
  throwIf (current.destroyRequestedAtMs ≠ none)
    "Cannot mint worker credential after destroy is requested"
  match current.bootstrapReceipt with
  | none => .error "Worker environment has no admitted bootstrap identity"
  | some receipt =>
    let ownerEpoch := max 1 current.ownerEpoch
    let db ← raiseOwnerEpoch db environmentId current ownerEpoch updatedAtMs
    let row ← credentialInsert input.toCredentialInput receipt.bundleHash
      current.attachedSessionIds ownerEpoch updatedAtMs
    let db ← upsertCredential db environmentId row
    match ← findCredential db environmentId with
    | none => .error "Worker credential persistence failed"
    | some credential => return (credential, db)

structure DeliveredInput where
  environmentId : String
  credentialHash : String
  ownerEpoch : Int
  sessionId : Option String
  deliveredAtMs : Int

def markCredentialDelivered (input : DeliveredInput) (db : EnvironmentDb) :
    Except String (Unit × EnvironmentDb) := do
  let environmentId ← required input.environmentId "id"
  let environment ← getRequired db environmentId
  match ← findCredential db environmentId with
  | none => .error s!"Worker environment {environmentId} credential changed"
  | some credential =>
    let changed := s!"Worker environment {environmentId} credential changed"
    throwIf (acceptsMint environment.state = false ∨ environment.destroyRequestedAtMs ≠ none) changed
    let credentialHash ← normalizeCredentialHash input.credentialHash
    throwIf (credential.credentialHash ≠ credentialHash ∨
        credential.ownerEpoch ≠ input.ownerEpoch ∨ environment.ownerEpoch ≠ input.ownerEpoch)
      changed
    let sessionId ← normalizeSessionId input.sessionId
    throwIf (credential.sessionId ≠ sessionId) changed
    let deliveredAtMs ← normalizeExpiry input.deliveredAtMs
    throwIf (deliveredAtMs ≥ credential.expiresAtMs)
      "Expired worker credential cannot be marked delivered"
    let credentials ← db.credentials.updateOne environmentId
      (fun row => row.credentialHash = credential.credentialHash &&
        row.ownerEpoch = credential.ownerEpoch)
      (fun row => { row with deliveredAtMs := some deliveredAtMs }) changed
    return ((), { db with credentials })

structure RecordErrorInput where
  environmentId : String
  state : WorkerEnvironmentState
  error : String

def recordError (input : RecordErrorInput) (nowMs : Int) (db : EnvironmentDb) :
    Except String (WorkerEnvironmentRecord × EnvironmentDb) := do
  let environmentId ← required input.environmentId "id"
  let lastError ← required input.error "last error"
  update db environmentId input.state fun row => { row with
    updatedAtMs := nowMs
    lastError := some lastError }

/-! ## Calls and runs -/

/-- A call of a writing operation; `insertHead` is the transcript commit store's insert. -/
inductive EnvironmentOp where
  | openStore (nowMs : Int)
  | createIntent (input : IntentInput) (nowMs : Int)
  | requestDestroy (input : RequestDestroyInput) (nowMs : Int)
  | transition (input : TransitionInput) (nowMs : Int)
  | renewCredential (input : RenewCredentialInput) (nowMs : Int)
  | markCredentialDelivered (input : DeliveredInput)
  | recordError (input : RecordErrorInput) (nowMs : Int)
  | insertHead (sessionId : String) (runEpoch : Int) (row : TranscriptCommitStore.HeadRow)

/-- What a writing operation returns. -/
inductive EnvironmentReply where
  | record (record : WorkerEnvironmentRecord)
  | credential (credential : WorkerCredentialRecord)
  | done

/-- The body of a call: what it returns and writes, or the error it throws. -/
def EnvironmentOp.body (op : EnvironmentOp) (db : EnvironmentDb) : Except String (EnvironmentReply × EnvironmentDb) :=
  match op with
  | .openStore nowMs => (.done, ·) <$> reconcileAttachedSessionOwners db nowMs
  | .createIntent input nowMs => Prod.map .record id <$> Environment.createIntent input nowMs db
  | .requestDestroy input nowMs => Prod.map .record id <$> Environment.requestDestroy input nowMs db
  | .transition input nowMs => Prod.map .record id <$> Environment.transition input nowMs db
  | .renewCredential input nowMs => Prod.map .credential id <$> Environment.renewCredential input nowMs db
  | .markCredentialDelivered input => Prod.map (fun _ => .done) id <$> Environment.markCredentialDelivered input db
  | .recordError input nowMs => Prod.map .record id <$> Environment.recordError input nowMs db
  | .insertHead sessionId runEpoch row =>
    (fun heads => (.done, { db with heads })) <$> db.heads.insertNew (sessionId, runEpoch) row

/-- A call as the store makes it: one write transaction. -/
def EnvironmentOp.call (op : EnvironmentOp) (db : EnvironmentDb) : Except String EnvironmentReply × EnvironmentDb :=
  transact op.body db

/-- The tables after one call, whatever it returned. -/
def applyOp (db : EnvironmentDb) (op : EnvironmentOp) : EnvironmentDb := (op.call db).2

end OpenClaw.WorkerEnvironments.Environment
