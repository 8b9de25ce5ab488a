/-
# OpenClaw.WorkerEnvironments.EnvironmentRecord -- worker environments: states, rows, records

A worker environment is a leased machine that runs worker sessions.  This module follows `state.ts`
and the first half of `store.ts`: the eleven states with their transition table, the checks on SSH
endpoints, bootstrap receipts, credentials and session ids, and the decoding of stored rows.

A JSON column holds the value it encodes; `JSON.parse` undoes `JSON.stringify` on these values.
`state` and `teardown_terminal_state` are enumerations: the table's own `CHECK` admits no other text.
-/
import OpenClaw.Data.JsStrings
import OpenClaw.Data.Table

namespace OpenClaw.WorkerEnvironments.Environment

open OpenClaw.Logic OpenClaw.Data

/-! ## States -/

inductive WorkerEnvironmentState where
  | requested
  | provisioning
  | bootstrapping
  | ready
  | attached
  | idle
  | draining
  | destroying
  | destroyed
  | failed
  | orphaned
  deriving DecidableEq

def WorkerEnvironmentState.text : WorkerEnvironmentState → String
  | .requested => "requested"
  | .provisioning => "provisioning"
  | .bootstrapping => "bootstrapping"
  | .ready => "ready"
  | .attached => "attached"
  | .idle => "idle"
  | .draining => "draining"
  | .destroying => "destroying"
  | .destroyed => "destroyed"
  | .failed => "failed"
  | .orphaned => "orphaned"

/-- `TRANSITIONS` -/
def environmentTransitions : WorkerEnvironmentState → List WorkerEnvironmentState
  | .requested => [.provisioning, .failed]
  | .provisioning => [.bootstrapping, .failed]
  | .bootstrapping => [.ready, .draining, .orphaned]
  | .ready => [.bootstrapping, .attached, .idle, .draining, .orphaned]
  | .attached => [.idle, .draining, .orphaned]
  | .idle => [.bootstrapping, .attached, .draining, .orphaned]
  | .draining => [.destroying, .orphaned]
  | .destroying => [.destroyed, .failed, .orphaned]
  | .destroyed => []
  | .failed => []
  | .orphaned => []

def canTransitionWorkerEnvironment (source target : WorkerEnvironmentState) : Bool :=
  target ∈ environmentTransitions source

def workerEnvironmentStateRequiresLease (state : WorkerEnvironmentState) : Bool :=
  state ≠ .requested && state ≠ .provisioning && state ≠ .failed

inductive TeardownTerminalState where
  | destroyed
  | failed
  deriving DecidableEq

/-! ## SSH endpoints -/

inductive SecretRefSource where
  | env
  | file
  | exec

structure SecretRef where
  source : SecretRefSource
  provider : String
  id : String

/-- `/^[a-z][a-z0-9_-]{0,63}$/` -/
def isValidSecretProviderAlias (value : String) : Bool :=
  matchesHeadTail isLower (fun c => isDigit c || isLower c || c ∈ ['_', '-']) 63 value.toList

/-- `/^[A-Z][A-Z0-9_]{0,127}$/` -/
def isValidEnvSecretRefId (value : String) : Bool :=
  matchesHeadTail isUpper (fun c => isDigit c || isUpper c || c = '_') 127 value.toList

/-- `/^(?:[^~]|~0|~1)*$/` -/
def fileSecretRefSegmentPattern : List Char → Bool
  | [] => true
  | '~' :: c :: rest => (c = '0' || c = '1') && fileSecretRefSegmentPattern rest
  | c :: rest => c ≠ '~' && fileSecretRefSegmentPattern rest

def isValidFileSecretRefId (value : String) : Bool :=
  if value = "value" then true
  else
    match value.toList with
    | '/' :: rest => (rest.splitOnP (· = '/')).all fileSecretRefSegmentPattern
    | _ => false

/-- `/^[A-Za-z0-9][A-Za-z0-9._:/#-]{0,255}$/` without `.` and `..` segments. -/
def isValidExecSecretRefId (value : String) : Bool :=
  matchesHeadTail (isAlnumOr []) (isAlnumOr ['.', '_', ':', '/', '#', '-']) 255 value.toList &&
    (value.toList.splitOnP (· = '/')).all fun segment => segment ≠ ['.'] && segment ≠ ['.', '.']

def isValidSecretRef (ref : SecretRef) : Bool :=
  trim ref.provider ≠ "" && trim ref.id ≠ "" && isValidSecretProviderAlias ref.provider &&
    match ref.source with
    | .env => isValidEnvSecretRefId ref.id
    | .file => isValidFileSecretRefId ref.id
    | .exec => isValidExecSecretRefId ref.id

structure WorkerSshEndpoint where
  host : String
  port : Int
  user : String
  hostKey : String
  keyRef : SecretRef

def required (value field : String) : Except String String :=
  requiredText s!"Worker environment {field} must be a non-empty string" value

/-- `/^(?:ssh|ecdsa-sha2|sk-(?:ssh|ecdsa-sha2))-[A-Za-z0-9@._+-]+$/u` -/
def opensshHostKeyTypePattern (value : String) : Bool :=
  ["ssh-", "ecdsa-sha2-", "sk-ssh-", "sk-ecdsa-sha2-"].any fun head =>
    head.toList.isPrefixOf value.toList &&
      let rest := value.toList.drop head.toList.length
      !rest.isEmpty && rest.all (isAlnumOr ['@', '.', '_', '+', '-'])

/-- `/^[A-Za-z0-9+/]+={0,2}$/u` -/
def opensshHostKeyDataPattern (value : String) : Bool :=
  let body := value.toList.takeWhile (isAlnumOr ['+', '/'])
  let padding := value.toList.dropWhile (isAlnumOr ['+', '/'])
  !body.isEmpty && padding.all (· = '=') && padding.length ≤ 2

def maxHostKeyLength : Nat := 16384

def normalizeOpenSshHostKey (value : String) : Except String String :=
  if jsLength value > maxHostKeyLength || '\n' ∈ value.toList || '\r' ∈ value.toList then
    .error "Worker environment SSH host key must be one OpenSSH public-key line"
  else
    match splitWhitespace (trim value) with
    | [algorithm, encodedKey] =>
      if !opensshHostKeyTypePattern algorithm || !opensshHostKeyDataPattern encodedKey ||
          jsLength encodedKey % 4 ≠ 0 then
        .error "Worker environment SSH host key must use OpenSSH public-key format"
      else .ok s!"{algorithm} {encodedKey}"
    | _ => .error "Worker environment SSH host key must use OpenSSH public-key format"

def normalizeWorkerSshEndpoint (value : WorkerSshEndpoint) : Except String WorkerSshEndpoint := do
  let host ← required value.host "SSH host"
  let user ← required value.user "SSH user"
  let hostKey ← normalizeOpenSshHostKey value.hostKey
  throwIf (isSafeInteger value.port = false ∨ value.port < 1 ∨ value.port > 65535)
    "Worker environment SSH port must be an integer from 1 through 65535"
  throwIf (isValidSecretRef value.keyRef = false)
    "Worker environment SSH key must be a canonical SecretRef"
  return { host, port := value.port, user, hostKey, keyRef := value.keyRef }

/-! ## Bootstrap receipts -/

/-- `WorkerAdmissionHandshake`: what a worker reports when its bootstrap is admitted. -/
structure BootstrapReceipt where
  bundleHash : String
  openclawVersion : String
  protocolFeatures : List String

/-- `/^[a-f0-9]{64}$/u` -/
def workerBundleHashPattern (value : String) : Bool :=
  value.toList.length = 64 && value.toList.all fun c => ('a' ≤ c && c ≤ 'f') || isDigit c

def workerProtocolMaxFeatures : Nat := 64

def workerProtocolMaxFeatureLength : Nat := 128

def workerProtocolMaxIdentifierLength : Nat := 256

def normalizeBootstrapReceipt (value : BootstrapReceipt) : Except String BootstrapReceipt := do
  let bundleHash ← required value.bundleHash "bootstrap bundle hash"
  throwIf (workerBundleHashPattern bundleHash = false)
    "Worker environment bootstrap bundle hash must be lowercase SHA-256 hex"
  throwIf (value.protocolFeatures.length > workerProtocolMaxFeatures ∨
      ∃ feature ∈ value.protocolFeatures, jsLength (trim feature) > workerProtocolMaxFeatureLength)
    "Worker environment bootstrap protocol features exceed admission limits"
  let openclawVersion ← required value.openclawVersion "bootstrap OpenClaw version"
  return { bundleHash, openclawVersion,
           protocolFeatures := normalizeSortedUniqueTrimmedStringList value.protocolFeatures }

/-! ## Sessions and credentials -/

def normalizeSessionId (value : Option String) : Except String (Option String) :=
  match value with
  | none => .ok none
  | some value => do
    let sessionId ← required value "credential session id"
    throwIf (jsLength sessionId > workerProtocolMaxIdentifierLength)
      "Worker credential session id exceeds the admission limit"
    return some sessionId

def normalizeAttachedSessionIds (value : List String) : Except String (List String) := do
  let sessionIds := normalizeSortedUniqueTrimmedStringList value
  throwIf (∃ sessionId ∈ sessionIds, jsLength sessionId > workerProtocolMaxIdentifierLength)
    "Worker environment attached session id exceeds the admission limit"
  return sessionIds

/-- `/^[A-Za-z0-9_-]{43}$/u` -/
def workerCredentialHashPattern (value : String) : Bool :=
  value.toList.length = 43 && value.toList.all (isAlnumOr ['_', '-'])

def normalizeCredentialHash (value : String) : Except String String := do
  let credentialHash ← required value "credential hash"
  throwIf (workerCredentialHashPattern credentialHash = false)
    "Worker credential hash must be a SHA-256 base64url digest"
  return credentialHash

def assertCredentialSessionBinding (attachedSessionIds : List String) (sessionId : Option String) :
    Except String Unit :=
  throwIf (sessionId ≠ attachedSessionIds.head?)
    "Worker credential session does not match the environment attachment"

def normalizeRpcSetVersion (value : Int) : Except String Int :=
  if !isSafeInteger value || value < 1 then
    .error "Worker credential RPC-set version must be a positive safe integer"
  else .ok value

def normalizeExpiry (value : Int) : Except String Int :=
  if !isSafeInteger value || value < 0 then
    .error "Worker credential expiry must be a non-negative safe integer"
  else .ok value

/-! ## Rows and records -/

/-- The five `ssh_*` columns. -/
structure SshColumns where
  host : Option String
  port : Option Int
  user : Option String
  hostKey : Option String
  keyRefJson : Option SecretRef

def SshColumns.null : SshColumns := ⟨none, none, none, none, none⟩

/-- The three `bootstrap_*` columns. -/
structure BootstrapColumns where
  bundleHash : Option String
  openclawVersion : Option String
  protocolFeaturesJson : Option (List String)

def BootstrapColumns.null : BootstrapColumns := ⟨none, none, none⟩

/-- A row of `worker_environments`, keyed by the environment id. -/
structure EnvironmentRow where
  providerId : String
  profileId : String
  profileSnapshotJson : String
  provisionOperationId : String
  leaseId : Option String
  ssh : SshColumns
  bootstrap : BootstrapColumns
  ownerEpoch : Int
  teardownTerminalState : Option TeardownTerminalState
  state : WorkerEnvironmentState
  attachedSessionIdsJson : List String
  createdAtMs : Int
  updatedAtMs : Int
  stateChangedAtMs : Int
  idleSinceAtMs : Option Int
  destroyRequestedAtMs : Option Int
  lastError : Option String

structure WorkerEnvironmentRecord where
  environmentId : String
  providerId : String
  profileId : String
  profileSnapshot : String
  provisionOperationId : String
  leaseId : Option String
  sshEndpoint : Option WorkerSshEndpoint
  bootstrapReceipt : Option BootstrapReceipt
  ownerEpoch : Int
  teardownTerminalState : Option TeardownTerminalState
  state : WorkerEnvironmentState
  attachedSessionIds : List String
  createdAtMs : Int
  updatedAtMs : Int
  stateChangedAtMs : Int
  idleSinceAtMs : Option Int
  destroyRequestedAtMs : Option Int
  lastError : Option String

/-- A row of `worker_environment_credentials`, keyed by the environment id. -/
structure CredentialRow where
  credentialHash : String
  bundleHash : String
  sessionId : Option String
  rpcSetVersion : Int
  ownerEpoch : Int
  expiresAtMs : Int
  deliveredAtMs : Option Int

structure WorkerCredentialRecord extends CredentialRow where
  environmentId : String

def endpointFrom (row : SshColumns) : Except String (Option WorkerSshEndpoint) :=
  match row.host, row.port, row.user, row.hostKey, row.keyRefJson with
  | some host, some port, some user, some hostKey, some keyRef =>
    some <$> normalizeWorkerSshEndpoint { host, port, user, hostKey, keyRef }
  | _, _, _, _, _ => .ok none

def bootstrapReceiptFrom (row : BootstrapColumns) : Except String (Option BootstrapReceipt) :=
  match row.bundleHash, row.openclawVersion, row.protocolFeaturesJson with
  | none, none, none => .ok none
  | some bundleHash, some openclawVersion, some protocolFeatures =>
    some <$> normalizeBootstrapReceipt { bundleHash, openclawVersion, protocolFeatures }
  | _, _, _ => .error "Worker environment bootstrap receipt is incomplete"

/-- JavaScript's `!leaseId`. -/
def noLease (leaseId : Option String) : Bool := leaseId = none || leaseId = some ""

def assertShape (state : WorkerEnvironmentState) (leaseId : Option String)
    (sshEndpoint : Option WorkerSshEndpoint) (bootstrapReceipt : Option BootstrapReceipt)
    (attachedSessionIds : List String) : Except String Unit := do
  if workerEnvironmentStateRequiresLease state then
    throwIf (noLease leaseId) s!"Worker environment state {state.text} requires a provider lease"
    throwIf sshEndpoint.isNone
      "Worker environment provider lease requires an SSH endpoint reference"
  else
    throwIf (!noLease leaseId || sshEndpoint.isSome)
      s!"Worker environment state {state.text} cannot retain a provider lease"
  throwIf (state = .bootstrapping ∧ bootstrapReceipt.isSome)
    "Bootstrapping worker environment cannot retain a stale bootstrap receipt"
  throwIf (state = .attached ∧ attachedSessionIds.length ≠ 1)
    "Attached worker environment requires exactly one session id"
  throwIf (state ≠ .attached ∧ attachedSessionIds.length ≠ 0)
    "Only an attached worker environment may retain a session id"

def fromRow (environmentId : String) (row : EnvironmentRow) :
    Except String WorkerEnvironmentRecord := do
  let sshEndpoint ← endpointFrom row.ssh
  let bootstrapReceipt ← bootstrapReceiptFrom row.bootstrap
  let attachedSessionIds ← normalizeAttachedSessionIds row.attachedSessionIdsJson
  assertShape row.state row.leaseId sshEndpoint bootstrapReceipt attachedSessionIds
  return { environmentId, providerId := row.providerId, profileId := row.profileId,
           profileSnapshot := row.profileSnapshotJson,
           provisionOperationId := row.provisionOperationId, leaseId := row.leaseId, sshEndpoint,
           bootstrapReceipt, ownerEpoch := row.ownerEpoch,
           teardownTerminalState := row.teardownTerminalState, state := row.state,
           attachedSessionIds, createdAtMs := row.createdAtMs, updatedAtMs := row.updatedAtMs,
           stateChangedAtMs := row.stateChangedAtMs, idleSinceAtMs := row.idleSinceAtMs,
           destroyRequestedAtMs := row.destroyRequestedAtMs, lastError := row.lastError }

def credentialFromRow (environmentId : String) (row : CredentialRow) :
    Except String WorkerCredentialRecord := do
  let credentialHash ← normalizeCredentialHash row.credentialHash
  return { row with environmentId, credentialHash }

end OpenClaw.WorkerEnvironments.Environment
