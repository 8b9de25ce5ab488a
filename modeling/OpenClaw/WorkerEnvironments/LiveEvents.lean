/-
# OpenClaw.WorkerEnvironments.LiveEvents -- the receiver of worker live events

A worker numbers its live events; the gateway's receiver publishes them to the agent-event bus in
order, through one window per attached session.  Events ahead of the cursor wait in the window;
duplicates are acknowledged again; gaps beyond the window make the worker resync.  This module follows
`live-events.ts`.

The registry of agent runs (`infra/agent-events.ts`) belongs to the whole process.  The receiver sees
it through six functions, and a call of `emit` runs listeners that may come back to the window; it is
a parameter here, over any state and with any answers.
-/
import OpenClaw.Data.Table

namespace OpenClaw.WorkerEnvironments.LiveEvents

open OpenClaw.Logic OpenClaw.Data

/-! ## Events and windows -/

inductive LiveEventKind where
  | assistant
  | thinking
  | tool
  | approval
  | lifecycle
  deriving DecidableEq

/-- A live event: the lifecycle fields the receiver looks at, and the event's JSON text. -/
structure WorkerLiveEvent where
  kind : LiveEventKind
  phase : String := ""
  aborted : Bool := false
  fallbackExhaustedFailure : Bool := false
  json : String

structure WorkerLiveEventParams where
  runEpoch : Int
  lastAckedSeq : Int
  seq : Int
  runId : String
  event : WorkerLiveEvent

structure PendingLiveEvent where
  request : WorkerLiveEventParams
  sizeBytes : Nat

structure OwnedLiveRun where
  claimId : String
  controlUiVisible : Bool
  lifecycleGeneration : String

structure LiveEventTarget where
  agentId : Option String
  sessionId : String
  sessionKey : String

structure WorkerLiveSessionBinding where
  environmentId : String
  runEpoch : Int
  sessionId : String

structure BoundLiveSession extends WorkerLiveSessionBinding where
  target : LiveEventTarget

/-- The receiver's limits, as the constructor rounds them: at least 1. -/
structure ReceiverLimits where
  windowSize : Nat := 128
  maxPendingBytes : Nat := 512 * 1024
  maxSessions : Nat := 128
  maxActiveRuns : Nat := 32
  windowSize_pos : 1 ≤ windowSize := by decide
  maxPendingBytes_pos : 1 ≤ maxPendingBytes := by decide
  maxSessions_pos : 1 ≤ maxSessions := by decide
  maxActiveRuns_pos : 1 ≤ maxActiveRuns := by decide

/-- A window.  The last three fields are bookkeeping of this model: whether the window was taken out
of `windows`, the cursor it was created with, and the sequence numbers it has emitted. -/
structure LiveEventWindow where
  activeRuns : Table String OwnedLiveRun
  ackedSeq : Int
  credentialHash : String
  environmentId : String
  pending : Table Int PendingLiveEvent
  pendingBytes : Int
  runEpoch : Int
  sessionId : String
  target : LiveEventTarget
  terminalRuns : Table String Int
  cleared : Bool := false
  initialAckedSeq : Int
  published : List Int := []

inductive WorkerLiveEventFailure where
  | invalidEvent
  | capacityExceeded
  | resyncRequired (ackedSeq expectedSeq : Int)
  | sessionNotAttached
  | epochMismatch
  deriving DecidableEq

def resyncRequired (ackedSeq : Int) : WorkerLiveEventFailure := .resyncRequired ackedSeq (ackedSeq + 1)

inductive WorkerLiveEventApplicationResult where
  | ok (ackedSeq : Int)
  | failed (failure : WorkerLiveEventFailure)

def isDefinitiveTerminal (event : WorkerLiveEvent) : Bool :=
  event.kind = .lifecycle &&
    (event.phase = "end" ||
      (event.phase = "error" && (event.aborted || event.fallbackExhaustedFailure)))

/-! ## The run registry -/

inductive OwnerStatus where
  | active
  | clearRequested
  deriving DecidableEq

structure AgentRunContext where
  agentId : Option String
  isControlUiVisible : Option Bool
  lifecycleGeneration : Option String
  sessionId : Option String
  sessionKey : Option String

/-- What a listener of an emitted event may do to the window before `emit` returns. -/
inductive Reentry where
  | clearRequested (runId claimId : String)
  | clear

/-- The process-wide registry of agent runs over a state `ρ`. -/
structure RunRegistry (ρ : Type) where
  ownerStatus : ρ → (runId claimId lifecycleGeneration : String) → Option OwnerStatus
  context : ρ → (runId : String) → Option AgentRunContext
  lifecycleGeneration : ρ → String
  claim : ρ → (runId : String) → AgentRunContext → (adoptExistingUnowned : Bool) → Option String × ρ
  release : ρ → (runId claimId : String) → ρ
  emit : ρ → (runId claimId : String) → WorkerLiveEvent → ρ × List Reentry

/-- The registry's state and one window: what the functions on a window work on. -/
structure Scope (ρ : Type) where
  registry : ρ
  window : LiveEventWindow

section Window

variable {ρ : Type} (reg : RunRegistry ρ) (limits : ReceiverLimits)

/-! ## Releasing runs and clearing windows -/

def releaseRun (s : Scope ρ) (runId : String) : Scope ρ :=
  match s.window.activeRuns.find runId with
  | none => s
  | some owned =>
    { registry := reg.release s.registry runId owned.claimId
      window := { s.window with activeRuns := s.window.activeRuns.deleteKey runId } }

def fenceReleasedRun (s : Scope ρ) (runId : String) : Scope ρ :=
  let terminalRuns :=
    if (s.window.terminalRuns.find runId).isSome then s.window.terminalRuns
    else s.window.terminalRuns.upsert runId s.window.ackedSeq
  releaseRun reg { s with window := { s.window with terminalRuns } } runId

def clearWindow (s : Scope ρ) : Scope ρ :=
  let s := s.window.activeRuns.keys.foldl (releaseRun reg) s
  { s with
    window := { s.window with
      pending := .empty
      pendingBytes := 0
      terminalRuns := .empty
      cleared := true } }

/-- The callback a claim registers with the registry. -/
def onClearRequested (s : Scope ρ) (runId clearedClaimId : String) : Scope ρ :=
  if (s.window.activeRuns.find runId).any (·.claimId = clearedClaimId) then fenceReleasedRun reg s runId
  else s

def reenter (s : Scope ρ) : Reentry → Scope ρ
  | .clearRequested runId claimId => onClearRequested reg s runId claimId
  | .clear => clearWindow reg s

def resyncWindow (s : Scope ρ) : Scope ρ × WorkerLiveEventFailure :=
  ({ s with window := { s.window with pending := .empty, pendingBytes := 0 } },
    resyncRequired s.window.ackedSeq)

/-! ## Claiming a run -/

/-- The loop of `pruneReleasedRuns` over the runs that were active when it started. -/
def pruneReleasedRuns (s : Scope ρ) :
    List (String × OwnedLiveRun) → Scope ρ × Option WorkerLiveEventFailure
  | [] => (s, none)
  | (runId, owned) :: rest =>
    match reg.ownerStatus s.registry runId owned.claimId owned.lifecycleGeneration with
    | none => (clearWindow reg s, some (resyncRequired 0))
    | some .active => pruneReleasedRuns s rest
    | some .clearRequested => pruneReleasedRuns (fenceReleasedRun reg s runId) rest

/-- The loop of `hasReachableBufferedTerminal`: `count` sequence numbers from `seq` on. -/
def reachableBufferedTerminal (window : LiveEventWindow) (admittedRunId : String)
    (countedRunIds : List String) : Nat → Int → Bool
  | 0, _ => false
  | count + 1, seq =>
    match window.pending.find seq with
    | none => false
    | some pending =>
      if pending.request.runId ∈ countedRunIds then
        isDefinitiveTerminal pending.request.event ||
          reachableBufferedTerminal window admittedRunId countedRunIds count (seq + 1)
      else if pending.request.runId ≠ admittedRunId then false
      else reachableBufferedTerminal window admittedRunId countedRunIds count (seq + 1)

def hasReachableBufferedTerminal (window : LiveEventWindow) (admittedRunId : String)
    (countedRunIds : List String) : Bool :=
  reachableBufferedTerminal window admittedRunId countedRunIds (limits.windowSize - 1) (window.ackedSeq + 2)

/-- The context of a run the window already owns is still the one it claimed. -/
def ownsContext (s : Scope ρ) (runId : String) (owned : OwnedLiveRun) : Bool :=
  match reg.context s.registry runId with
  | none => false
  | some context =>
    context.sessionId = some s.window.sessionId &&
      context.sessionKey = some s.window.target.sessionKey &&
      context.agentId = s.window.target.agentId &&
      context.lifecycleGeneration = some owned.lifecycleGeneration &&
      context.isControlUiVisible = some owned.controlUiVisible

/-- The context under which the window claims a new run. -/
def claimedContext (s : Scope ρ) : AgentRunContext where
  agentId := s.window.target.agentId
  isControlUiVisible := some false
  lifecycleGeneration := some (reg.lifecycleGeneration s.registry)
  sessionId := some s.window.sessionId
  sessionKey := some s.window.target.sessionKey

/-- An existing context does not stand in the way of a claim. -/
def compatibleContext (s : Scope ρ) (runId : String) : Bool :=
  match reg.context s.registry runId with
  | none => true
  | some context =>
    context.sessionId = some s.window.sessionId &&
      context.sessionKey = some s.window.target.sessionKey &&
      context.agentId = s.window.target.agentId &&
      context.lifecycleGeneration = some (reg.lifecycleGeneration s.registry) &&
      context.isControlUiVisible = some false

/-- `claimRun` for a run the window does not own yet, once released runs are pruned. -/
def claimNewRun (s : Scope ρ) (runId : String) (allowBufferedTerminalCapacity : Bool) :
    Scope ρ × Except WorkerLiveEventFailure OwnedLiveRun :=
  let countedRunIds := s.window.activeRuns.keys.filter
    fun activeRunId => (s.window.terminalRuns.find activeRunId).isNone
  if countedRunIds.length ≥ limits.maxActiveRuns &&
      !(allowBufferedTerminalCapacity &&
        hasReachableBufferedTerminal limits s.window runId countedRunIds) then
    (s, .error .capacityExceeded)
  else if !compatibleContext reg s runId then (s, .error .invalidEvent)
  else
    match reg.claim s.registry runId (claimedContext reg s) (reg.context s.registry runId).isSome with
    | (none, registry) => ({ s with registry }, .error .invalidEvent)
    | (some claimId, registry) =>
      let claimed : OwnedLiveRun :=
        { claimId
          controlUiVisible := false
          lifecycleGeneration := reg.lifecycleGeneration s.registry }
      ({ registry
         window := { s.window with activeRuns := s.window.activeRuns.upsert runId claimed } },
        .ok claimed)

def claimRun (s : Scope ρ) (runId : String) (allowBufferedTerminalCapacity : Bool) :
    Scope ρ × Except WorkerLiveEventFailure OwnedLiveRun :=
  if (s.window.terminalRuns.find runId).isSome then (s, .error .invalidEvent)
  else
    match s.window.activeRuns.find runId with
    | some owned =>
      match reg.ownerStatus s.registry runId owned.claimId owned.lifecycleGeneration with
      | none => (clearWindow reg s, .error (resyncRequired 0))
      | some status =>
        if status ≠ .active || !ownsContext reg s runId owned then
          (fenceReleasedRun reg s runId, .error .invalidEvent)
        else (s, .ok owned)
    | none =>
      match pruneReleasedRuns reg s s.window.activeRuns.rows with
      | (s, some failure) => (s, .error failure)
      | (s, none) => claimNewRun reg limits s runId allowBufferedTerminalCapacity

/-! ## Publishing and draining -/

/-- `emitAgentEventForOwner`: the event goes to the bus, and its listeners come back to the window. -/
def emitAgentEvent (s : Scope ρ) (request : WorkerLiveEventParams) (claimId : String) : Scope ρ :=
  let (registry, reentries) := reg.emit s.registry request.runId claimId request.event
  reentries.foldl (reenter reg)
    { registry, window := { s.window with published := s.window.published ++ [request.seq] } }

def publish (s : Scope ρ) (request : WorkerLiveEventParams) (allowBufferedTerminalCapacity : Bool) :
    Scope ρ × Option WorkerLiveEventFailure :=
  match claimRun reg limits s request.runId allowBufferedTerminalCapacity with
  | (s, .error failure) => (s, some failure)
  | (s, .ok owned) =>
    let terminalRuns :=
      if isDefinitiveTerminal request.event then s.window.terminalRuns.upsert request.runId request.seq
      else s.window.terminalRuns
    (emitAgentEvent reg { s with window := { s.window with terminalRuns } } request owned.claimId,
      none)

/-- `if (window.pending.delete(seq)) window.pendingBytes -= buffered.sizeBytes` -/
def dropBuffered (window : LiveEventWindow) (seq : Int) : Option PendingLiveEvent → LiveEventWindow
  | none => window
  | some buffered =>
    if (window.pending.find seq).isSome then
      { window with
        pending := window.pending.deleteKey seq
        pendingBytes := window.pendingBytes - buffered.sizeBytes }
    else window

/-- Released terminal runs age out `windowSize` events later. -/
def ageTerminalRuns (window : LiveEventWindow) : LiveEventWindow :=
  { window with
    terminalRuns := window.terminalRuns.rows.foldl (fun terminalRuns (runId, terminalSeq) =>
      if (window.activeRuns.find runId).isNone && terminalSeq ≤ window.ackedSeq - limits.windowSize then
        terminalRuns.deleteKey runId
      else terminalRuns) window.terminalRuns }

/-- The loop of `drain`.  Every round but the first takes its event out of `pending`, so one round
more than `pending` has entries is enough; see `drainLoop_fuel`. -/
def drainLoop : Nat → Scope ρ → WorkerLiveEventParams → Option PendingLiveEvent → Bool →
    Scope ρ × WorkerLiveEventApplicationResult
  | 0, s, _, _, _ => (s, .ok s.window.ackedSeq)
  | fuel + 1, s, request, buffered, publishedPrefix =>
    match publish reg limits s request buffered.isSome with
    | (s, some failure) =>
      if failure = .capacityExceeded && buffered.isSome then (s, .ok s.window.ackedSeq)
      else
        let s := { s with window := dropBuffered s.window request.seq buffered }
        if failure = .capacityExceeded && !publishedPrefix then
          (clearWindow reg s, .failed failure)
        else (s, if publishedPrefix then .ok s.window.ackedSeq else .failed failure)
    | (s, none) =>
      let window := dropBuffered s.window request.seq buffered
      let window := ageTerminalRuns limits { window with ackedSeq := request.seq }
      let s := { s with window }
      match window.pending.find (window.ackedSeq + 1) with
      | none => (s, .ok window.ackedSeq)
      | some next => drainLoop fuel s next.request (some next) true

def drain (s : Scope ρ) (first : WorkerLiveEventParams) (firstPending : Option PendingLiveEvent) :
    Scope ρ × WorkerLiveEventApplicationResult :=
  drainLoop reg limits (s.window.pending.size + 1) s first firstPending false

/-- The part of `apply` that works on the window. -/
def applyToWindow (s : Scope ρ) (request : WorkerLiveEventParams) : Scope ρ × WorkerLiveEventApplicationResult :=
  let window := s.window
  if request.seq > window.ackedSeq + limits.windowSize then
    let (s, failure) := resyncWindow s
    (s, .failed failure)
  else if request.seq = window.ackedSeq + 1 then
    let pending := window.pending.find request.seq
    drain reg limits s ((pending.map (·.request)).getD request) pending
  else if (window.pending.find request.seq).isSome then (s, .ok window.ackedSeq)
  else
    let sizeBytes := request.event.json.utf8ByteSize
    if window.pendingBytes + sizeBytes > limits.maxPendingBytes then
      let (s, failure) := resyncWindow s
      (s, .failed failure)
    else
      ({ s with
         window := { window with
           pending := window.pending.upsert request.seq { request, sizeBytes }
           pendingBytes := window.pendingBytes + sizeBytes } },
        .ok window.ackedSeq)

end Window

/-! ## The receiver -/

/-- Who sends a request, as the connection was admitted. -/
structure WorkerConnectionIdentity where
  environmentId : String
  credentialHash : String
  sessionId : Option String
  ownerEpoch : Int

structure LiveEventReceiver (ρ : Type) where
  registry : ρ
  boundSessions : Table String BoundLiveSession
  sessionBindings : Table String WorkerLiveSessionBinding
  fencedEnvironmentEpochs : Table String Int
  staleSessions : List String
  windows : Table String LiveEventWindow
  startupOwners : Table String Int

section Receiver

variable {ρ : Type} (reg : RunRegistry ρ) (limits : ReceiverLimits)

/-- Put a window back after work on it; a cleared one is gone. -/
def LiveEventReceiver.store (r : LiveEventReceiver ρ) (s : Scope ρ) : LiveEventReceiver ρ :=
  { r with
    registry := s.registry
    windows :=
      if s.window.cleared then r.windows.deleteKey s.window.sessionId
      else r.windows.upsert s.window.sessionId s.window }

/-- A fresh window. -/
def newWindow (sessionId : String) (identity : WorkerConnectionIdentity)
    (request : WorkerLiveEventParams) (target : LiveEventTarget) : LiveEventWindow where
  activeRuns := .empty
  ackedSeq := request.lastAckedSeq
  credentialHash := identity.credentialHash
  environmentId := identity.environmentId
  pending := .empty
  pendingBytes := 0
  runEpoch := request.runEpoch
  sessionId
  target
  terminalRuns := .empty
  initialAckedSeq := request.lastAckedSeq

/-- The first half of `resolveOrCreateWindow`: the receiver with the session's window in it. -/
def resolveWindow (r : LiveEventReceiver ρ) (sessionId : String) (identity : WorkerConnectionIdentity)
    (request : WorkerLiveEventParams) : Except WorkerLiveEventFailure (LiveEventReceiver ρ × LiveEventWindow) :=
  match r.boundSessions.find sessionId with
  | none => .error .sessionNotAttached
  | some binding =>
    if binding.environmentId ≠ identity.environmentId || binding.runEpoch ≠ request.runEpoch then
      .error .epochMismatch
    else if sessionId ∈ r.staleSessions then .error .sessionNotAttached
    else
      match r.windows.find sessionId with
      | some window =>
        if request.runEpoch ≠ window.runEpoch ||
            identity.credentialHash ≠ window.credentialHash ||
            identity.environmentId ≠ window.environmentId then
          .error .epochMismatch
        else .ok (r, window)
      | none =>
        if r.startupOwners.find identity.environmentId ≠ some request.runEpoch &&
            request.lastAckedSeq ≠ 0 then
          .error (resyncRequired 0)
        else if r.windows.size ≥ limits.maxSessions then .error .capacityExceeded
        else
          let window := newWindow sessionId identity request binding.target
          .ok ({ r with
            windows := r.windows.upsert sessionId window
            startupOwners := r.startupOwners.deleteKey identity.environmentId }, window)

def apply (r : LiveEventReceiver ρ) (identity : WorkerConnectionIdentity)
    (request : WorkerLiveEventParams) : LiveEventReceiver ρ × WorkerLiveEventApplicationResult :=
  match identity.sessionId with
  | none => (r, .failed .sessionNotAttached)
  | some sessionId =>
    if sessionId = "" then (r, .failed .sessionNotAttached)
    else if request.runEpoch ≠ identity.ownerEpoch then (r, .failed .epochMismatch)
    else if request.runEpoch ≤ (r.fencedEnvironmentEpochs.find identity.environmentId).getD (-1) then
      (r, .failed .invalidEvent)
    else
      match resolveWindow limits r sessionId identity request with
      | .error failure => (r, .failed failure)
      | .ok (r, window) =>
        let s : Scope ρ := { registry := r.registry, window }
        if request.seq ≤ window.ackedSeq then (r, .ok window.ackedSeq)
        else if request.lastAckedSeq > window.ackedSeq then
          let (s, failure) := resyncWindow s
          (r.store s, .failed failure)
        else
          let (s, result) := applyToWindow reg limits s request
          (r.store s, result)

structure WorkerLiveCredentialRotation where
  credentialHash : String
  environmentId : String
  previousCredentialHash : String
  runEpoch : Int
  sessionId : String

def rotateCredential (r : LiveEventReceiver ρ) (rotation : WorkerLiveCredentialRotation) : LiveEventReceiver ρ :=
  if rotation.credentialHash = "" || rotation.environmentId = "" ||
      rotation.previousCredentialHash = "" || rotation.sessionId = "" || rotation.runEpoch < 0 then r
  else
    match r.windows.find rotation.sessionId with
    | none => r
    | some window =>
      if window.credentialHash = rotation.previousCredentialHash &&
          window.environmentId = rotation.environmentId && window.runEpoch = rotation.runEpoch then
        { r with
          windows := r.windows.upsert rotation.sessionId
            { window with credentialHash := rotation.credentialHash } }
      else r

def isValidLiveSessionBinding (binding : WorkerLiveSessionBinding) : Bool :=
  binding.environmentId ≠ "" && binding.sessionId ≠ "" && 0 ≤ binding.runEpoch

/-- The window of a session whose binding was accepted: cleared under another owner, else given the
new target. -/
def rebindWindow (r : LiveEventReceiver ρ) (binding : WorkerLiveSessionBinding)
    (target : LiveEventTarget) : LiveEventReceiver ρ :=
  match r.windows.find binding.sessionId with
  | none => r
  | some window =>
    if window.environmentId ≠ binding.environmentId || window.runEpoch ≠ binding.runEpoch then
      r.store (clearWindow reg { registry := r.registry, window })
    else { r with windows := r.windows.upsert binding.sessionId { window with target } }

/-- `bindSessionWithConfig`, with the target the session resolved to, if any.  The run contexts it
refreshes live in the registry. -/
def bindSessionWithConfig (r : LiveEventReceiver ρ) (binding : WorkerLiveSessionBinding)
    (target : Option LiveEventTarget) : LiveEventReceiver ρ × Bool :=
  let existing := r.sessionBindings.find binding.sessionId
  if !isValidLiveSessionBinding binding then (r, false)
  else if existing.any fun existing =>
      binding.runEpoch < existing.runEpoch ||
        (binding.runEpoch = existing.runEpoch && binding.environmentId ≠ existing.environmentId) then
    (r, false)
  else
    match target with
    | none =>
      if existing.any fun existing =>
          existing.environmentId = binding.environmentId && existing.runEpoch = binding.runEpoch then
        ({ r with staleSessions := r.staleSessions.insert binding.sessionId }, false)
      else (r, false)
    | some target =>
      let r := rebindWindow reg r binding target
      ({ r with
        sessionBindings := r.sessionBindings.upsert binding.sessionId binding
        boundSessions := r.boundSessions.upsert binding.sessionId { binding with target }
        staleSessions := r.staleSessions.filter (· ≠ binding.sessionId) }, true)

/-- Clear the window of one session, if it has one. -/
def clearSessionWindow (r : LiveEventReceiver ρ) (sessionId : String) : LiveEventReceiver ρ :=
  match r.windows.find sessionId with
  | none => r
  | some window => r.store (clearWindow reg { registry := r.registry, window })

/-- What the session identity listener does for one binding that a mutation matches. -/
def identityMutated (r : LiveEventReceiver ρ) (binding : WorkerLiveSessionBinding)
    (target : Option LiveEventTarget) : LiveEventReceiver ρ :=
  match bindSessionWithConfig reg r binding target with
  | (r, true) => r
  | (r, false) =>
    clearSessionWindow reg { r with startupOwners := r.startupOwners.deleteKey binding.environmentId } binding.sessionId

attribute [grind =] identityMutated

def maxFencedEnvironments : Nat := 4096

/-- The part of `clearEnvironment` that clears the environment's windows and raises the fence. -/
def clearEnvironmentWindows (environmentId : String) (r : LiveEventReceiver ρ) (fencedEpoch : Int) :
    LiveEventReceiver ρ × Int :=
  r.windows.rows.foldl (fun (r, fencedEpoch) (sessionId, window) =>
    if window.environmentId = environmentId then
      (clearSessionWindow reg r sessionId, max fencedEpoch window.runEpoch)
    else (r, fencedEpoch)) (r, fencedEpoch)

def clearEnvironment (r : LiveEventReceiver ρ) (environmentId : String) : LiveEventReceiver ρ :=
  let bindings := r.sessionBindings.rows.filter (·.2.environmentId = environmentId)
  let fencedEpoch := bindings.foldl (fun epoch (_, binding) => max epoch binding.runEpoch)
    ((r.fencedEnvironmentEpochs.find environmentId).getD (-1))
  let r := { r with
    startupOwners := r.startupOwners.deleteKey environmentId
    sessionBindings := bindings.foldl (fun t b => t.deleteKey b.1) r.sessionBindings
    boundSessions := bindings.foldl (fun t b => t.deleteKey b.1) r.boundSessions
    staleSessions := r.staleSessions.filter fun sessionId => ¬∃ b ∈ bindings, b.1 = sessionId }
  let (r, fencedEpoch) := clearEnvironmentWindows reg environmentId r fencedEpoch
  if fencedEpoch < 0 then r
  else
    let fenced := (r.fencedEnvironmentEpochs.deleteKey environmentId).upsert environmentId fencedEpoch
    { r with
      fencedEnvironmentEpochs :=
        match fenced.keys with
        | oldest :: _ => if fenced.size > maxFencedEnvironments then fenced.deleteKey oldest else fenced
        | [] => fenced }

def clear (r : LiveEventReceiver ρ) : LiveEventReceiver ρ :=
  { r.windows.keys.foldl (clearSessionWindow reg) r with
    boundSessions := .empty
    sessionBindings := .empty
    fencedEnvironmentEpochs := .empty
    staleSessions := []
    startupOwners := .empty }

/-- The registry calls back for a run that a window owns. -/
def clearRequestedFor (r : LiveEventReceiver ρ) (sessionId runId claimId : String) : LiveEventReceiver ρ :=
  match r.windows.find sessionId with
  | none => r
  | some window => r.store (onClearRequested reg { registry := r.registry, window } runId claimId)

/-- What can happen to the receiver.  `registryChange` is anything the rest of the process does to the
run registry between two calls. -/
inductive ReceiverEvent (ρ : Type) where
  | apply (identity : WorkerConnectionIdentity) (request : WorkerLiveEventParams)
  | rotateCredential (rotation : WorkerLiveCredentialRotation)
  | bindSession (binding : WorkerLiveSessionBinding) (target : Option LiveEventTarget)
  | identityMutated (binding : WorkerLiveSessionBinding) (target : Option LiveEventTarget)
  | clearEnvironment (environmentId : String)
  | clear
  | clearRequested (sessionId runId claimId : String)
  | registryChange (change : ρ → ρ)

def stepReceiver (r : LiveEventReceiver ρ) : ReceiverEvent ρ → LiveEventReceiver ρ
  | .apply identity request => (apply reg limits r identity request).1
  | .rotateCredential rotation => rotateCredential r rotation
  | .bindSession binding target => (bindSessionWithConfig reg r binding target).1
  | .identityMutated binding target => identityMutated reg r binding target
  | .clearEnvironment environmentId => clearEnvironment reg r environmentId
  | .clear => clear reg r
  | .clearRequested sessionId runId claimId => clearRequestedFor reg r sessionId runId claimId
  | .registryChange change => { r with registry := change r.registry }

/-- A receiver that has just been created: no windows yet, any bindings and owners. -/
def initialReceiver (registry : ρ) (boundSessions : Table String BoundLiveSession)
    (sessionBindings : Table String WorkerLiveSessionBinding) (staleSessions : List String)
    (startupOwners : Table String Int) : LiveEventReceiver ρ where
  registry
  boundSessions
  sessionBindings
  fencedEnvironmentEpochs := .empty
  staleSessions
  windows := .empty
  startupOwners

end Receiver

end OpenClaw.WorkerEnvironments.LiveEvents
