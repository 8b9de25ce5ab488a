/-
# OpenClaw.WorkerEnvironments.InferenceStore -- the ledger of worker inference turns

A worker asks for one model turn at a time.  The gateway keeps a row per turn: pending while the turn
runs, then terminal with its outcome, which answers retries.  Terminal rows are pruned by age, number and
size.  Each call is one write transaction over the table.

This follows `inference-store.ts` statement by statement.  The schema of outcomes is a parameter.  The
unique index on the pending turn of a run never fires: `begin` looks for a pending turn first.
-/
import OpenClaw.Data.JsPrim
import OpenClaw.Data.JsStrings
import OpenClaw.Data.Table

namespace OpenClaw.WorkerEnvironments.InferenceStore

open OpenClaw.Logic OpenClaw.Data

/-! ## Turns -/

/-- The primary key of a row. -/
structure TurnIdentity where
  sessionId : String
  runEpoch : Int
  runId : String
  turnId : String
  deriving DecidableEq

structure WorkerInferenceTurnInput extends TurnIdentity where
  environmentId : String
  requestHash : String

structure NormalizedTurnInput extends WorkerInferenceTurnInput where
  nowMs : Int

inductive TurnState where
  | pending
  | terminal
  deriving DecidableEq

/-- The columns of `worker_inference_turns` besides the key. -/
structure TurnRow where
  environmentId : String
  requestHash : String
  state : TurnState
  terminalJson : Option String
  createdAtMs : Int
  updatedAtMs : Int
  deriving DecidableEq

abbrev Turns := Table TurnIdentity TurnRow

/-- Outcomes, with what validates, writes and reads them. -/
structure OutcomeCodec (Ω : Type) where
  validate : Ω → Bool
  stringify : Ω → String
  /-- A text that is no JSON of an outcome gives none. -/
  parse : String → Option Ω

structure RetentionPolicy where
  maxAgeMs : Nat
  maxRows : Nat
  maxBytes : Nat

inductive ExistingTurnResult (Ω : Type) where
  | recover
  | replay (outcome : Ω)
  | conflict
  deriving DecidableEq

inductive TurnBeginResult (Ω : Type) where
  | claimed
  | existing (result : ExistingTurnResult Ω)
  deriving DecidableEq

/-! ## Checks -/

def required (value field : String) : Except String String :=
  requiredText s!"Worker inference turn {field} must be a non-empty string" value

def nonNegativeInteger (value : Int) (field : String) : Except String Int :=
  if !isSafeInteger value || value < 0 then
    .error s!"Worker inference turn {field} must be a non-negative integer"
  else .ok value

/-- `/^[a-f0-9]{64}$/u` -/
def requestHashPattern (value : String) : Bool :=
  value.toList.length = 64 && value.toList.all fun c => ('a' ≤ c && c ≤ 'f') || ('0' ≤ c && c ≤ '9')

def normalizeRequestHash (value : String) : Except String String :=
  if requestHashPattern value then .ok value
  else .error "Worker inference turn request hash must be lowercase SHA-256 hex"

def normalizeIdentity (identity : TurnIdentity) : Except String TurnIdentity := do
  let sessionId ← required identity.sessionId "session id"
  let runEpoch ← nonNegativeInteger identity.runEpoch "run epoch"
  let runId ← required identity.runId "run id"
  let turnId ← required identity.turnId "turn id"
  return ⟨sessionId, runEpoch, runId, turnId⟩

def normalizeInput (input : WorkerInferenceTurnInput) (nowMs : Int) : Except String NormalizedTurnInput := do
  let environmentId ← required input.environmentId "environment id"
  let identity ← normalizeIdentity input.toTurnIdentity
  let requestHash ← normalizeRequestHash input.requestHash
  let nowMs ← nonNegativeInteger nowMs "timestamp"
  return { identity with environmentId, requestHash, nowMs }

section Outcomes

variable {Ω : Type} (codec : OutcomeCodec Ω)

def parseTerminalJson (value : String) : Except String Ω :=
  match codec.parse value with
  | none => .error "Worker inference cached terminal outcome is invalid"
  | some outcome => .ok outcome

def serializeTerminalOutcome (outcome : Ω) : Except String String :=
  if !codec.validate outcome then .error "Worker inference terminal outcome is invalid"
  else if codec.stringify outcome = "" then .error "Worker inference terminal outcome is not serializable"
  else .ok (codec.stringify outcome)

def classifyExistingTurn (row : Option TurnRow) (input : NormalizedTurnInput) :
    Except String (Option (ExistingTurnResult Ω)) :=
  match row with
  | none => .ok none
  | some row =>
    if row.environmentId ≠ input.environmentId ∨ row.requestHash ≠ input.requestHash then
      .ok (some .conflict)
    else
      match row.state, row.terminalJson with
      | .pending, none => .ok (some .recover)
      | .terminal, some terminalJson => do
        return some (.replay (← parseTerminalJson codec terminalJson))
      | _, _ => .error "Worker inference turn row has invalid terminal state"

end Outcomes

/-! ## Queries -/

def TurnIdentity.sameRun (left right : TurnIdentity) : Bool :=
  left.sessionId = right.sessionId && left.runEpoch = right.runEpoch && left.runId = right.runId

def findPendingTurn (turns : Turns) (input : NormalizedTurnInput) : Option (TurnIdentity × TurnRow) :=
  turns.rows.find? fun (key, row) => key.sameRun input.toTurnIdentity && row.state = .pending

/-- The insertion; it fails on a taken key, and on an environment without a row. -/
def insertPendingTurn (turns : Turns) (input : NormalizedTurnInput) (environmentExists : Bool) : Except String Turns :=
  if !environmentExists then .error "FOREIGN KEY constraint failed"
  else
    turns.insertNew input.toTurnIdentity
      { environmentId := input.environmentId, requestHash := input.requestHash, state := .pending,
        terminalJson := none, createdAtMs := input.nowMs, updatedAtMs := input.nowMs }

def deleteTurn (turns : Turns) (key : TurnIdentity) : Turns :=
  if (turns.find key).any (·.state = .terminal) then turns.deleteKey key else turns

/-! ## Pruning -/

/-- `Buffer.byteLength(row.terminal_json ?? "", "utf8")` -/
def TurnRow.terminalBytes (row : TurnRow) : Nat := (row.terminalJson.getD "").utf8ByteSize

/-- The order of the query: the newest rows first. -/
def newerFirst (left right : TurnIdentity × TurnRow) : Bool :=
  if left.2.updatedAtMs ≠ right.2.updatedAtMs then right.2.updatedAtMs < left.2.updatedAtMs
  else if left.1.sessionId ≠ right.1.sessionId then left.1.sessionId < right.1.sessionId
  else if left.1.runEpoch ≠ right.1.runEpoch then right.1.runEpoch < left.1.runEpoch
  else if left.1.runId ≠ right.1.runId then left.1.runId < right.1.runId
  else left.1.turnId < right.1.turnId

def terminalRows (turns : Turns) : List (TurnIdentity × TurnRow) :=
  turns.rows.filter fun (_, row) => row.state = .terminal

/-- The terminal rows in the order in which pruning looks at them: the preserved one comes first. -/
def pruningOrder (turns : Turns) (preserve : Option TurnIdentity) : List (TurnIdentity × TurnRow) :=
  toSorted (fun left right => preserve = some left.1 && preserve ≠ some right.1)
    (toSorted newerFirst (terminalRows turns))

/-- The loop of `pruneTerminalTurns`. -/
def pruneLoop (policy : RetentionPolicy) (cutoffMs : Int) (preserve : Option TurnIdentity) :
    List (TurnIdentity × TurnRow) → Turns → Nat → Nat → Turns
  | [], turns, _, _ => turns
  | (key, row) :: rest, turns, retainedRows, retainedBytes =>
    let expired := row.updatedAtMs < cutoffMs
    let exceedsRows := policy.maxRows ≤ retainedRows
    let exceedsBytes := 0 < retainedRows ∧ policy.maxBytes < retainedBytes + row.terminalBytes
    if preserve ≠ some key ∧ (expired ∨ exceedsRows ∨ exceedsBytes) then
      -- Expired identities leave the bounded replay window.
      pruneLoop policy cutoffMs preserve rest (deleteTurn turns key) retainedRows retainedBytes
    else
      pruneLoop policy cutoffMs preserve rest turns (retainedRows + 1) (retainedBytes + row.terminalBytes)

def pruneTerminalTurns (policy : RetentionPolicy) (nowMs : Int) (preserve : Option TurnIdentity)
    (turns : Turns) : Turns :=
  pruneLoop policy (max 0 (nowMs - policy.maxAgeMs)) preserve (pruningOrder turns preserve) turns 0 0

/-! ## The calls -/

section Calls

variable {Ω : Type} (codec : OutcomeCodec Ω) (policy : RetentionPolicy)

/-- The transaction of `begin`. -/
def beginBody (input : NormalizedTurnInput) (environmentExists : Bool) (turns : Turns) :
    Except String (TurnBeginResult Ω × Turns) := do
  let turns := pruneTerminalTurns policy input.nowMs none turns
  match ← classifyExistingTurn codec (turns.find input.toTurnIdentity) input with
  | some existing => return (.existing existing, turns)
  | none =>
    if (findPendingTurn turns input).isSome then return (.existing .conflict, turns)
    else
      let turns ← insertPendingTurn turns input environmentExists
      return (.claimed, turns)

def begin (rawInput : WorkerInferenceTurnInput) (environmentExists : Bool) (now : Int) (turns : Turns) :
    Except String (TurnBeginResult Ω) × Turns :=
  match normalizeInput rawInput now with
  | .error e => (.error e, turns)
  | .ok input => transact (beginBody codec policy input environmentExists) turns

attribute [grind =] begin

/-- What the row of a turn becomes when it ends. -/
def TurnRow.ended (terminalJson : String) (nowMs : Int) (row : TurnRow) : TurnRow :=
  { row with state := .terminal, terminalJson := some terminalJson, updatedAtMs := nowMs }

/-- The transaction of `complete`. -/
def completeBody (input : NormalizedTurnInput) (outcome : Ω) (terminalJson : String) (turns : Turns) :
    Except String (Ω × Turns) := do
  match ← classifyExistingTurn codec (turns.find input.toTurnIdentity) input with
  | none => .error "Worker inference turn must begin before terminal completion"
  | some .conflict => .error "Worker inference terminal completion rejected: conflict"
  | some (.replay outcome) => return (outcome, turns)
  | some .recover =>
    let turns ← turns.updateOne input.toTurnIdentity
      (fun row => row.environmentId = input.environmentId && row.requestHash = input.requestHash &&
        row.state = .pending)
      (TurnRow.ended terminalJson input.nowMs) "Worker inference turn changed during terminal completion"
    return (outcome, pruneTerminalTurns policy input.nowMs (some input.toTurnIdentity) turns)

def complete (rawInput : WorkerInferenceTurnInput) (outcome : Ω) (now : Int) (turns : Turns) :
    Except String Ω × Turns :=
  match normalizeInput rawInput now, serializeTerminalOutcome codec outcome with
  | .error e, _ => (.error e, turns)
  | .ok _, .error e => (.error e, turns)
  | .ok input, .ok terminalJson => transact (completeBody codec policy input outcome terminalJson) turns

attribute [grind =] complete

/-- The writes of `cancelPending`. -/
def cancelWrites (environmentId : String) (identity : TurnIdentity) (terminalJson : String) (nowMs : Int)
    (turns : Turns) : Turns :=
  pruneTerminalTurns policy nowMs (some identity)
    (turns.updateKey identity (fun row => row.environmentId = environmentId && row.state = .pending)
      (TurnRow.ended terminalJson nowMs)).1

def cancelPending (environmentId : String) (identity : TurnIdentity) (outcome : Ω) (now : Int)
    (turns : Turns) : Except String Unit × Turns :=
  let checked := do
    let nowMs ← nonNegativeInteger now "timestamp"
    let terminalJson ← serializeTerminalOutcome codec outcome
    let environmentId ← required environmentId "environment id"
    let identity ← normalizeIdentity identity
    return (environmentId, identity, terminalJson, nowMs)
  match checked with
  | .error e => (.error e, turns)
  | .ok (environmentId, identity, terminalJson, nowMs) =>
    (.ok (), cancelWrites policy environmentId identity terminalJson nowMs turns)

attribute [grind =] cancelPending

/-- The writes of `recoverPending`. -/
def recoverWrites (terminalJson : String) (nowMs : Int) (turns : Turns) : Turns :=
  pruneTerminalTurns policy nowMs none
    (turns.updateWhere (fun row => row.state = .pending) (TurnRow.ended terminalJson nowMs)).1

def recoverPending (outcome : Ω) (now : Int) (turns : Turns) : Except String Unit × Turns :=
  let checked := do
    let nowMs ← nonNegativeInteger now "timestamp"
    let terminalJson ← serializeTerminalOutcome codec outcome
    return (terminalJson, nowMs)
  match checked with
  | .error e => (.error e, turns)
  | .ok (terminalJson, nowMs) => (.ok (), recoverWrites policy terminalJson nowMs turns)

attribute [grind =] recoverPending

/-- A call of the store, with the clock as it reads it. -/
inductive InferenceCall (Ω : Type) where
  | begin (input : WorkerInferenceTurnInput) (environmentExists : Bool) (now : Int)
  | complete (input : WorkerInferenceTurnInput) (outcome : Ω) (now : Int)
  | cancelPending (environmentId : String) (identity : TurnIdentity) (outcome : Ω) (now : Int)
  | recoverPending (outcome : Ω) (now : Int)

/-- The table after a call. -/
def inferenceStep (turns : Turns) : InferenceCall Ω → Turns
  | .begin input environmentExists now => (begin codec policy input environmentExists now turns).2
  | .complete input outcome now => (complete codec policy input outcome now turns).2
  | .cancelPending environmentId identity outcome now =>
    (cancelPending codec policy environmentId identity outcome now turns).2
  | .recoverPending outcome now => (recoverPending codec policy outcome now turns).2

end Calls

end OpenClaw.WorkerEnvironments.InferenceStore
