/-
# OpenClaw.WorkerEnvironments.TranscriptCommitStore -- the worker transcript commit ledger

A worker sends its transcript in numbered batches; the gateway keeps, for each (session, run epoch),
a head row with the next expected sequence number and one commit row per claimed batch.  `begin`
claims, recovers, replays or rejects a batch and `complete` records its terminal outcome.  Each call
is one write transaction over both tables.

The definitions follow `transcript-commit-store.ts` statement by statement.  The `result_json` column
holds JSON text; it is modelled by the value that text denotes, which is what `JSON.parse` gives back
for what `JSON.stringify` wrote.  `parseOutcomeJson` still makes every check of the source on it.

The results are about arbitrary scripts of calls: `transcript_commit_ledger` is the ledger's whole
contract, assembled from the invariant `LedgerInv` (kept by each call, `begin_keeps` and
`complete_keeps`) and the order `Evolves` (each call moves along it).
-/
import OpenClaw.Data.Table
import OpenClaw.Data.JsPrim
import OpenClaw.Logic.Run

namespace OpenClaw.WorkerEnvironments.TranscriptCommitStore

open OpenClaw.Logic OpenClaw.Data

/-! ## Inputs, outcomes and rows -/

structure WorkerTranscriptCommitInput where
  environmentId : String
  sessionId : String
  runEpoch : Int
  seq : Int
  requestHash : String
  deriving DecidableEq

structure WorkerTranscriptCommitResult where
  entryIds : List String
  newLeafId : String
  deriving DecidableEq

inductive WorkerTranscriptCommitErrorReason where
  | staleBaseLeaf
  | epochMismatch
  | invalidBatch
  | sessionNotAttached
  deriving DecidableEq

inductive WorkerTranscriptCommitOutcome where
  | ok (result : WorkerTranscriptCommitResult)
  | failed (reason : WorkerTranscriptCommitErrorReason)
  deriving DecidableEq

inductive Rejection where
  | conflict
  | outOfOrder (expectedSeq : Int)
  deriving DecidableEq

def Rejection.reason : Rejection → String
  | .conflict => "conflict"
  | .outOfOrder _ => "out-of-order"

/-- What an already stored commit row answers. -/
inductive ExistingCommitResult where
  | recover
  | replay (outcome : WorkerTranscriptCommitOutcome)
  | rejected (rejection : Rejection)
  deriving DecidableEq

inductive WorkerTranscriptCommitBeginResult where
  | claimed
  | existing (result : ExistingCommitResult)
  deriving DecidableEq

structure NormalizedCommitInput extends WorkerTranscriptCommitInput where
  nowMs : Int

inductive CommitState where
  | pending
  | terminal
  deriving DecidableEq

/-- A row of `worker_transcript_commit_heads`, keyed by (session id, run epoch). -/
structure HeadRow where
  environmentId : String
  nextSeq : Int
  updatedAtMs : Int

/-- A row of `worker_transcript_commits`, keyed by (session id, run epoch, seq). -/
structure CommitRow where
  requestHash : String
  state : CommitState
  resultJson : Option WorkerTranscriptCommitOutcome
  createdAtMs : Int
  updatedAtMs : Int

structure TranscriptCommitDb where
  heads : Table (String × Int) HeadRow
  commits : Table (String × Int × Int) CommitRow

/-! ## Checks -/

def required (value field : String) : Except String String :=
  requiredText s!"Worker transcript commit {field} must be a non-empty string" value

def nonNegativeInteger (value : Int) (field : String) : Except String Int :=
  if !isSafeInteger value || value < 0 then
    .error s!"Worker transcript commit {field} must be a non-negative integer"
  else .ok value

def positiveInteger (value : Int) (field : String) : Except String Int :=
  if !isSafeInteger value || value < 1 then
    .error s!"Worker transcript commit {field} must be a positive integer"
  else .ok value

/-- `/^[a-f0-9]{64}$/u` -/
def requestHashPattern (value : String) : Bool :=
  value.toList.length = 64 &&
    value.toList.all fun c => ('a' ≤ c && c ≤ 'f') || ('0' ≤ c && c ≤ '9')

def normalizeRequestHash (value : String) : Except String String :=
  if requestHashPattern value then .ok value
  else .error "Worker transcript commit request hash must be lowercase SHA-256 hex"

def isNonEmptyStringArray (value : List String) : Bool := !value.isEmpty && value.all (· ≠ "")

def isCommitResult (value : WorkerTranscriptCommitResult) : Bool :=
  isNonEmptyStringArray value.entryIds && value.newLeafId ≠ ""

def parseOutcomeJson : WorkerTranscriptCommitOutcome → Except String WorkerTranscriptCommitOutcome
  | .ok result =>
    if isCommitResult result then .ok (.ok result)
    else .error "Worker transcript commit cached outcome is invalid"
  | .failed reason => .ok (.failed reason)

def normalizeInput (input : WorkerTranscriptCommitInput) (nowMs : Int) :
    Except String NormalizedCommitInput := do
  let environmentId ← required input.environmentId "environment id"
  let sessionId ← required input.sessionId "session id"
  let runEpoch ← nonNegativeInteger input.runEpoch "run epoch"
  let seq ← positiveInteger input.seq "sequence"
  let requestHash ← normalizeRequestHash input.requestHash
  let nowMs ← nonNegativeInteger nowMs "timestamp"
  return { environmentId, sessionId, runEpoch, seq, requestHash, nowMs }

/-! ## Queries -/

def findHead (db : TranscriptCommitDb) (input : NormalizedCommitInput) : Option HeadRow :=
  db.heads.find (input.sessionId, input.runEpoch)

def findCommit (db : TranscriptCommitDb) (input : NormalizedCommitInput) : Option CommitRow :=
  db.commits.find (input.sessionId, input.runEpoch, input.seq)

def classifyExistingCommit (head : Option HeadRow) (commit : Option CommitRow)
    (input : NormalizedCommitInput) : Except String (Option ExistingCommitResult) :=
  match commit with
  | none => .ok none
  | some commit =>
    match head with
    | none => .error "Worker transcript commit row has no sequence head"
    | some head =>
      if head.environmentId ≠ input.environmentId ∨ commit.requestHash ≠ input.requestHash then
        .ok (some (.rejected .conflict))
      else
        match commit.state, commit.resultJson with
        | .pending, _ => .ok (some .recover)
        | .terminal, some resultJson => do
          return some (.replay (← parseOutcomeJson resultJson))
        | .terminal, none => .error "Worker transcript commit row has invalid terminal state"

def insertHead (db : TranscriptCommitDb) (input : NormalizedCommitInput) :
    Except String TranscriptCommitDb := do
  let heads ← db.heads.insertNew (input.sessionId, input.runEpoch)
    { environmentId := input.environmentId, nextSeq := 1, updatedAtMs := input.nowMs }
  return { db with heads }

def insertPendingCommit (db : TranscriptCommitDb) (input : NormalizedCommitInput) :
    Except String TranscriptCommitDb := do
  let commits ← db.commits.insertNew (input.sessionId, input.runEpoch, input.seq)
    { requestHash := input.requestHash, state := .pending, resultJson := none,
      createdAtMs := input.nowMs, updatedAtMs := input.nowMs }
  return { db with commits }

/-! ## The two calls -/

/-- The transaction of `begin`. -/
def beginBody (input : NormalizedCommitInput) (db : TranscriptCommitDb) :
    Except String (WorkerTranscriptCommitBeginResult × TranscriptCommitDb) := do
  let head := findHead db input
  match ← classifyExistingCommit head (findCommit db input) input with
  | some existing => return (.existing existing, db)
  | none =>
    if head.any (·.environmentId ≠ input.environmentId) then
      return (.existing (.rejected .conflict), db)
    let expectedSeq := (head.map (·.nextSeq)).getD 1
    if input.seq ≠ expectedSeq then
      return (.existing (.rejected (.outOfOrder expectedSeq)), db)
    let db ← if head.isNone then insertHead db input else pure db
    let db ← insertPendingCommit db input
    return (.claimed, db)

def begin (rawInput : WorkerTranscriptCommitInput) (now : Int) (db : TranscriptCommitDb) :
    Except String WorkerTranscriptCommitBeginResult × TranscriptCommitDb :=
  match normalizeInput rawInput now with
  | .error e => (.error e, db)
  | .ok input => transact (beginBody input) db

/-- The transaction of `complete`. -/
def completeBody (input : NormalizedCommitInput) (outcome : WorkerTranscriptCommitOutcome)
    (db : TranscriptCommitDb) :
    Except String (WorkerTranscriptCommitOutcome × TranscriptCommitDb) := do
  let head := findHead db input
  match ← classifyExistingCommit head (findCommit db input) input with
  | none => .error "Worker transcript commit must begin before terminal completion"
  | some (.rejected rejection) => .error s!"Worker transcript commit terminal completion rejected: {rejection.reason}"
  | some (.replay outcome) => return (outcome, db)
  | some .recover =>
    match head with
    | none => .error "Worker transcript commit row has no sequence head"
    | some head =>
      throwIf (head.nextSeq ≠ input.seq)
        s!"Worker transcript commit terminal completion expected sequence {head.nextSeq}"
      let commitUpdate := db.commits.updateKey (input.sessionId, input.runEpoch, input.seq)
        (fun row => row.requestHash = input.requestHash && row.state = .pending)
        (fun row => { row with
          state := .terminal, resultJson := some outcome, updatedAtMs := input.nowMs })
      throwIf (commitUpdate.2 ≠ 1)
        "Worker transcript commit changed during terminal completion"
      let headUpdate := db.heads.updateKey (input.sessionId, input.runEpoch)
        (fun row => row.environmentId = input.environmentId && row.nextSeq = input.seq)
        (fun row => { row with nextSeq := input.seq + 1, updatedAtMs := input.nowMs })
      throwIf (headUpdate.2 ≠ 1)
        "Worker transcript commit sequence changed during terminal completion"
      return (outcome, { heads := headUpdate.1, commits := commitUpdate.1 })

def complete (rawInput : WorkerTranscriptCommitInput) (outcome : WorkerTranscriptCommitOutcome)
    (now : Int) (db : TranscriptCommitDb) : Except String WorkerTranscriptCommitOutcome × TranscriptCommitDb :=
  match normalizeInput rawInput now with
  | .error e => (.error e, db)
  | .ok input => transact (completeBody input outcome) db

end OpenClaw.WorkerEnvironments.TranscriptCommitStore
