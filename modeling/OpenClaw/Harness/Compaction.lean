/-
# OpenClaw.Harness.Compaction -- what a compaction gives away and what it keeps

A compaction cuts a session path: what is before the cut is summarised, what is behind it stays.  The
cut is searched from the end of the path, backed up over entries that carry no message, and may split a
turn, whose beginning then gets a summary of its own.  This module follows `compaction/compaction.ts`.
The instructions around a prompt and the list of touched files are given as `CompactionTexts`, the model
that answers a prompt is any function.
-/
import Mathlib.Data.List.DropRight
import Mathlib.Data.List.Nodup
import OpenClaw.Harness.SessionContext
import OpenClaw.Logic.Fallible

namespace OpenClaw.Harness

open OpenClaw.Data OpenClaw.Logic

/-! ## The cut point -/

def isCutPoint : SessionTreeEntry → Bool
  | .message _ (.toolResult _ _) => false
  | .message _ _ => true
  | .branchSummary _ _ _ => true
  | .customMessage _ _ _ => true
  | _ => false

def findValidCutPoints (entries : List SessionTreeEntry) (startIndex endIndex : Nat) : List Nat :=
  (List.range' startIndex (endIndex - startIndex)).filter fun i => entries[i]?.any isCutPoint

def startsTurn : SessionTreeEntry → Bool
  | .branchSummary _ _ _ => true
  | .customMessage _ _ _ => true
  | .message _ (.user _) => true
  | .message _ (.bashExecution _) => true
  | _ => false

/-- The last entry in `[startIndex, entryIndex]` that starts a turn. -/
def findTurnStartIndex (entries : List SessionTreeEntry) (entryIndex startIndex : Nat) : Option Nat :=
  ((List.range' startIndex (entryIndex + 1 - startIndex)).filter fun i =>
    entries[i]?.any startsTurn).getLast?

structure CutPointResult where
  firstKeptEntryIndex : Nat
  /-- Where the turn starts that the cut splits, if it splits one. -/
  splitTurnStart : Option Nat

def messageTokens : SessionTreeEntry → Nat
  | .message _ message => estimateTokens message
  | _ => 0

/-- The message at which the budget is used up: `remaining` entries are still to be seen, from the last
of them on. -/
def budgetIndex (entries : List SessionTreeEntry) (startIndex : Nat) (keepRecentTokens : Int) :
    Nat → Nat → Option Nat
  | 0, _ => none
  | remaining + 1, accumulatedTokens =>
    let i := startIndex + remaining
    if entries[i]?.any (·.isMessage) then
      let accumulated := accumulatedTokens + (entries[i]?.elim 0 messageTokens)
      if keepRecentTokens ≤ accumulated then some i
      else budgetIndex entries startIndex keepRecentTokens remaining accumulated
    else budgetIndex entries startIndex keepRecentTokens remaining accumulatedTokens

attribute [grind =] budgetIndex

/-- The cut is moved in front of entries that carry no message of the conversation. -/
def backUp (entries : List SessionTreeEntry) (startIndex : Nat) : Nat → Nat
  | 0 => 0
  | previous + 1 =>
    if startIndex < previous + 1 then
      match entries[previous]? with
      | none => previous + 1
      | some entry =>
        if entry.isCompaction || entry.isMessage then previous + 1
        else backUp entries startIndex previous
    else previous + 1

def isUserMessage : SessionTreeEntry → Bool
  | .message _ (.user _) => true
  | _ => false

/-- The cut point before the backing up. -/
def chooseCut (entries : List SessionTreeEntry) (startIndex endIndex : Nat) (keepRecentTokens : Int)
    (first : Nat) (rest : List Nat) : Nat :=
  match budgetIndex entries startIndex keepRecentTokens (endIndex - startIndex) 0 with
  | none => first
  | some i => ((first :: rest).find? (i ≤ ·)).getD ((first :: rest).getLast (by simp))

def findCutPoint (entries : List SessionTreeEntry) (startIndex endIndex : Nat) (keepRecentTokens : Int) :
    CutPointResult :=
  match findValidCutPoints entries startIndex endIndex with
  | [] => { firstKeptEntryIndex := startIndex, splitTurnStart := none }
  | first :: rest =>
    let cutIndex := backUp entries startIndex
      (chooseCut entries startIndex endIndex keepRecentTokens first rest)
    { firstKeptEntryIndex := cutIndex
      splitTurnStart :=
        if entries[cutIndex]?.any isUserMessage then none
        else findTurnStartIndex entries cutIndex startIndex }

/-! ## Preparing -/

/-- `getMessageFromEntryForCompaction` -/
def entryMessage : SessionTreeEntry → Option AgentMessage
  | .message _ message => some message
  | .customMessage _ customType content => some (.custom customType content)
  | .branchSummary _ summary fromId => some (.branchSummary summary fromId)
  | _ => none

/-- The entries in `[lo, hi)`. -/
def slice (entries : List SessionTreeEntry) (lo hi : Nat) : List SessionTreeEntry := (entries.drop lo).take (hi - lo)

inductive CompactionErrorCode where
  | invalidSession
  | aborted
  | summarizationFailed
  deriving DecidableEq

structure CompactionError where
  code : CompactionErrorCode
  message : Text

structure CompactionPreparation where
  firstKeptEntryId : Text
  messagesToSummarize : List AgentMessage
  turnPrefixMessages : List AgentMessage
  isSplitTurn : Bool
  tokensBefore : Nat
  previousSummary : Option Text

def prevCompactionIndex (pathEntries : List SessionTreeEntry) : Nat :=
  pathEntries.length - 1 - pathEntries.reverse.findIdx (·.isCompaction)

def previousSummary (pathEntries : List SessionTreeEntry) : Option Text :=
  match lastCompaction pathEntries with
  | some (.compaction _ summary _ _) => some summary
  | _ => none

/-- Where the history begins that no compaction has summarised. -/
def boundaryStart (pathEntries : List SessionTreeEntry) : Nat :=
  match lastCompaction pathEntries with
  | some (.compaction _ _ firstKeptEntryId _) =>
    let firstKeptEntryIndex := pathEntries.findIdx (·.id = firstKeptEntryId)
    if firstKeptEntryIndex < pathEntries.length then firstKeptEntryIndex
    else prevCompactionIndex pathEntries + 1
  | _ => 0

def cutPointOf (pathEntries : List SessionTreeEntry) (keepRecentTokens : Int) : CutPointResult :=
  findCutPoint pathEntries (boundaryStart pathEntries) pathEntries.length keepRecentTokens

/-- `contextTokens` is the estimate for a list of messages. -/
def prepareCompaction (contextTokens : List AgentMessage → Nat) (pathEntries : List SessionTreeEntry)
    (keepRecentTokens : Int) : Except CompactionError (Option CompactionPreparation) :=
  if pathEntries.getLast?.any (·.isCompaction) ∨ pathEntries = [] then .ok none
  else
    let start := boundaryStart pathEntries
    let cutPoint := cutPointOf pathEntries keepRecentTokens
    let cut := cutPoint.firstKeptEntryIndex
    let firstKeptEntryId := pathEntries[cut]?.elim [] (·.id)
    if firstKeptEntryId = [] then
      .error { code := .invalidSession
               message := "First kept entry has no UUID - session may need migration".toList }
    else
      .ok (some {
        firstKeptEntryId
        messagesToSummarize := (slice pathEntries start (cutPoint.splitTurnStart.getD cut)).filterMap entryMessage
        turnPrefixMessages := cutPoint.splitTurnStart.elim [] fun turnStart =>
          (slice pathEntries turnStart cut).filterMap entryMessage
        isSplitTurn := cutPoint.splitTurnStart.isSome
        tokensBefore := contextTokens (buildSessionContext pathEntries)
        previousSummary := previousSummary pathEntries })

/-! ## Summarising -/

/-- The fixed instructions of the prompts, with the focus a caller added, and the file lists. -/
structure CompactionTexts where
  summarizationPrompt : Text
  updateSummarizationPrompt : Text
  turnPrefixSummarizationPrompt : Text
  fileOperations : Text

inductive SummaryPrompt where
  | history (messages : List AgentMessage) (previousSummary : Option Text)
  | turnPrefix (messages : List AgentMessage)

def SummaryPrompt.messages : SummaryPrompt → List AgentMessage
  | .history messages _ => messages
  | .turnPrefix messages => messages

def SummaryPrompt.previousSummary : SummaryPrompt → Option Text
  | .history _ previousSummary => previousSummary
  | .turnPrefix _ => none

def conversationBlock (messages : List AgentMessage) : Text :=
  "<conversation>\n".toList ++ conversationText messages ++ "\n</conversation>\n\n".toList

def SummaryPrompt.text (texts : CompactionTexts) : SummaryPrompt → Text
  | .history messages none => conversationBlock messages ++ texts.summarizationPrompt
  | .history messages (some previousSummary) =>
    conversationBlock messages ++
      ("<previous-summary>\n".toList ++ previousSummary ++ "\n</previous-summary>\n\n".toList) ++
      texts.updateSummarizationPrompt
  | .turnPrefix messages => conversationBlock messages ++ texts.turnPrefixSummarizationPrompt

/-- A prompt and what the model answered. -/
structure SummaryCall where
  prompt : SummaryPrompt
  output : Text

abbrev Complete := SummaryPrompt → Except CompactionError Text

def summaryCall (complete : Complete) (prompt : SummaryPrompt) : Except CompactionError SummaryCall :=
  (complete prompt).map fun output => { prompt, output }

/-- An empty previous summary is none. -/
def generateSummary (complete : Complete) (messages : List AgentMessage) (previousSummary : Option Text) :
    Except CompactionError SummaryCall :=
  summaryCall complete (.history messages (previousSummary.filter (· ≠ [])))

structure CompactionResult where
  summary : Text
  firstKeptEntryId : Text
  tokensBefore : Nat
  calls : List SummaryCall

def splitTurnHeading : Text := "\n\n---\n\n**Turn Context (split turn):**\n\n".toList

def compactionResult (texts : CompactionTexts) (preparation : CompactionPreparation) (summary : Text)
    (calls : List SummaryCall) : CompactionResult where
  summary := summary ++ texts.fileOperations
  firstKeptEntryId := preparation.firstKeptEntryId
  tokensBefore := preparation.tokensBefore
  calls := calls

def compact (texts : CompactionTexts) (complete : Complete) (preparation : CompactionPreparation) :
    Except CompactionError CompactionResult :=
  if preparation.firstKeptEntryId = [] then
    .error { code := .invalidSession
             message := "First kept entry has no UUID - session may need migration".toList }
  else if preparation.isSplitTurn ∧ preparation.turnPrefixMessages ≠ [] then
    if preparation.messagesToSummarize = [] then do
      let turnPrefix ← summaryCall complete (.turnPrefix preparation.turnPrefixMessages)
      return compactionResult texts preparation
        ("No prior history.".toList ++ splitTurnHeading ++ turnPrefix.output) [turnPrefix]
    else do
      let history ← generateSummary complete preparation.messagesToSummarize preparation.previousSummary
      let turnPrefix ← summaryCall complete (.turnPrefix preparation.turnPrefixMessages)
      return compactionResult texts preparation
        (history.output ++ splitTurnHeading ++ turnPrefix.output) [history, turnPrefix]
  else do
    let history ← generateSummary complete preparation.messagesToSummarize preparation.previousSummary
    return compactionResult texts preparation history.output [history]

/-! ## What must not get lost -/

/-- The path from the first entry that the last compaction kept. -/
def keptPath (pathEntries : List SessionTreeEntry) : List SessionTreeEntry :=
  match lastCompaction pathEntries with
  | some (.compaction _ _ firstKeptEntryId _) => fromEntry firstKeptEntryId pathEntries
  | _ => pathEntries

/-- The prompt of the call shows the message, and its answer is part of the summary. -/
structure Summarises (texts : CompactionTexts) (result : CompactionResult) (message : AgentMessage)
    (call : SummaryCall) : Prop where
  given : message ∈ call.prompt.messages
  shown : ∀ msg, convertToLlm message = some msg → ∀ part ∈ serializedParts msg, part <:+: call.prompt.text texts
  used : call.output <:+: result.summary

/-- The prompt of the call shows the previous summary, and its answer is part of the new one. -/
structure Carries (texts : CompactionTexts) (result : CompactionResult) (previousSummary : Text)
    (call : SummaryCall) : Prop where
  given : call.prompt.previousSummary = some previousSummary
  shown : previousSummary <:+: call.prompt.text texts
  used : call.output <:+: result.summary

structure LosesNothing (texts : CompactionTexts) (pathEntries : List SessionTreeEntry)
    (preparation : CompactionPreparation) : Prop where
  /-- What is summarised and what is replayed make up the context again. -/
  replayed : ∀ id summary tokensBefore, (∀ entry ∈ pathEntries, entry.id ≠ id) →
    preparation.messagesToSummarize ++ preparation.turnPrefixMessages ++
      (buildSessionContext (pathEntries ++
        [.compaction id summary preparation.firstKeptEntryId tokensBefore])).tail =
      (keptPath pathEntries).filterMap appendMessage
  messages : ∀ complete result, compact texts complete preparation = .ok result →
    ∀ message ∈ preparation.messagesToSummarize ++ preparation.turnPrefixMessages,
      ∃ call ∈ result.calls, Summarises texts result message call
  previous : ∀ complete result, compact texts complete preparation = .ok result →
    ∀ previousSummary, preparation.previousSummary = some previousSummary → previousSummary ≠ [] →
      ∃ call ∈ result.calls, Carries texts result previousSummary call

/-- No empty branch summary is cut off, and a previous summary comes with some history before the turn
that the cut splits. -/
structure NothingToLose (pathEntries : List SessionTreeEntry) (keepRecentTokens : Int) : Prop where
  branchSummaries : ∀ id fromId, SessionTreeEntry.branchSummary id [] fromId ∉
    slice pathEntries (boundaryStart pathEntries) (cutPointOf pathEntries keepRecentTokens).firstKeptEntryIndex
  history : ∀ summary turnStart, previousSummary pathEntries = some summary → summary ≠ [] →
    (cutPointOf pathEntries keepRecentTokens).splitTurnStart = some turnStart →
    (∃ entry ∈ slice pathEntries turnStart (cutPointOf pathEntries keepRecentTokens).firstKeptEntryIndex,
      (entryMessage entry).isSome) →
    ∃ entry ∈ slice pathEntries (boundaryStart pathEntries) turnStart, (entryMessage entry).isSome

end OpenClaw.Harness
