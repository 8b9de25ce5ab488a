/-
# OpenClaw.Harness.SessionContext -- the messages of a session path

A session is a tree of entries; the path to its leaf is what the model sees.  Some entries carry a
message, others only mark a change.  A compaction entry stands for everything before its first kept
entry.  This module follows `session/session.ts` and `messages.ts` of the agent harness, and the text
that a message becomes in a summarisation prompt.  Timestamps only travel along and are left out.
-/
import OpenClaw.Data.JsNumeral

namespace OpenClaw.Harness

open OpenClaw.Data

/-! ## Messages -/

inductive ContentBlock where
  | text (text : Text)
  | thinking (thinking : Text)
  /-- Each argument with the JSON of its value, and the JSON of them all. -/
  | toolCall (id name : Text) (arguments : List (Text × Text)) (argumentsJson : Text)
  /-- A block of the type `toolResult` or `tool_result`. -/
  | toolResult (text : Text) (content : Option Text)
  | image
  | other
  deriving DecidableEq

inductive MessageContent where
  | text (text : Text)
  | blocks (blocks : List ContentBlock)
  deriving DecidableEq

structure BashExecution where
  command : Text
  output : Text
  cancelled : Bool
  exitCode : Option Int
  truncated : Bool
  fullOutputPath : Option Text
  excludeFromContext : Bool
  deriving DecidableEq

inductive AgentMessage where
  | user (content : MessageContent)
  | assistant (content : List ContentBlock)
  | toolResult (toolCallId : Text) (content : List ContentBlock)
  | bashExecution (run : BashExecution)
  | custom (customType : Text) (content : MessageContent)
  | branchSummary (summary fromId : Text)
  | compactionSummary (summary : Text) (tokensBefore : Nat)
  deriving DecidableEq

/-! ## Entries -/

inductive MarkerKind where
  | thinkingLevelChange
  | modelChange
  | custom
  | label
  | sessionInfo
  | leaf
  deriving DecidableEq

inductive SessionTreeEntry where
  | message (id : Text) (message : AgentMessage)
  | customMessage (id : Text) (customType : Text) (content : MessageContent)
  | branchSummary (id : Text) (summary fromId : Text)
  | compaction (id : Text) (summary firstKeptEntryId : Text) (tokensBefore : Nat)
  | marker (id : Text) (kind : MarkerKind)
  deriving DecidableEq

def SessionTreeEntry.id : SessionTreeEntry → Text
  | .message id _ | .customMessage id _ _ | .branchSummary id _ _ | .compaction id _ _ _ | .marker id _ => id

def SessionTreeEntry.isCompaction : SessionTreeEntry → Bool
  | .compaction _ _ _ _ => true
  | _ => false

def SessionTreeEntry.isMessage : SessionTreeEntry → Bool
  | .message _ _ => true
  | _ => false

/-! ## The context -/

/-- What an entry adds to the context; an empty branch summary adds nothing. -/
def appendMessage : SessionTreeEntry → Option AgentMessage
  | .message _ message => some message
  | .customMessage _ customType content => some (.custom customType content)
  | .branchSummary _ summary fromId => if summary = [] then none else some (.branchSummary summary fromId)
  | _ => none

/-- The entries from the first one with an id. -/
def fromEntry (id : Text) (entries : List SessionTreeEntry) : List SessionTreeEntry := entries.dropWhile (·.id ≠ id)

/-- The replay of a compaction: the tail it kept, and what came after it. -/
def replayAfter (pathEntries : List SessionTreeEntry) (compactionId firstKeptEntryId : Text) : List AgentMessage :=
  let compactionIdx := pathEntries.findIdx fun entry => entry.isCompaction && entry.id = compactionId
  (fromEntry firstKeptEntryId (pathEntries.take compactionIdx)).filterMap appendMessage ++
    (pathEntries.drop (compactionIdx + 1)).filterMap appendMessage

def lastCompaction (pathEntries : List SessionTreeEntry) : Option SessionTreeEntry :=
  (pathEntries.filter (·.isCompaction)).getLast?

/-- The messages of `buildSessionContext`. -/
def buildSessionContext (pathEntries : List SessionTreeEntry) : List AgentMessage :=
  match lastCompaction pathEntries with
  | some (.compaction id summary firstKeptEntryId tokensBefore) =>
    .compactionSummary summary tokensBefore :: replayAfter pathEntries id firstKeptEntryId
  | _ => pathEntries.filterMap appendMessage

/-! ## Prompt text -/

inductive LlmMessage where
  | user (content : MessageContent)
  | assistant (content : List ContentBlock)
  | toolResult (content : List ContentBlock)

def bashExecutionToText (msg : BashExecution) : Text :=
  let ran := "Ran `".toList ++ msg.command ++ "`\n".toList ++
    if msg.output = [] then "(no output)".toList else "```\n".toList ++ msg.output ++ "\n```".toList
  let ended :=
    if msg.cancelled then ran ++ "\n\n(command cancelled)".toList
    else match msg.exitCode.filter (· ≠ 0) with
      | some exitCode => ran ++ "\n\nCommand exited with code ".toList ++ (toString exitCode).toList
      | none => ran
  match msg.fullOutputPath.filter (· ≠ []) with
  | some path =>
    if msg.truncated then ended ++ "\n\n[Output truncated. Full output: ".toList ++ path ++ [']'] else ended
  | none => ended

def branchSummaryPrefix : Text :=
  "The following is a summary of a branch that this conversation came back from:\n\n<summary>\n".toList

def compactionSummaryPrefix : Text :=
  ("The conversation history before this point was compacted into the following summary:\n\n" ++
    "<summary>\n").toList

def convertToLlm : AgentMessage → Option LlmMessage
  | .bashExecution run =>
    if run.excludeFromContext then none
    else some (.user (.blocks [.text (bashExecutionToText run)]))
  | .custom _ content => some (.user content)
  | .branchSummary summary _ => some (.user (.blocks [.text (branchSummaryPrefix ++ summary ++ "</summary>".toList)]))
  | .compactionSummary summary _ =>
    some (.user (.blocks [.text (compactionSummaryPrefix ++ summary ++ "\n</summary>".toList)]))
  | .user content => some (.user content)
  | .assistant content => some (.assistant content)
  | .toolResult _ content => some (.toolResult content)

def toolResultMaxChars : Nat := 2000

/-- The longest start of a text of at most `max` UTF-16 code units. -/
def truncateUtf16Safe : Text → Nat → Text
  | [], _ => []
  | c :: rest, max =>
    let width := (codeUnits c).length
    if width ≤ max then c :: truncateUtf16Safe rest (max - width) else []

def truncateForSummary (text : Text) (maxChars : Nat) : Text :=
  if text.jsLength ≤ maxChars then text
  else
    let sliced := truncateUtf16Safe text maxChars
    sliced ++ "\n\n[... ".toList ++ decimalText (text.jsLength - sliced.jsLength) ++
      " more characters truncated]".toList

def getCompactionContentBlockText : ContentBlock → Text
  | .text text => text
  | .toolResult text content => if text = [] then content.getD [] else text
  | _ => []

/-- The texts between `separator`. -/
def joinTexts (separator : Text) (texts : List Text) : Text := separator.intercalate texts

def textOf : ContentBlock → Option Text
  | .text text => some text
  | _ => none

def thinkingOf : ContentBlock → Option Text
  | .thinking thinking => some thinking
  | _ => none

def toolCallOf : ContentBlock → Option Text
  | .toolCall _ name arguments _ =>
    some (name ++ ['('] ++
      joinTexts ", ".toList (arguments.map fun argument => argument.1 ++ ['='] ++ argument.2) ++ [')'])
  | _ => none

/-- A labelled part, unless there is nothing to say. -/
def labelled (label separator : String) (texts : List Text) : List Text :=
  if texts = [] then [] else [label.toList ++ joinTexts separator.toList texts]

def nonEmptyPart (label : String) (content : Text) : List Text :=
  if content = [] then [] else [label.toList ++ content]

/-- The parts of a conversation that a message becomes. -/
def serializedParts : LlmMessage → List Text
  | .user (.text content) => nonEmptyPart "[User]: " content
  | .user (.blocks blocks) => nonEmptyPart "[User]: " (blocks.filterMap textOf).flatten
  | .assistant blocks =>
    labelled "[Assistant thinking]: " "\n" (blocks.filterMap thinkingOf) ++
      labelled "[Assistant]: " "\n" (blocks.filterMap textOf) ++
      labelled "[Assistant tool calls]: " "; " (blocks.filterMap toolCallOf)
  | .toolResult blocks =>
    let content := (blocks.map getCompactionContentBlockText).flatten
    if content = [] then []
    else ["[Tool result]: ".toList ++ truncateForSummary content toolResultMaxChars]

/-- `serializeConversation(convertToLlm(messages))` -/
def conversationText (messages : List AgentMessage) : Text :=
  joinTexts "\n\n".toList ((messages.filterMap convertToLlm).flatMap serializedParts)

/-! ## Token estimates -/

def imageBlockChars : Nat := 4800

def countContentBlockChars (blocks : List ContentBlock) : Nat :=
  (blocks.map fun block => match block with
    | .image => imageBlockChars
    | block => (getCompactionContentBlockText block).jsLength).sum

def contentChars : MessageContent → Nat
  | .text text => text.jsLength
  | .blocks blocks => countContentBlockChars blocks

def assistantBlockChars : ContentBlock → Nat
  | .text text => text.jsLength
  | .thinking thinking => thinking.jsLength
  | .toolCall _ name _ argumentsJson => name.jsLength + argumentsJson.jsLength
  | _ => 0

/-- `Math.ceil(chars / 4)` -/
def estimateTokens (message : AgentMessage) : Nat :=
  let chars := match message with
    | .user content => contentChars content
    | .assistant blocks => (blocks.map assistantBlockChars).sum
    | .custom _ content => contentChars content
    | .toolResult _ blocks => countContentBlockChars blocks
    | .bashExecution run => run.command.jsLength + run.output.jsLength
    | .branchSummary summary _ => summary.jsLength
    | .compactionSummary summary _ => summary.jsLength
  (chars + 3) / 4

end OpenClaw.Harness
