/-
# OpenClaw.Harness.SessionOps -- what a session does to its storage

Each append method builds an entry under the raw append cursor and hands it to the storage.  Moving
the leaf writes a leaf row, and with a summary a second entry right under the target.
-/
import OpenClaw.Harness.SessionTree

namespace OpenClaw.Harness.Tree

open OpenClaw.Data JsonlSessionStorage

/-! ## Appends -/

/-- The append methods of a session with their arguments, objects as their JSON. -/
inductive SessionAppend where
  | appendMessage (message : Text)
  | appendThinkingLevelChange (thinkingLevel : Text)
  | appendModelChange (provider modelId : Text)
  | appendCompaction (summary firstKeptEntryId tokensBefore : Text) (details fromHook : Option Text)
  | appendCustomEntry (customType : Text) (data : Option Text)
  | appendCustomMessageEntry (customType content display : Text) (details : Option Text)
  | appendSessionName (name : Text)

def SessionAppend.type : SessionAppend → EntryType
  | .appendMessage _ => .message
  | .appendThinkingLevelChange _ => .thinkingLevelChange
  | .appendModelChange _ _ => .modelChange
  | .appendCompaction _ _ _ _ _ => .compaction
  | .appendCustomEntry _ _ => .custom
  | .appendCustomMessageEntry _ _ _ _ => .customMessage
  | .appendSessionName _ => .sessionInfo

/-- A field that `JSON.stringify` leaves out when it is `undefined`. -/
def optionalField (name : String) (value : Option Text) : List (Text × Text) := (value.map (name.toList, ·)).toList

def SessionAppend.fields : SessionAppend → List (Text × Text)
  | .appendMessage message => [("message".toList, message)]
  | .appendThinkingLevelChange thinkingLevel => [("thinkingLevel".toList, thinkingLevel)]
  | .appendModelChange provider modelId => [("provider".toList, provider), ("modelId".toList, modelId)]
  | .appendCompaction summary firstKeptEntryId tokensBefore details fromHook =>
    [("summary".toList, summary), ("firstKeptEntryId".toList, firstKeptEntryId),
      ("tokensBefore".toList, tokensBefore)] ++
      optionalField "details" details ++ optionalField "fromHook" fromHook
  | .appendCustomEntry customType data => ("customType".toList, customType) :: optionalField "data" data
  | .appendCustomMessageEntry customType content display details =>
    [("customType".toList, customType), ("content".toList, content), ("display".toList, display)] ++
      optionalField "details" details
  | .appendSessionName name => [("name".toList, textTrim name)]

structure BranchSummary where
  summary : Text
  details : Option Text
  fromHook : Option Text

def BranchSummary.fields (summary : BranchSummary) (entryId : Option Text) : List (Text × Text) :=
  [("fromId".toList, entryId.getD "root".toList), ("summary".toList, summary.summary)] ++
    optionalField "details" summary.details ++ optionalField "fromHook" summary.fromHook

section Session

variable (js : JsPlatform) (st : JsonlSessionStorage)

def appendTypedEntry (entry : SessionTreeEntry) : Except SessionError Text × JsonlSessionStorage :=
  match st.appendEntry js entry with
  | .ok st' => (.ok entry.id, st')
  | .error error => (.error error, st)

/-- What the append methods share: a new id, under the raw append cursor. -/
def appendUnderCursor (minted : Minted) (entry : Text → Option Text → SessionTreeEntry) :
    Except SessionError Text × JsonlSessionStorage :=
  match st.getAppendParentId with
  | .ok parentId => appendTypedEntry js st (entry (st.createEntryId minted) parentId)
  | .error error => (.error error, st)

def SessionAppend.entry (call : SessionAppend) (timestamp id : Text) (parentId : Option Text) : SessionTreeEntry :=
  { type := call.type, id, parentId, timestamp, fields := call.fields }

def append (call : SessionAppend) (minted : Minted) : Except SessionError Text × JsonlSessionStorage :=
  appendUnderCursor js st minted (call.entry minted.timestamp)

def labelEntry (targetId : Text) (label : Option Text) (timestamp id : Text)
    (parentId : Option Text) : SessionTreeEntry :=
  { type := .label, id, parentId, timestamp, targetId := some targetId, label }

def appendLabel (targetId : Text) (label : Option Text) (minted : Minted) :
    Except SessionError Text × JsonlSessionStorage :=
  if st.has targetId = false then (.error (notFound targetId), st)
  else appendUnderCursor js st minted (labelEntry targetId label minted.timestamp)

def summaryEntry (summary : BranchSummary) (timestamp id : Text) (entryId : Option Text) : SessionTreeEntry :=
  { type := .branchSummary, id, parentId := entryId, timestamp, fields := summary.fields entryId }

/-- `moveTo`, with the summary of the abandoned branch and what is minted for it. -/
def moveTo (entryId : Option Text) (summary : Option (BranchSummary × Minted)) (minted : Minted) :
    Except SessionError (Option Text) × JsonlSessionStorage :=
  match entryId.filter fun id => !st.has id with
  | some entryId => (.error (notFound entryId), st)
  | none =>
    match st.setLeafId js minted entryId with
    | .error error => (.error error, st)
    | .ok moved =>
      match summary with
      | none => (.ok none, moved)
      | some (summary, minted) =>
        let (result, final) := appendTypedEntry js moved
          (summaryEntry summary minted.timestamp (moved.createEntryId minted) entryId)
        (result.map some, final)

/-- The content of a side append: an entry of any type but a leaf row. -/
structure SideContent where
  type : EntryType
  targetId : Option Text
  label : Option Text
  fields : List (Text × Text)
  notLeaf : type ≠ .leaf
  named : EntryType.ofName type.name = type

def SideContent.entry (content : SideContent) (timestamp id : Text) (parentId : Option Text) : SessionTreeEntry :=
  { type := content.type, id, parentId, timestamp, side := true, targetId := content.targetId,
    label := content.label, fields := content.fields }

def leafRow (targetId : Option Text) (appendParentId : Option (Option Text)) (side : Bool)
    (timestamp id : Text) (parentId : Option Text) : SessionTreeEntry :=
  { type := .leaf, id, parentId, timestamp, side, targetId, appendParentId }

end Session

/-! ## Runs -/

inductive SessionOp where
  | append (call : SessionAppend) (minted : Minted)
  | appendLabel (targetId : Text) (label : Option Text) (minted : Minted)
  /-- An entry given to the storage under its append cursor, off the visible branch. -/
  | appendSide (content : SideContent) (minted : Minted)
  /-- A leaf row given to the storage; it may name another append cursor than its target. -/
  | appendLeafRow (targetId : Option Text) (appendParentId : Option (Option Text)) (side : Bool)
      (minted : Minted)
  | moveTo (entryId : Option Text) (summary : Option (BranchSummary × Minted)) (minted : Minted)
  /-- The storage is dropped and the file opened again. -/
  | reopen

def sessionStep (js : JsPlatform) (st : JsonlSessionStorage) : SessionOp → JsonlSessionStorage
  | .append call minted => (append js st call minted).2
  | .appendLabel targetId label minted => (appendLabel js st targetId label minted).2
  | .appendSide content minted => (appendUnderCursor js st minted (content.entry minted.timestamp)).2
  | .appendLeafRow targetId appendParentId side minted =>
    (appendUnderCursor js st minted (leafRow targetId appendParentId side minted.timestamp)).2
  | .moveTo entryId summary minted => (moveTo js st entryId summary minted).2
  | .reopen =>
    match openStorage js st.content with
    | .ok opened => opened
    | .error _ => st

/-- The id drawn is new, the clock's text can be read back, and so can the line of the entry that is
built from them. -/
structure Fresh (js : JsPlatform) (has : Text → Bool) (minted : Minted)
    (build : Text → SessionTreeEntry) : Prop where
  notEmpty : generateEntryId has minted ≠ []
  unused : has (generateEntryId has minted) = false
  timestamp : minted.timestamp ≠ []
  date : parseSessionTimestampMs js minted.timestamp ≠ none
  readsBack : js.ReadsBack (build (generateEntryId has minted)).row

/-- Every id that an operation draws is fresh when it is drawn, and its entries round-trip. -/
def Proper (js : JsPlatform) (st : JsonlSessionStorage) : SessionOp → Prop
  | .append call minted => Fresh js st.has minted fun id => call.entry minted.timestamp id st.appendParentId
  | .appendLabel targetId label minted =>
    Fresh js st.has minted fun id => labelEntry targetId label minted.timestamp id st.appendParentId
  | .appendSide content minted => Fresh js st.has minted fun id => content.entry minted.timestamp id st.appendParentId
  | .appendLeafRow targetId appendParentId side minted =>
    Fresh js st.has minted fun id =>
      leafRow targetId appendParentId side minted.timestamp id st.appendParentId
  | .moveTo entryId summary minted =>
    Fresh js st.has minted (fun id =>
      leafRow entryId none false minted.timestamp id st.appendParentId) ∧
    ∀ branchSummary summaryMinted, summary = some (branchSummary, summaryMinted) →
      Fresh js (fun id => st.has id || id = st.createEntryId minted) summaryMinted fun id =>
        summaryEntry branchSummary summaryMinted.timestamp id entryId
  | .reopen => True

end OpenClaw.Harness.Tree
