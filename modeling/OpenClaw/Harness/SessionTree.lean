/-
# OpenClaw.Harness.SessionTree -- session storage as an append-only tree

A session file is a header line and one JSON line for each entry.  Two cursors are kept beside the
entries: the visible leaf, and the raw parent of the next append.  A side append moves the second
only.  A leaf row moves both without being part of any branch.  An entry whose raw parent is not the
visible leaf gets a logical parent, which the walk to the root follows instead.

This follows `storage-base.ts`, `jsonl-storage.ts` and the operations of `session.ts` in the agent
harness.  JSON and the clock's text are a parameter: a parsed object is a row with the fields that the
readers look at, and the rest.
-/
import OpenClaw.Data.JsNumeral
import OpenClaw.Data.JsPrim
import OpenClaw.Data.Table
import OpenClaw.Logic.Run

namespace OpenClaw.Harness.Tree

open OpenClaw.Data

/-! ## Rows -/

inductive JsonField where
  | absent
  | null
  | number (value : Nat)
  | text (value : Text)
  | other
  deriving DecidableEq

/-- A parsed object: the fields the readers check, and the others with the JSON of their values. -/
structure JsonRow where
  type : JsonField := .absent
  version : JsonField := .absent
  id : JsonField := .absent
  parentId : JsonField := .absent
  timestamp : JsonField := .absent
  cwd : JsonField := .absent
  parentSession : JsonField := .absent
  targetId : JsonField := .absent
  appendParentId : JsonField := .absent
  appendMode : JsonField := .absent
  label : JsonField := .absent
  fields : List (Text × Text) := []
  deriving DecidableEq

/-- `JSON` and `Date.parse`; `parse` gives nothing for a text that is no JSON object. -/
structure JsPlatform where
  stringify : JsonRow → Text
  parse : Text → Option JsonRow
  dateParse : Text → Option Nat

def textTrim (text : Text) : Text := stripBoth isJsWhitespace text

/-- What the storage relies on: a row written on a line is read back from it. -/
structure JsPlatform.ReadsBack (js : JsPlatform) (row : JsonRow) : Prop where
  parse_stringify : js.parse (js.stringify row) = some row
  oneLine : '\n' ∉ js.stringify row
  notBlank : textTrim (js.stringify row) ≠ []

/-- `parseSessionTimestampMs` -/
def parseSessionTimestampMs (js : JsPlatform) (value : Text) : Option Nat :=
  if textTrim value = [] then none else js.dateParse value

inductive SessionErrorCode where
  | notFound
  | invalidSession
  | invalidEntry
  deriving DecidableEq

structure SessionError where
  code : SessionErrorCode
  message : Text
  deriving DecidableEq

def notFound (id : Text) : SessionError :=
  ⟨.notFound, "Entry ".toList ++ id ++ " not found".toList⟩

/-! ## Entries -/

inductive EntryType where
  | message
  | thinkingLevelChange
  | modelChange
  | compaction
  | branchSummary
  | custom
  | customMessage
  | label
  | sessionInfo
  | leaf
  /-- A row of a plugin, under a type this reader does not know. -/
  | plugin (name : Text)
  deriving DecidableEq

def knownEntryTypes : List (EntryType × String) :=
  [(.message, "message"), (.thinkingLevelChange, "thinking_level_change"),
    (.modelChange, "model_change"), (.compaction, "compaction"), (.branchSummary, "branch_summary"),
    (.custom, "custom"), (.customMessage, "custom_message"), (.label, "label"),
    (.sessionInfo, "session_info"), (.leaf, "leaf")]

def EntryType.name : EntryType → Text
  | .plugin name => name
  | type => ((knownEntryTypes.find? (·.1 = type)).map (·.2.toList)).getD []

def EntryType.ofName (name : Text) : EntryType :=
  ((knownEntryTypes.find? (·.2.toList = name)).map (·.1)).getD (.plugin name)

def EntryType.isPlugin : EntryType → Bool
  | .plugin _ => true
  | _ => false

structure SessionTreeEntry where
  type : EntryType
  id : Text
  parentId : Option Text
  timestamp : Text
  /-- `appendMode: "side"` -/
  side : Bool := false
  /-- The target of a leaf row or a label; `null` in a leaf row is the root. -/
  targetId : Option Text := none
  /-- The raw parent a leaf row names for the next append, when it names one. -/
  appendParentId : Option (Option Text) := none
  label : Option Text := none
  fields : List (Text × Text) := []
  deriving DecidableEq

def isSideAppendEntry (entry : SessionTreeEntry) : Bool := entry.side

/-- `null` or a text -/
def JsonField.ofNullable : Option Text → JsonField
  | none => .null
  | some value => .text value

/-- `undefined` or a text -/
def JsonField.ofOptional : Option Text → JsonField
  | none => .absent
  | some value => .text value

def JsonField.text? : JsonField → Option Text
  | .text value => some value
  | _ => none

/-- The object that an entry is. -/
def SessionTreeEntry.row (entry : SessionTreeEntry) : JsonRow where
  type := .text entry.type.name
  id := .text entry.id
  parentId := .ofNullable entry.parentId
  timestamp := .text entry.timestamp
  targetId := if entry.type = .leaf then .ofNullable entry.targetId else .ofOptional entry.targetId
  appendParentId := (entry.appendParentId.map JsonField.ofNullable).getD .absent
  appendMode := if entry.side then .text "side".toList else .absent
  label := .ofOptional entry.label
  fields := entry.fields

structure SessionHeader where
  id : Text
  timestamp : Text
  cwd : Text
  parentSession : Option Text := none
  deriving DecidableEq

def SessionHeader.row (header : SessionHeader) : JsonRow where
  type := .text "session".toList
  version := .number 3
  id := .text header.id
  timestamp := .text header.timestamp
  cwd := .text header.cwd
  parentSession := .ofOptional header.parentSession

/-! ## Reading a file -/

def invalidSession (message : String) : SessionError :=
  ⟨.invalidSession, "Invalid JSONL session file: ".toList ++ message.toList⟩

def invalidEntry (lineNumber : Nat) (message : String) : SessionError :=
  ⟨.invalidEntry, "Invalid JSONL session file: line ".toList ++ (toString lineNumber).toList ++ ' ' :: message.toList⟩

/-- A field that is a text with something in it. -/
def requireText (field : JsonField) (error : SessionError) : Except SessionError Text :=
  match field with
  | .text value => if value = [] then .error error else .ok value
  | _ => .error error

def parseHeaderLine (js : JsPlatform) (line : Text) : Except SessionError SessionHeader := do
  let parsed ← match js.parse line with
    | some parsed => .ok parsed
    | none => .error (invalidSession "first line is not a valid session header")
  if parsed.type ≠ .text "session".toList then
    throw (invalidSession "first line is not a valid session header")
  if parsed.version ≠ .number 3 then throw (invalidSession "unsupported session version")
  let id ← requireText parsed.id (invalidSession "session header is missing id")
  let timestamp ← requireText parsed.timestamp (invalidSession "session header is missing timestamp")
  if parseSessionTimestampMs js timestamp = none then
    throw (invalidSession "session header has invalid timestamp")
  let cwd ← requireText parsed.cwd (invalidSession "session header is missing cwd")
  match parsed.parentSession with
  | .absent => return ⟨id, timestamp, cwd, none⟩
  | .text parentSession => return ⟨id, timestamp, cwd, some parentSession⟩
  | _ => throw (invalidSession "session header parentSession must be a string")

/-- A field that is `null` or a text. -/
def requireNullable (field : JsonField) (error : SessionError) : Except SessionError (Option Text) :=
  match field with
  | .null => .ok none
  | .text value => .ok (some value)
  | _ => .error error

def parseEntryLine (js : JsPlatform) (line : Text) (lineNumber : Nat) :
    Except SessionError SessionTreeEntry := do
  let parsed ← match js.parse line with
    | some parsed => .ok parsed
    | none => .error (invalidEntry lineNumber "is not valid JSON")
  let type ← match parsed.type with
    | .text name => .ok (EntryType.ofName name)
    | _ => .error (invalidEntry lineNumber "is missing entry type")
  let id ← requireText parsed.id (invalidEntry lineNumber "is missing entry id")
  let parentId ← requireNullable parsed.parentId (invalidEntry lineNumber "has invalid parentId")
  let timestamp ← requireText parsed.timestamp (invalidEntry lineNumber "is missing timestamp")
  if parseSessionTimestampMs js timestamp = none then
    throw (invalidEntry lineNumber "has invalid timestamp")
  let targetId ←
    if type = .leaf then
      requireNullable parsed.targetId (invalidEntry lineNumber "has invalid targetId")
    else .ok parsed.targetId.text?
  let appendParentId ←
    if type = .leaf ∧ parsed.appendParentId ≠ .absent then
      (requireNullable parsed.appendParentId
        (invalidEntry lineNumber "has invalid appendParentId")).map some
    else .ok none
  if parsed.appendMode ≠ .absent ∧ parsed.appendMode ≠ .text "side".toList then
    throw (invalidEntry lineNumber "has invalid appendMode")
  return { type, id, parentId, timestamp, side := parsed.appendMode ≠ .absent, targetId, appendParentId,
           label := parsed.label.text?, fields := parsed.fields }

/-! ## The cursors -/

/-- The visible-leaf update of an entry; `none` leaves the leaf where it is. -/
def leafIdUpdateAfterEntry (entry : SessionTreeEntry) : Option (Option Text) :=
  if entry.type ≠ .leaf ∧ isSideAppendEntry entry = true then none
  else match entry.type with
    | .leaf => some entry.targetId
    | .plugin _ => none
    | _ => some (some entry.id)

/-- The raw parent of the append after an entry. -/
def appendParentIdAfterEntry (entry : SessionTreeEntry) : Option Text :=
  if entry.type = .leaf then entry.appendParentId.getD entry.targetId else some entry.id

def resolveLeafId (entries : List SessionTreeEntry) : Option Text :=
  entries.foldl (fun leafId entry => (leafIdUpdateAfterEntry entry).getD leafId) none

def resolveAppendParentId (entries : List SessionTreeEntry) : Option Text :=
  entries.foldl (fun _ entry => appendParentIdAfterEntry entry) none

def updateLabelCache (labelsById : Table Text Text) (entry : SessionTreeEntry) : Table Text Text :=
  if entry.type ≠ .label then labelsById
  else match entry.targetId with
    | none => labelsById
    | some targetId =>
      match entry.label.map textTrim with
      | none | some [] => labelsById.deleteKey targetId
      | some label => labelsById.upsert targetId label

def buildLabelsById (entries : List SessionTreeEntry) : Table Text Text := entries.foldl updateLabelCache .empty

/-- The test that both builders of logical parents make. -/
def hangsFromLeaf (leafId appendParentId : Option Text) (entry : SessionTreeEntry) : Bool :=
  leafIdUpdateAfterEntry entry = some (some entry.id) && !isSideAppendEntry entry &&
    entry.parentId = appendParentId && leafId ≠ appendParentId

structure LogicalScan where
  logicalParentsById : Table Text (Option Text)
  leafId : Option Text
  appendParentId : Option Text

def LogicalScan.next (scan : LogicalScan) (entry : SessionTreeEntry) : LogicalScan where
  logicalParentsById :=
    if hangsFromLeaf scan.leafId scan.appendParentId entry then
      scan.logicalParentsById.upsert entry.id scan.leafId
    else scan.logicalParentsById
  leafId := (leafIdUpdateAfterEntry entry).getD scan.leafId
  appendParentId := appendParentIdAfterEntry entry

def buildLogicalParentsById (entries : List SessionTreeEntry) : Table Text (Option Text) :=
  (entries.foldl LogicalScan.next ⟨.empty, none, none⟩).logicalParentsById

/-! ## The storage -/

structure JsonlSessionStorage where
  header : SessionHeader
  /-- The text of the session file. -/
  content : Text
  entries : List SessionTreeEntry
  byId : Table Text SessionTreeEntry
  labelsById : Table Text Text
  logicalParentsById : Table Text (Option Text)
  leafId : Option Text
  appendParentId : Option Text

def indexById (entries : List SessionTreeEntry) : Table Text SessionTreeEntry :=
  entries.foldl (fun byId entry => byId.upsert entry.id entry) .empty

namespace JsonlSessionStorage

/-- `byId.has` of a cursor, where the root counts as there. -/
def hasCursor (byId : Table Text SessionTreeEntry) (cursor : Option Text) : Bool :=
  cursor.all fun id => (byId.find id).isSome

/-- The constructor of `BaseSessionStorage`. -/
def construct (header : SessionHeader) (content : Text) (entries : List SessionTreeEntry)
    (leafId appendParentId : Option Text) : Except SessionError JsonlSessionStorage := do
  let byId := indexById entries
  if hasCursor byId leafId = false then
    throw ⟨.invalidSession, "Entry ".toList ++ leafId.getD [] ++ " not found".toList⟩
  if hasCursor byId appendParentId = false then
    throw ⟨.invalidSession, "Append parent ".toList ++ appendParentId.getD [] ++ " not found".toList⟩
  return { header, content, entries, byId, labelsById := buildLabelsById entries,
           logicalParentsById := buildLogicalParentsById entries, leafId, appendParentId }

structure LoadScan where
  entries : List SessionTreeEntry
  leafId : Option Text
  appendParentId : Option Text

/-- One round of the loop of `loadJsonlStorage`; a blank line is skipped. -/
def LoadScan.line (js : JsPlatform) (scan : LoadScan) (line : Text) (lineNumber : Nat) : Except SessionError LoadScan :=
  if textTrim line = [] then .ok scan
  else do
    let entry ← parseEntryLine js line lineNumber
    return { entries := scan.entries ++ [entry],
             leafId := (leafIdUpdateAfterEntry entry).getD scan.leafId,
             appendParentId := appendParentIdAfterEntry entry }

def loadLines (js : JsPlatform) : LoadScan → List Text → Nat → Except SessionError LoadScan
  | scan, [], _ => .ok scan
  | scan, line :: rest, lineNumber => do loadLines js (← scan.line js line lineNumber) rest (lineNumber + 1)

/-- The lines from the header on, each blank line before it dropped and counted. -/
def fromHeader : List Text → Nat → Option (Text × List Text × Nat)
  | [], _ => none
  | line :: rest, index =>
    if textTrim line = [] then fromHeader rest (index + 1) else some (line, rest, index)

/-- `JsonlSessionStorage.open`: `loadJsonlStorage`, and the constructor on what it found. -/
def openStorage (js : JsPlatform) (content : Text) : Except SessionError JsonlSessionStorage :=
  match fromHeader (content.splitOn '\n') 0 with
  | none => .error (invalidSession "missing session header")
  | some (headerLine, rest, headerIndex) => do
    let header ← parseHeaderLine js headerLine
    let loaded ← loadLines js ⟨[], none, none⟩ rest (headerIndex + 2)
    construct header content loaded.entries loaded.leafId loaded.appendParentId

/-- `JsonlSessionStorage.create` -/
def create (js : JsPlatform) (header : SessionHeader) : JsonlSessionStorage where
  header
  content := js.stringify header.row ++ ['\n']
  entries := []
  byId := .empty
  labelsById := .empty
  logicalParentsById := .empty
  leafId := none
  appendParentId := none

variable (js : JsPlatform) (st : JsonlSessionStorage)

/-- A cursor that is set must be the new entry or one that is there. -/
def checkCursor (isNewEntry : Bool) (cursor : Option Text) (error : Text → SessionError) : Except SessionError Unit :=
  match cursor with
  | some id => if !isNewEntry && !(st.byId.find id).isSome then .error (error id) else .ok ()
  | none => .ok ()

def validateEntryForAppend (entry : SessionTreeEntry) : Except SessionError Unit := do
  let leafId := (leafIdUpdateAfterEntry entry).join
  st.checkCursor (entry.type ≠ .leaf ∧ leafId = some entry.id) leafId notFound
  let appendParentId := appendParentIdAfterEntry entry
  st.checkCursor (entry.type ≠ .leaf ∧ appendParentId = some entry.id) appendParentId fun id =>
    ⟨.notFound, "Append parent ".toList ++ id ++ " not found".toList⟩

/-- What `recordEntry` does to an entry it has checked. -/
def record (entry : SessionTreeEntry) : JsonlSessionStorage :=
  { st with
    logicalParentsById :=
      if hangsFromLeaf st.leafId st.appendParentId entry then
        st.logicalParentsById.upsert entry.id st.leafId
      else st.logicalParentsById
    entries := st.entries ++ [entry]
    byId := st.byId.upsert entry.id entry
    labelsById := updateLabelCache st.labelsById entry
    leafId := (leafIdUpdateAfterEntry entry).getD st.leafId
    appendParentId := appendParentIdAfterEntry entry }

def recordEntry (entry : SessionTreeEntry) : Except SessionError JsonlSessionStorage := do
  st.validateEntryForAppend entry
  return st.record entry

def writeLine (entry : SessionTreeEntry) : JsonlSessionStorage :=
  { st with content := st.content ++ (js.stringify entry.row ++ ['\n']) }

def appendEntry (entry : SessionTreeEntry) : Except SessionError JsonlSessionStorage := do
  st.validateEntryForAppend entry
  (st.writeLine js entry).recordEntry entry

/-- What `uuidv7` draws for one entry, and the clock's text for it. -/
structure Minted where
  uuids : Nat → Text
  timestamp : Text

/-- A hundred short ids are tried, then a whole one is taken as it is. -/
def generateEntryId (has : Text → Bool) (minted : Minted) : Text :=
  (((List.range 100).map fun i => (minted.uuids i).take 8).find? (!has ·)).getD (minted.uuids 100)

def has (id : Text) : Bool := (st.byId.find id).isSome

def createEntryId (minted : Minted) : Text := generateEntryId st.has minted

def setLeafId (minted : Minted) (leafId : Option Text) : Except SessionError JsonlSessionStorage := do
  match leafId with
  | some leafId => if st.has leafId = false then throw (notFound leafId)
  | none => pure ()
  let entry : SessionTreeEntry :=
    { type := .leaf, id := st.createEntryId minted, parentId := st.appendParentId,
      timestamp := minted.timestamp, targetId := leafId }
  (st.writeLine js entry).recordEntry entry

/-- The parent that the walk to the root takes next. -/
def visibleParent (entry : SessionTreeEntry) : Option Text :=
  (if entry.type = .leaf then entry.targetId
   else match st.logicalParentsById.find entry.id with
     | some logicalParent => logicalParent
     | none => entry.parentId).filter (· ≠ [])

/-- The loop of `getPathToRoot`.  Each round sees a new id, so there is one round for each entry. -/
def climb : Nat → List Text → SessionTreeEntry → List SessionTreeEntry →
    Except SessionError (List SessionTreeEntry)
  | 0, _, current, _ => .error ⟨.invalidSession, "Cycle found at entry ".toList ++ current.id⟩
  | rounds + 1, seen, current, path =>
    if current.id ∈ seen then .error ⟨.invalidSession, "Cycle found at entry ".toList ++ current.id⟩
    else
      let path := if current.type ≠ .leaf then current :: path else path
      match st.visibleParent current with
      | none => .ok path
      | some parentId =>
        match st.byId.find parentId with
        | none => .error ⟨.invalidSession, "Entry ".toList ++ parentId ++ " not found".toList⟩
        | some parent => climb rounds (current.id :: seen) parent path

def getPathToRoot : Option Text → Except SessionError (List SessionTreeEntry)
  | none => .ok []
  | some leafId =>
    match st.byId.find leafId with
    | none => .error (notFound leafId)
    | some current => st.climb (st.byId.keys.length + 1) [] current []

def getLeafId : Except SessionError (Option Text) :=
  if hasCursor st.byId st.leafId = false then
    .error ⟨.invalidSession, "Entry ".toList ++ st.leafId.getD [] ++ " not found".toList⟩
  else .ok st.leafId

def getAppendParentId : Except SessionError (Option Text) :=
  if hasCursor st.byId st.appendParentId = false then
    .error ⟨.invalidSession, "Append parent ".toList ++ st.appendParentId.getD [] ++ " not found".toList⟩
  else .ok st.appendParentId

/-- `Session.getBranch` -/
def getBranch (fromId : Option Text) : Except SessionError (List SessionTreeEntry) := do
  match fromId with
  | some fromId => st.getPathToRoot (some fromId)
  | none => st.getPathToRoot (← st.getLeafId)

end JsonlSessionStorage

end OpenClaw.Harness.Tree
