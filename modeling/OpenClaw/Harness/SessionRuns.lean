/-
# OpenClaw.Harness.SessionRuns -- sessions that run, move and open again

Each operation of a session is one addition to the storage and the same addition to the log of
branches, or two of them.  So the two go together through every run, and at each point the file opens
to the storage that wrote it.
-/
import OpenClaw.Harness.SessionBranches

namespace OpenClaw.Harness.Tree

open OpenClaw.Data OpenClaw.Logic JsonlSessionStorage

/-! ## One operation -/

/-- A storage that means the log and whose file says the same. -/
structure Tracks (js : JsPlatform) (st : JsonlSessionStorage) (log : BranchLog) : Prop where
  simulates : Simulates st log
  faithful : Faithful js st

theorem Simulates.writeLine {js : JsPlatform} {st : JsonlSessionStorage} {log : BranchLog}
    {entry : SessionTreeEntry} (h : Simulates (st.record entry) log) :
    Simulates ((st.writeLine js entry).record entry) log :=
  { h with climbs := fun id found hfind =>
      let ⟨path, hpath, hbranch⟩ := h.climbs id found hfind
      ⟨path, ⟨hpath.chain, hpath.there⟩, hbranch⟩ }

variable {minted : Minted}

section Operations

variable {js : JsPlatform} {st : JsonlSessionStorage} {log : BranchLog} {entry : SessionTreeEntry}

theorem Tracks.record (h : Tracks js st log) {log' : BranchLog}
    (hrecord : Simulates (st.record entry) log') (hread : Readable js entry) :
    Tracks js ((st.writeLine js entry).record entry) log' where
  simulates := hrecord.writeLine
  faithful := h.faithful.record hread hrecord.leafThere hrecord.cursorThere

theorem checkCursor_ok {isNewEntry : Bool} {cursor : Option Text} {error : Text → SessionError} :
    st.checkCursor isNewEntry cursor error = .ok () ↔ isNewEntry = true ∨ hasCursor st.byId cursor = true := by
  cases cursor with
  | none => simp [checkCursor, hasCursor]
  | some id => cases isNewEntry <;> cases hfind : st.byId.find id <;> simp [checkCursor, hasCursor, hfind]

theorem validate_ok : st.validateEntryForAppend entry = .ok () ↔
      ((entry.type ≠ .leaf ∧ (leafIdUpdateAfterEntry entry).join = some entry.id) ∨
        hasCursor st.byId (leafIdUpdateAfterEntry entry).join = true) ∧
      ((entry.type ≠ .leaf ∧ appendParentIdAfterEntry entry = some entry.id) ∨
        hasCursor st.byId (appendParentIdAfterEntry entry) = true) := by
  simp only [validateEntryForAppend, bind_eq_ok, checkCursor_ok, decide_eq_true_eq]
  constructor
  · rintro ⟨_, hleaf, hcursor⟩
    exact ⟨by simpa using checkCursor_ok.mp hleaf, hcursor⟩
  · rintro ⟨hleaf, hcursor⟩
    exact ⟨(), checkCursor_ok.mpr (by simpa using hleaf), hcursor⟩

theorem validate_entry (hleaf : entry.type ≠ .leaf) : st.validateEntryForAppend entry = .ok () := by
  refine validate_ok.mpr ⟨?_, .inl ⟨hleaf, appendParentId_notLeaf hleaf⟩⟩
  by_cases hside : entry.side = true
  · exact .inr (by simp [leafIdUpdate_side hleaf hside, hasCursor])
  · by_cases hknown : entry.type.isPlugin = false
    · have hchild : IsChild entry := ⟨hleaf, hknown, by simpa using hside⟩
      exact .inl ⟨hleaf, by simp [hchild.leafIdUpdate]⟩
    · cases htype : entry.type with
      | plugin name =>
        exact .inr (by simp [leafIdUpdateAfterEntry, isSideAppendEntry, htype, hside, hasCursor])
      | _ => simp [htype, EntryType.isPlugin] at hknown

/-- A leaf row is taken when both entries it names are there. -/
theorem validate_leafRow (hleaf : entry.type = .leaf) : (st.validateEntryForAppend entry = .ok ()) ↔
      hasCursor st.byId entry.targetId = true ∧
        hasCursor st.byId (entry.appendParentId.getD entry.targetId) = true := by
  simp [validate_ok, leafIdUpdate_leafRow hleaf, appendParentIdAfterEntry, hleaf]

theorem appendEntry_ok (h : st.validateEntryForAppend entry = .ok ()) :
    st.appendEntry js entry = .ok ((st.writeLine js entry).record entry) := by
  have hagain : (st.writeLine js entry).validateEntryForAppend entry = .ok () := h
  simp [appendEntry, recordEntry, h, hagain, bind, Except.bind, pure, Except.pure]

theorem appendTypedEntry_ok (h : st.validateEntryForAppend entry = .ok ()) :
    (appendTypedEntry js st entry).2 = (st.writeLine js entry).record entry := by
  simp [appendTypedEntry, appendEntry_ok h]

theorem appendTypedEntry_error (h : st.validateEntryForAppend entry ≠ .ok ()) :
    (appendTypedEntry js st entry).2 = st := by
  cases hvalidate : st.validateEntryForAppend entry with
  | ok u => exact absurd hvalidate h
  | error error => simp [appendTypedEntry, appendEntry, hvalidate, bind, Except.bind]

theorem Simulates.appendUnderCursor_eq (h : Simulates st log) (minted : Minted)
    (build : Text → Option Text → SessionTreeEntry) : (appendUnderCursor js st minted build).2 =
      (appendTypedEntry js st (build (log.newId minted) log.cursor)).2 := by
  have hthere : st.getAppendParentId = .ok st.appendParentId := by
    simp [getAppendParentId, h.cursorThere]
  simp only [appendUnderCursor, hthere, h.newId_eq, h.cursor]

theorem Simulates.fresh (h : Simulates st log) {build : Text → SessionTreeEntry}
    (hfresh : Fresh js st.has minted build) : log.newId minted ≠ [] ∧ st.byId.find (log.newId minted) = none ∧
      js.ReadsBack (build (log.newId minted)).row := by
  rw [h.newId_eq]
  refine ⟨hfresh.notEmpty, ?_, hfresh.readsBack⟩
  simpa [JsonlSessionStorage.has, createEntryId] using hfresh.unused

/-- Every child that a session appends. -/
theorem Tracks.appendChild (h : Tracks js st log) (hchild : IsChild entry) (hread : Readable js entry)
    (hparent : entry.parentId = log.cursor) (hnew : st.byId.find entry.id = none) :
    Tracks js (appendTypedEntry js st entry).2 (log.addChild entry) := by
  rw [appendTypedEntry_ok (validate_entry hchild.notLeaf)]
  rw [h.simulates.cursor] at hparent
  exact h.record (h.simulates.addChild hchild hparent hread.id hnew) hread

/-- A leaf row is taken exactly when the log knows what it names. -/
theorem Tracks.appendLeafRow (h : Tracks js st log) (hleaf : entry.type = .leaf)
    (hread : Readable js entry) (hnew : st.byId.find entry.id = none) : Tracks js (appendTypedEntry js st entry).2
      (if log.knows entry.targetId && log.knows (entry.appendParentId.getD entry.targetId) then
        log.move entry.id entry.targetId (entry.appendParentId.getD entry.targetId) else log) := by
  rw [h.simulates.knows_eq, h.simulates.knows_eq]
  by_cases hvalid : st.validateEntryForAppend entry = .ok ()
  · obtain ⟨htarget, hcursor⟩ := (validate_leafRow hleaf).mp hvalid
    rw [appendTypedEntry_ok hvalid, htarget, hcursor]
    exact h.record (h.simulates.move hleaf hread.id hnew htarget hcursor) hread
  · have hunknown := mt (validate_leafRow hleaf).mpr hvalid
    rw [appendTypedEntry_error hvalid, if_neg (by simpa using hunknown)]
    exact h

theorem setLeafId_eq (h : Simulates st log) (minted : Minted) (leafId : Option Text)
    (hknown : hasCursor st.byId leafId = true) : st.setLeafId js minted leafId =
      .ok ((st.writeLine js (leafRow leafId none false minted.timestamp (log.newId minted)
        log.cursor)).record (leafRow leafId none false minted.timestamp (log.newId minted) log.cursor)) := by
  have hvalid : st.validateEntryForAppend (leafRow leafId none false minted.timestamp
      (log.newId minted) log.cursor) = .ok () :=
    (validate_leafRow rfl).mpr ⟨hknown, hknown⟩
  have hrow : st.appendEntry js _ = _ := appendEntry_ok hvalid
  simp only [appendEntry, hvalid, bind, Except.bind] at hrow
  rw [h.newId_eq, h.cursor] at hrow ⊢
  cases leafId with
  | none => exact hrow
  | some id =>
    have hhas : st.has id = true := hknown
    simp only [setLeafId, hhas, Bool.true_eq_false, if_false]
    exact hrow

theorem Tracks.append (h : Tracks js st log) {call : SessionAppend} (hfresh : Proper js st (.append call minted)) :
    Tracks js (sessionStep js st (.append call minted)) (log.step (.append call minted)) := by
  simp only [Proper, ← h.simulates.cursor] at hfresh
  obtain ⟨hid, hnew, hreads⟩ := h.simulates.fresh hfresh
  rw [sessionStep, Tree.append, h.simulates.appendUnderCursor_eq]
  refine h.appendChild ⟨?_, ?_, rfl⟩
    ⟨hid, hfresh.timestamp, hfresh.date, hreads, ?_, fun _ => rfl⟩ rfl hnew
  · cases call <;> simp [SessionAppend.entry, SessionAppend.type]
  · cases call <;> rfl
  · cases call <;> rfl

theorem Tracks.appendLabel (h : Tracks js st log) {targetId : Text} {label : Option Text}
    (hfresh : Proper js st (.appendLabel targetId label minted)) :
    Tracks js (sessionStep js st (.appendLabel targetId label minted))
      (log.step (.appendLabel targetId label minted)) := by
  simp only [Proper, ← h.simulates.cursor] at hfresh
  obtain ⟨hid, hnew, hreads⟩ := h.simulates.fresh hfresh
  rw [sessionStep, Tree.appendLabel, BranchLog.step, h.simulates.has_eq]
  cases hhas : st.has targetId with
  | false => simpa using h
  | true =>
    simp only [Bool.true_eq_false, if_false, if_true]
    rw [h.simulates.appendUnderCursor_eq]
    exact h.appendChild ⟨by simp [labelEntry], rfl, rfl⟩
      ⟨hid, hfresh.timestamp, hfresh.date, hreads, rfl, fun _ => rfl⟩ rfl hnew

theorem Tracks.appendSide (h : Tracks js st log) {content : SideContent}
    (hfresh : Proper js st (.appendSide content minted)) : Tracks js (sessionStep js st (.appendSide content minted))
      (log.step (.appendSide content minted)) := by
  simp only [Proper, ← h.simulates.cursor] at hfresh
  obtain ⟨hid, hnew, hreads⟩ := h.simulates.fresh hfresh
  rw [sessionStep, h.simulates.appendUnderCursor_eq]
  rw [appendTypedEntry_ok (validate_entry content.notLeaf)]
  refine h.record (h.simulates.addSide content.notLeaf rfl h.simulates.cursor hid hnew) ?_
  exact ⟨hid, hfresh.timestamp, hfresh.date, hreads, content.named, fun _ => rfl⟩

theorem Tracks.moveTo (h : Tracks js st log) {entryId : Option Text} {summary : Option (BranchSummary × Minted)}
    (hfresh : Proper js st (.moveTo entryId summary minted)) :
    Tracks js (sessionStep js st (.moveTo entryId summary minted)) (log.step (.moveTo entryId summary minted)) := by
  simp only [Proper, ← h.simulates.cursor] at hfresh
  obtain ⟨hfirst, hsummary⟩ := hfresh
  obtain ⟨hid, hnew, hreads⟩ := h.simulates.fresh hfirst
  rw [sessionStep, Tree.moveTo, BranchLog.step, h.simulates.knows_eq]
  cases hknown : hasCursor st.byId entryId with
  | false =>
    obtain ⟨id, rfl, hhas⟩ : ∃ id, entryId = some id ∧ st.has id = false := by
      cases entryId with
      | none => simp [hasCursor] at hknown
      | some id => exact ⟨id, rfl, hknown⟩
    simpa [Option.filter, hhas] using h
  | true =>
    have hnone : (entryId.filter fun id => !st.has id) = none := by
      cases entryId with
      | none => rfl
      | some id =>
        have hhas : st.has id = true := hknown
        simp [Option.filter, hhas]
    rw [hnone, setLeafId_eq h.simulates minted entryId hknown]
    simp only [if_true]
    set row := leafRow entryId none false minted.timestamp (log.newId minted) log.cursor with hrow
    have hread : Readable js row :=
      ⟨hid, hfirst.timestamp, hfirst.date, hreads, rfl, fun hleaf => absurd rfl hleaf⟩
    have hmoved : Tracks js ((st.writeLine js row).record row) (log.move (log.newId minted) entryId entryId) :=
      h.record (h.simulates.move rfl hid hnew hknown hknown) hread
    rcases summary with _ | ⟨summary, summaryMinted⟩
    · exact hmoved
    · have hhas : ((st.writeLine js row).record row).has =
          fun id => st.has id || id = st.createEntryId minted := by
        funext id
        rw [← h.simulates.newId_eq]
        simp only [JsonlSessionStorage.has, record_byId, Table.find_upsert]
        by_cases hsame : id = log.newId minted
        · simp [hrow, leafRow, hsame]
        · simp [hrow, leafRow, hsame, JsonlSessionStorage.writeLine]
      have hsecond : Fresh js ((st.writeLine js row).record row).has summaryMinted fun id =>
          summaryEntry summary summaryMinted.timestamp id entryId := by
        rw [hhas]
        exact hsummary summary summaryMinted rfl
      obtain ⟨hid₂, hnew₂, hreads₂⟩ := hmoved.simulates.fresh hsecond
      simp only
      rw [← hmoved.simulates.newId_eq]
      exact hmoved.appendChild ⟨by simp [summaryEntry], rfl, rfl⟩
        ⟨hid₂, hsecond.timestamp, hsecond.date, hreads₂, rfl, fun _ => rfl⟩ rfl hnew₂

theorem Tracks.step (h : Tracks js st log) {op : SessionOp} (hop : Proper js st op) :
    Tracks js (sessionStep js st op) (log.step op) := by
  cases op with
  | append call minted => exact h.append hop
  | appendLabel targetId label minted => exact h.appendLabel hop
  | appendSide content minted => exact h.appendSide hop
  | appendLeafRow targetId appendParentId side minted =>
    simp only [Proper, ← h.simulates.cursor] at hop
    obtain ⟨hid, hnew, hreads⟩ := h.simulates.fresh hop
    rw [sessionStep, h.simulates.appendUnderCursor_eq]
    exact h.appendLeafRow rfl
      ⟨hid, hop.timestamp, hop.date, hreads, rfl, fun hleaf => absurd rfl hleaf⟩ hnew
  | moveTo entryId summary minted => exact h.moveTo hop
  | reopen =>
    rw [sessionStep, h.faithful.openStorage_eq]
    exact h

end Operations

/-! ## Every run -/

theorem tracks_create {js : JsPlatform} {header : SessionHeader} (hreads : js.ReadsBack header.row)
    (h : parseHeaderLine js (js.stringify header.row) = .ok header) : Tracks js (create js header) .empty :=
  ⟨simulates_create js header, faithful_create hreads h⟩

theorem tracks_run {js : JsPlatform} (ops : List SessionOp) :
    ∀ {st : JsonlSessionStorage} {log : BranchLog}, Guarded (sessionStep js) (Proper js) st ops →
      Tracks js st log → Tracks js (run (sessionStep js) st ops) (run BranchLog.step log ops) := by
  induction ops with
  | nil => exact fun _ h => h
  | cons op rest ih =>
    rintro st log ⟨hop, hrest⟩ h
    exact ih hrest (h.step hop)

/-- The walk from an entry gives its branch, and the walk from the leaf the visible one. -/
theorem Simulates.getPathToRoot_eq {st : JsonlSessionStorage} {log : BranchLog}
    (h : Simulates st log) {at? : Option Text} (hthere : hasCursor st.byId at? = true) :
    st.getPathToRoot at? = .ok (log.branchTo at?) := by
  cases at? with
  | none => rfl
  | some id =>
    obtain ⟨entry, hfind⟩ : ∃ entry, st.byId.find id = some entry :=
      Option.isSome_iff_exists.mp (by simpa [hasCursor] using hthere)
    obtain ⟨path, hpath, hbranch⟩ := h.climbs id entry hfind
    rw [hpath.getPathToRoot_eq]
    simp [BranchLog.branchTo, hbranch]

theorem Simulates.getBranch_eq {st : JsonlSessionStorage} {log : BranchLog} (h : Simulates st log) :
    st.getBranch none = .ok (log.branchTo log.leaf) := by
  have hleaf : st.getLeafId = .ok st.leafId := by simp [getLeafId, h.leafThere]
  rw [h.leaf]
  simpa [getBranch, hleaf, bind, Except.bind] using h.getPathToRoot_eq h.leafThere

/-- A header whose line its own reader takes. -/
structure HeaderReads (js : JsPlatform) (header : SessionHeader) : Prop where
  readsBack : js.ReadsBack header.row
  id : header.id ≠ []
  timestamp : header.timestamp ≠ []
  date : parseSessionTimestampMs js header.timestamp ≠ none
  cwd : header.cwd ≠ []

/-- A new session file after some operations. -/
def sessionAfter (js : JsPlatform) (header : SessionHeader) (ops : List SessionOp) : JsonlSessionStorage :=
  run (sessionStep js) (create js header) ops

/-- The log of branches after the same operations. -/
def logAfter (ops : List SessionOp) : BranchLog := run BranchLog.step .empty ops

/-- **A session tree is a log of branches.**  After any session operations, reopenings included, the
visible branch is the branch of the leaf in the log, the walk from every entry that is there gives its
branch in the log without an error, and the file opens to the very storage that wrote it, so to the
same leaf, append parent, labels and branches. -/
theorem session_tree_is_branch_log {js : JsPlatform} {header : SessionHeader}
    (hheader : HeaderReads js header) {ops : List SessionOp}
    (hops : Guarded (sessionStep js) (Proper js) (create js header) ops) :
    (sessionAfter js header ops).leafId = (logAfter ops).leaf ∧ (sessionAfter js header ops).getBranch none =
        .ok ((logAfter ops).branchTo (logAfter ops).leaf) ∧
      (∀ id, (sessionAfter js header ops).has id = (logAfter ops).has id) ∧
      (∀ id, (sessionAfter js header ops).has id = true → (sessionAfter js header ops).getPathToRoot (some id) =
          .ok ((logAfter ops).branchTo (some id))) ∧
      openStorage js (sessionAfter js header ops).content = .ok (sessionAfter js header ops) := by
  have hline := parseHeaderLine_stringify hheader.readsBack hheader.id hheader.timestamp hheader.date
    hheader.cwd
  have h : Tracks js (sessionAfter js header ops) (logAfter ops) :=
    tracks_run ops hops (tracks_create hheader.readsBack hline)
  refine ⟨h.simulates.leaf.symm, h.simulates.getBranch_eq, ?_, ?_, h.faithful.openStorage_eq⟩
  · intro id
    rw [h.simulates.has_eq]
  · intro id hid
    exact h.simulates.getPathToRoot_eq hid

/-! ## A run on one file -/

def stringifyField (name : String) : JsonField → List Text
  | .absent => []
  | .null => [("\"" ++ name ++ "\":null").toList]
  | .number value => [("\"" ++ name ++ "\":").toList ++ (toString value).toList]
  | .text value => [("\"" ++ name ++ "\":\"").toList ++ value ++ ['"']]
  | .other => [("\"" ++ name ++ "\":true").toList]

/-- `JSON.stringify` of a row whose texts need no escape. -/
def stringifyRow (row : JsonRow) : Text :=
  let members := stringifyField "type" row.type ++ stringifyField "version" row.version ++
    stringifyField "id" row.id ++ stringifyField "parentId" row.parentId ++
    stringifyField "timestamp" row.timestamp ++ stringifyField "cwd" row.cwd ++
    stringifyField "parentSession" row.parentSession ++ stringifyField "targetId" row.targetId ++
    stringifyField "appendParentId" row.appendParentId ++
    stringifyField "appendMode" row.appendMode ++ stringifyField "label" row.label ++
    row.fields.map fun (name, value) => '"' :: name ++ "\":".toList ++ value
  '{' :: List.intercalate [','] members ++ ['}']

def noon : Text := "2026-06-15T12:00:00.000Z".toList

/-- JSON and dates on some rows and one timestamp. -/
def jsOn (rows : List JsonRow) : JsPlatform where
  stringify := stringifyRow
  parse line := rows.find? fun row => stringifyRow row = line
  dateParse text := if text = noon then some 1781524800000 else none

def sampleHeader : SessionHeader := { id := "s1".toList, timestamp := noon, cwd := "/repo".toList }

def drawn (uuid : String) : Minted := ⟨fun _ => uuid.toList, noon⟩

def sampleAside : SideContent where
  type := .custom
  targetId := none
  label := none
  fields := [("customType".toList, "\"note\"".toList)]
  notLeaf := by decide
  named := rfl

/-- A message, an aside, a second message that hangs from the first, and a move to the root. -/
def sampleOps : List SessionOp :=
  [.append (.appendMessage "1".toList) (drawn "m1"), .appendSide sampleAside (drawn "a1"),
    .append (.appendMessage "2".toList) (drawn "m2"), .moveTo none none (drawn "l1"), .reopen]

def sampleRows : List JsonRow :=
  [sampleHeader.row,
    (SessionAppend.entry (.appendMessage "1".toList) noon "m1".toList none).row,
    (sampleAside.entry noon "a1".toList (some "m1".toList)).row,
    (SessionAppend.entry (.appendMessage "2".toList) noon "m2".toList (some "a1".toList)).row,
    (leafRow none none false noon "l1".toList (some "m2".toList)).row]

theorem jsOn_readsBack {rows : List JsonRow} {row : JsonRow}
    (h : rows.find? (fun row' => stringifyRow row' = stringifyRow row) = some row ∧
      '\n' ∉ stringifyRow row ∧ textTrim (stringifyRow row) ≠ []) : (jsOn rows).ReadsBack row :=
  ⟨h.1, h.2.1, h.2.2⟩

theorem session_tree_is_branch_log_aside :
    (sessionAfter (jsOn sampleRows) sampleHeader sampleOps).leafId = (logAfter sampleOps).leaf := by
  have hops : Guarded (sessionStep (jsOn sampleRows)) (Proper (jsOn sampleRows))
      (create (jsOn sampleRows) sampleHeader) sampleOps :=
    ⟨⟨by decide, by decide, by decide, by decide, jsOn_readsBack (by decide)⟩,
      ⟨by decide, by decide, by decide, by decide, jsOn_readsBack (by decide)⟩,
      ⟨by decide, by decide, by decide, by decide, jsOn_readsBack (by decide)⟩,
      ⟨⟨by decide, by decide, by decide, by decide, jsOn_readsBack (by decide)⟩, by simp⟩,
      trivial, trivial⟩
  exact (session_tree_is_branch_log
    ⟨jsOn_readsBack (by decide), by decide, by decide, by decide, by decide⟩ hops).1

end OpenClaw.Harness.Tree
