/-
# OpenClaw.Harness.SessionReopen -- a session file says all that its storage knows

Everything a storage holds beside its file is a fold of the entries on that file, so the storage built
by loading the file is the storage that wrote it.
-/
import OpenClaw.Harness.SessionOps

namespace OpenClaw.Harness.Tree

open OpenClaw.Data JsonlSessionStorage

/-! ## One line -/

theorem requireText_text {value : Text} (h : value ≠ []) (error : SessionError) :
    requireText (.text value) error = .ok value := by
  simp [requireText, h]

@[simp] theorem requireNullable_ofNullable (value : Option Text) (error : SessionError) :
    requireNullable (.ofNullable value) error = .ok value := by
  cases value <;> rfl

@[simp] theorem text?_ofOptional (value : Option Text) : (JsonField.ofOptional value).text? = value := by
  cases value <;> rfl

theorem ofNullable_ne_absent (value : Option Text) : JsonField.ofNullable value ≠ .absent := by
  cases value <;> simp [JsonField.ofNullable]

/-- An entry whose line passes the checks of the reader. -/
structure Readable (js : JsPlatform) (entry : SessionTreeEntry) : Prop where
  id : entry.id ≠ []
  timestamp : entry.timestamp ≠ []
  date : parseSessionTimestampMs js entry.timestamp ≠ none
  readsBack : js.ReadsBack entry.row
  named : EntryType.ofName entry.type.name = entry.type
  onlyLeaf : entry.type ≠ .leaf → entry.appendParentId = none

variable {js : JsPlatform}

theorem parseEntryLine_stringify {entry : SessionTreeEntry} (h : Readable js entry) (lineNumber : Nat) :
    parseEntryLine js (js.stringify entry.row) lineNumber = .ok entry := by
  obtain ⟨type, id, parentId, timestamp, side, targetId, appendParentId, label, fields⟩ := entry
  obtain ⟨hid, htimestamp, hdate, hreads, hnamed, honly⟩ := h
  simp only at hid htimestamp hdate hnamed honly
  rw [parseEntryLine, hreads.parse_stringify]
  simp only [SessionTreeEntry.row, hnamed, bind, Except.bind,
    requireText_text hid, requireText_text htimestamp, requireNullable_ofNullable, if_neg hdate]
  by_cases hleaf : type = .leaf
  · cases appendParentId with
    | none => cases side <;> simp [hleaf, pure, Except.pure]
    | some appendParentId => cases side <;> simp [hleaf, ofNullable_ne_absent, Except.map, pure, Except.pure]
  · obtain rfl := honly hleaf
    cases side <;> simp [hleaf, pure, Except.pure]

theorem parseHeaderLine_stringify {header : SessionHeader} (hreads : js.ReadsBack header.row) (hid : header.id ≠ [])
    (htimestamp : header.timestamp ≠ []) (hdate : parseSessionTimestampMs js header.timestamp ≠ none)
    (hcwd : header.cwd ≠ []) : parseHeaderLine js (js.stringify header.row) = .ok header := by
  obtain ⟨id, timestamp, cwd, parentSession⟩ := header
  simp only at hid htimestamp hdate hcwd
  rw [parseHeaderLine, hreads.parse_stringify]
  simp only [SessionHeader.row, bind, Except.bind,
    requireText_text hid, requireText_text htimestamp, requireText_text hcwd, if_neg hdate]
  cases parentSession <;> rfl

/-! ## The lines of a file -/

/-- The lines, each ended. -/
def fileOf (lines : List Text) : Text := lines.flatMap (· ++ ['\n'])

theorem splitOn_fileOf {lines : List Text} (h : ∀ line ∈ lines, '\n' ∉ line) :
    (fileOf lines).splitOn '\n' = lines ++ [[]] := by
  induction lines with
  | nil => rfl
  | cons line rest ih =>
    have hsplit := List.splitOn_append_cons_self_of_not_mem (h line (by simp)) (fileOf rest)
    rw [ih fun l hl => h l (List.mem_cons_of_mem _ hl)] at hsplit
    simpa [fileOf] using hsplit

theorem loadLines_entries {js : JsPlatform} {entries : List SessionTreeEntry}
    (h : ∀ entry ∈ entries, Readable js entry) (scan : LoadScan) (lineNumber : Nat) :
    loadLines js scan (entries.map (js.stringify ·.row) ++ [[]]) lineNumber =
      .ok { entries := scan.entries ++ entries
            leafId := entries.foldl (fun leafId entry => (leafIdUpdateAfterEntry entry).getD leafId) scan.leafId
            appendParentId := entries.foldl (fun _ entry => appendParentIdAfterEntry entry) scan.appendParentId } := by
  induction entries generalizing scan lineNumber with
  | nil => simp [loadLines, LoadScan.line, textTrim, stripBoth, bind, Except.bind]
  | cons entry rest ih =>
    have hread := h entry (by simp)
    have hentry := parseEntryLine_stringify hread lineNumber
    simp only [List.map_cons, List.cons_append, loadLines, LoadScan.line,
      if_neg hread.readsBack.notBlank,
      hentry, bind, Except.bind, pure, Except.pure]
    rw [ih fun e he => h e (List.mem_cons_of_mem _ he)]
    simp

/-! ## The storage -/

theorem logicalScan_cursors (entries : List SessionTreeEntry) (scan : LogicalScan) :
    (entries.foldl LogicalScan.next scan).leafId =
        entries.foldl (fun leafId entry => (leafIdUpdateAfterEntry entry).getD leafId) scan.leafId ∧
      (entries.foldl LogicalScan.next scan).appendParentId =
        entries.foldl (fun _ entry => appendParentIdAfterEntry entry) scan.appendParentId := by
  induction entries generalizing scan with
  | nil => exact ⟨rfl, rfl⟩
  | cons entry rest ih => exact ih (scan.next entry)

/-- What a storage holds is what its entries fold to, and its file lists them. -/
structure Faithful (js : JsPlatform) (st : JsonlSessionStorage) : Prop where
  content : st.content = fileOf (js.stringify st.header.row :: st.entries.map (js.stringify ·.row))
  headerReadsBack : js.ReadsBack st.header.row
  header : parseHeaderLine js (js.stringify st.header.row) = .ok st.header
  readable : ∀ entry ∈ st.entries, Readable js entry
  byId : st.byId = indexById st.entries
  labelsById : st.labelsById = buildLabelsById st.entries
  logicalParentsById : st.logicalParentsById = buildLogicalParentsById st.entries
  leafId : st.leafId = resolveLeafId st.entries
  appendParentId : st.appendParentId = resolveAppendParentId st.entries
  leafThere : hasCursor st.byId st.leafId = true
  appendParentThere : hasCursor st.byId st.appendParentId = true

theorem Faithful.openStorage_eq {st : JsonlSessionStorage} (h : Faithful js st) :
    openStorage js st.content = .ok st := by
  have hlines : ∀ line ∈ js.stringify st.header.row :: st.entries.map (js.stringify ·.row), '\n' ∉ line := by
    simp only [List.mem_cons, List.mem_map]
    rintro line (rfl | ⟨entry, hentry, rfl⟩)
    · exact h.headerReadsBack.oneLine
    · exact (h.readable entry hentry).readsBack.oneLine
  have hsplit := splitOn_fileOf hlines
  rw [← h.content] at hsplit
  have hload := loadLines_entries h.readable ⟨[], none, none⟩ 2
  simp only [openStorage, hsplit, List.cons_append, fromHeader, if_neg h.headerReadsBack.notBlank, h.header,
    bind, Except.bind, Nat.zero_add, hload, List.nil_append]
  have hleaf : hasCursor (indexById st.entries) (resolveLeafId st.entries) = true := by
    rw [← h.byId, ← h.leafId]
    exact h.leafThere
  have hcursor : hasCursor (indexById st.entries) (resolveAppendParentId st.entries) = true := by
    rw [← h.byId, ← h.appendParentId]
    exact h.appendParentThere
  have hconstruct : construct st.header st.content st.entries (resolveLeafId st.entries)
      (resolveAppendParentId st.entries) = .ok st := by
    simp only [construct, hleaf, hcursor, Bool.true_eq_false, if_false, bind, Except.bind, pure, Except.pure]
    rw [← h.byId, ← h.labelsById, ← h.logicalParentsById, ← h.leafId, ← h.appendParentId]
  exact hconstruct

theorem faithful_create {header : SessionHeader} (hreads : js.ReadsBack header.row)
    (h : parseHeaderLine js (js.stringify header.row) = .ok header) : Faithful js (create js header) := by
  refine ⟨by simp [create, fileOf], hreads, h, ?_, rfl, rfl, rfl, rfl, rfl, rfl, rfl⟩
  intro entry hentry
  simp [create] at hentry

/-- Recording one more entry and writing its line keeps all of it. -/
theorem Faithful.record {st : JsonlSessionStorage} (h : Faithful js st) {entry : SessionTreeEntry}
    (hentry : Readable js entry) (hleaf : hasCursor (st.record entry).byId (st.record entry).leafId = true)
    (hcursor : hasCursor (st.record entry).byId (st.record entry).appendParentId = true) :
    Faithful js ((st.writeLine js entry).record entry) where
  content := by
    simp [JsonlSessionStorage.record, writeLine, h.content, fileOf]
  headerReadsBack := h.headerReadsBack
  header := h.header
  readable e he := by
    rcases List.mem_append.mp he with he | he
    · exact h.readable e he
    · rw [List.mem_singleton.mp he]
      exact hentry
  byId := by
    simp [JsonlSessionStorage.record, writeLine, h.byId, indexById]
  labelsById := by
    simp [JsonlSessionStorage.record, writeLine, h.labelsById, buildLabelsById]
  logicalParentsById := by
    obtain ⟨hscanLeaf, hscanCursor⟩ := logicalScan_cursors st.entries ⟨.empty, none, none⟩
    simp only [JsonlSessionStorage.record, writeLine, h.logicalParentsById, h.leafId,
      h.appendParentId, buildLogicalParentsById, List.foldl_append, List.foldl_cons, List.foldl_nil,
      LogicalScan.next, hscanLeaf, hscanCursor, resolveLeafId, resolveAppendParentId]
  leafId := by
    simp [JsonlSessionStorage.record, writeLine, h.leafId, resolveLeafId]
  appendParentId := by
    simp [JsonlSessionStorage.record, writeLine, resolveAppendParentId]
  leafThere := hleaf
  appendParentThere := hcursor

end OpenClaw.Harness.Tree
