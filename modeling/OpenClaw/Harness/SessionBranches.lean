/-
# OpenClaw.Harness.SessionBranches -- what a session tree means

The meaning of a session is a log of branches.  Each entry has a branch, the entries from the root down
to it, which is settled when the entry is added and never changes: a side append extends the branch of
the append cursor, every other entry the branch of the leaf, and a leaf row stands for its target.  The
storage keeps parents instead and walks them; here the two are shown to agree after every run.
-/
import OpenClaw.Data.ParentChain
import OpenClaw.Harness.SessionReopen

namespace OpenClaw.Harness.Tree

open OpenClaw.Data OpenClaw.Logic JsonlSessionStorage

/-! ## The abstract model -/

structure BranchLog where
  branch : Text → Option (List SessionTreeEntry)
  leaf : Option Text
  cursor : Option Text

namespace BranchLog

def empty : BranchLog := ⟨fun _ => none, none, none⟩

def has (log : BranchLog) (id : Text) : Bool := (log.branch id).isSome

/-- The branch down to an entry, and the empty one at the root. -/
def branchTo (log : BranchLog) (at? : Option Text) : List SessionTreeEntry := (at?.bind log.branch).getD []

def setBranch (log : BranchLog) (id : Text) (branch : List SessionTreeEntry) : BranchLog :=
  { log with branch := fun id' => if id' = id then some branch else log.branch id' }

/-- A child of the leaf, which becomes the leaf. -/
def addChild (log : BranchLog) (entry : SessionTreeEntry) : BranchLog :=
  { log.setBranch entry.id (log.branchTo log.leaf ++ [entry]) with
    leaf := some entry.id, cursor := some entry.id }

/-- An entry under the append cursor; the leaf stays where it is. -/
def addSide (log : BranchLog) (entry : SessionTreeEntry) : BranchLog :=
  { log.setBranch entry.id (log.branchTo log.cursor ++ [entry]) with cursor := some entry.id }

/-- A row that is on no branch itself and moves the leaf. -/
def move (log : BranchLog) (rowId : Text) (leaf cursor : Option Text) : BranchLog :=
  { log.setBranch rowId (log.branchTo leaf) with leaf, cursor }

def knows (log : BranchLog) (at? : Option Text) : Bool := at?.all log.has

def newId (log : BranchLog) (minted : Minted) : Text := generateEntryId log.has minted

def step (log : BranchLog) : SessionOp → BranchLog
  | .append call minted => log.addChild (call.entry minted.timestamp (log.newId minted) log.cursor)
  | .appendLabel targetId label minted =>
    if log.has targetId then
      log.addChild (labelEntry targetId label minted.timestamp (log.newId minted) log.cursor)
    else log
  | .appendSide content minted => log.addSide (content.entry minted.timestamp (log.newId minted) log.cursor)
  | .appendLeafRow targetId appendParentId _ minted =>
    if log.knows targetId && log.knows (appendParentId.getD targetId) then
      log.move (log.newId minted) targetId (appendParentId.getD targetId)
    else log
  | .moveTo entryId summary minted =>
    if log.knows entryId then
      let moved := log.move (log.newId minted) entryId entryId
      match summary with
      | none => moved
      | some (summary, minted) => moved.addChild (summaryEntry summary minted.timestamp (moved.newId minted) entryId)
    else log
  | .reopen => log

end BranchLog

/-! ## Walking the parents -/

namespace JsonlSessionStorage

def parentOf (st : JsonlSessionStorage) (id : Text) : Option Text := (st.byId.find id).bind st.visibleParent

/-- The entries of a path, without its leaf rows. -/
def shown (st : JsonlSessionStorage) (path : List Text) : List SessionTreeEntry :=
  (path.filterMap st.byId.find).filter (·.type ≠ .leaf)

end JsonlSessionStorage

/-- A chain of parents through entries that are there, each under its own id. -/
structure Climbs (st : JsonlSessionStorage) (id : Text) (path : List Text) : Prop where
  chain : ParentChain st.parentOf id path
  there : ∀ x ∈ path, ∃ entry, st.byId.find x = some entry ∧ entry.id = x

theorem climb_eq_shown {st : JsonlSessionStorage} {id : Text} {path : List Text}
    (hchain : ParentChain st.parentOf id path)
    (hthere : ∀ x ∈ path, ∃ entry, st.byId.find x = some entry ∧ entry.id = x) :
    ∀ {rounds : Nat} {seen : List Text} {entry : SessionTreeEntry} {below : List SessionTreeEntry},
      st.byId.find id = some entry → path.length ≤ rounds → (∀ x ∈ path, x ∉ seen) →
      st.climb rounds seen entry below = .ok (st.shown path ++ below) := by
  induction hchain with
  | @root k hroot =>
    intro rounds seen entry below hentry hrounds hseen
    obtain ⟨entry', hentry', hid⟩ := hthere k (by simp)
    obtain rfl : entry' = entry := Option.some.inj (hentry'.symm.trans hentry)
    obtain ⟨rounds, rfl⟩ : ∃ n, rounds = n + 1 := ⟨rounds - 1, by simp at hrounds; omega⟩
    have hparent : st.visibleParent entry' = none := by simpa [parentOf, hentry] using hroot
    have hnew : entry'.id ∉ seen := hid ▸ hseen k (by simp)
    simp only [climb, if_neg hnew, hparent, shown, List.filterMap_cons, hentry, List.filterMap_nil]
    by_cases hleaf : entry'.type = .leaf <;> simp [hleaf]
  | @child k p path hparent hp ih =>
    intro rounds seen entry below hentry hrounds hseen
    obtain ⟨entry', hentry', hid⟩ := hthere k (by simp)
    obtain rfl : entry' = entry := Option.some.inj (hentry'.symm.trans hentry)
    obtain ⟨rounds, rfl⟩ : ∃ n, rounds = n + 1 := ⟨rounds - 1, by simp at hrounds; omega⟩
    have hthereUp : ∀ x ∈ path, ∃ entry, st.byId.find x = some entry ∧ entry.id = x :=
      fun x hx => hthere x (List.mem_append_left _ hx)
    obtain ⟨parent, hfind, _⟩ := hthereUp p hp.self_mem
    have hup : st.visibleParent entry' = some p := by simpa [parentOf, hentry] using hparent
    have hnew : entry'.id ∉ seen := hid ▸ hseen k (by simp)
    have hseenUp : ∀ x ∈ path, x ∉ entry'.id :: seen := by
      intro x hx hmem
      rcases List.mem_cons.mp hmem with rfl | hmem
      · exact ParentChain.not_mem_above hparent hp (hid ▸ hx)
      · exact hseen x (List.mem_append_left _ hx) hmem
    have hroundsUp : path.length ≤ rounds := by simpa using hrounds
    simp only [climb, if_neg hnew, hup, hfind]
    rw [ih hthereUp hfind hroundsUp hseenUp]
    by_cases hleaf : entry'.type = .leaf <;> simp [hleaf, shown, hentry]

theorem Climbs.getPathToRoot_eq {st : JsonlSessionStorage} {id : Text} {path : List Text}
    (h : Climbs st id path) : st.getPathToRoot (some id) = .ok (st.shown path) := by
  obtain ⟨entry, hentry, -⟩ := h.there id h.chain.self_mem
  have hsub : path ⊆ st.byId.keys := by
    intro x hx
    obtain ⟨found, hfound, -⟩ := h.there x hx
    exact (st.byId.mem_keys x).mpr (by simp [hfound])
  have hlength := h.chain.length_le hsub
  have hclimb : st.climb (st.byId.keys.length + 1) [] entry [] = .ok (st.shown path ++ []) :=
    climb_eq_shown h.chain h.there hentry (by omega) (by simp)
  simpa [getPathToRoot, hentry] using hclimb

/-! ## One more entry -/

/-- The storage and the log agree on the cursors, and every walk ends with the branch in the log. -/
structure Simulates (st : JsonlSessionStorage) (log : BranchLog) : Prop where
  leaf : log.leaf = st.leafId
  cursor : log.cursor = st.appendParentId
  leafThere : hasCursor st.byId st.leafId = true
  cursorThere : hasCursor st.byId st.appendParentId = true
  keyed : ∀ id entry, st.byId.find id = some entry → entry.id = id ∧ id ≠ []
  missing : ∀ id, st.byId.find id = none → log.branch id = none
  climbs : ∀ id entry, st.byId.find id = some entry → ∃ path, Climbs st id path ∧ log.branch id = some (st.shown path)
  logicalThere : ∀ id parent, st.logicalParentsById.find id = some parent → st.byId.find id ≠ none

theorem simulates_create (js : JsPlatform) (header : SessionHeader) : Simulates (create js header) .empty := by
  refine ⟨rfl, rfl, rfl, rfl, ?_, fun _ _ => rfl, ?_, ?_⟩
  · intro id entry h
    simp [create] at h
  · intro id entry h
    simp [create] at h
  · intro id parent h
    simp [create] at h

/-- The part of a branch that an entry adds itself. -/
def ownPart (entry : SessionTreeEntry) : List SessionTreeEntry :=
  if entry.type = .leaf then [] else [entry]

section Record

variable {st : JsonlSessionStorage} {log : BranchLog} {entry : SessionTreeEntry}

theorem Simulates.has_eq (h : Simulates st log) : log.has = st.has := by
  funext id
  unfold BranchLog.has JsonlSessionStorage.has
  cases hfind : st.byId.find id with
  | none => simp [h.missing id hfind]
  | some found =>
    obtain ⟨path, -, hbranch⟩ := h.climbs id found hfind
    simp [hbranch]

theorem Simulates.knows_eq (h : Simulates st log) (at? : Option Text) : log.knows at? = hasCursor st.byId at? := by
  unfold BranchLog.knows hasCursor
  rw [h.has_eq]
  rfl

theorem Simulates.newId_eq (h : Simulates st log) (minted : Minted) : log.newId minted = st.createEntryId minted := by
  unfold BranchLog.newId createEntryId
  rw [h.has_eq]

theorem hasCursor_upsert {id : Text} (byId : Table Text SessionTreeEntry) {cursor : Option Text}
    (h : hasCursor byId cursor = true) : hasCursor (byId.upsert id entry) cursor = true := by
  cases cursor with
  | none => rfl
  | some at? =>
    simp only [hasCursor, Option.all_some, Table.find_upsert] at h ⊢
    split
    · rfl
    · exact h

@[simp] theorem record_byId (st : JsonlSessionStorage) (entry : SessionTreeEntry) :
    (st.record entry).byId = st.byId.upsert entry.id entry := rfl

/-- Older entries keep their visible parent. -/
theorem visibleParent_record {old : SessionTreeEntry} (hne : old.id ≠ entry.id) :
    (st.record entry).visibleParent old = st.visibleParent old := by
  have hlogical : (st.record entry).logicalParentsById.find old.id = st.logicalParentsById.find old.id := by
    unfold JsonlSessionStorage.record
    by_cases hhangs : hangsFromLeaf st.leafId st.appendParentId entry = true
    · simp [hhangs, Table.find_upsert_ne _ hne]
    · simp [hhangs]
  unfold visibleParent
  rw [hlogical]

theorem Climbs.record {id : Text} {path : List Text} (h : Climbs st id path) (hnew : st.byId.find entry.id = none) :
    Climbs (st.record entry) id path ∧ (st.record entry).shown path = st.shown path := by
  have hne : ∀ x ∈ path, x ≠ entry.id := by
    rintro x hx rfl
    obtain ⟨found, hfound, -⟩ := h.there _ hx
    simp [hnew] at hfound
  have hfind : ∀ x ∈ path, (st.record entry).byId.find x = st.byId.find x :=
    fun x hx => Table.find_upsert_ne _ (hne x hx) _
  refine ⟨⟨h.chain.congr ?_, ?_⟩, ?_⟩
  · intro x hx
    obtain ⟨found, hfound, hid⟩ := h.there x hx
    have hold : found.id ≠ entry.id := hid ▸ hne x hx
    simp only [parentOf, hfind x hx, hfound, Option.bind_some, visibleParent_record hold]
  · intro x hx
    rw [hfind x hx]
    exact h.there x hx
  · unfold shown
    rw [List.filterMap_congr hfind]

/-- The walk from the new entry goes on with the walk from its visible parent. -/
theorem Simulates.climbs_new (h : Simulates st log) (hnew : st.byId.find entry.id = none) {above : Option Text}
    (habove : (st.record entry).visibleParent entry = above) (hthere : hasCursor st.byId above = true) :
    ∃ path, Climbs (st.record entry) entry.id path ∧
      (st.record entry).shown path = log.branchTo above ++ ownPart entry := by
  have hself : (st.record entry).byId.find entry.id = some entry := Table.find_upsert_self _ _ _
  have hparent : (st.record entry).parentOf entry.id = above := by
    simp [parentOf, habove]
  have hown : [entry].filter (·.type ≠ .leaf) = ownPart entry := by
    unfold ownPart
    by_cases hleaf : entry.type = .leaf <;> simp [hleaf]
  cases above with
  | none =>
    refine ⟨[entry.id], ⟨.root hparent, ?_⟩, ?_⟩
    · intro x hx
      obtain rfl := List.mem_singleton.mp hx
      exact ⟨entry, hself, rfl⟩
    · simp only [shown, List.filterMap_cons, hself, List.filterMap_nil, hown]
      rfl
  | some p =>
    obtain ⟨parent, hfind⟩ : ∃ parent, st.byId.find p = some parent :=
      Option.isSome_iff_exists.mp (by simpa [hasCursor] using hthere)
    obtain ⟨path, hpath, hbranch⟩ := h.climbs p parent hfind
    obtain ⟨hrecord, hshown⟩ := hpath.record hnew
    refine ⟨path ++ [entry.id], ⟨.child hparent hrecord.chain, ?_⟩, ?_⟩
    · intro x hx
      rcases List.mem_append.mp hx with hx | hx
      · exact hrecord.there x hx
      · obtain rfl := List.mem_singleton.mp hx
        exact ⟨entry, hself, rfl⟩
    · have hlast : [entry.id].filterMap (st.record entry).byId.find = [entry] := by
        simp
      rw [shown, List.filterMap_append, List.filter_append, hlast, hown]
      change (st.record entry).shown path ++ _ = _
      rw [hshown]
      simp [BranchLog.branchTo, hbranch]

/-- What every addition comes to: a fresh entry, and the branch of its visible parent. -/
theorem Simulates.record (h : Simulates st log) (hid : entry.id ≠ [])
    (hnew : st.byId.find entry.id = none) {above : Option Text}
    (habove : (st.record entry).visibleParent entry = above)
    (hthere : hasCursor st.byId above = true) {log' : BranchLog}
    (hbranch : log'.branch = (log.setBranch entry.id (log.branchTo above ++ ownPart entry)).branch)
    (hleaf : log'.leaf = (st.record entry).leafId) (hcursor : log'.cursor = (st.record entry).appendParentId)
    (hleafThere : hasCursor (st.record entry).byId (st.record entry).leafId = true)
    (hcursorThere : hasCursor (st.record entry).byId (st.record entry).appendParentId = true) :
    Simulates (st.record entry) log' := by
  refine ⟨hleaf, hcursor, hleafThere, hcursorThere, ?_, ?_, ?_, ?_⟩
  · intro id found hfind
    rw [record_byId, Table.find_upsert] at hfind
    split at hfind
    · subst id
      obtain rfl := Option.some.inj hfind
      exact ⟨rfl, hid⟩
    · exact h.keyed id found hfind
  · intro id hfind
    rw [record_byId, Table.find_upsert] at hfind
    split at hfind
    · simp at hfind
    · rename_i hne
      rw [hbranch]
      simp only [BranchLog.setBranch, if_neg hne]
      exact h.missing id hfind
  · intro id found hfind
    rw [record_byId, Table.find_upsert] at hfind
    split at hfind
    · subst id
      obtain ⟨path, hpath, hshown⟩ := h.climbs_new hnew habove hthere
      refine ⟨path, hpath, ?_⟩
      rw [hbranch, hshown]
      simp [BranchLog.setBranch]
    · rename_i hne
      obtain ⟨path, hpath, hold⟩ := h.climbs id found hfind
      obtain ⟨hrecord, hshown⟩ := hpath.record hnew
      refine ⟨path, hrecord, ?_⟩
      rw [hbranch, hshown]
      simpa [BranchLog.setBranch, if_neg hne] using hold
  · intro id parent hfind
    rw [record_byId, Table.find_upsert]
    split
    · simp
    · rename_i hne
      refine h.logicalThere id parent ?_
      unfold JsonlSessionStorage.record at hfind
      by_cases hhangs : hangsFromLeaf st.leafId st.appendParentId entry = true
      · simpa [hhangs, Table.find_upsert_ne _ hne] using hfind
      · simpa [hhangs] using hfind

/-! ## The three kinds of entries -/

/-- A cursor that is there is no empty text, so the walk does not take it for the root. -/
theorem Simulates.filter_cursor (h : Simulates st log) {cursor : Option Text}
    (hthere : hasCursor st.byId cursor = true) : cursor.filter (· ≠ []) = cursor := by
  cases cursor with
  | none => rfl
  | some id =>
    obtain ⟨found, hfound⟩ : ∃ found, st.byId.find id = some found :=
      Option.isSome_iff_exists.mp (by simpa [hasCursor] using hthere)
    simp [(h.keyed id found hfound).2]

theorem Simulates.logical_none (h : Simulates st log) {id : Text} (hnew : st.byId.find id = none) :
    st.logicalParentsById.find id = none := by
  cases hlogical : st.logicalParentsById.find id with
  | none => rfl
  | some parent => exact absurd hnew (h.logicalThere id parent hlogical)

/-- An entry that becomes the leaf. -/
structure IsChild (entry : SessionTreeEntry) : Prop where
  notLeaf : entry.type ≠ .leaf
  known : entry.type.isPlugin = false
  notSide : entry.side = false

theorem IsChild.leafIdUpdate (h : IsChild entry) : leafIdUpdateAfterEntry entry = some (some entry.id) := by
  obtain ⟨hleaf, hknown, hside⟩ := h
  unfold leafIdUpdateAfterEntry isSideAppendEntry
  cases htype : entry.type with
  | leaf => exact absurd htype hleaf
  | plugin name => simp [htype, EntryType.isPlugin] at hknown
  | _ => simp [hside]

theorem appendParentId_notLeaf (h : entry.type ≠ .leaf) : appendParentIdAfterEntry entry = some entry.id := by
  simp [appendParentIdAfterEntry, h]

theorem leafIdUpdate_leafRow (h : entry.type = .leaf) : leafIdUpdateAfterEntry entry = some entry.targetId := by
  simp [leafIdUpdateAfterEntry, h]

theorem leafIdUpdate_side (hleaf : entry.type ≠ .leaf) (hside : entry.side = true) :
    leafIdUpdateAfterEntry entry = none := by
  simp [leafIdUpdateAfterEntry, isSideAppendEntry, hleaf, hside]

/-- Whatever the append cursor is, the walk from a child goes to the leaf. -/
theorem Simulates.visibleParent_child (h : Simulates st log) (hchild : IsChild entry)
    (hparent : entry.parentId = st.appendParentId) (hnew : st.byId.find entry.id = none) :
    (st.record entry).visibleParent entry = st.leafId := by
  have hlogical : (st.record entry).logicalParentsById.find entry.id =
      if st.leafId ≠ st.appendParentId then some st.leafId else none := by
    unfold JsonlSessionStorage.record
    by_cases hsame : st.leafId = st.appendParentId
    · simp [hangsFromLeaf, hsame, h.logical_none hnew]
    · simp [hangsFromLeaf, hchild.leafIdUpdate, isSideAppendEntry, hchild.notSide, hparent, hsame]
  unfold visibleParent
  rw [if_neg hchild.notLeaf, hlogical]
  by_cases hsame : st.leafId = st.appendParentId
  · simpa [hsame, hparent] using h.filter_cursor h.cursorThere
  · simpa [hsame] using h.filter_cursor h.leafThere

theorem Simulates.visibleParent_side (h : Simulates st log) (hleaf : entry.type ≠ .leaf)
    (hside : entry.side = true) (hparent : entry.parentId = st.appendParentId) (hnew : st.byId.find entry.id = none) :
    (st.record entry).visibleParent entry = st.appendParentId := by
  have hlogical : (st.record entry).logicalParentsById.find entry.id = none := by
    simpa [JsonlSessionStorage.record, hangsFromLeaf, isSideAppendEntry, hside] using
      h.logical_none hnew
  unfold visibleParent
  rw [if_neg hleaf, hlogical, hparent]
  exact h.filter_cursor h.cursorThere

theorem Simulates.visibleParent_leafRow (h : Simulates st log) (hleaf : entry.type = .leaf)
    (htarget : hasCursor st.byId entry.targetId = true) : (st.record entry).visibleParent entry = entry.targetId := by
  unfold visibleParent
  rw [if_pos hleaf]
  exact h.filter_cursor htarget

theorem hasCursor_self (st : JsonlSessionStorage) (entry : SessionTreeEntry) :
    hasCursor (st.record entry).byId (some entry.id) = true := by
  simp [hasCursor]

theorem Simulates.addChild (h : Simulates st log) (hchild : IsChild entry)
    (hparent : entry.parentId = st.appendParentId) (hid : entry.id ≠ [])
    (hnew : st.byId.find entry.id = none) : Simulates (st.record entry) (log.addChild entry) := by
  have hleafId : (st.record entry).leafId = some entry.id := by
    simp [JsonlSessionStorage.record, hchild.leafIdUpdate]
  have hcursorId : (st.record entry).appendParentId = some entry.id := appendParentId_notLeaf hchild.notLeaf
  apply h.record hid hnew (h.visibleParent_child hchild hparent hnew) h.leafThere
  · rw [← h.leaf]
    simp [BranchLog.addChild, ownPart, hchild.notLeaf]
  · exact hleafId.symm
  · exact hcursorId.symm
  · rw [hleafId]
    exact hasCursor_self st entry
  · rw [hcursorId]
    exact hasCursor_self st entry

theorem Simulates.addSide (h : Simulates st log) (hleaf : entry.type ≠ .leaf)
    (hside : entry.side = true) (hparent : entry.parentId = st.appendParentId) (hid : entry.id ≠ [])
    (hnew : st.byId.find entry.id = none) : Simulates (st.record entry) (log.addSide entry) := by
  have hleafId : (st.record entry).leafId = st.leafId := by
    simp [JsonlSessionStorage.record, leafIdUpdate_side hleaf hside]
  have hcursorId : (st.record entry).appendParentId = some entry.id := appendParentId_notLeaf hleaf
  apply h.record hid hnew (h.visibleParent_side hleaf hside hparent hnew) h.cursorThere
  · rw [← h.cursor]
    simp [BranchLog.addSide, ownPart, hleaf]
  · rw [hleafId]
    exact h.leaf
  · exact hcursorId.symm
  · rw [hleafId]
    exact hasCursor_upsert _ h.leafThere
  · rw [hcursorId]
    exact hasCursor_self st entry

theorem Simulates.move (h : Simulates st log) (hleaf : entry.type = .leaf) (hid : entry.id ≠ [])
    (hnew : st.byId.find entry.id = none) (htarget : hasCursor st.byId entry.targetId = true)
    (hcursor : hasCursor st.byId (entry.appendParentId.getD entry.targetId) = true) : Simulates (st.record entry)
      (log.move entry.id entry.targetId (entry.appendParentId.getD entry.targetId)) := by
  have hleafId : (st.record entry).leafId = entry.targetId := by
    simp [JsonlSessionStorage.record, leafIdUpdate_leafRow hleaf]
  have hcursorId : (st.record entry).appendParentId = entry.appendParentId.getD entry.targetId := by
    simp [JsonlSessionStorage.record, appendParentIdAfterEntry, hleaf]
  apply h.record hid hnew (h.visibleParent_leafRow hleaf htarget) htarget
  · simp [BranchLog.move, ownPart, hleaf, BranchLog.setBranch]
  · exact hleafId.symm
  · exact hcursorId.symm
  · rw [hleafId]
    exact hasCursor_upsert _ htarget
  · rw [hcursorId]
    exact hasCursor_upsert _ hcursor

end Record

end OpenClaw.Harness.Tree
