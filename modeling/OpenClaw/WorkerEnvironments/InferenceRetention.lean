/-
# OpenClaw.WorkerEnvironments.InferenceRetention -- what a pruning pass keeps

A pruning pass deletes terminal rows only and changes no row.  Its counters are the number and the size of
the terminal rows that it has decided to keep: `PrunePoint` relates them to the table and the rows still to
come, at every point of the loop.  So the limits on the counters are limits on the table after the pass.
-/
import OpenClaw.WorkerEnvironments.InferenceStore

namespace OpenClaw.WorkerEnvironments.InferenceStore

open OpenClaw.Data

variable {policy : RetentionPolicy} {cutoffMs nowMs : Int} {preserve : Option TurnIdentity}
  {turns : Turns} {key : TurnIdentity} {row : TurnRow}

/-! ## Deletions -/

theorem find_deleteTurn (turns : Turns) (deleted key : TurnIdentity) :
    (deleteTurn turns deleted).find key = turns.find key ∨
      key = deleted ∧ (deleteTurn turns deleted).find key = none ∧
        ∃ row, turns.find key = some row ∧ row.state = .terminal := by
  unfold deleteTurn
  split
  · rename_i hterminal
    by_cases hkey : key = deleted
    · subst hkey
      cases hrow : turns.find key with
      | none => simp [hrow] at hterminal
      | some row =>
        exact .inr ⟨rfl, Table.find_deleteKey_self turns key, row, rfl, by simpa [hrow] using hterminal⟩
    · exact .inl (Table.find_deleteKey_ne turns hkey)
  · exact .inl rfl

/-- A row stays what it is, or it was terminal and is gone; the rows of keys not in the list stay. -/
theorem pruneLoop_find (rows : List (TurnIdentity × TurnRow)) :
    ∀ (turns : Turns) (retainedRows retainedBytes : Nat) (key : TurnIdentity),
      (pruneLoop policy cutoffMs preserve rows turns retainedRows retainedBytes).find key = turns.find key ∨
        preserve ≠ some key ∧
          (pruneLoop policy cutoffMs preserve rows turns retainedRows retainedBytes).find key = none ∧
          ∃ row, turns.find key = some row ∧ row.state = .terminal := by
  induction rows with
  | nil => exact fun turns _ _ key => .inl rfl
  | cons head rest ih =>
    intro turns retainedRows retainedBytes key
    obtain ⟨deleted, row⟩ := head
    simp only [pruneLoop]
    split
    · rename_i hdelete
      rcases ih (deleteTurn turns deleted) retainedRows retainedBytes key with hsame | ⟨hfree, hgone, old, hold, hstate⟩
      · rw [hsame]
        rcases find_deleteTurn turns deleted key with hkept | ⟨rfl, hnone, hrow⟩
        · exact .inl hkept
        · exact .inr ⟨hdelete.1, hnone, hrow⟩
      · rcases find_deleteTurn turns deleted key with hkept | ⟨-, hnone, -⟩
        · exact .inr ⟨hfree, hgone, old, hkept ▸ hold, hstate⟩
        · rw [hnone] at hold
          cases hold
    · exact ih turns (retainedRows + 1) (retainedBytes + row.terminalBytes) key

/-- **A pruning pass** keeps every row as it is, or deletes it; and it deletes terminal rows only, never the
one to preserve. -/
theorem prune_find (policy : RetentionPolicy) (nowMs : Int) (preserve : Option TurnIdentity) (turns : Turns)
    (key : TurnIdentity) : (pruneTerminalTurns policy nowMs preserve turns).find key = turns.find key ∨
      preserve ≠ some key ∧ (pruneTerminalTurns policy nowMs preserve turns).find key = none ∧
        ∃ row, turns.find key = some row ∧ row.state = .terminal :=
  pruneLoop_find _ _ _ _ _

theorem find_of_prune (h : (pruneTerminalTurns policy nowMs preserve turns).find key = some row) :
    turns.find key = some row := by
  rcases prune_find policy nowMs preserve turns key with hsame | ⟨-, hnone, -⟩
  · rwa [hsame] at h
  · rw [hnone] at h
    cases h

theorem prune_keeps_pending (h : turns.find key = some row) (hpending : row.state = .pending) :
    (pruneTerminalTurns policy nowMs preserve turns).find key = some row := by
  rcases prune_find policy nowMs preserve turns key with hsame | ⟨-, -, old, hold, hterminal⟩
  · rw [hsame, h]
  · obtain rfl := Option.some.inj (h.symm.trans hold)
    rw [hpending] at hterminal
    cases hterminal

theorem prune_keeps_preserved (h : turns.find key = some row) :
    (pruneTerminalTurns policy nowMs (some key) turns).find key = some row := by
  rcases prune_find policy nowMs (some key) turns key with hsame | ⟨hfree, -, -⟩
  · rw [hsame, h]
  · exact absurd rfl hfree

/-! ## Number and size of the terminal rows -/

/-- 1 for a terminal row. -/
def TurnRow.terminalCount (row : TurnRow) : Nat := if row.state = .terminal then 1 else 0

/-- The bytes of a terminal row. -/
def TurnRow.retainedBytes (row : TurnRow) : Nat := if row.state = .terminal then row.terminalBytes else 0

/-- How many terminal rows there are. -/
def Turns.terminalCount (turns : Turns) : Nat := turns.total TurnRow.terminalCount

/-- Their total size. -/
def Turns.terminalSize (turns : Turns) : Nat := turns.total TurnRow.retainedBytes

def bytesOf (rows : List (TurnIdentity × TurnRow)) : Nat := (rows.map fun entry => entry.2.terminalBytes).sum

/-- A point of the loop: the rows to come are terminal rows of the table, and the counters are the number and
the size of the other ones. -/
structure PrunePoint (rows : List (TurnIdentity × TurnRow)) (turns : Turns)
    (retainedRows retainedBytes : Nat) : Prop where
  stored : ∀ entry ∈ rows, turns.find entry.1 = some entry.2 ∧ entry.2.state = .terminal
  nodup : (rows.map Prod.fst).Nodup
  count : turns.terminalCount = retainedRows + rows.length
  size : turns.terminalSize = retainedBytes + bytesOf rows

variable {rows rest : List (TurnIdentity × TurnRow)} {retainedRows retainedBytes : Nat}

theorem PrunePoint.delete (h : PrunePoint ((key, row) :: rest) turns retainedRows retainedBytes) :
    PrunePoint rest (deleteTurn turns key) retainedRows retainedBytes := by
  obtain ⟨hfind, hstate⟩ : turns.find key = some row ∧ row.state = .terminal := h.stored (key, row) List.mem_cons_self
  have hdelete : deleteTurn turns key = turns.deleteKey key := by
    unfold deleteTurn
    simp [hfind, hstate]
  have hnodup := List.nodup_cons.mp h.nodup
  rw [hdelete]
  constructor
  · intro entry hentry
    obtain ⟨hfound, hterminal⟩ := h.stored entry (List.mem_cons_of_mem _ hentry)
    have hne : entry.1 ≠ key := by
      rintro rfl
      exact hnodup.1 (List.mem_map.mpr ⟨entry, hentry, rfl⟩)
    exact ⟨(Table.find_deleteKey_ne turns hne).trans hfound, hterminal⟩
  · exact hnodup.2
  · have htotal := (Table.deleteKey_totals TurnRow.terminalCount hfind).1
    have hcount := h.count
    have hrow : row.terminalCount = 1 := by simp [TurnRow.terminalCount, hstate]
    simp only [Turns.terminalCount, List.length_cons] at hcount ⊢
    omega
  · have htotal := (Table.deleteKey_totals TurnRow.retainedBytes hfind).1
    have hsize := h.size
    have hrow : row.retainedBytes = row.terminalBytes := by simp [TurnRow.retainedBytes, hstate]
    simp only [Turns.terminalSize, bytesOf, List.map_cons, List.sum_cons] at hsize ⊢
    omega

theorem PrunePoint.retain (h : PrunePoint ((key, row) :: rest) turns retainedRows retainedBytes) :
    PrunePoint rest turns (retainedRows + 1) (retainedBytes + row.terminalBytes) := by
  constructor
  · exact fun entry hentry => h.stored entry (List.mem_cons_of_mem _ hentry)
  · exact (List.nodup_cons.mp h.nodup).2
  · have := h.count
    simp only [List.length_cons] at this
    omega
  · have := h.size
    simp only [bytesOf, List.map_cons, List.sum_cons] at this ⊢
    omega

/-! ## Limits -/

/-- A terminal row that is larger than all rows may be. -/
def Oversized (policy : RetentionPolicy) (turns : Turns) (key : TurnIdentity) (row : TurnRow) : Prop :=
  turns.find key = some row ∧ row.state = .terminal ∧ policy.maxBytes < row.terminalBytes

/-- The limits of the policy, on the number and on the size of the terminal rows. -/
structure WithinLimits (policy : RetentionPolicy) (turns : Turns) : Prop where
  count : turns.terminalCount ≤ max 1 policy.maxRows
  size : turns.terminalSize ≤ policy.maxBytes ∨
    ∃ key row, Oversized policy turns key row ∧ turns.terminalSize = row.terminalBytes

/-- The counters of the loop are within the limits. -/
structure CountersWithin (policy : RetentionPolicy) (turns : Turns) (rows : List (TurnIdentity × TurnRow))
    (retainedRows retainedBytes : Nat) : Prop where
  count : retainedRows ≤ max 1 policy.maxRows
  none : retainedRows = 0 → retainedBytes = 0
  size : retainedBytes ≤ policy.maxBytes ∨
    0 < retainedRows ∧ ∃ key row, Oversized policy turns key row ∧ key ∉ rows.map Prod.fst ∧
      retainedBytes = row.terminalBytes

theorem CountersWithin.delete (h : CountersWithin policy turns ((key, row) :: rest) retainedRows retainedBytes) :
    CountersWithin policy (deleteTurn turns key) rest retainedRows retainedBytes where
  count := h.count
  none := h.none
  size := by
    rcases h.size with hfits | ⟨hpos, large, old, ⟨hfind, hstate, hlarge⟩, hother, hbytes⟩
    · exact .inl hfits
    · simp only [List.map_cons, List.mem_cons, not_or] at hother
      refine .inr ⟨hpos, large, old, ⟨?_, hstate, hlarge⟩, hother.2, hbytes⟩
      rcases find_deleteTurn turns key large with hkept | ⟨heq, -⟩
      · rw [hkept, hfind]
      · exact absurd heq hother.1

/-- A row that is retained first, or one that exceeds no limit. -/
theorem CountersWithin.retain (hpoint : PrunePoint ((key, row) :: rest) turns retainedRows retainedBytes)
    (h : CountersWithin policy turns ((key, row) :: rest) retainedRows retainedBytes)
    (hkept : retainedRows = 0 ∨ ¬policy.maxRows ≤ retainedRows ∧
      ¬(0 < retainedRows ∧ policy.maxBytes < retainedBytes + row.terminalBytes)) :
    CountersWithin policy turns rest (retainedRows + 1) (retainedBytes + row.terminalBytes) where
  count := by
    rcases hkept with hfirst | ⟨hrows, -⟩
    · omega
    · omega
  none := by simp
  size := by
    by_cases hfirst : retainedRows = 0
    · rw [h.none hfirst, Nat.zero_add]
      by_cases hlarge : policy.maxBytes < row.terminalBytes
      · obtain ⟨hfind, hstate⟩ : turns.find key = some row ∧ row.state = .terminal :=
          hpoint.stored (key, row) List.mem_cons_self
        exact .inr ⟨Nat.succ_pos _, key, row, ⟨hfind, hstate, hlarge⟩, (List.nodup_cons.mp hpoint.nodup).1, rfl⟩
      · exact .inl (Nat.le_of_not_lt hlarge)
    · left
      rcases hkept with hzero | ⟨-, hbytes⟩
      · exact absurd hzero hfirst
      · omega

/-- The loop over rows of which none is preserved. -/
theorem pruneLoop_within (rows : List (TurnIdentity × TurnRow)) : ∀ {turns : Turns}
    {retainedRows retainedBytes : Nat}, (∀ entry ∈ rows, preserve ≠ some entry.1) →
    PrunePoint rows turns retainedRows retainedBytes → CountersWithin policy turns rows retainedRows retainedBytes →
    WithinLimits policy (pruneLoop policy cutoffMs preserve rows turns retainedRows retainedBytes) := by
  induction rows with
  | nil =>
    intro turns retainedRows retainedBytes _ hpoint hwithin
    have hcount := hpoint.count
    have hsize := hpoint.size
    simp only [List.length_nil, bytesOf, List.map_nil, List.sum_nil, Nat.add_zero] at hcount hsize
    constructor
    · exact hcount ▸ hwithin.count
    · rcases hwithin.size with hfits | ⟨-, key, row, hlarge, -, hbytes⟩
      · exact .inl (hsize ▸ hfits)
      · exact .inr ⟨key, row, hlarge, hsize.trans hbytes⟩
  | cons head rest ih =>
    intro turns retainedRows retainedBytes hfree hpoint hwithin
    obtain ⟨key, row⟩ := head
    have hrest : ∀ entry ∈ rest, preserve ≠ some entry.1 :=
      fun entry hentry => hfree entry (List.mem_cons_of_mem _ hentry)
    have hkey : preserve ≠ some key := hfree (key, row) List.mem_cons_self
    simp only [pruneLoop]
    split
    · exact ih hrest hpoint.delete hwithin.delete
    · rename_i hretain
      obtain ⟨-, hrows, hbytes⟩ : ¬row.updatedAtMs < cutoffMs ∧ ¬policy.maxRows ≤ retainedRows ∧
          ¬(0 < retainedRows ∧ policy.maxBytes < retainedBytes + row.terminalBytes) := by
        rw [not_and_or, not_or, not_or] at hretain
        exact hretain.resolve_left (not_not.mpr hkey)
      exact ih hrest hpoint.retain (hwithin.retain hpoint (.inr ⟨hrows, hbytes⟩))

/-! ## The whole pass -/

theorem pruningOrder_perm (turns : Turns) (preserve : Option TurnIdentity) :
    (pruningOrder turns preserve).Perm (terminalRows turns) :=
  (toSorted_perm _ _).trans (toSorted_perm _ _)

theorem mem_terminalRows {entry : TurnIdentity × TurnRow} :
    entry ∈ terminalRows turns ↔ turns.find entry.1 = some entry.2 ∧ entry.2.state = .terminal := by
  simp [terminalRows, ← Table.mem_rows]

theorem terminalRows_nodup (turns : Turns) : ((terminalRows turns).map Prod.fst).Nodup := by
  have hrows : (turns.rows.map Prod.fst).Nodup := turns.rows_keys.symm ▸ turns.nodup
  exact hrows.sublist (List.filter_sublist.map Prod.fst)

theorem terminalRows_totals (turns : Turns) :
    turns.terminalCount = (terminalRows turns).length ∧ turns.terminalSize = bytesOf (terminalRows turns) := by
  unfold Turns.terminalCount Turns.terminalSize
  rw [Table.total_rows, Table.total_rows, terminalRows]
  induction turns.rows with
  | nil => exact ⟨rfl, rfl⟩
  | cons entry rest ih =>
    obtain ⟨hcount, hsize⟩ := ih
    by_cases h : entry.2.state = .terminal
    · simp only [TurnRow.terminalCount, TurnRow.retainedBytes, bytesOf] at hcount hsize ⊢
      simp [h, hcount, hsize, Nat.add_comm]
    · simp only [TurnRow.terminalCount, TurnRow.retainedBytes, bytesOf] at hcount hsize ⊢
      simp [h, hcount, hsize]

/-- The loop starts with all terminal rows to come. -/
theorem prunePoint_start (turns : Turns) (preserve : Option TurnIdentity) :
    PrunePoint (pruningOrder turns preserve) turns 0 0 := by
  have hperm := pruningOrder_perm turns preserve
  obtain ⟨hcount, hsize⟩ := terminalRows_totals turns
  constructor
  · exact fun entry hentry => mem_terminalRows.mp (hperm.mem_iff.mp hentry)
  · exact (hperm.map Prod.fst).nodup_iff.mpr (terminalRows_nodup turns)
  · rw [hcount, hperm.length_eq, Nat.zero_add]
  · rw [hsize, bytesOf, bytesOf, (hperm.map _).sum_nat, Nat.zero_add]

theorem countersWithin_start (policy : RetentionPolicy) (turns : Turns)
    (rows : List (TurnIdentity × TurnRow)) : CountersWithin policy turns rows 0 0 where
  count := Nat.zero_le _
  none _ := rfl
  size := .inl (Nat.zero_le _)

/-- In the pruning order, a row that is preserved is behind none that is not. -/
theorem pruningOrder_pairwise (turns : Turns) (preserve : Option TurnIdentity) :
    (pruningOrder turns preserve).Pairwise fun left right => preserve = some right.1 → preserve = some left.1 := by
  let R : TurnIdentity × TurnRow → TurnIdentity × TurnRow → Prop := fun left right =>
    (decide (preserve = some right.1) && decide (preserve ≠ some left.1)) = false
  have hR : ∀ {left right}, R left right ↔ (preserve = some right.1 → preserve = some left.1) := by
    intro left right
    simp [R]
  have : Std.Total R := ⟨fun left right => by
    by_cases h : preserve = some left.1
    · exact .inl (hR.mpr fun _ => h)
    · exact .inr (hR.mpr fun hleft => absurd hleft h)⟩
  have : IsTrans _ R := ⟨fun _ _ _ h h' => hR.mpr fun hpreserve => hR.mp h (hR.mp h' hpreserve)⟩
  exact (List.pairwise_insertionSort R _).imp hR.mp

/-- Behind the first row, no row is the one to preserve. -/
theorem pruningOrder_first (turns : Turns) (preserve : Option TurnIdentity)
    {head : TurnIdentity × TurnRow} {rest : List (TurnIdentity × TurnRow)}
    (horder : pruningOrder turns preserve = head :: rest) : ∀ entry ∈ rest, preserve ≠ some entry.1 := by
  intro entry hentry hpreserve
  have hpairwise := pruningOrder_pairwise turns preserve
  have hnodup := (prunePoint_start turns preserve).nodup
  rw [horder] at hpairwise hnodup
  have hhead := (List.pairwise_cons.mp hpairwise).1 entry hentry hpreserve
  have hsame : head.1 = entry.1 := Option.some.inj (hhead.symm.trans hpreserve)
  exact (List.nodup_cons.mp hnodup).1 (List.mem_map.mpr ⟨entry, hentry, hsame.symm⟩)

/-- **After a pruning pass** the terminal rows are within the limits. -/
theorem prune_within (policy : RetentionPolicy) (nowMs : Int) (preserve : Option TurnIdentity) (turns : Turns) :
    WithinLimits policy (pruneTerminalTurns policy nowMs preserve turns) := by
  have hpoint := prunePoint_start turns preserve
  have hwithin := countersWithin_start policy turns (pruningOrder turns preserve)
  unfold pruneTerminalTurns
  cases horder : pruningOrder turns preserve with
  | nil =>
    rw [horder] at hpoint hwithin
    exact pruneLoop_within [] (by simp) hpoint hwithin
  | cons head rest =>
    obtain ⟨key, row⟩ := head
    have hfree := pruningOrder_first turns preserve horder
    rw [horder] at hpoint hwithin
    by_cases hkey : preserve = some key
    · rw [pruneLoop, if_neg (by simp [hkey])]
      exact pruneLoop_within rest hfree hpoint.retain (hwithin.retain hpoint (.inl rfl))
    · refine pruneLoop_within ((key, row) :: rest) ?_ hpoint hwithin
      intro entry hentry
      rcases List.mem_cons.mp hentry with rfl | hrest
      · exact hkey
      · exact hfree entry hrest

end OpenClaw.WorkerEnvironments.InferenceStore
