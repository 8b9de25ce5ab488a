/-
# OpenClaw.Data.Table -- tables with a primary key

A `Table κ ρ` maps each primary key to at most one row of non-key columns.  It also lists its keys,
in insertion order and without repetition, so that a query can visit every row; the two fields that
say so are part of the structure, and every operation below rebuilds them.

The operations are the SQL statements a store is written with: `SELECT … WHERE key = k` is `find`,
`INSERT` is `insertNew` (it fails on a taken key), `INSERT … ON CONFLICT DO UPDATE` is `upsert`,
`UPDATE … WHERE key = k AND p` is `updateKey` and `UPDATE … WHERE p` is `updateWhere` (both report
the number of affected rows), `DELETE … WHERE key = k` is `deleteKey`.
-/
import Mathlib.Algebra.Ring.Nat
import Mathlib.Data.List.Nodup
import OpenClaw.Logic.Fallible

namespace OpenClaw.Data

/-- A finite table with primary key `κ` and row type `ρ`. -/
structure Table (κ ρ : Type) where
  find : κ → Option ρ
  keys : List κ
  mem_keys : ∀ k, k ∈ keys ↔ (find k).isSome
  nodup : keys.Nodup

namespace Table

variable {κ ρ : Type} [DecidableEq κ]

def empty : Table κ ρ where
  find _ := none
  keys := []
  mem_keys := by simp
  nodup := List.nodup_nil

omit [DecidableEq κ] in
@[simp] theorem find_empty (k : κ) : (empty : Table κ ρ).find k = none := rfl

omit [DecidableEq κ] in
@[simp] theorem keys_empty : (empty : Table κ ρ).keys = [] := rfl

/-- Every row with its key, in insertion order. -/
def rows (t : Table κ ρ) : List (κ × ρ) := t.keys.filterMap fun k => (t.find k).map (k, ·)

variable {t : Table κ ρ}

omit [DecidableEq κ] in
@[simp] theorem mem_rows {k : κ} {r : ρ} : (k, r) ∈ t.rows ↔ t.find k = some r := by
  simp only [rows, List.mem_filterMap, Option.map_eq_some_iff, Prod.mk.injEq]
  constructor
  · rintro ⟨_, _, _, h, rfl, rfl⟩
    exact h
  · intro h
    exact ⟨k, (t.mem_keys k).mpr (by simp [h]), r, h, rfl, rfl⟩

omit [DecidableEq κ] in
/-- What is read off every row, in the order of the keys. -/
theorem map_rows {α : Type} (t : Table κ ρ) (f : κ → ρ → α) (d : κ → α) :
    (t.rows.map fun row => f row.1 row.2) = t.keys.map fun k => ((t.find k).map (f k)).getD (d k) := by
  have hmap : (t.rows.map fun row => f row.1 row.2) = t.keys.filterMap fun k => (t.find k).map (f k) := by
    simp only [rows, List.map_filterMap, Option.map_map]
    rfl
  rw [hmap, ← List.filterMap_eq_map]
  refine List.filterMap_congr fun k hk => ?_
  obtain ⟨r, hr⟩ := Option.isSome_iff_exists.mp ((t.mem_keys k).mp hk)
  simp [hr]

omit [DecidableEq κ] in
theorem rows_keys (t : Table κ ρ) : t.rows.map Prod.fst = t.keys := by
  refine (t.map_rows (fun k _ => k) id).trans ?_
  conv_rhs => rw [← List.map_id t.keys]
  refine List.map_congr_left fun k _ => ?_
  cases t.find k <;> rfl

/-- Write `r` under `k`, replacing what was there. -/
def upsert (t : Table κ ρ) (k : κ) (r : ρ) : Table κ ρ where
  find k' := if k' = k then some r else t.find k'
  keys := if k ∈ t.keys then t.keys else t.keys ++ [k]
  mem_keys k' := by
    by_cases hk : k ∈ t.keys <;> by_cases h : k' = k <;> simp [hk, h, t.mem_keys]
  nodup := by
    split
    · exact t.nodup
    · rename_i hk
      exact List.nodup_append.mpr ⟨t.nodup, List.nodup_singleton k,
        fun a ha b hb => by rw [List.mem_singleton.mp hb]; exact fun h => hk (h ▸ ha)⟩

theorem find_upsert (t : Table κ ρ) (k k' : κ) (r : ρ) :
    (t.upsert k r).find k' = if k' = k then some r else t.find k' := rfl

@[simp] theorem find_upsert_self (t : Table κ ρ) (k : κ) (r : ρ) :
    (t.upsert k r).find k = some r := if_pos rfl

theorem find_upsert_ne (t : Table κ ρ) {k k' : κ} (h : k' ≠ k) (r : ρ) :
    (t.upsert k r).find k' = t.find k' := if_neg h

/-- `INSERT`: fails when the key is taken. -/
def insertNew (t : Table κ ρ) (k : κ) (r : ρ) : Except String (Table κ ρ) :=
  if (t.find k).isSome then .error "UNIQUE constraint failed" else .ok (t.upsert k r)

@[simp] theorem insertNew_eq_ok {t t' : Table κ ρ} {k : κ} {r : ρ} :
    t.insertNew k r = .ok t' ↔ t.find k = none ∧ t' = t.upsert k r := by
  unfold insertNew
  cases t.find k <;> simp [eq_comm]

/-- `UPDATE … SET f WHERE key = k AND p`, with the number of affected rows. -/
def updateKey (t : Table κ ρ) (k : κ) (p : ρ → Bool) (f : ρ → ρ) : Table κ ρ × Nat :=
  match t.find k with
  | some r => if p r then (t.upsert k (f r), 1) else (t, 0)
  | none => (t, 0)

theorem updateKey_hit {k : κ} {p : ρ → Bool} {f : ρ → ρ} {r : ρ} (h : t.find k = some r) (hp : p r = true) :
    t.updateKey k p f = (t.upsert k (f r), 1) := by
  simp [updateKey, h, hp]

/-- A guarded update that throws unless it affected exactly the keyed row. -/
def updateOne (t : Table κ ρ) (k : κ) (p : ρ → Bool) (f : ρ → ρ) (message : String) : Except String (Table κ ρ) :=
  let (t, numAffectedRows) := t.updateKey k p f
  if numAffectedRows ≠ 1 then .error message else .ok t

@[simp] theorem updateOne_eq_ok {t t' : Table κ ρ} {k : κ} {p : ρ → Bool} {f : ρ → ρ} {message : String} :
    t.updateOne k p f message = .ok t' ↔ ∃ r, t.find k = some r ∧ p r = true ∧ t' = t.upsert k (f r) := by
  unfold updateOne updateKey
  cases t.find k with
  | none => simp
  | some r =>
    by_cases h : p r
    · simpa [h] using eq_comm
    · simp [h]

/-- `UPDATE … SET f WHERE p` over the whole table, with the number of affected rows. -/
def updateWhere (t : Table κ ρ) (p : ρ → Bool) (f : ρ → ρ) : Table κ ρ × Nat :=
  ({ find := fun k => (t.find k).map fun r => if p r then f r else r
     keys := t.keys
     mem_keys := fun k => by simpa using t.mem_keys k
     nodup := t.nodup },
   t.keys.countP fun k => (t.find k).any p)

omit [DecidableEq κ] in
@[simp] theorem find_updateWhere (t : Table κ ρ) (p : ρ → Bool) (f : ρ → ρ) (k : κ) :
    (t.updateWhere p f).1.find k = (t.find k).map fun r => if p r then f r else r := rfl

/-- `DELETE … WHERE key = k`. -/
def deleteKey (t : Table κ ρ) (k : κ) : Table κ ρ where
  find k' := if k' = k then none else t.find k'
  keys := t.keys.filter (· ≠ k)
  mem_keys k' := by by_cases h : k' = k <;> simp [h, t.mem_keys]
  nodup := t.nodup.filter _

theorem find_deleteKey (t : Table κ ρ) (k k' : κ) :
    (t.deleteKey k).find k' = if k' = k then none else t.find k' := rfl

@[simp] theorem find_deleteKey_self (t : Table κ ρ) (k : κ) : (t.deleteKey k).find k = none :=
  if_pos rfl

theorem find_deleteKey_ne (t : Table κ ρ) {k k' : κ} (h : k' ≠ k) :
    (t.deleteKey k).find k' = t.find k' := if_neg h

/-! ## Totals over the rows -/

/-- The number of rows. -/
def size (t : Table κ ρ) : Nat := t.keys.length

/-- The total of a measure over all rows. -/
def total (t : Table κ ρ) (f : ρ → Nat) : Nat := (t.keys.map fun k => ((t.find k).map f).getD 0).sum

omit [DecidableEq κ] in
theorem total_rows (t : Table κ ρ) (f : ρ → Nat) : t.total f = (t.rows.map fun row => f row.2).sum :=
  congrArg List.sum (t.map_rows (fun _ r => f r) fun _ => 0).symm

omit [DecidableEq κ] in
@[simp] theorem total_empty (f : ρ → Nat) : (empty : Table κ ρ).total f = 0 := rfl

omit [DecidableEq κ] in
theorem not_mem_keys {k : κ} (h : t.find k = none) : k ∉ t.keys := by
  intro hk
  rw [t.mem_keys, h] at hk
  cases hk

theorem total_upsert_new {k : κ} {r : ρ} (f : ρ → Nat) (h : t.find k = none) :
    (t.upsert k r).total f = t.total f + f r := by
  have hk := not_mem_keys h
  have hkeys : (t.upsert k r).keys = t.keys ++ [k] := if_neg hk
  have hold : t.keys.map (fun k' => (((t.upsert k r).find k').map f).getD 0)
      = t.keys.map fun k' => ((t.find k').map f).getD 0 := by
    refine List.map_congr_left fun k' hk' => ?_
    have hne : k' ≠ k := by
      rintro rfl
      exact hk hk'
    rw [find_upsert_ne _ hne]
  rw [total, hkeys, List.map_append, List.sum_append, hold]
  simp [total]

/-- Deleting a row takes its measure off the total and one off the size. -/
theorem deleteKey_totals {k : κ} {r : ρ} (f : ρ → Nat) (h : t.find k = some r) :
    (t.deleteKey k).total f + f r = t.total f ∧ (t.deleteKey k).size + 1 = t.size := by
  have hk : k ∈ t.keys := (t.mem_keys k).mpr (by simp [h])
  have hkeys : (t.deleteKey k).keys = t.keys.erase k := by
    rw [t.nodup.erase_eq_filter]
    exact List.filter_congr fun x _ => by by_cases hx : x = k <;> simp [hx]
  have hold : (t.keys.erase k).map (fun k' => (((t.deleteKey k).find k').map f).getD 0)
      = (t.keys.erase k).map fun k' => ((t.find k').map f).getD 0 := by
    refine List.map_congr_left fun k' hk' => ?_
    have hne : k' ≠ k := by
      rintro rfl
      exact t.nodup.not_mem_erase hk'
    rw [find_deleteKey_ne _ hne]
  have hperm := List.perm_cons_erase hk
  constructor
  · rw [total, hkeys, hold, total, (hperm.map _).sum_nat, List.map_cons, List.sum_cons, h]
    simp [Nat.add_comm]
  · rw [size, hkeys, size, List.length_erase_of_mem hk]
    have := List.length_pos_of_mem hk
    omega

/-- Writing a row exchanges its measure for that of the row it replaces, if there is one. -/
theorem total_upsert (t : Table κ ρ) (k : κ) (r : ρ) (f : ρ → Nat) :
    (t.upsert k r).total f + ((t.find k).map f).getD 0 = t.total f + f r := by
  cases h : t.find k with
  | none => simpa using total_upsert_new f h
  | some old =>
    have hk : k ∈ t.keys := (t.mem_keys k).mpr (by simp [h])
    have hnew := (deleteKey_totals f (find_upsert_self t k r)).1
    have hold := (deleteKey_totals f h).1
    have hkeys : ((t.upsert k r).deleteKey k).keys = (t.deleteKey k).keys := by
      simp [deleteKey, upsert, hk]
    -- Without the row, both tables are the same.
    have hrest : ((t.upsert k r).deleteKey k).total f = (t.deleteKey k).total f := by
      rw [total, total, hkeys]
      refine congrArg List.sum (List.map_congr_left fun k' hk' => ?_)
      have hne : k' ≠ k := by simpa using (List.mem_filter.mp hk').2
      rw [find_deleteKey_ne _ hne, find_deleteKey_ne _ hne, find_upsert_ne _ hne]
    show (t.upsert k r).total f + f old = t.total f + f r
    omega

omit [DecidableEq κ] in
/-- A total is positive when some row has a positive measure. -/
theorem total_pos {f : ρ → Nat} : 0 < t.total f ↔ ∃ k r, t.find k = some r ∧ 0 < f r := by
  unfold total
  rw [List.sum_pos_iff_exists_pos_nat]
  constructor
  · rintro ⟨n, hn, hpos⟩
    obtain ⟨k, -, rfl⟩ := List.mem_map.mp hn
    cases h : t.find k with
    | none => simp [h] at hpos
    | some r => exact ⟨k, r, h, by simpa [h] using hpos⟩
  · rintro ⟨k, r, h, hpos⟩
    have hk : k ∈ t.keys := (t.mem_keys k).mpr (by simp [h])
    exact ⟨f r, List.mem_map.mpr ⟨k, hk, by simp [h]⟩, hpos⟩

end Table

end OpenClaw.Data
