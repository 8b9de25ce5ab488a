/-
# OpenClaw.Data.ParentChain -- from an entry up to its root

Entries that name their parent form a forest as long as no entry descends from itself.  A
`ParentChain` is a finite climb from an entry to its root.  Since it is finite and each entry has one
parent, it meets no entry twice, so a loop that climbs and remembers what it has seen never finds a
cycle on it.
-/
import Mathlib.Data.List.Nodup
import Mathlib.Data.List.Perm.Subperm

namespace OpenClaw.Data

variable {κ : Type}

/-- `path` lists `k` and everything above it, the root first. -/
inductive ParentChain (parent : κ → Option κ) : κ → List κ → Prop
  | root {k : κ} (h : parent k = none) : ParentChain parent k [k]
  | child {k p : κ} {path : List κ} (h : parent k = some p) (hp : ParentChain parent p path) :
      ParentChain parent k (path ++ [k])

namespace ParentChain

variable {parent : κ → Option κ}

theorem self_mem {k : κ} {path : List κ} (h : ParentChain parent k path) : k ∈ path := by
  cases h <;> simp

theorem unique {k : κ} {path path' : List κ} (h : ParentChain parent k path)
    (h' : ParentChain parent k path') : path = path' := by
  induction h generalizing path' with
  | root hroot =>
    cases h' with
    | root => rfl
    | child hchild => simp [hroot] at hchild
  | child hchild _ ih =>
    cases h' with
    | root hroot => simp [hchild] at hroot
    | child hchild' hp' =>
      obtain rfl : _ = _ := Option.some.inj (hchild.symm.trans hchild')
      rw [ih hp']

/-- What stands on the way up has a chain of its own, and a shorter one unless it is the start. -/
theorem of_mem {k x : κ} {path : List κ} (h : ParentChain parent k path) (hx : x ∈ path) :
    ∃ path', ParentChain parent x path' ∧ (x = k ∨ path'.length < path.length) := by
  induction h with
  | root hroot =>
    obtain rfl := List.mem_singleton.mp hx
    exact ⟨_, .root hroot, .inl rfl⟩
  | child hchild hp ih =>
    rcases List.mem_append.mp hx with hx | hx
    · obtain ⟨path', hpath', hlt⟩ := ih hx
      refine ⟨path', hpath', .inr ?_⟩
      rcases hlt with rfl | hlt
      · rw [hp.unique hpath']
        simp
      · rw [List.length_append]
        omega
    · obtain rfl := List.mem_singleton.mp hx
      exact ⟨_, .child hchild hp, .inl rfl⟩

/-- No entry descends from itself. -/
theorem not_mem_above {k p : κ} {path : List κ} (h : parent k = some p)
    (hp : ParentChain parent p path) : k ∉ path := by
  intro hk
  obtain ⟨path', hpath', hlt⟩ := hp.of_mem hk
  have hsame := (ParentChain.child h hp).unique hpath'
  rcases hlt with rfl | hlt
  · have := hp.unique hpath'
    simp [← this] at hsame
  · rw [← hsame, List.length_append] at hlt
    omega

theorem nodup {k : κ} {path : List κ} (h : ParentChain parent k path) : path.Nodup := by
  induction h with
  | root => simp
  | child hchild hp ih =>
    refine List.nodup_append.mpr ⟨ih, by simp, ?_⟩
    intro a ha b hb
    obtain rfl := List.mem_singleton.mp hb
    rintro rfl
    exact not_mem_above hchild hp ha

/-- A chain is not longer than any list of the entries it runs through. -/
theorem length_le {k : κ} {path keys : List κ} (h : ParentChain parent k path) (hsub : path ⊆ keys) :
    path.length ≤ keys.length :=
  (h.nodup.subperm hsub).length_le

/-- A chain stands as long as the parents on it do. -/
theorem congr {parent' : κ → Option κ} {k : κ} {path : List κ} (h : ParentChain parent k path)
    (hsame : ∀ x ∈ path, parent' x = parent x) : ParentChain parent' k path := by
  induction h with
  | root hroot => exact .root ((hsame _ (by simp)).trans hroot)
  | child hchild _ ih =>
    refine .child ((hsame _ (by simp)).trans hchild) (ih fun x hx => hsame x ?_)
    exact List.mem_append_left _ hx

end ParentChain

end OpenClaw.Data
