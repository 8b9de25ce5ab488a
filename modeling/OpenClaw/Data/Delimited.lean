/-
# OpenClaw.Data.Delimited -- texts joined by a delimiter

A text without the delimiter in it ends at the first delimiter behind it.  When the texts of a join have none
in them, what begins at a boundary of the join begins one of the texts, however else the join can be cut.
-/
import Mathlib.Data.List.Basic

namespace OpenClaw.Data

variable {α : Type} {c : α}

/-- The first delimiter is at one place. -/
theorem cut_unique : ∀ {a b x y : List α}, c ∉ a → c ∉ b → a ++ c :: x = b ++ c :: y → a = b ∧ x = y
  | [], [], _, _, _, _, h => ⟨rfl, (List.cons.inj h).2⟩
  | [], _ :: _, _, _, _, hb, h => absurd (List.mem_cons.mpr (.inl (List.cons.inj h).1)) hb
  | _ :: _, [], _, _, ha, _, h => absurd (List.mem_cons.mpr (.inl (List.cons.inj h).1.symm)) ha
  | _ :: a, _ :: b, x, y, ha, hb, h => by
    obtain ⟨rfl, hrest⟩ := List.cons.inj h
    obtain ⟨rfl, rfl⟩ := cut_unique (fun h => ha (List.mem_cons_of_mem _ h))
      (fun h => hb (List.mem_cons_of_mem _ h)) hrest
    exact ⟨rfl, rfl⟩

/-- What has no delimiter in it begins in front of the first one. -/
theorem prefix_of_cut {s post a rest : List α} (hs : c ∉ s) (h : s ++ post = a ++ c :: rest) : s <+: a := by
  rcases List.append_eq_append_iff.mp h with ⟨x, rfl, hx⟩ | ⟨x, rfl, hx⟩
  · exact List.prefix_append _ _
  · cases x with
    | nil => simp
    | cons d x =>
      obtain ⟨rfl, -⟩ := List.cons.inj hx
      simp at hs

/-- A place in a joined text where one of the texts can begin. -/
def Boundary (c : α) (before : List α) : Prop := before = [] ∨ ∃ more, before = more ++ [c]

theorem intercalate_mem {text : List α} : ∀ {texts : List (List α)}, text ∈ texts →
    ∃ before after, [c].intercalate texts = before ++ (text ++ after) ∧ Boundary c before
  | [a], h => by
    obtain rfl := List.mem_singleton.mp h
    exact ⟨[], [], by simp [List.intercalate], .inl rfl⟩
  | a :: b :: rest, h => by
    rw [List.intercalate_cons_cons, List.append_assoc, List.singleton_append]
    rcases List.mem_cons.mp h with rfl | hrest
    · exact ⟨[], c :: [c].intercalate (b :: rest), rfl, .inl rfl⟩
    · obtain ⟨before, after, hjoin, hboundary⟩ := intercalate_mem hrest
      refine ⟨a ++ c :: before, after, by rw [hjoin]; simp, .inr ?_⟩
      rcases hboundary with rfl | ⟨more, rfl⟩
      · exact ⟨a, rfl⟩
      · exact ⟨a ++ c :: more, by simp⟩

/-- What begins at a boundary and has no delimiter begins one of the texts, when these have none either. -/
theorem intercalate_boundary {s after : List α} (hs : c ∉ s) (hne : s ≠ []) : ∀ {texts : List (List α)}
    {before : List α}, (∀ text ∈ texts, c ∉ text) → [c].intercalate texts = before ++ (s ++ after) →
    Boundary c before → ∃ text ∈ texts, s <+: text
  | [], before, _, h, _ => by simp_all [List.intercalate]
  | [a], before, hfree, h, hboundary => by
    have ha : a = before ++ (s ++ after) := by simpa [List.intercalate] using h
    rcases hboundary with rfl | ⟨more, rfl⟩
    · exact ⟨a, List.mem_cons_self, ha ▸ List.prefix_append _ _⟩
    · exact absurd (ha ▸ by simp) (hfree a List.mem_cons_self)
  | a :: b :: rest, before, hfree, h, hboundary => by
    rw [List.intercalate_cons_cons, List.append_assoc, List.singleton_append] at h
    have hrest : ∀ text ∈ b :: rest, c ∉ text := fun text htext => hfree text (List.mem_cons_of_mem _ htext)
    rcases hboundary with rfl | ⟨more, rfl⟩
    · exact ⟨a, List.mem_cons_self, prefix_of_cut hs h.symm⟩
    · -- the boundary is at the end of `a` or behind it
      rw [List.append_assoc, List.singleton_append] at h
      have hlater : ∃ front, [c].intercalate (b :: rest) = front ++ (s ++ after) ∧ Boundary c front := by
        rcases List.append_eq_append_iff.mp h with ⟨x, rfl, hx⟩ | ⟨x, rfl, hx⟩
        · cases x with
          | nil => exact ⟨[], (List.cons.inj hx).2, .inl rfl⟩
          | cons d x =>
            obtain ⟨rfl, hjoin⟩ := List.cons.inj hx
            have hx' : [c].intercalate (b :: rest) = x ++ c :: (s ++ after) := hjoin
            exact ⟨x ++ [c], by simp [hx'], .inr ⟨x, rfl⟩⟩
        · cases x with
          | nil => exact ⟨[], (List.cons.inj hx).2.symm, .inl rfl⟩
          | cons d x =>
            obtain ⟨rfl, -⟩ := List.cons.inj hx
            exact absurd (by simp) (hfree _ List.mem_cons_self)
      obtain ⟨front, hjoin, hfront⟩ := hlater
      obtain ⟨text, htext, hprefix⟩ := intercalate_boundary hs hne hrest hjoin hfront
      exact ⟨text, List.mem_cons_of_mem _ htext, hprefix⟩

end OpenClaw.Data
