/-
# OpenClaw.Logic.Peeling -- layers taken off one after the other

A partial function takes the outermost layer off a value and names it.  `Peels` is what any number of such steps
do; the layers are collected with the value that each was taken from.
-/
import Mathlib.Data.List.Basic

namespace OpenClaw.Logic

variable {α L : Type} {peel : α → Option (L × α)}

/-- From a value to another one, with the layers in between. -/
inductive Peels (peel : α → Option (L × α)) : α → List (L × α) → α → Prop where
  | done (a : α) : Peels peel a [] a
  | layer {a b c : α} {name : L} {layers : List (L × α)} (h : peel a = some (name, b)) (rest : Peels peel b layers c) :
      Peels peel a ((name, a) :: layers) c

namespace Peels

variable {a b c : α} {layers layers' : List (L × α)}

theorem one {name : L} (h : peel a = some (name, b)) : Peels peel a [(name, a)] b := layer h (done b)

theorem trans (h : Peels peel a layers b) (h' : Peels peel b layers' c) : Peels peel a (layers ++ layers') c := by
  induction h with
  | done a => exact h'
  | layer hpeel _ ih => exact layer hpeel (ih h')

/-- **The invariant rule.** -/
theorem invariant {R : α → α → Prop} (hrefl : ∀ a, R a a) (htrans : ∀ {a b c}, R a b → R b c → R a c)
    (hpeel : ∀ {a b name}, peel a = some (name, b) → R a b) (h : Peels peel a layers b) : R a b := by
  induction h with
  | done a => exact hrefl a
  | layer hstep _ ih => exact htrans (hpeel hstep) ih

/-- What has no layers is where it is. -/
theorem of_none (hnone : peel a = none) (h : Peels peel a layers b) : layers = [] ∧ b = a := by
  cases h with
  | done => exact ⟨rfl, rfl⟩
  | layer hstep _ =>
    rw [hnone] at hstep
    contradiction

/-- Each collected layer was reached, and was taken off. -/
theorem of_mem (h : Peels peel a layers b) : ∀ layer ∈ layers,
    (∃ before, Peels peel a before layer.2) ∧ ∃ next, peel layer.2 = some (layer.1, next) := by
  induction h with
  | done a =>
    intro layer hlayer
    exact absurd hlayer List.not_mem_nil
  | @layer a b c name layers hstep _ ih =>
    refine List.forall_mem_cons.mpr ⟨⟨⟨[], done a⟩, b, hstep⟩, ?_⟩
    intro layer hlayer
    obtain ⟨⟨before, hbefore⟩, htaken⟩ := ih layer hlayer
    exact ⟨⟨_, (one hstep).trans hbefore⟩, htaken⟩

/-- Whatever is reached on the way to a value without layers is that value, or one of the layers was taken from it. -/
theorem reached (h : Peels peel a layers b) (hnone : peel b = none) :
    ∀ {before : List (L × α)} {stage : α}, Peels peel a before stage → stage = b ∨ ∃ name, (name, stage) ∈ layers := by
  induction h with
  | done a =>
    intro before stage hstage
    exact Or.inl (of_none hnone hstage).2
  | @layer a b c name layers hstep _ ih =>
    intro before stage hstage
    cases hstage with
    | done => exact Or.inr ⟨name, List.mem_cons_self⟩
    | layer hstep' hrest =>
      rw [hstep] at hstep'
      obtain ⟨rfl, rfl⟩ := Prod.mk.inj (Option.some.inj hstep')
      rcases ih hnone hrest with hend | ⟨name', hmem⟩
      · exact Or.inl hend
      · exact Or.inr ⟨name', List.mem_cons_of_mem _ hmem⟩

end Peels

end OpenClaw.Logic
