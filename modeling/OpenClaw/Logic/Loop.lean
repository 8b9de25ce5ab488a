/-
# OpenClaw.Logic.Loop -- loops that may go on for ever

One turn of a loop goes on with a new state or leaves with a result.  `turns` takes a number of turns at most, so a
loop ends if some number is enough.  `ends_of_variant` is the rule for loops that end: an invariant, and a number
that gets smaller with every turn.
-/
import Mathlib.Tactic.Common

namespace OpenClaw.Logic

variable {σ ρ : Type*}

inductive Turn (σ ρ : Type*) where
  | goOn (state : σ)
  | leave (result : ρ)

/-- At most `n` turns. -/
def turns (turn : σ → Turn σ ρ) : Nat → σ → Option ρ
  | 0, _ => none
  | n + 1, s =>
    match turn s with
    | .goOn s' => turns turn n s'
    | .leave result => some result

/-- What takes a number of turns, and has a result if that is enough. -/
def Returns (f : Nat → Option ρ) (result : ρ) : Prop := ∃ n, f n = some result

/-- **The loop ends** with a result. -/
def Ends (turn : σ → Turn σ ρ) (s : σ) (result : ρ) : Prop := Returns (fun n => turns turn n s) result

/-- The states that the loop comes to. -/
inductive Comes (turn : σ → Turn σ ρ) (s : σ) : σ → Prop
  | start : Comes turn s s
  | goOn {s₁ s₂ : σ} (hcomes : Comes turn s s₁) (hturn : turn s₁ = .goOn s₂) : Comes turn s s₂

variable {turn : σ → Turn σ ρ} {s s' : σ} {result : ρ}

theorem Comes.trans {s'' : σ} (h : Comes turn s s') (h' : Comes turn s' s'') : Comes turn s s'' := by
  induction h' with
  | start => exact h
  | goOn _ hturn ih => exact ih.goOn hturn

theorem ends_leave (h : turn s = .leave result) : Ends turn s result := ⟨1, by simp only [turns, h]⟩

theorem ends_goOn_iff (h : turn s = .goOn s') : Ends turn s result ↔ Ends turn s' result := by
  constructor
  · rintro ⟨n, hn⟩
    cases n with
    | zero => contradiction
    | succ n =>
      simp only [turns, h] at hn
      exact ⟨n, hn⟩
  · rintro ⟨n, hn⟩
    refine ⟨n + 1, ?_⟩
    simp only [turns, h]
    exact hn

/-- A loop that ends, ends with the same result from every state that it comes to. -/
theorem ends_comes (h : Comes turn s s') : Ends turn s result ↔ Ends turn s' result := by
  induction h with
  | start => exact Iff.rfl
  | goOn _ hturn ih => exact ih.trans (ends_goOn_iff hturn)

/-- A loop that ends leaves from a state that it comes to. -/
theorem Ends.leaves (h : Ends turn s result) : ∃ s', Comes turn s s' ∧ turn s' = .leave result := by
  obtain ⟨n, hn⟩ := h
  induction n generalizing s with
  | zero => contradiction
  | succ n ih =>
    cases hturn : turn s with
    | leave left =>
      simp only [turns, hturn, Option.some.injEq] at hn
      exact ⟨s, .start, by rw [hturn, hn]⟩
    | goOn next =>
      simp only [turns, hturn] at hn
      obtain ⟨s', hcomes, hleaves⟩ := ih hn
      exact ⟨s', (Comes.start.goOn hturn).trans hcomes, hleaves⟩

/-- **The rule for loops that end**: `P` is the invariant, and `R` relates a state to the result from there. -/
theorem ends_of_variant {P : σ → Prop} {R : σ → ρ → Prop} (variant : σ → Nat)
    (hleave : ∀ s result, P s → turn s = .leave result → R s result)
    (hgoOn : ∀ s s', P s → turn s = .goOn s' → P s' ∧ variant s' < variant s ∧ ∀ result, R s' result → R s result) :
    ∀ s, P s → ∃ result, Ends turn s result ∧ R s result := by
  intro s hs
  obtain ⟨n, hn⟩ : ∃ n, n = variant s := ⟨_, rfl⟩
  induction n using Nat.strongRecOn generalizing s with
  | _ n ih =>
    cases hturn : turn s with
    | leave result => exact ⟨result, ends_leave hturn, hleave s result hs hturn⟩
    | goOn s' =>
      obtain ⟨hs', hless, hback⟩ := hgoOn s s' hs hturn
      obtain ⟨result, hends, hresult⟩ := ih _ (hn ▸ hless) s' hs' rfl
      exact ⟨result, (ends_goOn_iff hturn).mpr hends, hback result hresult⟩

/-- A loop that goes on with the same state never ends. -/
theorem never_ends_of_same (h : turn s = .goOn s) : ¬Ends turn s result := by
  rintro ⟨n, hn⟩
  induction n with
  | zero => contradiction
  | succ n ih =>
    simp only [turns, h] at hn
    exact ih hn

end OpenClaw.Logic
