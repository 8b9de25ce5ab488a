/-
# OpenClaw.Logic.Fallible -- throwing computations and all-or-nothing transactions

A call that may throw is an `Except String`.  The lemmas tagged `simp` here invert such a
computation one statement at a time: a successful `x >>= f` is a successful `x` followed by a
successful `f`, a passed guard is the negation of its condition.  `transact` runs a body that reads
and rewrites a store and may throw at any point; when it throws, the store is the one it started
from.
-/
import Mathlib.Logic.Basic

namespace OpenClaw.Logic

variable {α β ε σ : Type}

@[simp] theorem bind_eq_ok {x : Except ε α} {f : α → Except ε β} {b : β} :
    (x >>= f) = .ok b ↔ ∃ a, x = .ok a ∧ f a = .ok b := by
  cases x with
  | error e => simp [bind, Except.bind]
  | ok a => simp [bind, Except.bind]

@[simp] theorem pure_eq_ok {a b : α} : (pure a : Except ε α) = .ok b ↔ a = b := by
  simp [pure, Except.pure]

@[simp] theorem map_eq_ok {x : Except ε α} {f : α → β} {b : β} : (f <$> x) = .ok b ↔ ∃ a, x = .ok a ∧ f a = b := by
  cases x with
  | error e => simp [Functor.map, Except.map]
  | ok a => simp [Functor.map, Except.map]

/-- A list mapped through a throwing function: the results come from the arguments, and each argument
has its result. -/
theorem mapM_mem {f : α → Except ε β} : ∀ {l : List α} {bs : List β}, l.mapM f = .ok bs →
    (∀ a ∈ l, ∃ b ∈ bs, f a = .ok b) ∧ ∀ b ∈ bs, ∃ a ∈ l, f a = .ok b
  | [], bs, h => by
    rw [List.mapM_nil, pure_eq_ok] at h
    subst h
    simp
  | a :: l, bs, h => by
    simp only [List.mapM_cons, bind_eq_ok, pure_eq_ok] at h
    obtain ⟨b, hb, rest, hrest, rfl⟩ := h
    obtain ⟨hto, hfrom⟩ := mapM_mem hrest
    constructor
    · rintro x (_ | ⟨_, hx⟩)
      · exact ⟨b, List.mem_cons_self, hb⟩
      · obtain ⟨y, hy, hxy⟩ := hto x hx
        exact ⟨y, List.mem_cons_of_mem _ hy, hxy⟩
    · rintro y (_ | ⟨_, hy⟩)
      · exact ⟨a, List.mem_cons_self, hb⟩
      · obtain ⟨x, hx, hxy⟩ := hfrom y hy
        exact ⟨x, List.mem_cons_of_mem _ hx, hxy⟩

/-- `if (bad) throw new Error(message)`. -/
def throwIf (bad : Prop) [Decidable bad] (message : String) : Except String Unit :=
  if bad then .error message else .ok ()

@[simp] theorem throwIf_eq_ok {bad : Prop} [Decidable bad] {message : String} {u : Unit} :
    throwIf bad message = .ok u ↔ ¬bad := by
  unfold throwIf
  split <;> simp [*]

/-- Run `body` as one transaction: its writes are kept when it returns and dropped when it throws. -/
def transact (body : σ → Except ε (α × σ)) (s : σ) : Except ε α × σ :=
  match body s with
  | .ok (a, s') => (.ok a, s')
  | .error e => (.error e, s)

variable {body : σ → Except ε (α × σ)}

theorem transact_ok {s s' : σ} {a : α} (h : body s = .ok (a, s')) : transact body s = (.ok a, s') := by
  simp [transact, h]

theorem transact_error {s : σ} {e : ε} (h : body s = .error e) : transact body s = (.error e, s) := by
  simp [transact, h]

/-- A transaction returns exactly what its body returns, and then it keeps the body's writes. -/
theorem transact_returns {s : σ} {a : α} (h : (transact body s).1 = .ok a) : body s = .ok (a, (transact body s).2) := by
  unfold transact at h ⊢
  split at h
  · rename_i a' s' hbody
    cases h
    simp [hbody]
  · cases h

/-- A transaction that throws leaves the store as it was. -/
theorem transact_throws {s : σ} {e : ε} (h : (transact body s).1 = .error e) : (transact body s).2 = s := by
  unfold transact at h ⊢
  split at h
  · cases h
  · rfl

/-- A property of the store survives a transaction when it survives every body that returns. -/
theorem transact_keeps {P : σ → Prop} {s : σ} (hs : P s) (hbody : ∀ a s', body s = .ok (a, s') → P s') :
    P (transact body s).2 := by
  unfold transact
  split
  · rename_i a s' h
    exact hbody a s' h
  · exact hs

end OpenClaw.Logic
