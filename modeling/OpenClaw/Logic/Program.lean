/-
# OpenClaw.Logic.Program -- asynchronous code as a tree of requests

An `async` function is a `Program`: it is done, or it has issued a request to its environment and waits
for the reply.  A state machine can hold the program of a task that is suspended at an `await` and
advance it one reply at a time, while other tasks run in between.

The environment is a `handler`: it answers a request from the shared state and from what chance decides.
`Upholds` is the program logic over it: whatever chance decides, every reply leaves `I` true of the
shared state, and the result meets `Q`.  `upholds_bind` composes programs, `upholds_advance` is the rule
for one reply.
-/
import Mathlib.Logic.Basic

namespace OpenClaw.Logic

/-- A program over requests `Request`, each answered by a `Reply` of its own type. -/
inductive Program (Request : Type) (Reply : Request → Type) (α : Type) where
  | done (result : α)
  | call (request : Request) (next : Reply request → Program Request Reply α)

namespace Program

variable {Request : Type} {Reply : Request → Type} {α β : Type}

def bind : Program Request Reply α → (α → Program Request Reply β) → Program Request Reply β
  | done result, f => f result
  | call request next, f => call request fun reply => bind (next reply) f

instance : Monad (Program Request Reply) where
  pure := done
  bind := bind

/-- One request, whose reply is the result. -/
def request (r : Request) : Program Request Reply (Reply r) := call r done

variable {σ χ : Type} (handler : σ → (r : Request) → χ → σ × Reply r)

/-- The reply to the next request, if there is one to answer. -/
def advance? (s : σ) (chance : χ) : Program Request Reply α → Option (σ × Program Request Reply α)
  | done _ => none
  | call r next =>
    let (s, reply) := handler s r chance
    some (s, next reply)

/-- Every reply leaves `I` true, and the result meets `Q`. -/
def Upholds (I : σ → Prop) (Q : α → σ → Prop) : Program Request Reply α → σ → Prop
  | done result, s => Q result s
  | call r next, s => ∀ chance,
      I (handler s r chance).1 ∧ Upholds I Q (next (handler s r chance).2) (handler s r chance).1

variable {handler} {I : σ → Prop} {Q R : α → σ → Prop}

@[simp] theorem upholds_pure {result : α} {s : σ} :
    Upholds handler I Q (pure result) s ↔ Q result s := Iff.rfl

/-- **The rule of composition.** -/
theorem upholds_bind {p : Program Request Reply β} {f : β → Program Request Reply α} {s : σ} :
    Upholds handler I Q (p >>= f) s ↔ Upholds handler I (fun b s => Upholds handler I Q (f b) s) p s := by
  show Upholds handler I Q (bind p f) s ↔ _
  induction p generalizing s with
  | done result => exact Iff.rfl
  | call r next ih =>
    show (∀ chance, _ ∧ Upholds handler I Q (bind (next _) f) _) ↔ ∀ chance, _ ∧ _
    exact forall_congr' fun chance => and_congr_right fun _ => ih _

/-- **The rule for one reply.** -/
theorem upholds_advance {p p' : Program Request Reply α} {s s' : σ} {chance : χ}
    (h : Upholds handler I Q p s) (hstep : advance? handler s chance p = some (s', p')) :
    I s' ∧ Upholds handler I Q p' s' := by
  cases p with
  | done result => cases hstep
  | call r next =>
    have hreply := h chance
    simp only [advance?, Option.some.injEq, Prod.mk.injEq] at hstep
    obtain ⟨rfl, rfl⟩ := hstep
    exact hreply

end Program

end OpenClaw.Logic
