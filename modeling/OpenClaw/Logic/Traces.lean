/-
# OpenClaw.Logic.Traces -- what a program asks, and what it answers, in every environment

A trace of a `Program` is the list of its requests with the replies it got.  `Traced p trace result`
says that there is an environment in which `p` makes this trace and returns this result.  The lemmas
tagged `simp` take a traced program apart one statement at a time.

In a `Throwing` program every reply may be a failure, and the program fails with it unless it catches it.
`Does` relates results to traces, whatever the environment does, and has a rule for every statement; `returning`
is the relation of a program that throws only before it has done something.  An `Inclusion` makes a program one over more requests and more failures; it goes
through the statements too.
-/
import Mathlib.Data.List.Basic
import OpenClaw.Logic.Program

namespace OpenClaw.Logic

variable {Request : Type} {Reply : Request → Type} {α β : Type}

/-- A request and its reply. -/
abbrev Exchange (Reply : Request → Type) := (request : Request) × Reply request

namespace Program

/-- In some environment the program makes these exchanges and returns this result. -/
def Traced : Program Request Reply α → List (Exchange Reply) → α → Prop
  | done a, trace, result => trace = [] ∧ result = a
  | call request next, trace, result => ∃ reply rest, trace = ⟨request, reply⟩ :: rest ∧ Traced (next reply) rest result

@[simp] theorem traced_request {r : Request} {trace : List (Exchange Reply)} {reply : Reply r} :
    Traced (request r : Program Request Reply (Reply r)) trace reply ↔ trace = [⟨r, reply⟩] := by
  show (∃ reply' rest, trace = ⟨r, reply'⟩ :: rest ∧ rest = [] ∧ reply = reply') ↔ _
  constructor
  · rintro ⟨reply', rest, rfl, rfl, rfl⟩
    rfl
  · rintro rfl
    exact ⟨reply, [], rfl, rfl, rfl⟩

variable {p : Program Request Reply α}

/-- **The rule of composition.** -/
theorem traced_bind {f : α → Program Request Reply β} {trace : List (Exchange Reply)} {result : β} :
    Traced (p >>= f) trace result ↔ ∃ a front back, trace = front ++ back ∧ Traced p front a ∧
      Traced (f a) back result := by
  show Traced (bind p f) trace result ↔ _
  induction p generalizing trace with
  | done a =>
    constructor
    · intro h
      exact ⟨a, [], trace, rfl, ⟨rfl, rfl⟩, h⟩
    · rintro ⟨a', front, back, rfl, ⟨rfl, rfl⟩, h⟩
      exact h
  | call r next ih =>
    constructor
    · rintro ⟨reply, rest, rfl, h⟩
      obtain ⟨a, front, back, rfl, hp, hf⟩ := (ih reply).mp h
      exact ⟨a, ⟨r, reply⟩ :: front, back, rfl, ⟨reply, front, rfl, hp⟩, hf⟩
    · rintro ⟨a, front, back, rfl, ⟨reply, rest, rfl, hp⟩, hf⟩
      exact ⟨reply, rest ++ back, rfl, (ih reply).mpr ⟨a, rest, back, rfl, hp, hf⟩⟩

/-- The program in an environment that answers from what was asked before. -/
def play (answer : List (Exchange Reply) → (r : Request) → Reply r) :
    Program Request Reply α → List (Exchange Reply) → List (Exchange Reply) × α
  | done a, _ => ([], a)
  | call r next, before =>
    let exchange : Exchange Reply := ⟨r, answer before r⟩
    let (rest, result) := play answer (next exchange.2) (before ++ [exchange])
    (exchange :: rest, result)

theorem traced_play (answer : List (Exchange Reply) → (r : Request) → Reply r) (p : Program Request Reply α) :
    ∀ before, Traced p (p.play answer before).1 (p.play answer before).2 := by
  induction p with
  | done a => exact fun before => ⟨rfl, rfl⟩
  | call r next ih => exact fun before => ⟨answer before r, _, rfl, ih _ _⟩

/-! ### Environments with a state -/

section State

variable {σ χ : Type} (handler : σ → (r : Request) → χ → σ × Reply r)

/-- The handler answers the program from its state and from what chance decides: it leaves this trace, this
state and this result. -/
def Runs : Program Request Reply α → σ → List (Exchange Reply) → σ → α → Prop
  | done a, s, trace, s', result => trace = [] ∧ s' = s ∧ result = a
  | call r next, s, trace, s', result =>
    ∃ chance rest, trace = ⟨r, (handler s r chance).2⟩ :: rest ∧
      Runs (next (handler s r chance).2) (handler s r chance).1 rest s' result

variable {handler}

theorem Runs.traced : ∀ {s s' : σ} {trace : List (Exchange Reply)} {result : α}, Runs handler p s trace s' result →
      Traced p trace result := by
  induction p with
  | done a =>
    rintro s s' trace result ⟨rfl, -, rfl⟩
    exact ⟨rfl, rfl⟩
  | call r next ih =>
    rintro s s' trace result ⟨chance, rest, rfl, h⟩
    exact ⟨_, rest, rfl, ih _ h⟩

theorem Runs.nil {s s' : σ} {result : α} (h : Runs handler p s [] s' result) : s' = s := by
  cases p with
  | done a => exact h.2.1
  | call r next =>
    obtain ⟨chance, rest, htrace, -⟩ := h
    cases htrace

/-- The first reply is the handler's. -/
theorem Runs.first {s s' : σ} {exchange : Exchange Reply} {rest : List (Exchange Reply)} {result : α}
    (h : Runs handler p s (exchange :: rest) s' result) : ∃ chance, exchange.2 = (handler s exchange.1 chance).2 := by
  cases p with
  | done a =>
    obtain ⟨htrace, -⟩ := h
    cases htrace
  | call r next =>
    obtain ⟨chance, _, htrace, -⟩ := h
    obtain ⟨rfl, -⟩ := List.cons.inj htrace
    exact ⟨chance, rfl⟩

/-- The state at the end is the one that the last request has left. -/
theorem Runs.last : ∀ {s s' : σ} {trace : List (Exchange Reply)} {result : α}
      {exchange : Exchange Reply}, Runs handler p s (trace ++ [exchange]) s' result →
      ∃ before chance, handler before exchange.1 chance = (s', exchange.2) := by
  induction p with
  | done a =>
    rintro s s' trace result exchange ⟨htrace, -⟩
    simp at htrace
  | call r next ih =>
    rintro s s' trace result exchange ⟨chance, rest, htrace, h⟩
    rcases trace with _ | ⟨first, trace⟩
    · obtain ⟨rfl, rfl⟩ := List.cons.inj htrace
      exact ⟨s, chance, by rw [h.nil]⟩
    · obtain ⟨-, rfl⟩ := List.cons.inj htrace
      exact ih _ h

end State

end Program

/-! ## Programs that throw -/

/-- A program whose requests may fail with an `ε`, and that may fail with one. -/
abbrev Throwing (ε : Type) (Answer : Request → Type) (α : Type) :=
  ExceptT ε (Program Request fun r => Except ε (Answer r)) α

namespace Throwing

open Program

variable {ε : Type} {Answer : Request → Type}

/-- A request; a failure of it is thrown. -/
def ask (r : Request) : Throwing ε Answer (Answer r) := ExceptT.mk (Program.request r)

/-- What is computed without a request. -/
def compute (x : Except ε α) : Throwing ε Answer α := ExceptT.mk (pure x)

/-- The exchanges of a throwing program. -/
abbrev Trace (ε : Type) (Answer : Request → Type) := List (Exchange fun r : Request => Except ε (Answer r))

/-- In some environment the program makes these exchanges and ends like this. -/
def Ends (p : Throwing ε Answer α) (trace : Trace ε Answer) (result : Except ε α) : Prop :=
  Program.Traced p.run trace result

variable {trace : Trace ε Answer} {e : ε}

@[simp] theorem ends_pure {a : α} {result : Except ε α} :
    Ends (pure a : Throwing ε Answer α) trace result ↔ trace = [] ∧ result = .ok a := Iff.rfl

@[simp] theorem ends_throw {result : Except ε α} :
    Ends (throw e : Throwing ε Answer α) trace result ↔ trace = [] ∧ result = .error e := Iff.rfl

@[simp] theorem ends_compute {x result : Except ε α} :
    Ends (compute x : Throwing ε Answer α) trace result ↔ trace = [] ∧ result = x := Iff.rfl

@[simp] theorem ends_ask {r : Request} {result : Except ε (Answer r)} :
    Ends (ask r : Throwing ε Answer (Answer r)) trace result ↔ trace = [⟨r, result⟩] :=
  traced_request

theorem ends_bind {p : Throwing ε Answer α} {f : α → Throwing ε Answer β} {result : Except ε β} :
    Ends (p >>= f) trace result ↔
      (∃ a front back, trace = front ++ back ∧ Ends p front (.ok a) ∧ Ends (f a) back result) ∨
        ∃ e, Ends p trace (.error e) ∧ result = .error e := by
  show Traced (p.run >>= ExceptT.bindCont f) trace result ↔ _
  rw [traced_bind]
  constructor
  · rintro ⟨a | a, front, back, rfl, hp, hf⟩
    · obtain ⟨rfl, rfl⟩ : back = [] ∧ result = .error a := hf
      exact .inr ⟨a, (List.append_nil front).symm ▸ hp, rfl⟩
    · exact .inl ⟨a, front, back, rfl, hp, hf⟩
  · rintro (⟨a, front, back, rfl, hp, hf⟩ | ⟨e, hp, rfl⟩)
    · exact ⟨.ok a, front, back, rfl, hp, hf⟩
    · exact ⟨.error e, trace, [], (List.append_nil trace).symm, hp, rfl, rfl⟩

/-- **What catches**: the failure of the program, not one of the handler. -/
theorem ends_tryCatch {p : Throwing ε Answer α} {handler : ε → Throwing ε Answer α} {result : Except ε α} :
    Ends (tryCatch p handler) trace result ↔ (∃ a, Ends p trace (.ok a) ∧ result = .ok a) ∨
        ∃ e front back, trace = front ++ back ∧ Ends p front (.error e) ∧ Ends (handler e) back result := by
  let caught : Except ε α → Program Request (fun r => Except ε (Answer r)) (Except ε α)
    | .ok a => pure (.ok a)
    | .error e => (handler e).run
  have hrun : (tryCatch p handler).run = p.run >>= caught := by
    refine congrArg (p.run >>= ·) (funext fun outcome => ?_)
    cases outcome <;> rfl
  unfold Ends
  rw [hrun, traced_bind]
  constructor
  · rintro ⟨e | a, front, back, rfl, hp, hcaught⟩
    · exact .inr ⟨e, front, back, rfl, hp, hcaught⟩
    · obtain ⟨rfl, rfl⟩ : back = [] ∧ result = .ok a := hcaught
      exact .inl ⟨a, (List.append_nil front).symm ▸ hp, rfl⟩
  · rintro (⟨a, hp, rfl⟩ | ⟨e, front, back, rfl, hp, hcaught⟩)
    · exact ⟨.ok a, trace, [], (List.append_nil trace).symm, hp, rfl, rfl⟩
    · exact ⟨.error e, front, back, rfl, hp, hcaught⟩

/-! ## What a program does -/

section Does

variable {p : Throwing ε Answer α} {f : α → Throwing ε Answer β} {Q : Except ε α → Trace ε Answer → Prop}
  {R : α → Trace ε Answer → Prop} {S : β → Trace ε Answer → Prop}
  {P : Exchange (fun r : Request => Except ε (Answer r)) → Bool}

/-- Whatever the environment does, `Q` holds of the result and the trace. -/
def Does (p : Throwing ε Answer α) (Q : Except ε α → Trace ε Answer → Prop) : Prop :=
  ∀ ⦃trace result⦄, Ends p trace result → Q result trace

/-- None of the exchanges is a `P`. -/
def Quiet (P : Exchange (fun r : Request => Except ε (Answer r)) → Bool) (trace : Trace ε Answer) : Prop :=
  trace.filter P = []

theorem Quiet.append {front back : Trace ε Answer} (hfront : Quiet P front) (hback : Quiet P back) :
    Quiet P (front ++ back) := by
  rw [Quiet, List.filter_append, hfront, hback, List.append_nil]

/-- What a program that returns has done; one that throws has done no `P`. -/
def returning (P : Exchange (fun r : Request => Except ε (Answer r)) → Bool) (R : α → Trace ε Answer → Prop) :
    Except ε α → Trace ε Answer → Prop
  | .ok a, trace => R a trace
  | .error _, trace => Quiet P trace

theorem does_pure {a : α} (h : Q (.ok a) []) : Does (pure a) Q := by
  rintro trace result ⟨rfl, rfl⟩
  exact h

theorem does_throw (h : Q (.error e) []) : Does (throw e) Q := by
  rintro trace result ⟨rfl, rfl⟩
  exact h

theorem does_ask {r : Request} {Q : Except ε (Answer r) → Trace ε Answer → Prop}
    (h : ∀ reply, Q reply [⟨r, reply⟩]) : Does (ask r) Q := by
  intro trace result hends
  rw [ends_ask] at hends
  exact hends ▸ h result

theorem does_compute_bind {x : Except ε α} {Q : Except ε β → Trace ε Answer → Prop}
    (herror : ∀ e, x = .error e → Q (.error e) []) (hok : ∀ a, x = .ok a → Does (f a) Q) :
    Does (compute x >>= f) Q := by
  cases x with
  | error e =>
    rintro trace result ⟨rfl, rfl⟩
    exact herror e rfl
  | ok a => exact hok a rfl

theorem Does.bind {Q' : Except ε β → Trace ε Answer → Prop} (hp : Does p Q)
    (herror : ∀ {e front}, Q (.error e) front → Q' (.error e) front)
    (hok : ∀ {a front}, Q (.ok a) front → Does (f a) fun result back => Q' result (front ++ back)) :
    Does (p >>= f) Q' := by
  intro trace result hends
  rcases ends_bind.mp hends with ⟨a, front, back, rfl, hfront, hback⟩ | ⟨e, hthrown, rfl⟩
  · exact hok (hp hfront) hback
  · exact herror (hp hthrown)

theorem Does.tryCatch {Q' : Except ε α → Trace ε Answer → Prop} {handler : ε → Throwing ε Answer α} (hp : Does p Q)
    (hok : ∀ {a front}, Q (.ok a) front → Q' (.ok a) front)
    (herror : ∀ {e front}, Q (.error e) front → Does (handler e) fun result back => Q' result (front ++ back)) :
    Does (tryCatch p handler) Q' := by
  intro trace result hends
  rcases ends_tryCatch.mp hends with ⟨a, hreturned, rfl⟩ | ⟨e, front, back, rfl, hfront, hback⟩
  · exact hok (hp hreturned)
  · exact herror (hp hfront) hback

/-- A quiet statement, and then one that may throw. -/
theorem Does.andThen (hp : Does p (returning P R)) (hquiet : ∀ {a front}, R a front → Quiet P front)
    (hok : ∀ {a front}, R a front → Does (f a) (returning P fun b back => S b (front ++ back))) :
    Does (p >>= f) (returning P S) := by
  refine hp.bind id fun {a front} hfront back result hends => ?_
  have hback := hok hfront hends
  cases result with
  | ok b => exact hback
  | error e => exact (hquiet hfront).append hback

/-- A statement whose result is only looked at. -/
theorem Does.returns {g : α → β} (hp : Does p (returning P R)) (hok : ∀ {a front}, R a front → S (g a) front) :
    Does (p >>= fun a => pure (g a)) (returning P S) :=
  hp.bind id fun {a front} hfront => does_pure (by
    rw [List.append_nil]
    exact hok hfront)

section Ask

variable {r : Request} {f : Answer r → Throwing ε Answer β} {g : Answer r → β}

theorem does_ask_andThen (hquiet : ∀ reply, P ⟨r, reply⟩ = false)
    (hok : ∀ a, Does (f a) (returning P fun b back => S b (⟨r, .ok a⟩ :: back))) :
    Does (ask r >>= f) (returning P S) := by
  have hasked (reply) : Quiet P [⟨r, reply⟩] := List.filter_eq_nil_iff.mpr (by simp [hquiet reply])
  refine Does.andThen (R := fun a trace => trace = [⟨r, .ok a⟩]) (does_ask ?_) ?_ ?_
  · rintro (e | a)
    · exact hasked _
    · rfl
  · rintro a _ rfl
    exact hasked _
  · rintro a _ rfl
    exact hok a

theorem does_ask_returns (hquiet : ∀ e, P ⟨r, .error e⟩ = false) (hok : ∀ a, S (g a) [⟨r, .ok a⟩]) :
    Does (ask r >>= fun a => pure (g a)) (returning P S) := by
  refine Does.returns (R := fun a trace => trace = [⟨r, .ok a⟩]) (does_ask ?_) ?_
  · rintro (e | a)
    · exact List.filter_eq_nil_iff.mpr (by simp [hquiet e])
    · rfl
  · rintro a _ rfl
    exact hok a

theorem does_ask_map {Q : Except ε β → Trace ε Answer → Prop} (h : ∀ reply, Q (reply.map g) [⟨r, reply⟩]) :
    Does (ask r >>= fun a => pure (g a)) Q := by
  refine Does.bind (Q := fun reply trace => trace = [⟨r, reply⟩]) (does_ask fun _ => rfl) ?_ ?_
  · rintro e _ rfl
    exact h (.error e)
  · rintro a _ rfl
    exact does_pure (h (.ok a))

end Ask

end Does

/-! ## Among more requests -/

/-- Requests with their answers, and failures, among more of both. -/
structure Inclusion {Request' : Type} (ε ε' : Type) (Answer : Request → Type) (Answer' : Request' → Type) where
  request : Request → Request'
  answer : ∀ {r}, Answer' (request r) → Answer r
  failure : ε → ε'
  /-- The failure that it is, if it is one of the program's. -/
  own : ε' → Option ε
  failure_of_own : ∀ {e' e}, own e' = some e → failure e = e'

namespace Inclusion

variable {Request' : Type} {ε' : Type} {Answer' : Request' → Type} (i : Inclusion ε ε' Answer Answer')

/-- The program among the requests; a failure that is not its own ends it. -/
def embedded : Program Request (fun r => Except ε (Answer r)) (Except ε α) →
    Program Request' (fun r => Except ε' (Answer' r)) (Except ε' α)
  | .done result => .done (result.mapError i.failure)
  | .call r next => .call (i.request r) fun
      | .ok reply => embedded (next (.ok (i.answer reply)))
      | .error e' =>
        match i.own e' with
        | some e => embedded (next (.error e))
        | none => .done (.error e')

def embed (p : Throwing ε Answer α) : Throwing ε' Answer' α := ExceptT.mk (i.embedded p.run)

@[simp] theorem embed_pure (a : α) : i.embed (pure a) = pure a := rfl

@[simp] theorem embed_throw (e : ε) : i.embed (throw e : Throwing ε Answer α) = throw (i.failure e) := rfl

@[simp] theorem embed_compute (x : Except ε α) : i.embed (compute x) = compute (x.mapError i.failure) := rfl

@[simp] theorem embed_ask (r : Request) :
    i.embed (ask r : Throwing ε Answer _) = ask (i.request r) >>= fun reply => pure (i.answer reply) := by
  change i.embedded (.call r .done) = _
  rw [embedded]
  refine congrArg (Program.call (i.request r)) (funext fun reply => ?_)
  rcases reply with e' | reply
  · show (match i.own e' with | some e => _ | none => _) = Program.done (Except.error e')
    cases hown : i.own e' with
    | none => rfl
    | some e => exact congrArg (fun e => Program.done (Except.error e)) (i.failure_of_own hown)
  · rfl

/-- **An embedded program, statement by statement.** -/
@[simp] theorem embed_bind (p : Throwing ε Answer α) (f : α → Throwing ε Answer β) :
    i.embed (p >>= f) = i.embed p >>= fun a => i.embed (f a) := by
  show i.embedded (Program.bind p (ExceptT.bindCont f)) =
    Program.bind (i.embedded p) (ExceptT.bindCont fun a => i.embed (f a))
  induction p with
  | done result => cases result <;> rfl
  | call r next ih =>
    rw [Program.bind, embedded, embedded, Program.bind]
    refine congrArg (Program.call (i.request r)) (funext fun reply => ?_)
    rcases reply with e' | reply
    · show (match i.own e' with | some e => _ | none => _) =
        Program.bind (match i.own e' with | some e => _ | none => _) _
      cases i.own e' with
      | none => rfl
      | some e => exact ih (.error e)
    · exact ih (.ok (i.answer reply))

end Inclusion

end Throwing

end OpenClaw.Logic
