/-
# OpenClaw.WorkerEnvironments.TurnClaimWaiters -- no waiter for a turn claim is stranded

A caller that finds a session claimed may wait for the release.  The waiters of a session sit in a set
that is found through a map; a release takes the set out of the map and settles its members, and a
member that settles by its timer or its abort signal takes the set out when it was the last.  Both go by
the session id, so that a waiter is safe only while the map still leads to its own set: `Consistent`
says so.  The sets are objects of their own here; the map is that of one database path.
-/
import OpenClaw.WorkerEnvironments.TurnClaimTokens

namespace OpenClaw.WorkerEnvironments.Placement

open OpenClaw.Logic OpenClaw.Data

/-! ## The registry -/

structure TurnClaimReleaseWaiter where
  id : Nat
  sessionId : String
  /-- The set that it was added to. -/
  set : Nat
  deriving DecidableEq

inductive WaitOutcome where
  | released
  | timedOut
  | aborted
  deriving DecidableEq

structure TurnClaimWaiters where
  /-- `turnClaimReleaseWaiters.get(path)` -/
  bySession : String → Option Nat
  members : Nat → List TurnClaimReleaseWaiter
  nextSet : Nat
  nextWaiter : Nat
  /-- The waiters whose promise is open. -/
  waiting : List TurnClaimReleaseWaiter
  settled : List (TurnClaimReleaseWaiter × WaitOutcome)

def noWaiters : TurnClaimWaiters where
  bySession _ := none
  members _ := []
  nextSet := 0
  nextWaiter := 0
  waiting := []
  settled := []

/-- `waitersFor`: the set of a session, made when there is none. -/
def waitersFor (sessionId : String) (r : TurnClaimWaiters) : Nat × TurnClaimWaiters :=
  match r.bySession sessionId with
  | some set => (set, r)
  | none =>
    (r.nextSet, { r with
      bySession := fun s => if s = sessionId then some r.nextSet else r.bySession s
      members := fun n => if n = r.nextSet then [] else r.members n
      nextSet := r.nextSet + 1 })

/-- `finish`: settle a waiter once, and drop the map entry of its session when its set is empty. -/
def finish (outcome : WaitOutcome) (r : TurnClaimWaiters) (w : TurnClaimReleaseWaiter) : TurnClaimWaiters :=
  if w ∈ r.waiting then
    let left := (r.members w.set).filter (· ≠ w)
    { r with
      waiting := r.waiting.filter (· ≠ w)
      settled := (w, outcome) :: r.settled
      members := fun n => if n = w.set then left else r.members n
      bySession := fun s => if left = [] ∧ s = w.sessionId then none else r.bySession s }
  else r

def signalTurnClaimRelease (r : TurnClaimWaiters) (sessionId : String) : TurnClaimWaiters :=
  match r.bySession sessionId with
  | none => r
  | some set =>
    (r.members set).foldl (finish .released)
      { r with bySession := fun s => if s = sessionId then none else r.bySession s }

/-- A new waiter in the set of its session. -/
def register (sessionId : String) (r : TurnClaimWaiters) : TurnClaimReleaseWaiter × TurnClaimWaiters :=
  let (set, r) := waitersFor sessionId r
  let w : TurnClaimReleaseWaiter := { id := r.nextWaiter, sessionId, set }
  (w, { r with
    members := fun n => if n = set then w :: r.members n else r.members n
    nextWaiter := r.nextWaiter + 1
    waiting := w :: r.waiting })

/-! ## The service -/

structure PlacementService where
  db : PlacementDb
  waiters : TurnClaimWaiters

/-- A call as a caller sees it: the transaction, then the signals. -/
def PlacementService.call (s : PlacementService) (op : PlacementOp) : PlacementService where
  db := applyOp s.db op
  waiters :=
    match (op.call s.db).1 with
    | .ok reply => (op.signals reply).foldl signalTurnClaimRelease s.waiters
    | .error _ => s.waiters

/-- Is there a claim to wait for? -/
def claimed (db : PlacementDb) (sessionId : String) : Except String Bool := do
  return (← find db sessionId).any (·.turnClaim.isSome)

/-- `waitForTurnClaimRelease`, up to the point where it awaits. -/
def waitForTurnClaimRelease (sessionIdInput : String) (timeoutMs : Int) (aborted : Bool)
    (s : PlacementService) : Except String PlacementService := do
  let sessionId ← required sessionIdInput "session id"
  throwIf (isSafeInteger timeoutMs = false ∨ timeoutMs < 0)
    "Worker session turn claim wait timeout must be a non-negative integer"
  if (← claimed s.db sessionId) = false then return s
  let (w, waiters) := register sessionId s.waiters
  -- register first, then reread
  if (← claimed s.db sessionId) = false then
    return { s with waiters := finish .released waiters w }
  if aborted then return { s with waiters := finish .aborted waiters w }
  return { s with waiters }

inductive ServiceStep where
  | call (op : PlacementOp)
  | wait (sessionId : String) (timeoutMs : Int) (aborted : Bool)
  | timeout (w : TurnClaimReleaseWaiter)
  | abort (w : TurnClaimReleaseWaiter)

def serviceStep (s : PlacementService) : ServiceStep → PlacementService
  | .call op => s.call op
  | .wait sessionId timeoutMs aborted =>
    match waitForTurnClaimRelease sessionId timeoutMs aborted s with
    | .ok s => s
    | .error _ => s
  | .timeout w => { s with waiters := finish .timedOut s.waiters w }
  | .abort w => { s with waiters := finish .aborted s.waiters w }

attribute [grind =] serviceStep

def serviceAfter (steps : List ServiceStep) : PlacementService :=
  run serviceStep { db := Table.empty, waiters := noWaiters } steps

/-! ## The map leads to every open waiter -/

structure Consistent (r : TurnClaimWaiters) : Prop where
  reached : ∀ w ∈ r.waiting, r.bySession w.sessionId = some w.set ∧ w ∈ r.members w.set
  allocated : ∀ s n, r.bySession s = some n → n < r.nextSet
  separate : ∀ s s' n, r.bySession s = some n → r.bySession s' = some n → s = s'
  owned : ∀ s n, r.bySession s = some n → ∀ w ∈ r.members n, w.sessionId = s

theorem consistent_noWaiters : Consistent noWaiters :=
  ⟨fun _ h => (by cases h), fun _ _ h => (by cases h), fun _ _ _ h => (by cases h),
    fun _ _ h => (by cases h)⟩

section Finishing

variable {r : TurnClaimWaiters} {outcome : WaitOutcome} {w : TurnClaimReleaseWaiter}

theorem finish_waiting {w' : TurnClaimReleaseWaiter} : w' ∈ (finish outcome r w).waiting ↔ w' ∈ r.waiting ∧ w' ≠ w := by
  unfold finish
  split
  · simp
  · rename_i hsettled
    constructor
    · intro h
      refine ⟨h, ?_⟩
      rintro rfl
      exact hsettled h
    · exact And.left

theorem finish_settled_mono {entry : TurnClaimReleaseWaiter × WaitOutcome} (h : entry ∈ r.settled) :
    entry ∈ (finish outcome r w).settled := by
  unfold finish
  split
  · exact List.mem_cons_of_mem _ h
  · exact h

theorem finish_settles (h : w ∈ r.waiting) : (w, outcome) ∈ (finish outcome r w).settled := by
  unfold finish
  rw [if_pos h]
  exact List.mem_cons_self

theorem finish_members {n : Nat} {w' : TurnClaimReleaseWaiter} (h : w' ∈ (finish outcome r w).members n) :
    w' ∈ r.members n := by
  unfold finish at h
  split at h
  · dsimp only at h
    split at h
    · rename_i heq
      subst heq
      exact (List.mem_filter.mp h).1
    · exact h
  · exact h

theorem finish_keeps_member {n : Nat} {w' : TurnClaimReleaseWaiter} (h : w' ∈ r.members n) (hne : w' ≠ w) :
    w' ∈ (finish outcome r w).members n := by
  unfold finish
  split
  · dsimp only
    split
    · rename_i heq
      subst heq
      exact List.mem_filter.mpr ⟨h, decide_eq_true hne⟩
    · exact h
  · exact h

/-- The map only loses the entry of a set that is empty. -/
theorem finish_bySession (outcome : WaitOutcome) (r : TurnClaimWaiters) (w : TurnClaimReleaseWaiter) (s : String) :
    (finish outcome r w).bySession s = r.bySession s ∨
      (finish outcome r w).bySession s = none ∧ s = w.sessionId ∧ w ∈ r.waiting ∧ ∀ w' ∈ r.members w.set, w' = w := by
  unfold finish
  split
  · rename_i hwaiting
    dsimp only
    split
    · rename_i hempty
      refine .inr ⟨rfl, hempty.2, hwaiting, fun w' hw' => ?_⟩
      by_contra hne
      have hleft : w' ∈ (r.members w.set).filter (· ≠ w) := List.mem_filter.mpr ⟨hw', decide_eq_true hne⟩
      rw [hempty.1] at hleft
      cases hleft
    · exact .inl rfl
  · exact .inl rfl

theorem finish_nextSet : (finish outcome r w).nextSet = r.nextSet := by
  unfold finish
  split <;> rfl

theorem finish_some {s : String} {n : Nat} (h : (finish outcome r w).bySession s = some n) :
    r.bySession s = some n := by
  rcases finish_bySession outcome r w s with heq | ⟨hnone, -⟩
  · exact heq ▸ h
  · rw [hnone] at h
    cases h

/-- A timer or an abort signal settles one waiter; the others stay reachable. -/
theorem Consistent.finish (h : Consistent r) (outcome : WaitOutcome) (w : TurnClaimReleaseWaiter) :
    Consistent (finish outcome r w) := by
  refine ⟨fun w' hw' => ?_, fun s n hs => ?_, fun s s' n hs hs' => ?_, fun s n hs w' hw' => ?_⟩
  · obtain ⟨hwaiting, hne⟩ := finish_waiting.mp hw'
    obtain ⟨hset, hmember⟩ := h.reached w' hwaiting
    refine ⟨?_, finish_keeps_member hmember hne⟩
    rcases finish_bySession outcome r w w'.sessionId with heq | ⟨-, hsession, hw, hlast⟩
    · rw [heq, hset]
    · -- a waiter of the same session sits in the same set, which is not empty then
      have hsame : w'.set = w.set := by
        have := (h.reached w hw).1
        rw [← hsession, hset] at this
        exact Option.some.inj this
      exact absurd (hlast w' (hsame ▸ hmember)) hne
  · rw [finish_nextSet]
    exact h.allocated s n (finish_some hs)
  · exact h.separate s s' n (finish_some hs) (finish_some hs')
  · exact h.owned s n (finish_some hs) w' (finish_members hw')

end Finishing

/-! ## A signal settles every waiter of its session -/

/-- What settling a list of waiters of one session does, once the map has lost the session. -/
structure Settles (ws : List TurnClaimReleaseWaiter) (r r' : TurnClaimWaiters) : Prop where
  bySession : r'.bySession = r.bySession
  nextSet : r'.nextSet = r.nextSet
  waiting : ∀ w, w ∈ r'.waiting ↔ w ∈ r.waiting ∧ w ∉ ws
  shrinks : ∀ n w, w ∈ r'.members n → w ∈ r.members n
  keeps : ∀ n w, w ∈ r.members n → w ∉ ws → w ∈ r'.members n
  settled : ∀ entry ∈ r.settled, entry ∈ r'.settled
  released : ∀ w ∈ ws, w ∈ r.waiting → (w, WaitOutcome.released) ∈ r'.settled

theorem settles_all (sessionId : String) (ws : List TurnClaimReleaseWaiter) :
    ∀ r : TurnClaimWaiters, r.bySession sessionId = none → (∀ w ∈ ws, w.sessionId = sessionId) →
      Settles ws r (ws.foldl (finish .released) r) := by
  induction ws with
  | nil =>
    intro r _ _
    exact ⟨rfl, rfl, fun w => by simp, fun _ _ h => h, fun _ _ h _ => h, fun _ h => h,
      fun _ h => by cases h⟩
  | cons w ws ih =>
    intro r hnone hsession
    have hmap : (finish .released r w).bySession = r.bySession := by
      funext s
      rcases finish_bySession .released r w s with heq | ⟨heq, rfl, -⟩
      · exact heq
      · rw [heq, hsession w List.mem_cons_self, hnone]
    have hrest := ih (finish .released r w) (by rw [hmap, hnone])
      fun w' hw' => hsession w' (List.mem_cons_of_mem _ hw')
    rw [List.foldl_cons]
    refine ⟨hrest.bySession.trans hmap, hrest.nextSet.trans finish_nextSet, fun w' => ?_,
      fun n w' hw' => finish_members (hrest.shrinks n w' hw'), fun n w' hw' hne => ?_,
      fun entry hentry => hrest.settled entry (finish_settled_mono hentry), fun w' hw' hwaiting => ?_⟩
    · rw [hrest.waiting, finish_waiting, List.mem_cons]
      tauto
    · rw [List.mem_cons, not_or] at hne
      exact hrest.keeps n w' (finish_keeps_member hw' hne.1) hne.2
    · by_cases heq : w' = w
      · subst heq
        exact hrest.settled _ (finish_settles hwaiting)
      · have hmem : w' ∈ ws := (List.mem_cons.mp hw').resolve_left heq
        exact hrest.released w' hmem (finish_waiting.mpr ⟨hwaiting, heq⟩)

/-- What a signal leaves: the waiters of other sessions. -/
structure Signalled (sessionId : String) (r r' : TurnClaimWaiters) : Prop where
  consistent : Consistent r'
  others : ∀ w ∈ r.waiting, w.sessionId ≠ sessionId → w ∈ r'.waiting
  settled : ∀ entry ∈ r.settled, entry ∈ r'.settled
  released : ∀ w ∈ r.waiting, w.sessionId = sessionId → (w, WaitOutcome.released) ∈ r'.settled

theorem signalTurnClaimRelease_spec {r : TurnClaimWaiters} (h : Consistent r) (sessionId : String) :
    Signalled sessionId r (signalTurnClaimRelease r sessionId) := by
  unfold signalTurnClaimRelease
  cases hset : r.bySession sessionId with
  | none =>
    refine ⟨h, fun _ hw _ => hw, fun _ hentry => hentry, fun w hw hsession => ?_⟩
    -- an open waiter of this session would be found through the map
    have hreached := (h.reached w hw).1
    rw [hsession, hset] at hreached
    cases hreached
  | some set =>
    have hsettles := settles_all sessionId (r.members set)
      { r with bySession := fun s => if s = sessionId then none else r.bySession s } (if_pos rfl)
      (h.owned sessionId set hset)
    set r' := (r.members set).foldl (finish .released)
      { r with bySession := fun s => if s = sessionId then none else r.bySession s }
    have hmap : ∀ s n, r'.bySession s = some n → s ≠ sessionId ∧ r.bySession s = some n := by
      intro s n hs
      rw [hsettles.bySession] at hs
      dsimp only at hs
      split at hs
      · cases hs
      · rename_i hne
        exact ⟨hne, hs⟩
    have hin : ∀ w ∈ r.waiting, w.sessionId = sessionId → w ∈ r.members set := by
      intro w hw hsession
      obtain ⟨hreached, hmember⟩ := h.reached w hw
      rw [hsession, hset] at hreached
      cases hreached
      exact hmember
    refine ⟨⟨fun w hw => ?_, fun s n hs => ?_, fun s s' n hs hs' => ?_, fun s n hs w hw => ?_⟩,
      fun w hw hne => ?_, hsettles.settled, fun w hw hsession => ?_⟩
    · obtain ⟨hwaiting, hout⟩ := (hsettles.waiting w).mp hw
      obtain ⟨hreached, hmember⟩ := h.reached w hwaiting
      have hne : w.sessionId ≠ sessionId := fun heq => hout (hin w hwaiting heq)
      refine ⟨?_, hsettles.keeps _ _ hmember hout⟩
      rw [hsettles.bySession]
      dsimp only
      rw [if_neg hne, hreached]
    · rw [hsettles.nextSet]
      exact h.allocated s n (hmap s n hs).2
    · exact h.separate s s' n (hmap s n hs).2 (hmap s' n hs').2
    · exact h.owned s n (hmap s n hs).2 w (hsettles.shrinks n w hw)
    · refine (hsettles.waiting w).mpr ⟨hw, fun hmember => hne ?_⟩
      exact h.owned sessionId set hset w hmember
    · exact hsettles.released w (hin w hw hsession) hw

/-- Signals for a list of sessions release every waiter of each of them. -/
theorem signals_spec (sessionIds : List String) : ∀ {r : TurnClaimWaiters}, Consistent r →
    Consistent (sessionIds.foldl signalTurnClaimRelease r) ∧
      (∀ entry ∈ r.settled, entry ∈ (sessionIds.foldl signalTurnClaimRelease r).settled) ∧
      ∀ w ∈ r.waiting, w.sessionId ∈ sessionIds →
        (w, WaitOutcome.released) ∈ (sessionIds.foldl signalTurnClaimRelease r).settled := by
  induction sessionIds with
  | nil => exact fun h => ⟨h, fun _ hentry => hentry, fun _ _ hw => by cases hw⟩
  | cons sessionId rest ih =>
    intro r h
    have hspec := signalTurnClaimRelease_spec h sessionId
    obtain ⟨hconsistent, hsettled, hreleased⟩ := ih hspec.consistent
    rw [List.foldl_cons]
    refine ⟨hconsistent, fun entry hentry => hsettled entry (hspec.settled entry hentry),
      fun w hw hmem => ?_⟩
    by_cases hsession : w.sessionId = sessionId
    · exact hsettled _ (hspec.released w hw hsession)
    · exact hreleased w (hspec.others w hw hsession) ((List.mem_cons.mp hmem).resolve_left hsession)

/-! ## Registering -/

theorem waitersFor_spec {r : TurnClaimWaiters} (h : Consistent r) (sessionId : String) :
    Consistent (waitersFor sessionId r).2 ∧
      (waitersFor sessionId r).2.bySession sessionId = some (waitersFor sessionId r).1 := by
  unfold waitersFor
  split
  · rename_i set hset
    exact ⟨h, hset⟩
  · rename_i hnone
    have hfresh : ∀ s, r.bySession s ≠ some r.nextSet := fun s hs => lt_irrefl _ (h.allocated s _ hs)
    refine ⟨⟨fun w hw => ?_, fun s n hs => ?_, fun s s' n hs hs' => ?_, fun s n hs w hw => ?_⟩,
      if_pos rfl⟩ <;> dsimp only at *
    · obtain ⟨hreached, hmember⟩ := h.reached w hw
      have hsession : w.sessionId ≠ sessionId := by
        rintro rfl
        rw [hnone] at hreached
        cases hreached
      have hset : w.set ≠ r.nextSet := fun heq => hfresh _ (heq ▸ hreached)
      rw [if_neg hsession, if_neg hset]
      exact ⟨hreached, hmember⟩
    · split at hs
      · cases hs
        exact Nat.lt_succ_self _
      · exact Nat.lt_succ_of_lt (h.allocated s n hs)
    · split at hs <;> split at hs'
      · rename_i heq heq'
        rw [heq, heq']
      · cases hs
        exact absurd hs' (hfresh s')
      · cases hs'
        exact absurd hs (hfresh s)
      · exact h.separate s s' n hs hs'
    · split at hs
      · cases hs
        rw [if_pos rfl] at hw
        cases hw
      · split at hw
        · cases hw
        · exact h.owned s n hs w hw

theorem register_consistent {r : TurnClaimWaiters} (h : Consistent r) (sessionId : String) :
    Consistent (register sessionId r).2 := by
  obtain ⟨hfor, hset⟩ := waitersFor_spec h sessionId
  unfold register
  generalize waitersFor sessionId r = made at hfor hset
  obtain ⟨set, r₁⟩ := made
  dsimp only at hfor hset ⊢
  refine ⟨fun w hw => ?_, hfor.allocated, hfor.separate, fun s n hs w hw => ?_⟩
  · rcases List.mem_cons.mp hw with rfl | hw
    · exact ⟨hset, by simp⟩
    · obtain ⟨hreached, hmember⟩ := hfor.reached w hw
      refine ⟨hreached, ?_⟩
      dsimp only
      split
      · exact List.mem_cons_of_mem _ hmember
      · exact hmember
  · dsimp only at hw
    split at hw
    · rename_i heq
      subst heq
      rcases List.mem_cons.mp hw with rfl | hw
      · exact hfor.separate _ _ _ hset hs
      · exact hfor.owned s _ hs w hw
    · exact hfor.owned s n hs w hw

/-! ## Runs -/

/-- **The service invariant.** -/
structure ServiceInv (s : PlacementService) : Prop where
  readable : Readable s.db
  trimmed : AllTrimmed s.db
  consistent : Consistent s.waiters

theorem ServiceInv.step {s : PlacementService} (h : ServiceInv s) (step : ServiceStep) :
    ServiceInv (serviceStep s step) := by
  cases step with
  | call op =>
    refine ⟨(call_spec h.readable op).readable, trimmed_call h.readable h.trimmed op, ?_⟩
    dsimp only [serviceStep, PlacementService.call]
    split
    · exact (signals_spec _ h.consistent).1
    · exact h.consistent
  | wait sessionId timeoutMs aborted =>
    dsimp only [serviceStep]
    split
    · rename_i s' hwait
      simp only [waitForTurnClaimRelease, bind_eq_ok] at hwait
      obtain ⟨sessionId, -, _, -, first, -, hwait⟩ := hwait
      split at hwait
      · cases hwait
        exact h
      · have hregistered := register_consistent h.consistent sessionId
        simp only [bind_eq_ok] at hwait
        obtain ⟨second, -, hwait⟩ := hwait
        split at hwait
        · cases hwait
          exact ⟨h.readable, h.trimmed, hregistered.finish .released _⟩
        · split at hwait
          · cases hwait
            exact ⟨h.readable, h.trimmed, hregistered.finish .aborted _⟩
          · cases hwait
            exact ⟨h.readable, h.trimmed, hregistered⟩
    · exact h
  | timeout w => exact ⟨h.readable, h.trimmed, h.consistent.finish .timedOut w⟩
  | abort w => exact ⟨h.readable, h.trimmed, h.consistent.finish .aborted w⟩

theorem serviceInv_after (steps : List ServiceStep) : ServiceInv (serviceAfter steps) := by
  refine run_invariant (P := ServiceInv) (fun _ step h => h.step step) steps ?_
  exact ⟨readable_empty, fun _ _ h => (by cases h), consistent_noWaiters⟩

/-- A call that clears a claim releases every open waiter of its session. -/
theorem call_releases {s : PlacementService} (h : ServiceInv s) {op : PlacementOp} {sessionId : String}
    {row row' : PlacementRow} (hrow : s.db.find sessionId = some row)
    (hrow' : (s.call op).db.find sessionId = some row') (hclaimed : row.turnClaim.owner ≠ none)
    (hcleared : row'.turnClaim.owner = none) {w : TurnClaimReleaseWaiter} (hw : w ∈ s.waiters.waiting)
    (hsession : w.sessionId = sessionId) : (w, WaitOutcome.released) ∈ (s.call op).waiters.settled := by
  cases hcall : (op.call s.db).1 with
  | error message =>
    have hsame : (s.call op).db = s.db := transact_throws hcall
    rw [hsame, hrow] at hrow'
    cases hrow'
    exact absurd hcleared hclaimed
  | ok reply =>
    have heffect := call_effect h.readable h.trimmed (transact_returns hcall)
    have hsignal := heffect.signalled sessionId row row' hrow hrow' hclaimed hcleared
    dsimp only [PlacementService.call]
    rw [hcall]
    exact (signals_spec _ h.consistent).2.2 w hw (hsession ▸ hsignal)

/-- **Turn claims.** After any calls, waits, timers and abort signals: the three checks agree on a token
exactly if it carries no white space around its ids, or is not the stored claim up to white space; and
every call that clears the stored claim of a session releases all waiters of the session. -/
theorem turn_claims_agree_and_wake (steps : List ServiceStep) : (∀ claim, ChecksAgree (serviceAfter steps).db claim ↔
      (HoldsClaim (serviceAfter steps).db (trimmedToken claim) → TrimmedIds claim)) ∧
    ∀ op sessionId row row', (serviceAfter steps).db.find sessionId = some row →
      ((serviceAfter steps).call op).db.find sessionId = some row' →
      row.turnClaim.owner ≠ none → row'.turnClaim.owner = none →
      ∀ w ∈ (serviceAfter steps).waiters.waiting, w.sessionId = sessionId →
        (w, WaitOutcome.released) ∈ ((serviceAfter steps).call op).waiters.settled := by
  have h := serviceInv_after steps
  refine ⟨fun claim => checksAgree_iff h.readable h.trimmed, ?_⟩
  intro op sessionId row row' hrow hrow' hclaimed hcleared w hw hsession
  exact call_releases h hrow hrow' hclaimed hcleared hw hsession

/-- A local turn of a new session. -/
def localTurn : ClaimTurnInput where
  sessionId := "s1"
  agentId := "a1"
  sessionKey := "k1"
  owner := .«local»
  claimId := "c1"
  runId := "r1"

/-- Its token, with a blank in front of the claim id. -/
def paddedToken : WorkerSessionTurnClaim where
  sessionId := "s1"
  claimId := " c1"
  runId := "r1"
  placementGeneration := 0
  owner := .«local»

theorem padded_token_released : ¬ ChecksAgree (serviceAfter [.call (.claimTurn localTurn ⟨0, 0⟩)]).db paddedToken := by
  intro h
  have hreleased : (releaseTurn paddedToken 0
      (serviceAfter [.call (.claimTurn localTurn ⟨0, 0⟩)]).db).isOk = true := by rfl
  have haccepts := (h.release 0).mpr hreleased
  have hrejected : validateTurnClaim paddedToken
      (serviceAfter [.call (.claimTurn localTurn ⟨0, 0⟩)]).db = .ok false := by rfl
  rw [Accepts, hrejected] at haccepts
  cases haccepts

end OpenClaw.WorkerEnvironments.Placement
