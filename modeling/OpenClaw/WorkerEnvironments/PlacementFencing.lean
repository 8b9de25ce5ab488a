/-
# OpenClaw.WorkerEnvironments.PlacementFencing -- a stale worker turn claim stays stale

A worker turn claim carries the placement generation it was issued at.  Its ids and its owner epoch
may come back in a later dispatch of the same session; its generation may not.  While the claim is
out, `Issued` holds of the session's row; once the placement has left `active` and `draining`, `Past`
does, and no call can undo it: a new claim is stamped with the current generation, and generations
only grow.
-/
import OpenClaw.WorkerEnvironments.PlacementInvariant

namespace OpenClaw.WorkerEnvironments.Placement

open OpenClaw.Logic OpenClaw.Data

/-! ## The two phases of an issued claim -/

/-- The stored claim, if any, was stamped after generation `g`. -/
def ClaimedAfter (g : Int) (row : PlacementRow) : Prop :=
  ∃ generation, row.turnClaim.generation = some generation ∧ g < generation

/-- What holds of the session's row from the moment a worker claim is issued at generation `g`. -/
structure Issued (g : Int) (row : PlacementRow) : Prop where
  generation : g ≤ row.transitionGeneration
  leftActive : row.state ≠ .active → g < row.transitionGeneration
  localClaim : row.turnClaim.owner = some .«local» → ClaimedAfter g row

/-- What holds of the session's row once the worker of generation `g` has been fenced. -/
structure Past (g : Int) (row : PlacementRow) : Prop where
  generation : g < row.transitionGeneration
  claim : row.turnClaim.owner ≠ none → ClaimedAfter g row

theorem Issued.step {g : Int} {row row' : PlacementRow} (h : Issued g row)
    (hstep : RowStep row row') : Issued g row' := by
  refine ⟨Int.le_trans h.generation hstep.generation_le, fun hne => ?_, fun hlocal => ?_⟩
  · by_cases hs : row.state = row'.state
    · exact Int.lt_of_lt_of_le (h.leftActive (hs ▸ hne)) hstep.generation_le
    · exact Int.lt_of_le_of_lt h.generation (hstep.generation_lt hs)
  · cases hstep.claim with
    | dropped hnone => rw [hlocal] at hnone; cases hnone
    | kept howner hgen =>
      obtain ⟨generation, hg, hlt⟩ := h.localClaim (howner ▸ hlocal)
      exact ⟨generation, hgen ▸ hg, hlt⟩
    | taken hgen hstate =>
      refine ⟨_, hgen, h.leftActive ?_⟩
      rw [hstate hlocal]
      decide

theorem Past.step {g : Int} {row row' : PlacementRow} (h : Past g row) (hstep : RowStep row row') : Past g row' := by
  refine ⟨Int.lt_of_lt_of_le h.generation hstep.generation_le, fun hclaimed => ?_⟩
  cases hstep.claim with
  | dropped hnone => exact absurd hnone hclaimed
  | kept howner hgen =>
    obtain ⟨generation, hg, hlt⟩ := h.claim (howner ▸ hclaimed)
    exact ⟨generation, hgen ▸ hg, hlt⟩
  | taken hgen _ => exact ⟨_, hgen, h.generation⟩

/-- **Leaving `active` and `draining` fences the claim.** -/
theorem Issued.past {g : Int} {row : PlacementRow} (h : Issued g row) (hshape : RowShape row)
    (hactive : row.state ≠ .active) (hdraining : row.state ≠ .draining) : Past g row := by
  refine ⟨h.leftActive hactive, fun hclaimed => ?_⟩
  cases howner : row.turnClaim.owner with
  | none => exact absurd howner hclaimed
  | some owner =>
    cases owner with
    | «local» => exact h.localClaim howner
    | worker =>
      rcases (hshape.workerClaim howner).1 with hs | hs
      · exact absurd hs hactive
      · exact absurd hs hdraining

/-! ## Tables -/

/-- `P` holds of the stored row of a session. -/
def AtSession (sessionId : String) (P : PlacementRow → Prop) (db : PlacementDb) : Prop :=
  Readable db ∧ ∃ row, db.find sessionId = some row ∧ P row

variable {db : PlacementDb}

/-- What every row step keeps, every run of calls keeps. -/
theorem AtSession.run {sessionId : String} {P : PlacementRow → Prop} (hstep : ∀ row row', P row → RowStep row row' →
    P row') (script : List PlacementOp) (h : AtSession sessionId P db) :
    AtSession sessionId P (run applyOp db script) := by
  refine run_invariant (P := AtSession sessionId P) (fun db op h => ?_) script h
  obtain ⟨hreadable, row, hrow, hP⟩ := h
  have hspec := call_spec hreadable op
  obtain ⟨row', hrow', hmove⟩ := hspec.step _ row hrow
  exact ⟨hspec.readable, row', hrow', hstep row row' hP hmove⟩

/-! ## Issue and advance -/

/-- The claim `claimTurn` returns to a worker is issued at the row's generation. -/
theorem claimTurn_issues {input : ClaimTurnInput} {now : Clock} {claim : WorkerSessionTurnClaim}
    {db db' : PlacementDb} (h : Readable db) (hcall : claimTurn input now db = .ok (claim, db'))
    (hworker : claim.owner.kind = .worker) :
    Trimmed claim.sessionId ∧ AtSession claim.sessionId (Issued claim.placementGeneration) db' := by
  have hspec := claimTurn_spec h hcall
  simp only [claimTurn, bind_eq_ok, pure_eq_ok, throwIf_eq_ok, Table.updateOne_eq_ok, Prod.exists,
    Prod.mk.injEq] at hcall
  obtain ⟨identity, hidentity, _, _, _, _, owner, _, current, _, hensure, _, _, _, hadmitted, _,
    ⟨row, hrow, _, rfl⟩, rfl, rfl⟩ := hcall
  obtain ⟨row₁, hrow₁, -, hcurrent, -⟩ := ensureLocal_spec h hensure
  have hrec := recordOf_fromRow hcurrent
  have htrimmed : Trimmed identity.sessionId := by
    simp only [normalizeIdentity, bind_eq_ok, pure_eq_ok] at hidentity
    obtain ⟨_, hid, _, _, _, _, rfl⟩ := hidentity
    exact requiredText_trimmed hid
  rw [hrec.sessionId] at hrow
  rw [hrow₁] at hrow
  cases hrow
  refine ⟨hrec.sessionId.symm ▸ htrimmed, hspec.readable, _, Table.find_upsert_self .., ?_, ?_, ?_⟩
  · exact Int.le_of_eq hrec.generation
  · intro hne
    cases owner with
    | «local» => cases hworker
    | worker environmentId ownerEpoch =>
      simp only [assertOwnerAdmitted, throwIf_eq_ok, not_or, not_not] at hadmitted
      exact absurd (hrec.state ▸ hadmitted.1) hne
  · intro hlocal
    simp only [claimColumns, hworker] at hlocal
    cases hlocal

/-- The session that a successful `startReconcile` or `fail` advances. -/
def PlacementOp.advancesSession : PlacementOp → Option String
  | .startReconcile input _ _ => some (trim input.sessionId)
  | .fail input _ => some (trim input.sessionId)
  | _ => none

theorem startReconcile_state {input : WorkerOwnerInput} {expectedGeneration nowMs : Int}
    {outcome : WorkerSessionPlacementRecord × Bool} {db db' : PlacementDb}
    (hcall : startReconcile input expectedGeneration nowMs db = .ok (outcome, db')) :
    ∃ row, db'.find (trim input.sessionId) = some row ∧ row.state = .reconciling := by
  simp only [startReconcile, bind_eq_ok, pure_eq_ok, Table.updateOne_eq_ok, Prod.mk.injEq] at hcall
  obtain ⟨sessionId, hid, _, _, _, _, _, _, _, _, values, hvalues, _, ⟨_, _, _, rfl⟩, _, _, _, rfl⟩ := hcall
  obtain ⟨rfl, -⟩ := requiredText_eq_ok.mp hid
  exact ⟨values, Table.find_upsert_self .., (transitionValues_spec hvalues).1⟩

theorem fail_state {input : FailInput} {nowMs : Int} {outcome : WorkerSessionPlacementRecord × Bool}
    {db db' : PlacementDb} (hcall : fail input nowMs db = .ok (outcome, db')) :
    ∃ row, db'.find (trim input.sessionId) = some row ∧ row.state = .failed := by
  simp only [fail, bind_eq_ok] at hcall
  obtain ⟨sessionId, hid, _, _, current, _, _, _, hcall⟩ := hcall
  obtain ⟨rfl, -⟩ := requiredText_eq_ok.mp hid
  split at hcall
  · simp only [bind_eq_ok, pure_eq_ok, Table.updateOne_eq_ok, Prod.mk.injEq] at hcall
    obtain ⟨_, ⟨row, _, hguard, rfl⟩, _, _, _, rfl⟩ := hcall
    refine ⟨_, Table.find_upsert_self .., ?_⟩
    simp only [Bool.and_eq_true, decide_eq_true_eq] at hguard
    exact hguard.1
  · simp only [bind_eq_ok, pure_eq_ok, Table.updateOne_eq_ok, Prod.mk.injEq] at hcall
    obtain ⟨_, _, _, _, _, ⟨row, _, _, rfl⟩, _, _, _, rfl⟩ := hcall
    exact ⟨_, Table.find_upsert_self .., rfl⟩

/-- A successful advance leaves the session's placement outside `active` and `draining`. -/
theorem advance_state {op : PlacementOp} {sessionId : String} {reply : PlacementReply}
    (hop : op.advancesSession = some sessionId) (hok : (op.call db).1 = .ok reply) :
    ∃ row, (applyOp db op).find sessionId = some row ∧ row.state ≠ .active ∧ row.state ≠ .draining := by
  have hbody : op.body db = .ok (reply, applyOp db op) := transact_returns hok
  cases op <;> simp only [PlacementOp.advancesSession, Option.some.injEq, reduceCtorEq] at hop <;>
    simp only [PlacementOp.body, map_eq_ok] at hbody <;>
    obtain ⟨⟨_, _⟩, hcall, heq⟩ := hbody <;>
    simp only [Prod.map_apply, Prod.mk.injEq, id_eq] at heq
  case startReconcile =>
    obtain ⟨row, hrow, hstate⟩ := startReconcile_state hcall
    exact ⟨row, hop ▸ heq.2 ▸ hrow, by rw [hstate]; decide, by rw [hstate]; decide⟩
  case fail =>
    obtain ⟨row, hrow, hstate⟩ := fail_state hcall
    exact ⟨row, hop ▸ heq.2 ▸ hrow, by rw [hstate]; decide, by rw [hstate]; decide⟩

/-! ## Presenting a stale claim -/

section Presenting

variable {db : PlacementDb} {claim : WorkerSessionTurnClaim}

/-- A stored claim never matches one that was fenced before it was stamped. -/
theorem claimMatches_past {row : PlacementRow} {current : WorkerSessionPlacementRecord}
    (hrec : RecordOf claim.sessionId row current) (h : Past claim.placementGeneration row)
    (claimId runId : String) : claimMatches current claimId runId claim = false := by
  by_contra hmatch
  simp only [Bool.not_eq_false] at hmatch
  unfold claimMatches at hmatch
  split at hmatch
  · cases hmatch
  · rename_i persisted hpersisted
    simp only [Bool.and_eq_true, decide_eq_true_eq] at hmatch
    obtain ⟨⟨⟨-, hgen⟩, -⟩, -⟩ := hmatch
    obtain ⟨generation, hstored, hlt⟩ := h.claim (by rw [hrec.owner, hpersisted]; simp)
    rw [hrec.claim persisted hpersisted] at hstored
    cases hstored
    omega

theorem validateTurnClaim_past (htrimmed : Trimmed claim.sessionId)
    (h : AtSession claim.sessionId (Past claim.placementGeneration) db) : validateTurnClaim claim db = .ok false := by
  obtain ⟨hreadable, row, hrow, hpast⟩ := h
  obtain ⟨current, hcurrent⟩ := (hreadable _ row hrow).readable
  have hfalse := claimMatches_past (recordOf_fromRow hcurrent) hpast claim.claimId claim.runId
  rw [validateTurnClaim, bind_eq_ok]
  refine ⟨_, requiredText_of_trimmed htrimmed _, ?_⟩
  rw [bind_eq_ok]
  refine ⟨some current, find_eq_some.mpr ⟨row, hrow, hcurrent⟩, ?_⟩
  exact congrArg Except.ok hfalse

theorem releaseTurn_past (htrimmed : Trimmed claim.sessionId)
    (h : AtSession claim.sessionId (Past claim.placementGeneration) db) (nowMs : Int)
    (result : WorkerSessionPlacementRecord × PlacementDb) : releaseTurn claim nowMs db ≠ .ok result := by
  obtain ⟨hreadable, row, hrow, hpast⟩ := h
  intro hcall
  simp only [releaseTurn, bind_eq_ok, throwIf_eq_ok] at hcall
  obtain ⟨_, hid, claimId, _, runId, _, current, hget, _, hmatch, _⟩ := hcall
  obtain ⟨rfl, -⟩ := requiredText_eq_ok.mp hid
  rw [htrimmed.1] at hget
  obtain ⟨row₁, hrow₁, hcurrent⟩ := getRequired_eq_ok.mp hget
  rw [hrow] at hrow₁
  cases hrow₁
  exact hmatch (claimMatches_past (recordOf_fromRow hcurrent) hpast claimId runId)

theorem updateAckCursors_past (htrimmed : Trimmed claim.sessionId)
    (h : AtSession claim.sessionId (Past claim.placementGeneration) db)
    (transcript liveEvent : Option Int) (nowMs : Int) (result : WorkerSessionPlacementRecord × PlacementDb) :
    updateAckCursors { claim, transcript, liveEvent } nowMs db ≠ .ok result := by
  obtain ⟨hreadable, row, hrow, hpast⟩ := h
  intro hcall
  simp only [updateAckCursors, bind_eq_ok] at hcall
  obtain ⟨_, hid, claimId, _, runId, _, _, _, hcall⟩ := hcall
  obtain ⟨rfl, -⟩ := requiredText_eq_ok.mp hid
  split at hcall
  · cases hcall
  · simp only [bind_eq_ok, throwIf_eq_ok, not_or, not_not] at hcall
    obtain ⟨_, _, _, _, current, hget, _, ⟨_, _, _, hclaim⟩, _⟩ := hcall
    rw [htrimmed.1] at hget
    obtain ⟨row₁, hrow₁, hcurrent⟩ := getRequired_eq_ok.mp hget
    rw [hrow] at hrow₁
    cases hrow₁
    have hrec := recordOf_fromRow hcurrent
    obtain ⟨generation, hstored, hlt⟩ := hpast.claim (by rw [hrec.owner, hclaim]; simp)
    rw [hrec.claim _ hclaim] at hstored
    cases hstored
    exact Int.lt_irrefl _ hlt

end Presenting

/-- A call whose body never returns throws and changes nothing. -/
theorem call_throws {op : PlacementOp} (h : ∀ result, op.body db ≠ .ok result) :
    ∃ error, op.call db = (.error error, db) := by
  cases hbody : op.body db with
  | error e => exact ⟨e, transact_error hbody⟩
  | ok result => exact absurd hbody (h result)

/-- Presenting `claim` has no effect and no success: it is neither released, nor acknowledged with,
nor valid. -/
def Rejects (db : PlacementDb) (claim : WorkerSessionTurnClaim) : Prop :=
  (∀ nowMs, ∃ error, (PlacementOp.releaseTurn claim nowMs).call db = (.error error, db)) ∧
  (∀ transcript liveEvent nowMs, ∃ error,
    (PlacementOp.updateAckCursors { claim, transcript, liveEvent } nowMs).call db
      = (.error error, db)) ∧
  validateTurnClaim claim db = .ok false

theorem rejects_of_past {claim : WorkerSessionTurnClaim} (htrimmed : Trimmed claim.sessionId)
    (h : AtSession claim.sessionId (Past claim.placementGeneration) db) : Rejects db claim := by
  refine ⟨fun nowMs => call_throws fun result hbody => ?_,
    fun transcript liveEvent nowMs => call_throws fun result hbody => ?_,
    validateTurnClaim_past htrimmed h⟩
  · simp only [PlacementOp.body, map_eq_ok] at hbody
    obtain ⟨result', hcall, -⟩ := hbody
    exact releaseTurn_past htrimmed h nowMs result' hcall
  · simp only [PlacementOp.body, map_eq_ok] at hbody
    obtain ⟨result', hcall, -⟩ := hbody
    exact updateAckCursors_past htrimmed h transcript liveEvent nowMs result' hcall

/-- An advance of a session whose worker claim is out fences that claim. -/
theorem past_of_advance {sessionId : String} {g : Int} {advance : PlacementOp} {reply : PlacementReply}
    (h : AtSession sessionId (Issued g) db) (hadvance : advance.advancesSession = some sessionId)
    (hok : (advance.call db).1 = .ok reply) : AtSession sessionId (Past g) (applyOp db advance) := by
  obtain ⟨hreadable, row₁, hrow₁, hissued⟩ := AtSession.run (fun _ _ => Issued.step) [advance] h
  obtain ⟨row, hrow, hactive, hdraining⟩ := advance_state hadvance hok
  rw [run_cons, run_nil, hrow] at hrow₁
  cases hrow₁
  obtain ⟨record, hread⟩ := (hreadable _ _ hrow).readable
  exact ⟨hreadable, _, hrow, hissued.past (rowShape_of_fromRow hread) hactive hdraining⟩

/-- **Session placement fencing.** A worker claim `claim` was returned by `claimTurn`; after any calls,
`startReconcile` or `fail` succeeded on its session.  Then after any further calls, with any ids and
epochs in them, releasing the claim or acknowledging with it throws and changes nothing, and it does
not validate. -/
theorem stale_worker_claim_fenced (before between after : List PlacementOp) (input : ClaimTurnInput)
    (now : Clock) (claim : WorkerSessionTurnClaim) (advance : PlacementOp)
    (hclaim : ((PlacementOp.claimTurn input now).call (placementsAfter before)).1 = .ok (.claim claim))
    (hworker : claim.owner.kind = .worker) (hadvance : advance.advancesSession = some claim.sessionId)
    (hok : (advance.call (placementsAfter (before ++ .claimTurn input now :: between))).1.isOk) :
    Rejects (placementsAfter (before ++ .claimTurn input now :: between ++ advance :: after)) claim := by
  have hbefore : Readable (placementsAfter before) := readable_run before readable_empty
  have hreturns := transact_returns hclaim
  simp only [PlacementOp.body, map_eq_ok] at hreturns
  obtain ⟨⟨claim', db₁⟩, hcall, heq⟩ := hreturns
  simp only [Prod.map_apply, id_eq, Prod.mk.injEq, PlacementReply.claim.injEq] at heq
  obtain ⟨rfl, hdb₁⟩ := heq
  -- The claim is issued ...
  obtain ⟨htrimmed, hissued⟩ := claimTurn_issues hbefore hcall hworker
  have hsplit (rest : List PlacementOp) : placementsAfter (before ++ .claimTurn input now :: rest)
      = run applyOp db₁ rest := by
    rw [placementsAfter, run_append, run_cons, hdb₁]
    rfl
  -- ... stays issued up to the advance, which fences it ...
  have hbetween := AtSession.run (fun _ _ => Issued.step) between hissued
  rw [hsplit] at hok
  cases hreply : (advance.call (run applyOp db₁ between)).1 with
  | error e => rw [hreply] at hok; cases hok
  | ok reply =>
    have hpast := past_of_advance hbetween hadvance hreply
    -- ... and stays fenced in every later table.
    have hend := AtSession.run (fun _ _ => Past.step) after hpast
    rw [List.append_assoc, List.cons_append, hsplit, run_append, run_cons]
    exact rejects_of_past htrimmed hend

/-- The calls that take session `s1` from a dispatch to an active worker, from a local or reclaimed
placement at generation `g`. -/
def activation (g : Int) : List PlacementOp :=
  [.startDispatch { sessionId := "s1", agentId := "a1", sessionKey := "k1" } ⟨0, 0⟩,
   .transition
     { sessionId := "s1", source := .requested, target := .provisioning, expectedGeneration := g + 1,
       patch := { environmentId := some (some "e1") } } 0,
   .transition
     { sessionId := "s1", source := .provisioning, target := .syncing, expectedGeneration := g + 2,
       patch := { workerBundleHash := some (some "b1") } } 0,
   .transition
     { sessionId := "s1", source := .syncing, target := .starting, expectedGeneration := g + 3,
       patch := { workspaceBaseManifestRef := some (some "m1"),
                  remoteWorkspaceDir := some (some "/w") } } 0,
   .transition
     { sessionId := "s1", source := .starting, target := .active, expectedGeneration := g + 4,
       patch := { activeOwnerEpoch := some (some 1) } } 0]

def workerTurn : ClaimTurnInput where
  sessionId := "s1"
  agentId := "a1"
  sessionKey := "k1"
  owner := .worker "e1" 1
  claimId := "c1"
  runId := "r1"

/-- A drained and reconciled worker's claim stays rejected while the same environment, epoch, claim
and run ids hold the session again. -/
theorem stale_worker_claim_fenced_reused_ids :
    Rejects (placementsAfter (activation 0 ++ .claimTurn workerTurn ⟨0, 0⟩ ::
        [.startDrain ⟨"s1", "e1", 1⟩ 5 0] ++ .startReconcile ⟨"s1", "e1", 1⟩ 6 0 ::
        (.transition
          { sessionId := "s1", source := .reconciling, target := .reclaimed,
            expectedGeneration := 7 } 0 :: activation 8 ++ [.claimTurn workerTurn ⟨0, 0⟩])))
      { sessionId := "s1", claimId := "c1", runId := "r1", placementGeneration := 5, owner := .worker "e1" 1 } :=
  stale_worker_claim_fenced _ _ _ _ _ _ _ rfl rfl rfl rfl

end OpenClaw.WorkerEnvironments.Placement
