/-
# OpenClaw.WorkerEnvironments.InferenceLedger -- the contract of the inference turn ledger

`Move` says once what a call can do to the table: nothing, a pruning pass, a new pending turn behind one, or
the end of pending turns before one.  Every invariant is read off it.  A run has one pending turn at most, an
outcome stays what it is while its row is there, and what was just completed survives its own pruning pass.
-/
import OpenClaw.Logic.Run
import OpenClaw.WorkerEnvironments.InferenceRetention

namespace OpenClaw.WorkerEnvironments.InferenceStore

open OpenClaw.Logic OpenClaw.Data

variable {Ω : Type} {codec : OutcomeCodec Ω} {policy : RetentionPolicy} {turns turns' : Turns}
  {key : TurnIdentity} {row : TurnRow}

/-! ## What a call does -/

/-- What a call makes of the table. -/
inductive Move (policy : RetentionPolicy) (turns : Turns) : Turns → Prop where
  | stay : Move policy turns turns
  | prune (nowMs : Int) (preserve : Option TurnIdentity) :
      Move policy turns (pruneTerminalTurns policy nowMs preserve turns)
  | insert (nowMs : Int) (key : TurnIdentity) (row : TurnRow) :
      (pruneTerminalTurns policy nowMs none turns).find key = none →
      (∀ other old, (pruneTerminalTurns policy nowMs none turns).find other = some old →
        other.sameRun key = true → old.state ≠ .pending) →
      row.state = .pending →
      Move policy turns ((pruneTerminalTurns policy nowMs none turns).upsert key row)
  | finish (nowMs : Int) (key : TurnIdentity) (row : TurnRow) (terminalJson : String) :
      turns.find key = some row → row.state = .pending →
      Move policy turns
        (pruneTerminalTurns policy nowMs (some key) (turns.upsert key (row.ended terminalJson nowMs)))
  | recover (terminalJson : String) (nowMs : Int) :
      Move policy turns (recoverWrites policy terminalJson nowMs turns)

theorem findPendingTurn_none {input : NormalizedTurnInput} (h : findPendingTurn turns input = none) :
    ∀ other old, turns.find other = some old → other.sameRun input.toTurnIdentity = true → old.state ≠ .pending := by
  intro other old hfind hrun hpending
  have hno := List.find?_eq_none.mp h (other, old) (Table.mem_rows.mpr hfind)
  simp [hrun, hpending] at hno

/-- A turn that is replayed is terminal. -/
theorem classify_replay {row : Option TurnRow} {input : NormalizedTurnInput} {outcome : Ω}
    (h : classifyExistingTurn codec row input = .ok (some (.replay outcome))) :
    ∃ terminal, row = some terminal ∧ terminal.state = .terminal := by
  unfold classifyExistingTurn at h
  split at h
  · cases h
  · rename_i found
    split at h
    · cases h
    · split at h
      · cases h
      · rename_i hstate hjson
        exact ⟨found, rfl, hstate⟩
      · cases h

theorem begin_move (rawInput : WorkerInferenceTurnInput) (environmentExists : Bool) (now : Int)
    (turns : Turns) : Move policy turns (begin codec policy rawInput environmentExists now turns).2 := by
  unfold begin
  split
  · exact .stay
  · rename_i input hinput
    refine transact_keeps (P := Move policy turns) .stay ?_
    intro result turns' hbody
    simp only [beginBody, bind_eq_ok] at hbody
    obtain ⟨existing, hexisting, hbody⟩ := hbody
    split at hbody
    · obtain ⟨-, rfl⟩ := Prod.mk.inj (pure_eq_ok.mp hbody)
      exact .prune _ _
    · split at hbody
      · obtain ⟨-, rfl⟩ := Prod.mk.inj (pure_eq_ok.mp hbody)
        exact .prune _ _
      · rename_i hpending
        simp only [bind_eq_ok, pure_eq_ok, insertPendingTurn] at hbody
        obtain ⟨inserted, hinsert, hresult⟩ := hbody
        obtain ⟨-, rfl⟩ := Prod.mk.inj hresult
        split at hinsert
        · cases hinsert
        · obtain ⟨hfree, rfl⟩ := Table.insertNew_eq_ok.mp hinsert
          refine .insert _ _ _ hfree (findPendingTurn_none ?_) rfl
          simpa using hpending

theorem complete_move (rawInput : WorkerInferenceTurnInput) (outcome : Ω) (now : Int) (turns : Turns) :
    Move policy turns (complete codec policy rawInput outcome now turns).2 := by
  unfold complete
  split
  · exact .stay
  · exact .stay
  · rename_i input terminalJson hinput hjson
    refine transact_keeps (P := Move policy turns) .stay ?_
    intro result turns' hbody
    simp only [completeBody, bind_eq_ok] at hbody
    obtain ⟨existing, hexisting, hbody⟩ := hbody
    split at hbody
    · cases hbody
    · cases hbody
    · obtain ⟨-, rfl⟩ := Prod.mk.inj (pure_eq_ok.mp hbody)
      exact .stay
    · simp only [bind_eq_ok, pure_eq_ok] at hbody
      obtain ⟨updated, hupdate, hresult⟩ := hbody
      obtain ⟨-, rfl⟩ := Prod.mk.inj hresult
      obtain ⟨row, hfind, hrow, rfl⟩ := Table.updateOne_eq_ok.mp hupdate
      refine .finish _ _ row terminalJson hfind ?_
      simp only [Bool.and_eq_true, decide_eq_true_eq] at hrow
      exact hrow.2

theorem cancelWrites_move (environmentId : String) (identity : TurnIdentity) (terminalJson : String)
    (nowMs : Int) (turns : Turns) :
    Move policy turns (cancelWrites policy environmentId identity terminalJson nowMs turns) := by
  unfold cancelWrites Table.updateKey
  split
  · rename_i row hfind
    split
    · rename_i hrow
      simp only [Bool.and_eq_true, decide_eq_true_eq] at hrow
      exact .finish _ _ row terminalJson hfind hrow.2
    · exact .prune _ _
  · exact .prune _ _

/-- **Every call is a move.** -/
theorem step_move (turns : Turns) (call : InferenceCall Ω) :
    Move policy turns (inferenceStep codec policy turns call) := by
  cases call with
  | begin input environmentExists now => exact begin_move input environmentExists now turns
  | complete input outcome now => exact complete_move input outcome now turns
  | cancelPending environmentId identity outcome now =>
    unfold inferenceStep cancelPending
    dsimp only
    split
    · exact .stay
    · exact cancelWrites_move _ _ _ _ turns
  | recoverPending outcome now =>
    unfold inferenceStep recoverPending
    dsimp only
    split
    · exact .stay
    · exact .recover _ _

/-! ## One pending turn in a run -/

def OnePending (turns : Turns) : Prop :=
  ∀ key key' row row', turns.find key = some row → turns.find key' = some row' →
    row.state = .pending → row'.state = .pending → key.sameRun key' = true → key = key'

theorem OnePending.of_subset (h : OnePending turns)
    (hsubset : ∀ key row, turns'.find key = some row → row.state = .pending → turns.find key = some row) :
    OnePending turns' :=
  fun key key' row row' hfind hfind' hpending hpending' hrun =>
    h key key' row row' (hsubset key row hfind hpending) (hsubset key' row' hfind' hpending') hpending
      hpending' hrun

theorem sameRun_symm {left right : TurnIdentity} (h : left.sameRun right = true) : right.sameRun left = true := by
  simp only [TurnIdentity.sameRun, Bool.and_eq_true, decide_eq_true_eq] at h ⊢
  exact ⟨⟨h.1.1.symm, h.1.2.symm⟩, h.2.symm⟩

/-- What is pending after turns ended was pending before. -/
theorem pending_of_finish {nowMs : Int} {preserve : Option TurnIdentity} {terminalJson : String}
    {ended : TurnIdentity} {old : TurnRow} {key : TurnIdentity} {row : TurnRow}
    (h : (pruneTerminalTurns policy nowMs preserve
      (turns.upsert ended (old.ended terminalJson nowMs))).find key = some row)
    (hpending : row.state = .pending) : key ≠ ended ∧ turns.find key = some row := by
  have hfind := find_of_prune h
  rw [Table.find_upsert] at hfind
  split at hfind
  · cases hfind
    cases hpending
  · rename_i hne
    exact ⟨hne, hfind⟩

theorem find_recoverWrites {nowMs : Int} {terminalJson : String}
    (h : (recoverWrites policy terminalJson nowMs turns).find key = some row) : ∃ old, turns.find key = some old ∧
      row = if old.state = .pending then old.ended terminalJson nowMs else old := by
  have hfind := find_of_prune h
  rw [Table.find_updateWhere] at hfind
  obtain ⟨old, hold, rfl⟩ := Option.map_eq_some_iff.mp hfind
  exact ⟨old, hold, by simp⟩

theorem Move.onePending (hmove : Move policy turns turns') (h : OnePending turns) : OnePending turns' := by
  cases hmove with
  | stay => exact h
  | prune nowMs preserve => exact h.of_subset fun _ _ hfind _ => find_of_prune hfind
  | insert nowMs key row hfree hnone hpending =>
    have hpruned : OnePending (pruneTerminalTurns policy nowMs none turns) :=
      h.of_subset fun _ _ hfind _ => find_of_prune hfind
    intro left right row row' hleft hright hleftPending hrightPending hrun
    rw [Table.find_upsert] at hleft hright
    split at hleft
    · rename_i heq
      split at hright
      · rename_i heq'
        exact heq.trans heq'.symm
      · exact absurd hrightPending (hnone right row' hright (heq ▸ sameRun_symm hrun))
    · split at hright
      · rename_i heq'
        exact absurd hleftPending (hnone left row hleft (heq' ▸ hrun))
      · exact hpruned left right row row' hleft hright hleftPending hrightPending hrun
  | finish nowMs key row terminalJson hfind hpending =>
    exact h.of_subset fun _ _ hfind hpending => (pending_of_finish hfind hpending).2
  | recover terminalJson nowMs =>
    refine h.of_subset fun other row hfind hpending => ?_
    obtain ⟨old, hold, rfl⟩ := find_recoverWrites hfind
    split at hpending
    · cases hpending
    · rename_i hterminal
      rw [if_neg hterminal]
      exact hold

/-! ## Outcomes are final -/

/-- A terminal row that is still terminal after a move is the same row. -/
theorem Move.outcome (hmove : Move policy turns turns') {old new : TurnRow}
    (hold : turns.find key = some old) (hterminal : old.state = .terminal)
    (hnew : turns'.find key = some new) (hnewTerminal : new.state = .terminal) : new = old := by
  cases hmove with
  | stay => exact Option.some.inj (hnew.symm.trans hold)
  | prune nowMs preserve => exact Option.some.inj ((find_of_prune hnew).symm.trans hold)
  | insert nowMs inserted row hfree hnone hpending =>
    rw [Table.find_upsert] at hnew
    split at hnew
    · cases hnew
      rw [hpending] at hnewTerminal
      cases hnewTerminal
    · exact Option.some.inj ((find_of_prune hnew).symm.trans hold)
  | finish nowMs ended row terminalJson hfind hpending =>
    have hfound := find_of_prune hnew
    rw [Table.find_upsert] at hfound
    split at hfound
    · rename_i heq
      subst heq
      obtain rfl := Option.some.inj (hold.symm.trans hfind)
      rw [hpending] at hterminal
      cases hterminal
    · exact Option.some.inj (hfound.symm.trans hold)
  | recover terminalJson nowMs =>
    obtain ⟨found, hfound, rfl⟩ := find_recoverWrites hnew
    obtain rfl := Option.some.inj (hold.symm.trans hfound)
    rw [if_neg (by simp [hterminal])]

/-- Runs of the store from an empty ledger. -/
def turnsAfter (codec : OutcomeCodec Ω) (policy : RetentionPolicy) (script : List (InferenceCall Ω)) : Turns :=
  run (inferenceStep codec policy) Table.empty script

/-- The row of a turn after a script, once the turn has ended. -/
def HasEnded (codec : OutcomeCodec Ω) (policy : RetentionPolicy) (script : List (InferenceCall Ω))
    (key : TurnIdentity) (row : TurnRow) : Prop :=
  (turnsAfter codec policy script).find key = some row ∧ row.state = .terminal

theorem turnsAfter_snoc (codec : OutcomeCodec Ω) (policy : RetentionPolicy) (script : List (InferenceCall Ω))
    (call : InferenceCall Ω) : turnsAfter codec policy (script ++ [call]) =
      inferenceStep codec policy (turnsAfter codec policy script) call := by
  unfold turnsAfter
  rw [run_append]
  rfl

theorem run_onePending (script : List (InferenceCall Ω)) : OnePending (turnsAfter codec policy script) := by
  refine run_invariant (P := OnePending) (fun turns call h => (step_move turns call).onePending h) script ?_
  intro key key' row row' hfind
  cases hfind

/-- As long as the row of a turn that has ended is there, it is the same row. -/
theorem run_outcome (script : List (InferenceCall Ω)) (key : TurnIdentity) (row : TurnRow)
    (hrow : HasEnded codec policy script key row) (rest : List (InferenceCall Ω))
    (hretained : ∀ front, front <+: rest → ∃ later, HasEnded codec policy (script ++ front) key later) :
    HasEnded codec policy (script ++ rest) key row := by
  induction rest using List.reverseRecOn with
  | nil => simpa using hrow
  | append_singleton before call ih =>
    have hbefore := ih fun front hfront => hretained front (hfront.trans (List.prefix_append _ _))
    obtain ⟨later, hlater, hended⟩ := hretained (before ++ [call]) (List.prefix_refl _)
    rw [← List.append_assoc] at hlater ⊢
    have hmove : Move policy (turnsAfter codec policy (script ++ before))
        (inferenceStep codec policy (turnsAfter codec policy (script ++ before)) call) := step_move _ call
    rw [← turnsAfter_snoc] at hmove
    obtain rfl := hmove.outcome hbefore.1 hbefore.2 hlater hended
    exact ⟨hlater, hended⟩

/-! ## What was just completed -/

/-- After a successful `complete`, the row of its turn is terminal. -/
theorem complete_kept {rawInput : WorkerInferenceTurnInput} {outcome returned : Ω} {now : Int}
    (h : (complete codec policy rawInput outcome now turns).1 = .ok returned) :
    ∃ input row, normalizeInput rawInput now = .ok input ∧
      (complete codec policy rawInput outcome now turns).2.find input.toTurnIdentity = some row ∧
      row.state = .terminal := by
  unfold complete at h ⊢
  split at h
  · cases h
  · cases h
  · rename_i input terminalJson hinput hjson
    simp only [hinput]
    have hbody := transact_returns h
    refine ⟨input, ?_⟩
    generalize (transact (completeBody codec policy input outcome terminalJson) turns).2 = after at hbody ⊢
    simp only [completeBody, bind_eq_ok] at hbody
    obtain ⟨existing, hexisting, hbody⟩ := hbody
    split at hbody
    · cases hbody
    · cases hbody
    · obtain ⟨-, rfl⟩ := Prod.mk.inj (pure_eq_ok.mp hbody)
      obtain ⟨row, hrow, hterminal⟩ := classify_replay hexisting
      exact ⟨row, rfl, hrow, hterminal⟩
    · simp only [bind_eq_ok, pure_eq_ok] at hbody
      obtain ⟨updated, hupdate, hresult⟩ := hbody
      obtain ⟨-, rfl⟩ := Prod.mk.inj hresult
      obtain ⟨row, hfind, hrow, rfl⟩ := Table.updateOne_eq_ok.mp hupdate
      refine ⟨row.ended terminalJson input.nowMs, rfl, ?_, rfl⟩
      exact prune_keeps_preserved (Table.find_upsert_self _ _ _)

/-- After a successful `cancelPending`, the row of a turn that it found pending is terminal. -/
theorem cancelPending_kept {environmentId environment : String} {identity normalized : TurnIdentity}
    {outcome : Ω} {now : Int} (henvironment : required environmentId "environment id" = .ok environment)
    (hidentity : normalizeIdentity identity = .ok normalized) (hfind : turns.find normalized = some row)
    (hpending : row.state = .pending) (hrow : row.environmentId = environment)
    (h : (cancelPending codec policy environmentId identity outcome now turns).1 = .ok ()) :
    ∃ ended, (cancelPending codec policy environmentId identity outcome now turns).2.find normalized =
      some ended ∧ ended.state = .terminal := by
  unfold cancelPending at h ⊢
  dsimp only at h ⊢
  split at h
  · cases h
  · rename_i environment' normalized' terminalJson nowMs hchecked
    simp only [bind_eq_ok, pure_eq_ok] at hchecked
    obtain ⟨nowMs', -, terminalJson', -, checked, hrequired, checkedIdentity, hnormalized, hresult⟩ := hchecked
    obtain rfl := Except.ok.inj (henvironment.symm.trans hrequired)
    obtain rfl := Except.ok.inj (hidentity.symm.trans hnormalized)
    cases hresult
    refine ⟨row.ended terminalJson nowMs, ?_, rfl⟩
    unfold cancelWrites
    rw [Table.updateKey_hit hfind (by simp [hpending, hrow])]
    exact prune_keeps_preserved (Table.find_upsert_self _ _ _)

/-! ## The contract -/

/-- What the ledger promises, of its runs from an empty table and of its pruning passes. -/
structure LedgerContract (codec : OutcomeCodec Ω) (policy : RetentionPolicy) : Prop where
  onePending : ∀ script, OnePending (turnsAfter codec policy script)
  pendingKept : ∀ turns nowMs preserve key row, turns.find key = some row → row.state = .pending →
    (pruneTerminalTurns policy nowMs preserve turns).find key = some row
  outcomeFinal : ∀ script key row, HasEnded codec policy script key row → ∀ rest,
    (∀ front, front <+: rest → ∃ later, HasEnded codec policy (script ++ front) key later) →
    HasEnded codec policy (script ++ rest) key row
  completedKept : ∀ script rawInput outcome now returned,
    (complete codec policy rawInput outcome now (turnsAfter codec policy script)).1 = .ok returned →
    ∃ input row, normalizeInput rawInput now = .ok input ∧
      HasEnded codec policy (script ++ [.complete rawInput outcome now]) input.toTurnIdentity row
  cancelledKept : ∀ script environmentId identity outcome now environment normalized row,
    (cancelPending codec policy environmentId identity outcome now (turnsAfter codec policy script)).1 = .ok () →
    required environmentId "environment id" = .ok environment → normalizeIdentity identity = .ok normalized →
    (turnsAfter codec policy script).find normalized = some row → row.state = .pending →
    row.environmentId = environment →
    ∃ ended, HasEnded codec policy (script ++ [.cancelPending environmentId identity outcome now]) normalized
      ended
  limits : ∀ turns nowMs preserve, WithinLimits policy (pruneTerminalTurns policy nowMs preserve turns)

/-- **The inference turn ledger.** -/
theorem inference_ledger {Ω : Type} (codec : OutcomeCodec Ω) (policy : RetentionPolicy) :
    LedgerContract codec policy where
  onePending := run_onePending
  pendingKept _ _ _ _ _ := prune_keeps_pending
  outcomeFinal := run_outcome
  completedKept script rawInput outcome now returned h := by
    obtain ⟨input, row, hinput, hfind, hterminal⟩ := complete_kept h
    refine ⟨input, row, hinput, ?_, hterminal⟩
    rw [turnsAfter_snoc]
    exact hfind
  cancelledKept script environmentId identity outcome now environment normalized row h henvironment hidentity
      hfind hpending hrow := by
    obtain ⟨ended, hended, hterminal⟩ := cancelPending_kept henvironment hidentity hfind hpending hrow h
    refine ⟨ended, ?_, hterminal⟩
    rw [turnsAfter_snoc]
    exact hended
  limits turns nowMs preserve := prune_within policy nowMs preserve turns

end OpenClaw.WorkerEnvironments.InferenceStore
