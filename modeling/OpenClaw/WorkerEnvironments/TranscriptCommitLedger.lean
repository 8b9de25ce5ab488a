/-
# OpenClaw.WorkerEnvironments.TranscriptCommitLedger -- the ledger contract over arbitrary runs

For every script of `begin` and `complete` calls, from the empty tables: the commit rows of each
(session, run epoch) are a gap-free prefix `1..n`, everything below the head is terminal and at most
the row at the head is pending; a terminal outcome is permanent and is what every later call of the
same environment and request hash gets; a call that rejects or throws writes nothing.

`LedgerInv` is the joint invariant of the two tables.  It says more than the prefix property: every
row lies at or below its head, and a terminal row holds an outcome that `parseOutcomeJson` accepts,
which is why a replay never throws.
-/
import OpenClaw.WorkerEnvironments.TranscriptCommitStore

namespace OpenClaw.WorkerEnvironments.TranscriptCommitStore

open OpenClaw.Logic OpenClaw.Data

/-! ## What each call can do -/

variable {input : NormalizedCommitInput} {db db' : TranscriptCommitDb}

/-- A terminal row answers its own environment and request hash with the outcome it stores. -/
theorem classify_terminal {head : HeadRow} {commit : CommitRow} {outcome : WorkerTranscriptCommitOutcome}
    (hsame : head.environmentId = input.environmentId ∧ commit.requestHash = input.requestHash)
    (hstate : commit.state = .terminal) (hresult : commit.resultJson = some outcome)
    (hparse : parseOutcomeJson outcome = .ok outcome) : classifyExistingCommit (some head)
      (some commit) input = .ok (some (.replay outcome)) := by
  simp only [classifyExistingCommit]
  rw [if_neg (by simp [hsame.1, hsame.2])]
  simp [hstate, hresult, hparse]

theorem classify_none {head : Option HeadRow} {commit : Option CommitRow}
    (h : classifyExistingCommit head commit input = .ok none) : commit = none := by
  cases commit with
  | none => rfl
  | some commit =>
    cases head with
    | none => cases h
    | some head =>
      simp only [classifyExistingCommit] at h
      split at h
      · cases h
      · split at h
        · cases h
        · simp [bind_pure_comp, map_eq_ok] at h
        · cases h

/-- `recover` means a pending row of the caller's own environment and request hash. -/
theorem classify_recover {head : Option HeadRow} {commit : Option CommitRow}
    (h : classifyExistingCommit head commit input = .ok (some .recover)) : ∃ hd row, head = some hd ∧
      commit = some row ∧ row.state = .pending ∧ hd.environmentId = input.environmentId ∧
      row.requestHash = input.requestHash := by
  cases commit with
  | none => cases h
  | some row =>
    cases head with
    | none => cases h
    | some hd =>
      simp only [classifyExistingCommit] at h
      split at h
      · cases h
      · rename_i hsame
        simp only [not_or, not_not] at hsame
        split at h
        · rename_i hpending
          exact ⟨hd, row, rfl, rfl, hpending, hsame⟩
        · simp [bind_pure_comp, map_eq_ok] at h
        · cases h

/-- **`begin`, inverted.** A returning `begin` either writes nothing, or claims the expected
sequence number: the row is new, and the head is the caller's own or is created with it. -/
theorem begin_cases {input : NormalizedCommitInput} {db db' : TranscriptCommitDb}
    {answer : WorkerTranscriptCommitBeginResult} (h : beginBody input db = .ok (answer, db')) :
    (db' = db ∧ answer ≠ .claimed) ∨
    (answer = .claimed ∧ findCommit db input = none ∧
      db'.commits = db.commits.upsert (input.sessionId, input.runEpoch, input.seq)
        { requestHash := input.requestHash, state := .pending, resultJson := none,
          createdAtMs := input.nowMs, updatedAtMs := input.nowMs } ∧
      ((∃ head, findHead db input = some head ∧ head.environmentId = input.environmentId ∧
          input.seq = head.nextSeq ∧ db'.heads = db.heads) ∨
       (findHead db input = none ∧ input.seq = 1 ∧
          db'.heads = db.heads.upsert (input.sessionId, input.runEpoch)
            { environmentId := input.environmentId, nextSeq := 1, updatedAtMs := input.nowMs }))) := by
  simp only [beginBody, bind_eq_ok] at h
  obtain ⟨existing, hclass, h⟩ := h
  cases existing with
  | some existing =>
    simp only [pure_eq_ok, Prod.mk.injEq] at h
    exact Or.inl ⟨h.2.symm, by rw [← h.1]; simp⟩
  | none =>
    have hfresh := classify_none hclass
    cases hhead : findHead db input with
    | none =>
      simp only [hhead, Option.any_none, Option.map_none, Option.getD_none, Option.isNone_none,
        Bool.false_eq_true, if_false, if_true] at h
      split at h
      · simp only [pure_eq_ok, Prod.mk.injEq] at h
        exact Or.inl ⟨h.2.symm, by rw [← h.1]; simp⟩
      · rename_i hseq
        simp only [insertHead, insertPendingCommit, bind_eq_ok, pure_eq_ok, Table.insertNew_eq_ok] at h
        obtain ⟨_, ⟨_, ⟨_, rfl⟩, rfl⟩, _, ⟨_, ⟨_, rfl⟩, rfl⟩, h⟩ := h
        simp only [Prod.mk.injEq] at h
        obtain ⟨rfl, rfl⟩ := h
        exact Or.inr ⟨rfl, hfresh, rfl, Or.inr ⟨rfl, not_not.mp hseq, rfl⟩⟩
    | some head =>
      simp only [hhead, Option.any_some, Option.map_some, Option.getD_some, Option.isNone_some,
        Bool.false_eq_true, if_false] at h
      split at h
      · simp only [pure_eq_ok, Prod.mk.injEq] at h
        exact Or.inl ⟨h.2.symm, by rw [← h.1]; simp⟩
      · rename_i henv
        split at h
        · simp only [pure_eq_ok, Prod.mk.injEq] at h
          exact Or.inl ⟨h.2.symm, by rw [← h.1]; simp⟩
        · rename_i hseq
          simp only [insertPendingCommit, bind_eq_ok, pure_eq_ok, Table.insertNew_eq_ok] at h
          obtain ⟨_, rfl, _, ⟨_, ⟨_, rfl⟩, rfl⟩, h⟩ := h
          simp only [Prod.mk.injEq] at h
          obtain ⟨rfl, rfl⟩ := h
          exact Or.inr ⟨rfl, hfresh, rfl, Or.inl ⟨head, rfl, by simpa using henv, not_not.mp hseq, rfl⟩⟩

/-- **`complete`, inverted.** A returning `complete` either replays a stored outcome and writes
nothing, or turns the caller's pending row at the head terminal and advances the head by one. -/
theorem complete_cases {input : NormalizedCommitInput} {db db' : TranscriptCommitDb}
    {outcome answer : WorkerTranscriptCommitOutcome}
    (h : completeBody input outcome db = .ok (answer, db')) :
    db' = db ∨
    ∃ head row, findHead db input = some head ∧ findCommit db input = some row ∧
      head.environmentId = input.environmentId ∧ head.nextSeq = input.seq ∧
      row.state = .pending ∧ row.requestHash = input.requestHash ∧ answer = outcome ∧
      db' =
        { heads := db.heads.upsert (input.sessionId, input.runEpoch)
            { head with nextSeq := input.seq + 1, updatedAtMs := input.nowMs }
          commits := db.commits.upsert (input.sessionId, input.runEpoch, input.seq)
            { row with state := .terminal, resultJson := some outcome, updatedAtMs := input.nowMs } } := by
  simp only [completeBody, bind_eq_ok] at h
  obtain ⟨existing, hclass, h⟩ := h
  rcases existing with _ | (_ | _ | _)
  · cases h
  · obtain ⟨head, row, hhead, hrow, hpending, henv, hhash⟩ := classify_recover hclass
    simp only [hhead, bind_eq_ok, throwIf_eq_ok, not_not, pure_eq_ok, Prod.mk.injEq, exists_const] at h
    obtain ⟨hseq, _, _, h⟩ := h
    rw [Table.updateKey_hit hrow (by simp [hhash, hpending]), Table.updateKey_hit hhead (by simp [henv, hseq])] at h
    exact Or.inr ⟨head, row, hhead, hrow, henv, hseq, hpending, hhash, h.1.symm, h.2.symm⟩
  · simp only [pure_eq_ok, Prod.mk.injEq] at h
    exact Or.inl h.2.symm
  · cases h

/-! ## The invariant -/

/-- The joint invariant of the two tables. -/
structure LedgerInv (db : TranscriptCommitDb) : Prop where
  headPos : ∀ s e head, db.heads.find (s, e) = some head → 1 ≤ head.nextSeq
  rowBelowHead : ∀ s e q row, db.commits.find (s, e, q) = some row →
    ∃ head, db.heads.find (s, e) = some head ∧ 1 ≤ q ∧ q ≤ head.nextSeq ∧ (row.state = .pending ↔ q = head.nextSeq)
  noGap : ∀ s e head, db.heads.find (s, e) = some head →
    ∀ q, 1 ≤ q → q < head.nextSeq → (db.commits.find (s, e, q)).isSome
  terminalParses : ∀ k row, db.commits.find k = some row → row.state = .terminal →
    ∃ outcome, row.resultJson = some outcome ∧ parseOutcomeJson outcome = .ok outcome

/-- The ledger before its first call. -/
def emptyDb : TranscriptCommitDb where
  heads := Table.empty
  commits := Table.empty

theorem emptyDb_inv : LedgerInv emptyDb := by
  constructor <;> simp [emptyDb]

/-- A claim at the head keeps the invariant, whether the head was there or is created with it. -/
theorem begin_keeps {answer : WorkerTranscriptCommitBeginResult} (hinv : LedgerInv db)
    (h : beginBody input db = .ok (answer, db')) : LedgerInv db' := by
  rcases begin_cases h with ⟨rfl, _⟩ | ⟨_, hfresh, hcommits, hhead⟩
  · exact hinv
  -- the head after the call stands at the claimed number, whichever branch was taken
  have hnext : ∃ head, db'.heads.find (input.sessionId, input.runEpoch) = some head ∧
      head.nextSeq = input.seq ∧ 1 ≤ input.seq ∧
      ∀ q, 1 ≤ q → q < input.seq → (db.commits.find (input.sessionId, input.runEpoch, q)).isSome := by
    rcases hhead with ⟨head, hfind, _, hseq, hheads⟩ | ⟨_, hseq, hheads⟩
    · refine ⟨head, by rw [hheads]; exact hfind, hseq.symm, hseq ▸ hinv.headPos _ _ _ hfind, ?_⟩
      intro q hq hlt
      exact hinv.noGap _ _ _ hfind q hq (hseq ▸ hlt)
    · refine ⟨_, by rw [hheads]; exact Table.find_upsert_self .., hseq.symm, by omega, ?_⟩
      intro q hq hlt
      omega
  have hother : ∀ s e, (s, e) ≠ (input.sessionId, input.runEpoch) → db'.heads.find (s, e) = db.heads.find (s, e) := by
    intro s e hne
    rcases hhead with ⟨_, _, _, _, hheads⟩ | ⟨_, _, hheads⟩
    · rw [hheads]
    · rw [hheads, Table.find_upsert_ne _ hne]
  obtain ⟨head', hhead', hseq', hpos, hbelow⟩ := hnext
  refine ⟨?_, ?_, ?_, ?_⟩
  · intro s e head hfind
    by_cases hk : (s, e) = (input.sessionId, input.runEpoch)
    · rw [hk, hhead'] at hfind
      cases hfind
      omega
    · exact hinv.headPos s e head (hother s e hk ▸ hfind)
  · intro s e q row hrow
    rw [hcommits, Table.find_upsert] at hrow
    split at hrow
    · rename_i hk
      cases hk
      cases hrow
      exact ⟨head', hhead', hpos, by omega, by simp [hseq']⟩
    · obtain ⟨head, hfind, hq, hle, hiff⟩ := hinv.rowBelowHead s e q row hrow
      by_cases hk : (s, e) = (input.sessionId, input.runEpoch)
      · -- the head did not move
        cases hk
        rcases hhead with ⟨head₀, hfind₀, _, hseq₀, _⟩ | ⟨hnone, _⟩
        · obtain rfl : head = head₀ := Option.some.inj (hfind.symm.trans hfind₀)
          exact ⟨head', hhead', hq, by omega, by rw [hiff]; omega⟩
        · exact absurd (hfind.symm.trans hnone) (by simp)
      · exact ⟨head, (hother s e hk).trans hfind, hq, hle, hiff⟩
  · intro s e head hfind q hq hlt
    rw [hcommits, Table.find_upsert]
    split
    · rfl
    · by_cases hk : (s, e) = (input.sessionId, input.runEpoch)
      · cases hk
        rw [hhead'] at hfind
        cases hfind
        exact hbelow q hq (by omega)
      · exact hinv.noGap s e head (hother s e hk ▸ hfind) q hq hlt
  · intro k row hrow hterminal
    rw [hcommits, Table.find_upsert] at hrow
    split at hrow
    · cases hrow
      cases hterminal
    · exact hinv.terminalParses k row hrow hterminal

/-- Completing the row at the head keeps the invariant when the outcome is one that parses back. -/
theorem complete_keeps {outcome answer : WorkerTranscriptCommitOutcome} (hinv : LedgerInv db)
    (hparse : parseOutcomeJson outcome = .ok outcome) (h : completeBody input outcome db = .ok (answer, db')) :
    LedgerInv db' := by
  rcases complete_cases h with rfl | ⟨head, row, hhead, hrow, _, hseq, _, _, _, rfl⟩
  · exact hinv
  have hpos := hinv.headPos _ _ _ hhead
  refine ⟨?_, ?_, ?_, ?_⟩
  · intro s e hd hfind
    rw [Table.find_upsert] at hfind
    split at hfind
    · cases hfind
      show 1 ≤ input.seq + 1
      omega
    · exact hinv.headPos s e hd hfind
  · intro s e q r hr
    rw [Table.find_upsert] at hr
    split at hr
    · rename_i hk
      cases hk
      cases hr
      refine ⟨_, Table.find_upsert_self .., by omega, ?_, ?_⟩
      · show input.seq ≤ input.seq + 1
        omega
      · show CommitState.terminal = .pending ↔ input.seq = input.seq + 1
        exact ⟨fun hf => (nomatch hf), fun hf => by omega⟩
    · rename_i hkey
      obtain ⟨hd, hfind, hq, hle, hiff⟩ := hinv.rowBelowHead s e q r hr
      by_cases hk : (s, e) = (input.sessionId, input.runEpoch)
      · -- the other rows of this head were strictly below it already
        cases hk
        obtain rfl : hd = head := Option.some.inj (hfind.symm.trans hhead)
        have hne : q ≠ input.seq := fun he => hkey (by rw [he])
        refine ⟨_, Table.find_upsert_self .., hq, ?_, ?_⟩
        · show q ≤ input.seq + 1
          omega
        · show r.state = .pending ↔ q = input.seq + 1
          rw [hiff]
          omega
      · exact ⟨hd, by rw [Table.find_upsert_ne _ hk]; exact hfind, hq, hle, hiff⟩
  · intro s e hd hfind q hq hlt
    rw [Table.find_upsert] at hfind ⊢
    split
    · rfl
    · rename_i hkey
      split at hfind
      · rename_i hk
        cases hk
        cases hfind
        have hlt' : q < input.seq + 1 := hlt
        have hne : q ≠ input.seq := fun he => hkey (by rw [he])
        exact hinv.noGap _ _ _ hhead q hq (by omega)
      · exact hinv.noGap s e hd hfind q hq hlt
  · intro k r hr hterminal
    rw [Table.find_upsert] at hr
    split at hr
    · cases hr
      exact ⟨outcome, rfl, hparse⟩
    · exact hinv.terminalParses k r hr hterminal

/-! ## Scripts of calls -/

/-- An outcome as the protocol schema admits it: the entry ids of a success are not empty and neither
they nor the new leaf id are empty strings. -/
def AdmittedOutcome : Type :=
  { outcome : WorkerTranscriptCommitOutcome //
      ∀ result, outcome = .ok result → isCommitResult result = true }

/-- An admitted outcome survives the round trip through the `result_json` column. -/
theorem AdmittedOutcome.parses (outcome : AdmittedOutcome) : parseOutcomeJson outcome.1 = .ok outcome.1 := by
  obtain ⟨outcome, hadmitted⟩ := outcome
  cases outcome with
  | ok result => simp [parseOutcomeJson, hadmitted result rfl]
  | failed reason => rfl

/-- One call on the store, with the clock reading it sees. -/
inductive LedgerCall where
  | begin (input : WorkerTranscriptCommitInput) (now : Int)
  | complete (input : WorkerTranscriptCommitInput) (outcome : AdmittedOutcome) (now : Int)

/-- The tables after a call. -/
def afterCall (db : TranscriptCommitDb) : LedgerCall → TranscriptCommitDb
  | .begin input now => (begin input now db).2
  | .complete input outcome now => (complete input outcome.1 now db).2

/-- The call was refused: `begin` answered `rejected`, or the call threw. -/
def refused (db : TranscriptCommitDb) : LedgerCall → Prop
  | .begin input now =>
    (∃ rejection, (begin input now db).1 = .ok (.existing (.rejected rejection))) ∨
    ∃ message, (begin input now db).1 = .error message
  | .complete input outcome now => ∃ message, (complete input outcome.1 now db).1 = .error message

/-- The ledger after a script of calls on empty tables. -/
def ledgerAfter (script : List LedgerCall) : TranscriptCommitDb := run afterCall emptyDb script

/-- A call is a write transaction whose body returned, or it wrote nothing. -/
theorem afterCall_cases (db : TranscriptCommitDb) (call : LedgerCall) : afterCall db call = db ∨
    (∃ input answer, beginBody input db = .ok (answer, afterCall db call)) ∨
    ∃ input, ∃ outcome : AdmittedOutcome, ∃ answer,
      completeBody input outcome.1 db = .ok (answer, afterCall db call) := by
  cases call with
  | begin raw now =>
    simp only [afterCall, begin]
    cases normalizeInput raw now with
    | error e => exact Or.inl rfl
    | ok input =>
      cases hbody : beginBody input db with
      | error e => exact Or.inl (by simp [transact_error hbody])
      | ok result => exact Or.inr (Or.inl ⟨input, result.1, by simp [transact_ok hbody, hbody]⟩)
  | complete raw outcome now =>
    simp only [afterCall, complete]
    cases normalizeInput raw now with
    | error e => exact Or.inl rfl
    | ok input =>
      cases hbody : completeBody input outcome.1 db with
      | error e => exact Or.inl (by simp [transact_error hbody])
      | ok result =>
        exact Or.inr (Or.inr ⟨input, outcome, result.1, by simp [transact_ok hbody, hbody]⟩)

theorem afterCall_keeps (db : TranscriptCommitDb) (call : LedgerCall) (hinv : LedgerInv db) :
    LedgerInv (afterCall db call) := by
  rcases afterCall_cases db call with h | ⟨_, _, h⟩ | ⟨_, outcome, _, h⟩
  · rw [h]
    exact hinv
  · exact begin_keeps hinv h
  · exact complete_keeps hinv outcome.parses h

theorem ledgerAfter_inv (script : List LedgerCall) : LedgerInv (ledgerAfter script) :=
  run_invariant afterCall_keeps script emptyDb_inv

/-! ## What never changes -/

/-- Heads keep their environment; terminal rows keep their hash and their outcome. -/
structure Evolves (db db' : TranscriptCommitDb) : Prop where
  headOwner : ∀ k head, db.heads.find k = some head →
    ∃ head', db'.heads.find k = some head' ∧ head'.environmentId = head.environmentId
  terminalRow : ∀ k row, db.commits.find k = some row → row.state = .terminal →
    ∃ row', db'.commits.find k = some row' ∧ row'.state = .terminal ∧
      row'.requestHash = row.requestHash ∧ row'.resultJson = row.resultJson

instance : Std.Refl Evolves where
  refl _ := ⟨fun _ head h => ⟨head, h, rfl⟩, fun _ row h ht => ⟨row, h, ht, rfl, rfl⟩⟩

instance : IsTrans TranscriptCommitDb Evolves where
  trans _ _ _ h₁ h₂ := by
    refine ⟨fun k head hfind => ?_, fun k row hfind ht => ?_⟩
    · obtain ⟨head₁, hfind₁, henv₁⟩ := h₁.headOwner k head hfind
      obtain ⟨head₂, hfind₂, henv₂⟩ := h₂.headOwner k head₁ hfind₁
      exact ⟨head₂, hfind₂, henv₂.trans henv₁⟩
    · obtain ⟨row₁, hfind₁, ht₁, hhash₁, hres₁⟩ := h₁.terminalRow k row hfind ht
      obtain ⟨row₂, hfind₂, ht₂, hhash₂, hres₂⟩ := h₂.terminalRow k row₁ hfind₁ ht₁
      exact ⟨row₂, hfind₂, ht₂, hhash₂.trans hhash₁, hres₂.trans hres₁⟩

theorem begin_evolves {answer : WorkerTranscriptCommitBeginResult} (h : beginBody input db = .ok (answer, db')) :
    Evolves db db' := by
  rcases begin_cases h with ⟨rfl, _⟩ | ⟨_, hfresh, hcommits, hhead⟩
  · exact refl_of Evolves db'
  refine ⟨fun k head hfind => ?_, fun k row hrow ht => ?_⟩
  · rcases hhead with ⟨_, _, _, _, hheads⟩ | ⟨hnone, _, hheads⟩
    · exact ⟨head, hheads ▸ hfind, rfl⟩
    · have hne : k ≠ (input.sessionId, input.runEpoch) := by
        rintro rfl
        exact absurd (hfind.symm.trans hnone) (by simp)
      exact ⟨head, by rw [hheads, Table.find_upsert_ne _ hne, hfind], rfl⟩
  · have hne : k ≠ (input.sessionId, input.runEpoch, input.seq) := by
      rintro rfl
      exact absurd (hrow.symm.trans hfresh) (by simp)
    exact ⟨row, by rw [hcommits, Table.find_upsert_ne _ hne, hrow], ht, rfl, rfl⟩

theorem complete_evolves {outcome answer : WorkerTranscriptCommitOutcome}
    (h : completeBody input outcome db = .ok (answer, db')) : Evolves db db' := by
  rcases complete_cases h with rfl | ⟨head, row, hhead, hrow, _, _, hpending, _, _, rfl⟩
  · exact refl_of Evolves db'
  refine ⟨fun k hd hfind => ?_, fun k r hr ht => ?_⟩
  · by_cases hk : k = (input.sessionId, input.runEpoch)
    · subst hk
      obtain rfl : hd = head := Option.some.inj (hfind.symm.trans hhead)
      exact ⟨_, Table.find_upsert_self .., rfl⟩
    · exact ⟨hd, by rw [Table.find_upsert_ne _ hk, hfind], rfl⟩
  · -- the only row that is rewritten was pending
    have hne : k ≠ (input.sessionId, input.runEpoch, input.seq) := by
      rintro rfl
      obtain rfl : r = row := Option.some.inj (hr.symm.trans hrow)
      rw [ht] at hpending
      cases hpending
    exact ⟨r, by rw [Table.find_upsert_ne _ hne, hr], ht, rfl, rfl⟩

theorem afterCall_evolves (db : TranscriptCommitDb) (call : LedgerCall) : Evolves db (afterCall db call) := by
  rcases afterCall_cases db call with h | ⟨_, _, h⟩ | ⟨_, _, _, h⟩
  · rw [h]
    exact refl_of Evolves db
  · exact begin_evolves h
  · exact complete_evolves h

theorem ledgerAfter_evolves (past future : List LedgerCall) :
    Evolves (ledgerAfter past) (ledgerAfter (past ++ future)) := by
  rw [ledgerAfter, ledgerAfter, run_append]
  exact run_rel (P := fun _ => True) (fun _ _ _ => trivial) (fun db call _ => afterCall_evolves db call) future trivial

/-- A refused call writes nothing. -/
theorem refused_writes_nothing (db : TranscriptCommitDb) (call : LedgerCall)
    (h : refused db call) : afterCall db call = db := by
  cases call with
  | begin raw now =>
    simp only [refused, afterCall, begin] at h ⊢
    cases hn : normalizeInput raw now with
    | error e => rfl
    | ok input =>
      simp only [hn] at h ⊢
      rcases h with ⟨rejection, h⟩ | ⟨message, h⟩
      · cases hbody : beginBody input db with
        | error e => rw [transact_error hbody]
        | ok result =>
          obtain ⟨answer, db'⟩ := result
          rw [transact_ok hbody] at h ⊢
          rcases begin_cases hbody with ⟨hdb, _⟩ | ⟨hclaimed, _⟩
          · exact hdb
          · rw [hclaimed] at h
            cases h
      · exact transact_throws h
  | complete raw outcome now =>
    simp only [refused, afterCall, complete] at h ⊢
    cases hn : normalizeInput raw now with
    | error e => rfl
    | ok input =>
      simp only [hn] at h ⊢
      obtain ⟨message, h⟩ := h
      exact transact_throws h

/-! ## The contract -/

/-- The rows of one (session, run epoch): exactly `1..n`, terminal below the head, and at most one
pending row, which sits at the head. -/
structure GapFree (db : TranscriptCommitDb) (s : String) (e : Int) : Prop where
  exactPrefix : ∃ n : Nat, ∀ q, (db.commits.find (s, e, q)).isSome ↔ 1 ≤ q ∧ q ≤ n
  terminalBelowHead : ∀ head q row, db.heads.find (s, e) = some head →
    db.commits.find (s, e, q) = some row → q < head.nextSeq → row.state = .terminal
  pendingUnique : ∀ q q' row row', db.commits.find (s, e, q) = some row →
    db.commits.find (s, e, q') = some row' → row.state = .pending → row'.state = .pending → q = q'
  pendingAtHead : ∀ q row, db.commits.find (s, e, q) = some row → row.state = .pending →
    ∃ head, db.heads.find (s, e) = some head ∧ q = head.nextSeq

theorem LedgerInv.gapFree {db : TranscriptCommitDb} (hinv : LedgerInv db) (s : String) (e : Int) : GapFree db s e where
  exactPrefix := by
    cases hhead : db.heads.find (s, e) with
    | none =>
      refine ⟨0, fun q => ⟨fun hq => ?_, fun hq => by omega⟩⟩
      obtain ⟨row, hrow⟩ := Option.isSome_iff_exists.mp hq
      obtain ⟨head, hfind, _⟩ := hinv.rowBelowHead s e q row hrow
      exact absurd (hfind.symm.trans hhead) (by simp)
    | some head =>
      have hpos := hinv.headPos s e head hhead
      -- the prefix reaches the head exactly when the head's own row is there
      by_cases htop : (db.commits.find (s, e, head.nextSeq)).isSome
      · refine ⟨head.nextSeq.toNat, fun q => ⟨fun hq => ?_, fun hq => ?_⟩⟩
        · obtain ⟨row, hrow⟩ := Option.isSome_iff_exists.mp hq
          obtain ⟨hd, hfind, h1, hle, _⟩ := hinv.rowBelowHead s e q row hrow
          obtain rfl : hd = head := Option.some.inj (hfind.symm.trans hhead)
          omega
        · rcases Int.lt_or_eq_of_le (show q ≤ head.nextSeq by omega) with hlt | rfl
          · exact hinv.noGap s e head hhead q hq.1 hlt
          · exact htop
      · refine ⟨(head.nextSeq - 1).toNat, fun q => ⟨fun hq => ?_, fun hq => ?_⟩⟩
        · obtain ⟨row, hrow⟩ := Option.isSome_iff_exists.mp hq
          obtain ⟨hd, hfind, h1, hle, _⟩ := hinv.rowBelowHead s e q row hrow
          obtain rfl : hd = head := Option.some.inj (hfind.symm.trans hhead)
          have hne : q ≠ hd.nextSeq := by
            rintro rfl
            exact htop hq
          omega
        · exact hinv.noGap s e head hhead q hq.1 (by omega)
  terminalBelowHead := by
    intro head q row hhead hrow hlt
    obtain ⟨hd, hfind, _, _, hiff⟩ := hinv.rowBelowHead s e q row hrow
    obtain rfl : hd = head := Option.some.inj (hfind.symm.trans hhead)
    cases hstate : row.state with
    | terminal => rfl
    | pending =>
      have := hiff.mp hstate
      omega
  pendingUnique := by
    intro q q' row row' hrow hrow' hp hp'
    obtain ⟨hd, hfind, _, _, hiff⟩ := hinv.rowBelowHead s e q row hrow
    obtain ⟨hd', hfind', _, _, hiff'⟩ := hinv.rowBelowHead s e q' row' hrow'
    obtain rfl : hd = hd' := Option.some.inj (hfind.symm.trans hfind')
    rw [hiff.mp hp, hiff'.mp hp']
  pendingAtHead := by
    intro q row hrow hp
    obtain ⟨hd, hfind, _, _, hiff⟩ := hinv.rowBelowHead s e q row hrow
    exact ⟨hd, hfind, hiff.mp hp⟩

/-- Both calls replay a terminal row to its own environment and request hash. -/
theorem terminal_replays {db : TranscriptCommitDb} {raw : WorkerTranscriptCommitInput} {now : Int} {head : HeadRow}
    {row : CommitRow} {outcome : WorkerTranscriptCommitOutcome} (hraw : normalizeInput raw now = .ok input)
    (hhead : findHead db input = some head) (hrow : findCommit db input = some row)
    (hsame : head.environmentId = input.environmentId ∧ row.requestHash = input.requestHash)
    (hstate : row.state = .terminal) (hresult : row.resultJson = some outcome)
    (hparse : parseOutcomeJson outcome = .ok outcome) : (begin raw now db).1 = .ok (.existing (.replay outcome)) ∧
      ∀ attempted, (complete raw attempted now db).1 = .ok outcome := by
  have hclass := classify_terminal hsame hstate hresult hparse
  constructor
  · have hbody : beginBody input db = .ok (.existing (.replay outcome), db) := by
      simp only [beginBody, hhead, hrow, hclass]
      rfl
    simp [begin, hraw, transact_ok hbody]
  · intro attempted
    have hbody : completeBody input attempted db = .ok (outcome, db) := by
      simp only [completeBody, hhead, hrow, hclass]
      rfl
    simp [complete, hraw, transact_ok hbody]

/-- **The ledger contract.** Over every script of calls: each (session, run epoch) is a gap-free
prefix with at most the head's row pending; a terminal outcome stays what it is in every later state,
where both calls give it back to the same environment and request hash; a refused call writes
nothing. -/
theorem transcript_commit_ledger (past : List LedgerCall) : (∀ s e, GapFree (ledgerAfter past) s e) ∧
    (∀ s e q head row outcome, (ledgerAfter past).heads.find (s, e) = some head →
      (ledgerAfter past).commits.find (s, e, q) = some row → row.state = .terminal → row.resultJson = some outcome →
      ∀ future : List LedgerCall, (∃ row', (ledgerAfter (past ++ future)).commits.find (s, e, q) = some row' ∧
          row'.state = .terminal ∧ row'.resultJson = some outcome) ∧
        ∀ raw now input, normalizeInput raw now = .ok input →
          input.sessionId = s → input.runEpoch = e → input.seq = q →
          input.environmentId = head.environmentId → input.requestHash = row.requestHash →
          (begin raw now (ledgerAfter (past ++ future))).1 = .ok (.existing (.replay outcome)) ∧ ∀ attempted,
            (complete raw attempted now (ledgerAfter (past ++ future))).1 = .ok outcome) ∧
    (∀ call, refused (ledgerAfter past) call → afterCall (ledgerAfter past) call = ledgerAfter past) := by
  refine ⟨fun s e => (ledgerAfter_inv past).gapFree s e, ?_,
    fun call hcall => refused_writes_nothing _ call hcall⟩
  intro s e q head row outcome hhead hrow hstate hresult future
  have hevolves := ledgerAfter_evolves past future
  obtain ⟨head', hhead', henv⟩ := hevolves.headOwner _ head hhead
  obtain ⟨row', hrow', hstate', hhash, hresult'⟩ := hevolves.terminalRow _ row hrow hstate
  rw [hresult] at hresult'
  refine ⟨⟨row', hrow', hstate', hresult'⟩, ?_⟩
  intro raw now input hraw hs he hq hinputEnv hinputHash
  subst hs he hq
  obtain ⟨stored, hstored, hparse⟩ := (ledgerAfter_inv (past ++ future)).terminalParses _ row' hrow' hstate'
  obtain rfl : stored = outcome := Option.some.inj (hstored.symm.trans hresult')
  exact terminal_replays hraw hhead' hrow' ⟨henv.trans hinputEnv.symm, hhash.trans hinputHash.symm⟩
    hstate' hresult' hparse

/-- A commit that was begun and completed is stored, and replayed to who begins it again. -/
example :
    let input : WorkerTranscriptCommitInput := ⟨"env", "session", 0, 1, .ofList (.replicate 64 'a')⟩
    let outcome : AdmittedOutcome := ⟨.ok ⟨["entry"], "entry"⟩, fun _ h => by cases h; decide⟩
    (begin input 3 (ledgerAfter [.begin input 1, .complete input outcome 2])).1 =
      .ok (.existing (.replay outcome.1)) := by
  decide

end OpenClaw.WorkerEnvironments.TranscriptCommitStore
