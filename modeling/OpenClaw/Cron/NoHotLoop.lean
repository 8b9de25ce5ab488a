/-
# OpenClaw.Cron.NoHotLoop -- a job that ran does not run again at once

The natural next run of an `every` job is after the end of its run, whichever way it is computed, and a
`cron` job is held back by a gap.  After an error both wait at least for the backoff: a retry that comes
before the natural next run waits for exactly the retry delay, and everything else for the later one of
the two.  A one-shot job that stays keeps a next run only for a retry.
-/
import Mathlib.Data.Int.Order.Lemmas
import OpenClaw.Cron.ApplyJobResult

namespace OpenClaw.Cron

variable {S : Type}

/-! ## Natural next runs -/

theorem computeNextRunAtMs_every (engine : CronEngine) (everyMs : Int) (anchorMs : Option Int) (nowMs : Int) :
    ∃ next, computeNextRunAtMs engine (.every everyMs anchorMs) nowMs = .ok (some next) ∧ nowMs < next := by
  unfold computeNextRunAtMs
  dsimp only
  split
  · rename_i hbefore
    exact ⟨_, rfl, hbefore⟩
  · -- one step more than those that have passed
    have hpos : 0 < max 1 everyMs := by omega
    have hlt := Int.lt_ediv_add_one_mul_self (nowMs - max 0 (anchorMs.getD nowMs)) hpos
    exact ⟨_, rfl, by omega⟩

theorem computeJobNextRunAtMs_every (engine : CronEngine) {job : CronJob S} {everyMs : Int}
    {anchorMs : Option Int} (hschedule : job.schedule = .every everyMs anchorMs)
    (henabled : isJobEnabled job = true) (nowMs : Int) :
    ∃ next, computeJobNextRunAtMs engine job nowMs = .ok (some next) ∧ nowMs < next := by
  unfold computeJobNextRunAtMs
  rw [if_pos henabled, hschedule]
  dsimp only
  split
  · rename_i lastRunAtMs hlast
    have hlater := (Option.filter_eq_some_iff.mp hlast).2
    exact ⟨_, rfl, by simpa using hlater⟩
  · exact computeNextRunAtMs_every engine _ _ nowMs

variable {policy : RunPolicy S} {job : CronJob S} {result : RunResult} {preserveSchedule : Bool}

/-- Whichever way it is computed, the next run of an `every` job is after the end of its run. -/
theorem computeNormalNext_every (policy : RunPolicy S) (preserveSchedule : Bool) (job : CronJob S)
    {everyMs : Int} {anchorMs : Option Int}
    (hschedule : job.schedule = .every everyMs anchorMs) (henabled : isJobEnabled job = true)
    (afterFailure : Bool) (prevLastRunAtMs : Option Int) (endedAt : Int) :
    ∃ next, computeNormalNext policy preserveSchedule afterFailure prevLastRunAtMs endedAt job =
      .ok (some next) ∧ endedAt < next := by
  unfold computeNormalNext
  rw [hschedule]
  dsimp only
  split
  · refine @computeJobNextRunAtMs_every S policy.engine _ everyMs anchorMs ?_ ?_ endedAt
    · rfl
    · exact henabled
  · split
    · exact computeNextRunAtMs_every policy.engine everyMs anchorMs endedAt
    · exact computeJobNextRunAtMs_every policy.engine hschedule henabled endedAt

/-- The outcome of a run does not move the slots of a cron job. -/
theorem computeNormalNext_cron {expr : String} {tz : Option String} {staggerMs : Option Int}
    (hschedule : job.schedule = .cron expr tz staggerMs) (afterFailure : Bool)
    (prevLastRunAtMs : Option Int) (endedAt : Int) :
    computeNormalNext policy preserveSchedule afterFailure prevLastRunAtMs endedAt
      (markOutcome result job) = computeJobNextRunAtMs policy.engine job endedAt := by
  have hmarked : (markOutcome result job).schedule = .cron expr tz staggerMs := hschedule
  unfold computeNormalNext
  rw [hmarked]
  unfold computeJobNextRunAtMs computeStaggeredCronNextRunAtMs
  rw [hmarked, hschedule]
  rfl

/-! ## Backoff -/

def BackoffTable.Positive (table : BackoffTable) : Prop := 0 < table.first ∧ ∀ delayMs ∈ table.later, 0 < delayMs

theorem BackoffTable.Positive.delayMs_pos {table : BackoffTable} (h : table.Positive)
    (consecutiveErrors : Int) : 0 < table.delayMs consecutiveErrors := by
  have hall : ∀ delayMs ∈ table.first :: table.later, 0 < delayMs := by
    intro delayMs hmem
    rcases List.mem_cons.mp hmem with rfl | hlater
    · exact h.1
    · exact h.2 delayMs hlater
  unfold BackoffTable.delayMs
  rw [List.getD_eq_getElem?_getD]
  cases hget : (table.first :: table.later)[(max 0 (min (consecutiveErrors - 1)
      ((table.first :: table.later).length - 1))).toNat]? with
  | none => exact h.1
  | some delayMs => exact hall delayMs (List.mem_of_getElem? hget)

theorem defaultRetryTable_positive : BackoffTable.Positive
    ⟨defaultErrorBackoffScheduleMs.first, defaultErrorBackoffScheduleMs.later.take 2⟩ :=
  ⟨by decide, by decide⟩

/-- The delays of retries are not longer than those of errors. -/
theorem retry_delayMs_le (policy : RunPolicy S) (consecutiveErrors : Int) :
    (resolveRetryConfig policy.retry).backoffMs.delayMs consecutiveErrors ≤
      errorBackoffMs policy.engine consecutiveErrors := by
  rw [errorBackoffMs_eq, policy.sameTable, resolveRetryConfig]
  cases policy.retry.backoffMs with
  | some table => exact le_rfl
  | none =>
    -- the tables agree on the first three delays, and the longer one grows
    have hcases : consecutiveErrors ≤ 1 ∨ consecutiveErrors = 2 ∨ consecutiveErrors = 3 ∨
        consecutiveErrors = 4 ∨ 5 ≤ consecutiveErrors := by omega
    simp only [Option.getD_none, BackoffTable.delayMs, defaultErrorBackoffScheduleMs,
      List.take_succ_cons, List.take_zero, List.length_cons, List.length_nil]
    rcases hcases with hn | rfl | rfl | rfl | hn
    · have hlong : (max 0 (min (consecutiveErrors - 1) (((0 + 1 + 1 + 1 + 1 + 1 : Nat) : Int) - 1))).toNat = 0 := by
        omega
      have hshort : (max 0 (min (consecutiveErrors - 1) (((0 + 1 + 1 + 1 : Nat) : Int) - 1))).toNat = 0 := by
        omega
      rw [hlong, hshort]
      decide
    · decide
    · decide
    · decide
    · have hlong : (max 0 (min (consecutiveErrors - 1) (((0 + 1 + 1 + 1 + 1 + 1 : Nat) : Int) - 1))).toNat = 4 := by
        omega
      have hshort : (max 0 (min (consecutiveErrors - 1) (((0 + 1 + 1 + 1 : Nat) : Int) - 1))).toNat = 2 := by
        omega
      rw [hlong, hshort]
      decide

theorem retryWithin_eq_retry {consecutive backoffMs : Int} : retryWithin policy consecutive = .retry backoffMs ↔
      consecutive ≤ (resolveRetryConfig policy.retry).maxAttempts ∧
        backoffMs = (resolveRetryConfig policy.retry).backoffMs.delayMs consecutive := by
  unfold retryWithin
  split
  · rename_i hover
    simp [hover]
  · rename_i hwithin
    simp [not_lt.mp hwithin, eq_comm]

theorem resolveTransient_eq_retry {consecutiveErrors : Option Int} {backoffMs : Int}
    (h : resolveTransientCronRetryDecision policy result consecutiveErrors = .retry backoffMs) :
    isTransientError policy result = true ∧ consecutiveErrors.getD 0 ≤ (resolveRetryConfig policy.retry).maxAttempts ∧
      backoffMs = (resolveRetryConfig policy.retry).backoffMs.delayMs (consecutiveErrors.getD 0) := by
  unfold resolveTransientCronRetryDecision at h
  split at h
  · rename_i htransient
    exact ⟨htransient, retryWithin_eq_retry.mp h⟩
  · cases h

/-! ## After an error -/

theorem earlyRetry_eq_some {decision : RetryDecision} {normalNext : Option Int} {endedAt next : Int}
    (h : earlyRetry preserveSchedule decision normalNext endedAt = some next) :
    ∃ backoffMs, decision = .retry backoffMs ∧ next = endedAt + backoffMs := by
  unfold earlyRetry at h
  split at h
  · split at h
    · exact ⟨_, rfl, (Option.some.inj h).symm⟩
    · cases h
  · cases h

theorem delayedNext_le {schedule : CronSchedule} {normalNext : Option Int} {backoffNext next : Int}
    (h : delayedNext schedule normalNext backoffNext = some next) : backoffNext ≤ next := by
  unfold delayedNext resolveCronNextRunWithLowerBound at h
  split at h
  · obtain ⟨natural, _, rfl⟩ := Option.map_eq_some_iff.mp h
    exact le_max_right _ _
  · cases normalNext with
    | none => exact (Option.some.inj h).le
    | some natural =>
      rw [← Option.some.inj h]
      exact le_max_right _ _

theorem delayedNext_eq_none {schedule : CronSchedule} {normalNext : Option Int} {backoffNext : Int}
    (h : delayedNext schedule normalNext backoffNext = none) :
    normalNext = none ∧ ∃ expr tz staggerMs, schedule = .cron expr tz staggerMs := by
  unfold delayedNext resolveCronNextRunWithLowerBound at h
  split at h
  · exact ⟨Option.map_eq_none_iff.mp h, _, _, _, rfl⟩
  · cases h

/-- What a run leaves behind: how long a next run has to wait, and when there is none. -/
structure Waits (policy : RunPolicy S) (result : RunResult) (job : CronJob S) (nextRunAtMs : Option Int) :
    Prop where
  later : ∀ next, nextRunAtMs = some next → result.endedAt < next
  backoff : result.status = .error → ∀ next, nextRunAtMs = some next →
    result.endedAt + (resolveRetryConfig policy.retry).backoffMs.delayMs
      (job.state.consecutiveErrors.getD 0 + 1) ≤ next
  unresolved : nextRunAtMs = none → ∀ next, computeJobNextRunAtMs policy.engine job result.endedAt ≠
    .ok (some next)

def Recurring (schedule : CronSchedule) : Prop :=
  (∃ everyMs anchorMs, schedule = .every everyMs anchorMs) ∨ ∃ expr tz staggerMs, schedule = .cron expr tz staggerMs

/-- A recurring job has no natural next run only if its schedule gives none. -/
theorem settleNext_none (hrecurring : Recurring job.schedule) (henabled : isJobEnabled job = true)
    {afterFailure : Bool} {prevLastRunAtMs : Option Int} {endedAt : Int}
    (h : (settleNext (markOutcome result job) (computeNormalNext policy preserveSchedule afterFailure
      prevLastRunAtMs endedAt (markOutcome result job))).2 = none) :
    (∃ expr tz staggerMs, job.schedule = .cron expr tz staggerMs) ∧
      ∀ next, computeJobNextRunAtMs policy.engine job endedAt ≠ .ok (some next) := by
  rcases hrecurring with ⟨everyMs, anchorMs, hevery⟩ | ⟨expr, tz, staggerMs, hcron⟩
  · obtain ⟨next, hnext, _⟩ := computeNormalNext_every policy preserveSchedule
      (markOutcome result job) hevery henabled afterFailure prevLastRunAtMs endedAt
    rw [hnext] at h
    cases h
  · rw [computeNormalNext_cron hcron] at h
    refine ⟨⟨expr, tz, staggerMs, hcron⟩, fun next hnext => ?_⟩
    rw [hnext] at h
    cases h

theorem afterError_waits (hpositive : ∀ table, policy.retry.backoffMs = some table → table.Positive)
    (hrecurring : Recurring job.schedule) (henabled : isJobEnabled job = true) (hstatus : result.status = .error) :
    Waits policy result job
      (afterError policy preserveSchedule job.state result (markOutcome result job)).state.nextRunAtMs := by
  have hcount : (markOutcome result job).state.consecutiveErrors = some (job.state.consecutiveErrors.getD 0 + 1) := by
    simp [markOutcome, hstatus]
  have hdelay := retry_delayMs_le policy (job.state.consecutiveErrors.getD 0 + 1)
  have hbackoff : ∀ next,
      (afterError policy preserveSchedule job.state result (markOutcome result job)).state.nextRunAtMs =
        some next →
      result.endedAt + (resolveRetryConfig policy.retry).backoffMs.delayMs
        (job.state.consecutiveErrors.getD 0 + 1) ≤ next := by
    intro next hnext
    unfold afterError at hnext
    dsimp only at hnext
    rw [hcount] at hnext
    split at hnext
    · -- a retry waits for its own delay
      rename_i retryNext hearly
      cases hnext
      obtain ⟨backoffMs, hdecision, rfl⟩ := earlyRetry_eq_some hearly
      obtain ⟨_, _, rfl⟩ := resolveTransient_eq_retry hdecision
      exact le_rfl
    · have hle := delayedNext_le hnext
      rw [Option.getD_some] at hle
      omega
  refine ⟨fun next hnext => ?_, fun _ => hbackoff, fun hnone => ?_⟩
  · have hpos : 0 < (resolveRetryConfig policy.retry).backoffMs.delayMs
        (job.state.consecutiveErrors.getD 0 + 1) := by
      apply BackoffTable.Positive.delayMs_pos
      unfold resolveRetryConfig
      cases htable : policy.retry.backoffMs with
      | none => exact defaultRetryTable_positive
      | some table => exact hpositive table htable
    have hle := hbackoff next hnext
    omega
  · unfold afterError at hnone
    dsimp only at hnone
    split at hnone
    · cases hnone
    · exact (settleNext_none hrecurring henabled (delayedNext_eq_none hnone).1).2

/-! ## After a run or a skip -/

theorem afterCompletion_waits (hrecurring : Recurring job.schedule) (henabled : isJobEnabled job = true)
    (hstatus : result.status ≠ .error) : Waits policy result job
      (afterCompletion policy preserveSchedule job.state result (markOutcome result job)).state.nextRunAtMs := by
  refine ⟨fun next hnext => ?_, fun herror => absurd herror hstatus, fun hnone => ?_⟩
  · unfold afterCompletion at hnext
    rcases hrecurring with ⟨everyMs, anchorMs, hevery⟩ | ⟨expr, tz, staggerMs, hcron⟩
    · obtain ⟨natural, hnatural, hlater⟩ := computeNormalNext_every policy preserveSchedule
        (markOutcome result job) hevery henabled
        (0 < job.state.consecutiveErrors.getD 0) job.state.lastRunAtMs result.endedAt
      have hmarked : (markOutcome result job).schedule = .every everyMs anchorMs := hevery
      simp only [hmarked, hnatural, settleNext, CronJob.withNext] at hnext
      split at hnext
      · rw [← Option.some.inj hnext]
        exact lt_max_of_lt_left hlater
      · rw [← Option.some.inj hnext]
        exact hlater
    · have hmarked : (markOutcome result job).schedule = .cron expr tz staggerMs := hcron
      simp only [hmarked, CronJob.withNext, resolveCronNextRunWithLowerBound] at hnext
      obtain ⟨natural, _, rfl⟩ := Option.map_eq_some_iff.mp hnext
      -- the gap alone is enough
      have hgap : result.endedAt < result.endedAt + minRefireGapMs := by
        unfold minRefireGapMs
        omega
      apply lt_max_of_lt_right
      apply lt_of_lt_of_le hgap
      exact Int.add_le_add_left (le_max_left _ _) _
  · unfold afterCompletion at hnone
    dsimp only at hnone
    have hnatural : (settleNext (markOutcome result job) (computeNormalNext policy preserveSchedule
        (0 < job.state.consecutiveErrors.getD 0) job.state.lastRunAtMs result.endedAt
        (markOutcome result job))).2 = none := by
      split at hnone
      · exact Option.map_eq_none_iff.mp hnone
      · simp only [CronJob.withNext] at hnone
        split at hnone
        · exact Option.map_eq_none_iff.mp hnone
        · exact hnone
    exact (settleNext_none hrecurring henabled hnatural).2

/-! ## One-shot jobs -/

/-- The run of a one-shot job is tried again. -/
def Retried (policy : RunPolicy S) (result : RunResult) (job : CronJob S) : Prop :=
  (result.status = .error ∧ isTransientError policy result = true ∧
      job.state.consecutiveErrors.getD 0 + 1 ≤ (resolveRetryConfig policy.retry).maxAttempts) ∨
    (shouldRetryDisabledHeartbeatOneShot policy job result = true ∧
      job.state.consecutiveSkipped.getD 0 + 1 ≤ (resolveRetryConfig policy.retry).maxAttempts)

theorem switchOff_nextRunAtMs (job : CronJob S) : job.switchOff.state.nextRunAtMs = none := rfl

theorem afterOneShot_retried (h : (afterOneShot policy result (markOutcome result job)).state.nextRunAtMs ≠ none) :
    Retried policy result job := by
  unfold afterOneShot at h
  split at h
  · rename_i hskip
    have hskipped : result.status = .skipped := by
      unfold shouldRetryDisabledHeartbeatOneShot at hskip
      split at hskip
      · simp only [Bool.and_eq_true, decide_eq_true_eq] at hskip
        exact hskip.1.2
      · cases hskip
    right
    refine ⟨hskip, ?_⟩
    split at h
    · rename_i backoffMs hdecision
      have hwithin := (retryWithin_eq_retry.mp hdecision).1
      simpa [markOutcome, hskipped] using hwithin
    · exact absurd (switchOff_nextRunAtMs _) h
  · split at h
    · exact absurd (switchOff_nextRunAtMs _) h
    · exact absurd (switchOff_nextRunAtMs _) h
    · rename_i herror
      left
      split at h
      · rename_i backoffMs hdecision
        obtain ⟨htransient, hwithin, _⟩ := resolveTransient_eq_retry hdecision
        refine ⟨herror, htransient, ?_⟩
        simpa [markOutcome, herror] using hwithin
      · exact absurd (switchOff_nextRunAtMs _) h

/-! ## The result of a run -/

/-- **No hot loop after a run.**  A recurring job waits, and a one-shot job that stays keeps a next run
only for a retry. -/
theorem no_hot_loop_after_run (policy : RunPolicy S)
    (hpositive : ∀ table, policy.retry.backoffMs = some table → table.Positive)
    (preserveSchedule : Bool) (result : RunResult) (job : CronJob S) :
    (isJobEnabled job = true → Recurring job.schedule →
      Waits policy result job (applyJobResult policy preserveSchedule result job).1.state.nextRunAtMs) ∧
    ∀ at', job.schedule = .at at' → (applyJobResult policy preserveSchedule result job).2 = false →
      (applyJobResult policy preserveSchedule result job).1.state.nextRunAtMs ≠ none → Retried policy result job := by
  constructor
  · intro henabled hrecurring
    have happlied : applyJobResult policy preserveSchedule result job =
        if result.status = .error then
          (afterError policy preserveSchedule job.state result (markOutcome result job), false)
        else (afterCompletion policy preserveSchedule job.state result (markOutcome result job), false) := by
      unfold applyJobResult
      rcases hrecurring with ⟨everyMs, anchorMs, hevery⟩ | ⟨expr, tz, staggerMs, hcron⟩
      · simp [hevery, henabled, isOneShotSchedule]
      · simp [hcron, henabled, isOneShotSchedule]
    rw [happlied]
    split
    · rename_i herror
      exact afterError_waits hpositive hrecurring henabled herror
    · rename_i hstatus
      exact afterCompletion_waits hrecurring henabled hstatus
  · intro at' hat hstays hnext
    unfold applyJobResult at hstays hnext
    simp only [hat] at hstays hnext
    split at hnext
    · rename_i hdelete
      rw [if_pos hdelete] at hstays
      cases hstays
    · exact afterOneShot_retried hnext

/-! ## Two runs -/

def oneDelay : BackoffTable := ⟨30000, []⟩

theorem oneDelay_positive : oneDelay.Positive := ⟨by decide, by simp [oneDelay]⟩

def noSchedules : CronEngine where
  parseAbsoluteTimeMs := fun _ => some 5
  nextRun := fun _ _ _ => .ok none
  previousRun := fun _ _ _ => .ok none
  isRecurringTopOfHourCronExpr := fun _ => false
  digest := fun _ => 0
  firstBackoffMs := oneDelay.first
  laterBackoffMs := oneDelay.later

def samplePolicy : RunPolicy RunSpec where
  engine := noSchedules
  retry := { maxAttempts := none, backoffMs := some oneDelay, retryOn := none }
  triggerMinIntervalMs := none
  runSpec := id
  resolveFailoverReasonFromError := fun _ _ => none
  resolveCronExecutionRetryHint := fun _ _ _ => false
  sameTable := rfl

def sampleJob (schedule : CronSchedule) : CronJob RunSpec where
  id := "a"
  name := "a"
  enabled := some true
  createdAtMs := some 0
  updatedAtMs := 0
  agentId := none
  sessionKey := none
  declarationKey := none
  schedule := schedule
  payloadKind := .systemEvent
  state := { nextRunAtMs := some 5 }
  spec := { sessionTarget := "main", wakeMode := .now, deleteAfterRun := some true, trigger := false }

def sampleResult (status : CronRunStatus) : RunResult where
  status := status
  error := none
  provider := none
  startedAt := 5
  endedAt := 7

theorem no_hot_loop_after_run_error :
    (applyJobResult samplePolicy false (sampleResult .error) (sampleJob (.every 10 none))).1.state.nextRunAtMs =
        some 30007 ∧ Waits samplePolicy (sampleResult .error) (sampleJob (.every 10 none)) (some 30007) := by
  have hwaits := (no_hot_loop_after_run samplePolicy
    (fun table htable => Option.some.inj htable ▸ oneDelay_positive) false (sampleResult .error)
    (sampleJob (.every 10 none))).1 rfl (.inl ⟨10, none, rfl⟩)
  exact ⟨rfl, hwaits⟩

/-- A one-shot job that is to be deleted keeps its next run. -/
theorem deleted_job_keeps_next_run : applyJobResult samplePolicy false (sampleResult .ok) (sampleJob (.at "5")) =
        (markOutcome (sampleResult .ok) (sampleJob (.at "5")), true) ∧
      (markOutcome (sampleResult .ok) (sampleJob (.at "5"))).state.nextRunAtMs = some 5 ∧
      ¬ Retried samplePolicy (sampleResult .ok) (sampleJob (.at "5")) := by
  refine ⟨rfl, rfl, ?_⟩
  rintro (⟨herror, _⟩ | ⟨hskip, _⟩)
  · cases herror
  · cases hskip

end OpenClaw.Cron
