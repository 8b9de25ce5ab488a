/-
# OpenClaw.Cron.ApplyJobResult -- what the result of a run makes of its job

After a run the job is marked with its outcome, and its next run is set.  A one-shot job is retried after
a transient error, else it is over.  A recurring job gets its natural next run, which an error delays by a
backoff; a transient error may also bring it forward, to a retry before the natural next run.  This module
follows `applyJobResult` of `service/timer.ts`.  Delivery states, diagnostics and failure alerts do not
bear on the next run and are left out; the classification of an error is given.
-/
import OpenClaw.Cron.Mutations

namespace OpenClaw.Cron

def heartbeatSkipDisabled : String := "disabled"

/-! ## The retry policy -/

/-- A table of delays; the configuration refuses an empty one. -/
structure BackoffTable where
  first : Int
  later : List Int

/-- `errorBackoffMs(consecutiveErrors, scheduleMs)` -/
def BackoffTable.delayMs (table : BackoffTable) (consecutiveErrors : Int) : Int :=
  let scheduleMs := table.first :: table.later
  let idx := min (consecutiveErrors - 1) (scheduleMs.length - 1)
  scheduleMs.getD (max 0 idx).toNat table.first

def CronEngine.backoffTable (engine : CronEngine) : BackoffTable :=
  ⟨engine.firstBackoffMs, engine.laterBackoffMs⟩

theorem errorBackoffMs_eq (engine : CronEngine) (consecutiveErrors : Int) :
    errorBackoffMs engine consecutiveErrors = engine.backoffTable.delayMs consecutiveErrors := rfl

def defaultErrorBackoffScheduleMs : BackoffTable :=
  ⟨30000, [60000, 5 * 60000, 15 * 60000, 60 * 60000]⟩

def defaultMaxTransientRetries : Int := 3

def minRefireGapMs : Int := 2000

def defaultCronTriggerMinIntervalMs : Int := 30000

inductive CronRetryOn where
  | rateLimit
  | overloaded
  | network
  | timeout
  | serverError
  deriving DecidableEq

structure CronRetryConfig where
  maxAttempts : Option Int
  backoffMs : Option BackoffTable
  retryOn : Option (List CronRetryOn)

/-- The retry configuration with its defaults. -/
structure ResolvedRetryConfig where
  maxAttempts : Int
  backoffMs : BackoffTable
  retryOn : Option (List CronRetryOn)

/-- Without a table of its own, a retry knows the first three delays of the default one. -/
def resolveRetryConfig (retry : CronRetryConfig) : ResolvedRetryConfig where
  maxAttempts := retry.maxAttempts.getD defaultMaxTransientRetries
  backoffMs := retry.backoffMs.getD
    { first := defaultErrorBackoffScheduleMs.first, later := defaultErrorBackoffScheduleMs.later.take 2 }
  retryOn := retry.retryOn.filter (· ≠ [])

inductive CronWakeMode where
  | now
  | nextHeartbeat
  deriving DecidableEq

/-- What a result looks at in a job, besides its schedule and its state. -/
structure RunSpec where
  sessionTarget : String
  wakeMode : CronWakeMode
  deleteAfterRun : Option Bool
  /-- Whether the job has a trigger. -/
  trigger : Bool

/-- What the service is told from outside when it applies a result. -/
structure RunPolicy (S : Type) where
  engine : CronEngine
  retry : CronRetryConfig
  triggerMinIntervalMs : Option Int
  runSpec : S → RunSpec
  resolveFailoverReasonFromError : String → Option String → Option String
  /-- Whether the error is one to retry, given the kinds that are retried and its classification. -/
  resolveCronExecutionRetryHint : Option String → Option (List CronRetryOn) → Option String → Bool
  /-- The engine delays errors by the configured table. -/
  sameTable : engine.backoffTable = retry.backoffMs.getD defaultErrorBackoffScheduleMs

structure RunResult where
  status : CronRunStatus
  error : Option String
  provider : Option String
  startedAt : Int
  endedAt : Int

inductive RetryDecision where
  | retry (backoffMs : Int)
  | maxRetriesExhausted
  | permanentError
  deriving DecidableEq

variable {S : Type} (policy : RunPolicy S)

def resolveCronTriggerMinIntervalMs : Int :=
  (policy.triggerMinIntervalMs.map (max 1)).getD defaultCronTriggerMinIntervalMs

/-- A retry while there are attempts left. -/
def retryWithin (consecutive : Int) : RetryDecision :=
  if (resolveRetryConfig policy.retry).maxAttempts < consecutive then .maxRetriesExhausted
  else .retry ((resolveRetryConfig policy.retry).backoffMs.delayMs consecutive)

/-- `job.state.lastErrorReason` -/
def lastErrorReason (result : RunResult) : Option String :=
  if result.status = .error then
    result.error.bind (policy.resolveFailoverReasonFromError · result.provider)
  else none

def isTransientError (result : RunResult) : Bool :=
  policy.resolveCronExecutionRetryHint result.error (resolveRetryConfig policy.retry).retryOn
    (lastErrorReason policy result)

def resolveTransientCronRetryDecision (result : RunResult) (consecutiveErrors : Option Int) : RetryDecision :=
  if isTransientError policy result then retryWithin policy (consecutiveErrors.getD 0)
  else .permanentError

def resolveDisabledHeartbeatOneShotRetryDecision (consecutiveSkipped : Option Int) : RetryDecision :=
  retryWithin policy (consecutiveSkipped.getD 0)

def shouldRetryDisabledHeartbeatOneShot (job : CronJob S) (result : RunResult) : Bool :=
  match job.schedule with
  | .at _ =>
    (policy.runSpec job.spec).sessionTarget = "main" && (policy.runSpec job.spec).wakeMode = .now &&
      result.status = .skipped && result.error = some heartbeatSkipDisabled
  | _ => false

/-! ## The outcome -/

/-- The job carries the outcome of its run; errors and skips are counted apart. -/
def markOutcome (result : RunResult) (job : CronJob S) : CronJob S :=
  { job with
    updatedAtMs := result.endedAt
    state := { job.state with
      runningAtMs := none
      lastRunAtMs := some result.startedAt
      lastRunStatus := some result.status
      lastStatus := some result.status
      lastDurationMs := some (max 0 (result.endedAt - result.startedAt))
      lastError := result.error
      consecutiveErrors := match result.status with
        | .error => some (job.state.consecutiveErrors.getD 0 + 1)
        | _ => some 0
      consecutiveSkipped := match result.status with
        | .skipped => some (job.state.consecutiveSkipped.getD 0 + 1)
        | _ => some 0 } }

def CronJob.withNext (nextRunAtMs : Option Int) (job : CronJob S) : CronJob S :=
  { job with state := { job.state with nextRunAtMs } }

/-- The job is over, and stays in the store. -/
def CronJob.switchOff (job : CronJob S) : CronJob S := { job.withNext none with enabled := some false }

/-- The branch of `applyJobResult` for an `at` schedule. -/
def afterOneShot (result : RunResult) (job : CronJob S) : CronJob S :=
  if shouldRetryDisabledHeartbeatOneShot policy job result then
    match resolveDisabledHeartbeatOneShotRetryDecision policy job.state.consecutiveSkipped with
    | .retry backoffMs => { job.withNext (some (result.endedAt + backoffMs)) with enabled := some true }
    | _ => job.switchOff
  else match result.status with
    | .ok => job.switchOff
    | .skipped => job.switchOff
    | .error =>
      match resolveTransientCronRetryDecision policy result job.state.consecutiveErrors with
      | .retry backoffMs => job.withNext (some (result.endedAt + backoffMs))
      | _ => job.switchOff

/-! ## Recurring jobs -/

/-- The natural next run of a marked job.  A manual run keeps the rhythm of the run before it; after an
error an `every` job goes back to its anchor. -/
def computeNormalNext (preserveSchedule afterFailure : Bool) (prevLastRunAtMs : Option Int)
    (endedAt : Int) (job : CronJob S) : Except String (Option Int) :=
  match job.schedule with
  | .every _ _ =>
    if preserveSchedule then
      computeJobNextRunAtMs policy.engine
        { job with state := { job.state with lastRunAtMs := prevLastRunAtMs } } endedAt
    else if afterFailure then computeNextRunAtMs policy.engine job.schedule endedAt
    else computeJobNextRunAtMs policy.engine job endedAt
  | _ => computeJobNextRunAtMs policy.engine job endedAt

/-- A schedule that throws is recorded, and gives no next run. -/
def settleNext (job : CronJob S) : Except String (Option Int) → CronJob S × Option Int
  | .ok next => (job, next)
  | .error err => ((recordScheduleComputeError job err).job, none)

/-- An unresolved run stays unresolved. -/
def resolveCronNextRunWithLowerBound (naturalNext : Option Int) (lowerBoundMs : Int) : Option Int :=
  naturalNext.map (max · lowerBoundMs)

/-- The later one of the natural next run and the end of the backoff. -/
def delayedNext (schedule : CronSchedule) (normalNext : Option Int) (backoffNext : Int) : Option Int :=
  match schedule with
  | .cron _ _ _ => resolveCronNextRunWithLowerBound normalNext backoffNext
  | _ => some (normalNext.elim backoffNext (max · backoffNext))

/-- The retry of a transient error, if it comes before the natural next run. -/
def earlyRetry (preserveSchedule : Bool) (decision : RetryDecision) (normalNext : Option Int)
    (endedAt : Int) : Option Int :=
  match preserveSchedule, decision, normalNext with
  | false, .retry backoffMs, some next =>
    if endedAt + backoffMs < next then some (endedAt + backoffMs) else none
  | _, _, _ => none

def RetryDecision.isRetry : RetryDecision → Bool
  | .retry _ => true
  | _ => false

/-- The branch of `applyJobResult` for an error of a recurring job. -/
def afterError (preserveSchedule : Bool) (before : CronJobState) (result : RunResult) (job : CronJob S) : CronJob S :=
  let decision := resolveTransientCronRetryDecision policy result job.state.consecutiveErrors
  let normal := settleNext job (computeNormalNext policy preserveSchedule
    (decision.isRetry || 0 < before.consecutiveErrors.getD 0) before.lastRunAtMs result.endedAt job)
  let backoff := errorBackoffMs policy.engine (job.state.consecutiveErrors.getD 1)
  match earlyRetry preserveSchedule decision normal.2 result.endedAt with
  | some retryNextRunAtMs => normal.1.withNext (some retryNextRunAtMs)
  | none => normal.1.withNext (delayedNext job.schedule normal.2 (result.endedAt + backoff))

/-- The branch of `applyJobResult` for a recurring job that ran or was skipped. -/
def afterCompletion (preserveSchedule : Bool) (before : CronJobState) (result : RunResult)
    (job : CronJob S) : CronJob S :=
  let natural := settleNext job (computeNormalNext policy preserveSchedule
    (0 < before.consecutiveErrors.getD 0) before.lastRunAtMs result.endedAt job)
  let trigger := (policy.runSpec job.spec).trigger
  match job.schedule with
  | .cron _ _ _ =>
    natural.1.withNext <| resolveCronNextRunWithLowerBound natural.2 <|
      result.endedAt + max minRefireGapMs (if trigger then resolveCronTriggerMinIntervalMs policy else 0)
  | _ =>
    natural.1.withNext <|
      if trigger then natural.2.map (max · (result.endedAt + resolveCronTriggerMinIntervalMs policy))
      else natural.2

def isOneShotSchedule : CronSchedule → Bool
  | .at _ => true
  | .onExit _ _ => true
  | _ => false

/-- The job, and whether it is to be deleted. -/
def applyJobResult (preserveSchedule : Bool) (result : RunResult) (job : CronJob S) : CronJob S × Bool :=
  let marked := markOutcome result job
  if isOneShotSchedule job.schedule ∧ (policy.runSpec job.spec).deleteAfterRun = some true ∧
      result.status = .ok then
    (marked, true)
  else
    match job.schedule with
    | .at _ => (afterOneShot policy result marked, false)
    | _ =>
      if isJobEnabled job then
        if result.status = .error then
          (afterError policy preserveSchedule job.state result marked, false)
        else (afterCompletion policy preserveSchedule job.state result marked, false)
      else (marked.withNext none, false)

end OpenClaw.Cron
