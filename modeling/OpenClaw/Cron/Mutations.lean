/-
# OpenClaw.Cron.Mutations -- changes of the job list that fail without a trace

The service keeps three things that must agree with the durable store: the job list, the next run that
the store holds for each job, and the jobs whose catch-up run was deferred.  An operation takes a
snapshot of the three before it changes any of them, and puts the snapshot back when the durable write
does not complete.  This module follows `persist` and `persistOrRestore` of `service/store.ts` and the
operations of `service/ops.ts`: `add`, `update`, `updateWithPrecondition`, `remove` and the end of a
manual run.  The runs of a timer tick and of the start-up catch-up end in `service/timer.ts`.  An end of runs
reads the durable store again before it changes anything; the start-up catch-up only if the service was
stopped meanwhile.

Creating a job, patching it and applying a run to it work on copies; they are fields of `MutationDeps`,
and may throw.  An operation returns its answer and the state after it, also when it throws.
-/
import OpenClaw.Cron.Maintenance
import OpenClaw.Data.Table

namespace OpenClaw.Cron

open OpenClaw.Data

variable {S I P : Type}

/-! ## State -/

inductive CronNotice where
  | scheduled (jobId : String) (nextRunAtMs : Option Int)
  | autoDisabled (notice : AutoDisableNotice)
  | added (jobId : String)
  | updated (jobId : String)
  | removed (jobId : String)
  | finished (jobId : String)

/-- What `snapshotStoreForRollback` copies. -/
structure CronView (S : Type) where
  jobs : List (CronJob S)
  durableNextRunAtMsByJobId : Table String (Option Int)
  pendingCatchupDeferralJobIds : List String

/-- A service whose store is loaded. -/
structure CronServiceState (S : Type) where
  view : CronView S
  /-- Rows wait for their quarantine file. -/
  pendingQuarantine : Bool := false
  /-- The notifications sent so far. -/
  sent : List CronNotice := []

/-- What the durable store does with one write. -/
structure DurableWrite where
  quarantineFlushed : Bool
  /-- A job that cannot be stored, or a failed transaction. -/
  saveError : Option String

/-- What the operations are given from outside; `I` is the input of `add`, `P` a patch. -/
structure MutationDeps (S I P : Type) where
  engine : CronEngine
  nowMs : Int
  maintenanceNowMs : Int
  write : DurableWrite
  inputId : I → Option String
  inputDeclarationKey : I → Option String
  checkRunLogJobId : String → Option String
  matchesExisting : CronJob S → Bool
  /-- The input with its normalised id. -/
  createJob : Option String → I → Except String (CronJob S)
  applyDeclarativeJobSpec : CronJob S → I → Except String (CronJob S)
  /-- With the enabled flag, if the caller set it. -/
  declarativeFieldsEqual : CronJob S → CronJob S → Bool
  applyJobPatch : CronJob S → P → Except String (CronJob S)
  patchesSchedule : P → Bool
  /-- The patch has a schedule, an enabled flag or a trigger. -/
  patchesScheduling : P → Bool
  cronSchedulingInputsEqual : CronJob S → CronJob S → Bool
  missedJobStaggerMs : Option Int := none

/-- The answer of an operation, and the state it leaves. -/
structure Answer (S α : Type) where
  result : Except String α
  state : CronServiceState S

/-- What the operation goes on with unless it threw: its answer, and its last steps. -/
def Answer.andThen {α β : Type} (answer : Answer S α) (value : β)
    (last : CronServiceState S → CronServiceState S) : Answer S β :=
  match answer.result with
  | .error message => { result := .error message, state := answer.state }
  | .ok _ => { result := .ok value, state := last answer.state }

/-! ## Persisting -/

def durableNextRunsFromJobs (jobs : List (CronJob S)) : Table String (Option Int) :=
  jobs.foldl (fun durable job => durable.upsert job.id job.state.nextRunAtMs) Table.empty

/-- The jobs that both tables have, with different next runs. -/
def changedJobs (previous next : Table String (Option Int)) (jobs : List (CronJob S)) : List (CronJob S) :=
  jobs.filter fun job =>
    (previous.find job.id).isSome && (next.find job.id).isSome &&
      previous.find job.id ≠ next.find job.id

def publishDurableNextRunChanges (s : CronServiceState S) (suppressScheduledJobId : Option String) :
    CronServiceState S :=
  let next := durableNextRunsFromJobs s.view.jobs
  let changed := changedJobs s.view.durableNextRunAtMsByJobId next s.view.jobs
  { s with
    view := { s.view with durableNextRunAtMsByJobId := next }
    sent := s.sent ++ (changed.filter fun job => some job.id ≠ suppressScheduledJobId).map fun job =>
      .scheduled job.id job.state.nextRunAtMs }

/-- `false` is a write that did not complete. -/
def persist (write : DurableWrite) (s : CronServiceState S) (suppressScheduledJobId : Option String) : Answer S Bool :=
  if s.pendingQuarantine ∧ ¬ write.quarantineFlushed then { result := .ok false, state := s }
  else
    let flushed := { s with pendingQuarantine := false }
    match write.saveError with
    | some message => { result := .error message, state := flushed }
    | none =>
      { result := .ok true
        state := publishDurableNextRunChanges flushed suppressScheduledJobId }

def restore (snapshot : CronView S) (s : CronServiceState S) : CronServiceState S := { s with view := snapshot }

def persistOrRestore (write : DurableWrite) (s : CronServiceState S) (snapshot : CronView S)
    (suppressScheduledJobId : Option String) (notices : List AutoDisableNotice) : Answer S Unit :=
  let done := persist write s suppressScheduledJobId
  match done.result with
  | .error message => { result := .error message, state := restore snapshot done.state }
  | .ok false =>
    { result := .error "cron: durable store write did not complete"
      state := restore snapshot done.state }
  | .ok true =>
    { result := .ok ()
      state := { done.state with sent := done.state.sent ++ notices.map .autoDisabled } }

def CronServiceState.emit (s : CronServiceState S) (notice : CronNotice) : CronServiceState S :=
  { s with sent := s.sent ++ [notice] }

/-! ## Updates -/

/-- The anchor of an interval schedule that was given without one. -/
def inheritAnchor (job nextJob : CronJob S) (now : Int) (scheduleChanged : Bool) : CronJob S :=
  match nextJob.schedule with
  | .every everyMs none =>
    let previousAnchorMs := match job.schedule with
      | .every previousEveryMs anchorMs => if previousEveryMs = everyMs then anchorMs else none
      | _ => none
    let fallbackAnchorMs := previousAnchorMs.getD
      (if scheduleChanged then now else nextJob.createdAtMs.getD now)
    { nextJob with schedule := CronSchedule.every everyMs (some (max 0 fallbackAnchorMs)) }
  | _ => nextJob

def finalizeUpdatedJob (deps : MutationDeps S I P) (job nextJob : CronJob S)
    (schedulingInputsRequested scheduleChanged : Bool) : Except String (CronJob S) := do
  let now := deps.nowMs
  let nextJob := inheritAnchor job nextJob now scheduleChanged
  let schedulingInputsChanged := schedulingInputsRequested && !deps.cronSchedulingInputsEqual job nextJob
  if scheduleChanged then
    match nextJob.schedule with
    | .cron _ _ _ =>
      -- The expression of a disabled job is computed once, so that a bad one throws here.
      if ¬ isJobEnabled nextJob then
        let _ ← computeJobNextRunAtMs deps.engine { nextJob with enabled := some true } now
    | _ => pure ()
  let nextJob := { nextJob with updatedAtMs := now }
  if schedulingInputsChanged then
    if isJobEnabled nextJob then
      let next ← computeJobNextRunAtMs deps.engine nextJob now
      return { nextJob with state := { nextJob.state with nextRunAtMs := next } }
    return { nextJob with state := { nextJob.state with nextRunAtMs := none, runningAtMs := none } }
  if isJobEnabled nextJob ∧ hasScheduledNextRunAtMs nextJob.state.nextRunAtMs = false then
    let next ← computeJobNextRunAtMs deps.engine nextJob now
    return { nextJob with state := { nextJob.state with nextRunAtMs := next } }
  return nextJob

/-- `jobs[findIndex(id)] = nextJob` -/
def replaceFirst (jobs : List (CronJob S)) (nextJob : CronJob S) : List (CronJob S) :=
  match jobs with
  | [] => []
  | job :: rest => if job.id = nextJob.id then nextJob :: rest else job :: replaceFirst rest nextJob

def persistUpdatedJob (deps : MutationDeps S I P) (s : CronServiceState S) (snapshot : CronView S)
    (nextJob : CronJob S) : Answer S (CronJob S) :=
  let replaced := { s with view := { s.view with jobs := replaceFirst s.view.jobs nextJob } }
  (persistOrRestore deps.write replaced snapshot (some nextJob.id) []).andThen nextJob
    (·.emit (.updated nextJob.id))

/-- The updated job, computed on a copy. -/
def planUpdate (deps : MutationDeps S I P) (jobs : List (CronJob S)) (id : String) (patch : P)
    (precondition : CronJob S → Int → Option String) : Except String (CronJob S) := do
  let some job := jobs.find? (·.id = id) | throw ("unknown cron job id: " ++ id)
  if let some message := precondition job deps.nowMs then throw message
  let nextJob ← deps.applyJobPatch job patch
  finalizeUpdatedJob deps job nextJob (deps.patchesScheduling patch) (deps.patchesSchedule patch)

def updateWithPrecondition (deps : MutationDeps S I P) (s : CronServiceState S) (id : String) (patch : P)
    (precondition : CronJob S → Int → Option String) : Answer S (CronJob S) :=
  let snapshot := s.view
  match planUpdate deps s.view.jobs id patch precondition with
  | .error message => { result := .error message, state := s }
  | .ok nextJob => persistUpdatedJob deps s snapshot nextJob

def update (deps : MutationDeps S I P) (s : CronServiceState S) (id : String) (patch : P) : Answer S (CronJob S) :=
  updateWithPrecondition deps s id patch fun _ _ => none

/-! ## Adding -/

/-- What `add` is going to do. -/
inductive AddPlan (S : Type) where
  | unchanged (existing : CronJob S)
  | converge (nextJob : CronJob S)
  | create (job : CronJob S)

def planAdd (deps : MutationDeps S I P) (jobs : List (CronJob S)) (input : I) :
    Except String (AddPlan S) := do
  let normalizedId := (deps.inputId input).map trim
  if normalizedId = some "" then throw "cron job id must not be blank"
  if let some message := normalizedId.bind deps.checkRunLogJobId then throw message
  let declarationKey := ((deps.inputDeclarationKey input).map trim).filter (· ≠ "")
  let matching := declarationKey.elim [] fun key =>
    jobs.filter fun job => job.declarationKey = some key && deps.matchesExisting job
  match matching with
  | existing :: [] =>
    let nextJob ← deps.applyDeclarativeJobSpec existing input
    if deps.declarativeFieldsEqual existing nextJob then return .unchanged existing
    let nextJob ← finalizeUpdatedJob deps existing nextJob true (existing.schedule ≠ nextJob.schedule)
    return .converge nextJob
  | _ :: _ => throw ("cron declarationKey is ambiguous within caller scope: " ++ declarationKey.getD "")
  | [] =>
    if jobs.any fun job => some job.id = normalizedId then
      throw ("cron job already exists: " ++ normalizedId.getD "")
    return .create (← deps.createJob normalizedId input)

def addJob (deps : MutationDeps S I P) (s : CronServiceState S) (job : CronJob S) : Answer S (CronJob S) :=
  let snapshot := s.view
  let pass := recomputeNextRunsForMaintenance deps.engine {} deps.maintenanceNowMs
    (s.view.jobs ++ [job]) s.view.pendingCatchupDeferralJobIds
  let pushed := { s with
    view := { s.view with jobs := pass.jobs, pendingCatchupDeferralJobIds := pass.deferralIds } }
  (persistOrRestore deps.write pushed snapshot (some job.id) pass.notices).andThen job
    (·.emit (.added job.id))

def add (deps : MutationDeps S I P) (s : CronServiceState S) (input : I) : Answer S (CronJob S) :=
  match planAdd deps s.view.jobs input with
  | .error message => { result := .error message, state := s }
  | .ok (.unchanged existing) => { result := .ok existing, state := s }
  | .ok (.converge nextJob) => persistUpdatedJob deps s s.view nextJob
  | .ok (.create job) => addJob deps s job

/-! ## Removing -/

/-- Whether a job was removed. -/
def remove (deps : MutationDeps S I P) (s : CronServiceState S) (id : String) : Answer S Bool :=
  let snapshot := s.view
  let left := s.view.jobs.filter (·.id ≠ id)
  let removed : Bool := left.length ≠ s.view.jobs.length
  let pass := recomputeNextRunsForMaintenance deps.engine {} deps.maintenanceNowMs left
    s.view.pendingCatchupDeferralJobIds
  let filtered := { s with
    view := { s.view with jobs := pass.jobs, pendingCatchupDeferralJobIds := pass.deferralIds } }
  (persistOrRestore deps.write filtered snapshot (some id) pass.notices).andThen removed
    fun done => if removed then done.emit (.removed id) else done

/-! ## The end of a run -/

/-- What a finished run makes of its job: `applyJobResult` with its trigger half, or, where no finished event is
emitted, `applyTriggerNoFireResult`.  Schedule errors are announced at once. -/
structure RunEnd (S : Type) where
  apply : CronJob S → CronJob S
  shouldDelete : CronJob S → Bool
  notices : CronJob S → List AutoDisableNotice
  finished : Bool

def RunEnd.deletes (runEnd : RunEnd S) (job : CronJob S) : Bool := runEnd.finished && runEnd.shouldDelete job

def RunEnd.announced (runEnd : RunEnd S) (job : CronJob S) : List CronNotice :=
  (runEnd.notices job).map .autoDisabled ++ if runEnd.finished then [.finished job.id] else []

/-- What a forced reload reads: the jobs in the durable store and their next runs there. -/
structure Reload (S : Type) where
  jobs : List (CronJob S)
  durableNextRunAtMsByJobId : Table String (Option Int)
  pendingQuarantine : Bool
  /-- Next runs announced by the write that sanitises the store. -/
  sent : List CronNotice

/-- `ensureLoaded(state, { forceReload, skipRecompute: true })`; `none` is no forced reload. -/
def CronServiceState.ensureLoaded (s : CronServiceState S) (reload : Option (Reload S)) : CronServiceState S :=
  match reload with
  | none => s
  | some reload =>
      { view := { s.view with
          jobs := reload.jobs
          durableNextRunAtMsByJobId := reload.durableNextRunAtMsByJobId }
        pendingQuarantine := reload.pendingQuarantine
        sent := s.sent ++ reload.sent }

/-- The maintenance pass after a run, and the write; nothing defers the announcements of the pass. -/
def maintainAndPersist (deps : MutationDeps S I P) (opts : MaintenanceOpts) (s : CronServiceState S)
    (rollbackSnapshot : CronView S) : Answer S Unit :=
  let pass := recomputeNextRunsForMaintenance deps.engine opts deps.maintenanceNowMs s.view.jobs
    s.view.pendingCatchupDeferralJobIds
  persistOrRestore deps.write
    { s with
      view := { s.view with jobs := pass.jobs, pendingCatchupDeferralJobIds := pass.deferralIds }
      sent := s.sent ++ pass.notices.map .autoDisabled }
    rollbackSnapshot none []

/-- `jobs.find(id)` with its fields assigned. -/
def modifyFirst (jobs : List (CronJob S)) (id : String) (change : CronJob S → CronJob S) : List (CronJob S) :=
  match jobs with
  | [] => []
  | job :: rest => if job.id = id then change job :: rest else job :: modifyFirst rest id change

def mergeManualRunSnapshotAfterReload (jobs : List (CronJob S)) (jobId : String) (removed : Bool)
    (ended : CronJob S) : List (CronJob S) :=
  if removed then jobs.filter (·.id ≠ jobId)
  else modifyFirst jobs jobId fun reloaded =>
    { reloaded with
      enabled := ended.enabled
      updatedAtMs := ended.updatedAtMs
      state := ended.state }

/-- The locked section of `finishPreparedManualRun`; the marker of the run is still current.  What is reloaded takes
the place of the job that the run was applied to. -/
def finishPreparedManualRun (deps : MutationDeps S I P) (runEnd : RunEnd S) (reload : Reload S)
    (s : CronServiceState S) (jobId : String) : Answer S Bool :=
  match s.view.jobs.find? (·.id = jobId) with
  | none => { result := .ok false, state := s }
  | some job =>
      let shouldDelete := runEnd.deletes job
      let reloaded := CronServiceState.ensureLoaded { s with sent := s.sent ++ runEnd.announced job } (some reload)
      let merged := mergeManualRunSnapshotAfterReload reloaded.view.jobs jobId shouldDelete (runEnd.apply job)
      (maintainAndPersist deps { recomputeExpired := true }
        { reloaded with view := { reloaded.view with jobs := merged } } reloaded.view).andThen true
        fun done => if shouldDelete then done.emit (.removed jobId) else done

/-! ## The end of scheduled runs -/

/-- A run that is over, with the job as it ran. -/
structure TimedCronRunOutcome (S : Type) where
  job : CronJob S
  ok : Bool
  runEnd : RunEnd S

/-- `isCronActiveJobMarkerCurrent` before and after the lock is taken. -/
structure RunMarkers (S : Type) where
  currentBefore : TimedCronRunOutcome S → Bool
  currentLocked : TimedCronRunOutcome S → Bool

def RunMarkers.filterCurrent (markers : RunMarkers S) (outcomes : List (TimedCronRunOutcome S)) :
    List (TimedCronRunOutcome S) :=
  (outcomes.filter markers.currentBefore).filter markers.currentLocked

/-- The state after, and the job if it is to be deleted. -/
def applyOutcomeToStoredJob (s : CronServiceState S) (result : TimedCronRunOutcome S) :
    CronServiceState S × Option (CronJob S) :=
  match s.view.jobs.find? (·.id = result.job.id) with
  | none =>
      -- a good run of a job that is gone is only announced
      if result.ok && result.runEnd.finished then
        ({ s with sent := s.sent ++ result.runEnd.announced result.job }, none)
      else (s, none)
  | some job =>
      let shouldDelete := result.runEnd.deletes job
      let jobs := if shouldDelete then s.view.jobs.filter (·.id ≠ job.id)
        else modifyFirst s.view.jobs job.id result.runEnd.apply
      let pending := s.view.pendingCatchupDeferralJobIds.filter (· ≠ job.id)
      ({ s with
          view := { s.view with jobs, pendingCatchupDeferralJobIds := pending }
          sent := s.sent ++ result.runEnd.announced job },
        if shouldDelete then some (result.runEnd.apply job) else none)

/-- The loop over the outcomes, with the jobs removed so far. -/
def applyOutcomes (outcomes : List (TimedCronRunOutcome S)) (done : CronServiceState S × List (CronJob S)) :
    CronServiceState S × List (CronJob S) :=
  match outcomes with
  | [] => done
  | result :: rest =>
      let applied := applyOutcomeToStoredJob done.1 result
      applyOutcomes rest (applied.1, done.2 ++ applied.2.toList)

def emitRemoved (removedJobs : List (CronJob S)) (s : CronServiceState S) : CronServiceState S :=
  removedJobs.foldl (fun s job => s.emit (.removed job.id)) s

/-- The runs of a timer tick. -/
def finalizeCompletedResults (deps : MutationDeps S I P) (markers : RunMarkers S) (reload : Reload S)
    (s : CronServiceState S) (completedResults : List (TimedCronRunOutcome S)) :
    Answer S (List (TimedCronRunOutcome S)) :=
  if (completedResults.filter markers.currentBefore).isEmpty then { result := .ok [], state := s }
  else
    let reloaded := s.ensureLoaded (some reload)
    let finalizedResults := markers.filterCurrent completedResults
    let applied := applyOutcomes finalizedResults (reloaded, [])
    if finalizedResults.isEmpty then { result := .ok [], state := applied.1 }
    else (maintainAndPersist deps {} applied.1 reloaded.view).andThen finalizedResults (emitRemoved applied.2)

/-! ## The end of the start-up catch-up -/

structure StartupCatchupPlan where
  /-- The jobs that were to run, and when they were reserved. -/
  candidates : List (String × Int)
  /-- The jobs that are put off, some by a delay of their own. -/
  deferredJobs : List (String × Option Int)

/-- The jobs without the reservations of those that did not start, and whether there were any. -/
def releaseUnstartedStartupCatchupReservations (plan : StartupCatchupPlan)
    (outcomes : List (TimedCronRunOutcome S)) (jobs : List (CronJob S)) : List (CronJob S) × Bool :=
  plan.candidates.foldl (fun released candidate =>
    if outcomes.any (·.job.id = candidate.1) then released
    else if (released.1.find? (·.id = candidate.1)).any (·.state.runningAtMs = some candidate.2) then
      (modifyFirst released.1 candidate.1 fun job => { job with state := { job.state with runningAtMs := none } }, true)
    else released) (jobs, false)

/-- One round of the loop over the deferred jobs, with the offset of the next one. -/
def deferStartupJob (baseNow staggerMs : Int) (left : CronView S × Int) (deferred : String × Option Int) :
    CronView S × Int :=
  let (view, offset) := left
  if (view.jobs.find? (·.id = deferred.1)).any (isJobEnabled ·) then
    let nextRunAtMs := match deferred.2 with
      | some delayMs => baseNow + delayMs + offset - staggerMs
      | none => baseNow + offset
    ({ view with
        jobs := modifyFirst view.jobs deferred.1 fun job =>
          { job with state := { job.state with nextRunAtMs := some nextRunAtMs } }
        pendingCatchupDeferralJobIds :=
          if deferred.1 ∈ view.pendingCatchupDeferralJobIds then view.pendingCatchupDeferralJobIds
          else view.pendingCatchupDeferralJobIds ++ [deferred.1] },
      offset + staggerMs)
  else left

/-- The store is read again if the service was `stopped` when the lock was taken. -/
def applyStartupCatchupOutcomes (deps : MutationDeps S I P) (markers : RunMarkers S)
    (reload : Option (Reload S)) (stopped : Bool) (plan : StartupCatchupPlan) (s : CronServiceState S)
    (outcomes : List (TimedCronRunOutcome S)) : Answer S (List (TimedCronRunOutcome S)) :=
  let staggerMs := max 0 (deps.missedJobStaggerMs.getD 5000)
  let opts : MaintenanceOpts := { repairFutureCronNextRunAtMs := false }
  let loaded := s.ensureLoaded reload
  let (jobs, releasedReservations) := releaseUnstartedStartupCatchupReservations plan outcomes loaded.view.jobs
  let released := { loaded with view := { loaded.view with jobs } }
  let finalizedOutcomes := if stopped then [] else markers.filterCurrent outcomes
  let applied := applyOutcomes finalizedOutcomes (released, [])
  if stopped || (finalizedOutcomes.isEmpty && plan.deferredJobs.isEmpty) then
    if releasedReservations then (maintainAndPersist deps opts applied.1 loaded.view).andThen [] id
    else { result := .ok [], state := applied.1 }
  else
    let deferred := plan.deferredJobs.foldl (deferStartupJob deps.nowMs staggerMs) (applied.1.view, staggerMs)
    (maintainAndPersist deps opts { applied.1 with view := deferred.1 } loaded.view).andThen finalizedOutcomes
      (emitRemoved applied.2)

/-! ## Failed calls -/

/-- The changes of the job list that callers ask for. -/
inductive CronCall (S I P : Type) where
  | add (input : I)
  | update (id : String) (patch : P)
  | updateWithPrecondition (id : String) (patch : P) (precondition : CronJob S → Int → Option String)
  | remove (id : String)

def Answer.done {α : Type} (answer : Answer S α) : Answer S Unit :=
  { result := answer.result.map fun _ => (), state := answer.state }

def CronCall.run (deps : MutationDeps S I P) (s : CronServiceState S) : CronCall S I P → Answer S Unit
  | .add input => (OpenClaw.Cron.add deps s input).done
  | .update id patch => (OpenClaw.Cron.update deps s id patch).done
  | .updateWithPrecondition id patch precondition =>
    (OpenClaw.Cron.updateWithPrecondition deps s id patch precondition).done
  | .remove id => (OpenClaw.Cron.remove deps s id).done

/-- If the call threw, this holds of the state it left. -/
def Answer.FailsAs {α : Type} (answer : Answer S α) (Q : CronServiceState S → Prop) : Prop :=
  ∀ message, answer.result = .error message → Q answer.state

/-- If the call threw, the service is back at `view` and has sent nothing beyond `sent`. -/
def Answer.BackAt {α : Type} (answer : Answer S α) (view : CronView S) (sent : List CronNotice) : Prop :=
  answer.FailsAs fun after => after.view = view ∧ after.sent = sent

variable {deps : MutationDeps S I P} {s : CronServiceState S} {snapshot : CronView S}

/-- Nothing is announced before the write. -/
theorem persist_not_done {write : DurableWrite} {suppressed : Option String}
    (h : (persist write s suppressed).result ≠ .ok true) : (persist write s suppressed).state.sent = s.sent := by
  unfold persist at h ⊢
  dsimp only at h ⊢
  split
  · rfl
  · rename_i hflushed
    rw [if_neg hflushed] at h
    cases hsave : write.saveError with
    | some message => rfl
    | none =>
      rw [hsave] at h
      exact absurd rfl h

theorem persistOrRestore_backAt (write : DurableWrite) (suppressed : Option String)
    (notices : List AutoDisableNotice) :
    (persistOrRestore write s snapshot suppressed notices).BackAt snapshot s.sent := by
  intro message h
  unfold persistOrRestore at h ⊢
  dsimp only at h ⊢
  cases hdone : (persist write s suppressed).result with
  | error failure =>
    exact ⟨rfl, persist_not_done (by simp [hdone])⟩
  | ok persisted =>
    cases persisted with
    | false => exact ⟨rfl, persist_not_done (by simp [hdone])⟩
    | true =>
      rw [hdone] at h
      cases h

variable {α β : Type} {answer : Answer S α} {Q : CronServiceState S → Prop}

theorem Answer.FailsAs.andThen (h : answer.FailsAs Q) (value : β)
    (last : CronServiceState S → CronServiceState S) : (answer.andThen value last).FailsAs Q := by
  intro message hresult
  unfold Answer.andThen at hresult ⊢
  cases hanswer : answer.result with
  | error failure => exact h failure hanswer
  | ok a =>
    rw [hanswer] at hresult
    cases hresult

theorem Answer.FailsAs.done (h : answer.FailsAs Q) : answer.done.FailsAs Q := by
  intro message hresult
  cases hanswer : answer.result with
  | error failure => exact h failure hanswer
  | ok a =>
    rw [Answer.done, hanswer] at hresult
    cases hresult

theorem persistUpdatedJob_backAt (nextJob : CronJob S) :
    (persistUpdatedJob deps s s.view nextJob).BackAt s.view s.sent :=
  Answer.FailsAs.andThen (persistOrRestore_backAt deps.write _ _) _ _

theorem updateWithPrecondition_backAt (id : String) (patch : P) (precondition : CronJob S → Int → Option String) :
    (updateWithPrecondition deps s id patch precondition).BackAt s.view s.sent := by
  unfold updateWithPrecondition
  dsimp only
  split
  · exact fun _ _ => ⟨rfl, rfl⟩
  · exact persistUpdatedJob_backAt _

theorem add_backAt (input : I) : (add deps s input).BackAt s.view s.sent := by
  unfold add
  split
  · exact fun _ _ => ⟨rfl, rfl⟩
  · exact fun _ _ => ⟨rfl, rfl⟩
  · exact persistUpdatedJob_backAt _
  · exact Answer.FailsAs.andThen (persistOrRestore_backAt deps.write _ _) _ _

theorem remove_backAt (id : String) : (remove deps s id).BackAt s.view s.sent :=
  Answer.FailsAs.andThen (persistOrRestore_backAt deps.write _ _) _ _

theorem call_backAt (call : CronCall S I P) : (call.run deps s).BackAt s.view s.sent := by
  cases call with
  | add input => exact Answer.FailsAs.done (add_backAt input)
  | update id patch => exact Answer.FailsAs.done (updateWithPrecondition_backAt id patch _)
  | updateWithPrecondition id patch precondition =>
    exact Answer.FailsAs.done (updateWithPrecondition_backAt id patch precondition)
  | remove id => exact Answer.FailsAs.done (remove_backAt id)

/-! ## Failed ends of runs -/

def CronNotice.isScheduled : CronNotice → Bool
  | .scheduled _ _ => true
  | _ => false

/-- The next runs announced so far. -/
def CronServiceState.scheduled (s : CronServiceState S) : List CronNotice := s.sent.filter CronNotice.isScheduled

/-- An end of runs. -/
inductive RunEnding (S : Type) where
  | manual (runEnd : RunEnd S) (reload : Reload S) (jobId : String)
  | tick (markers : RunMarkers S) (reload : Reload S) (completedResults : List (TimedCronRunOutcome S))
  | startup (markers : RunMarkers S) (reload : Option (Reload S)) (stopped : Bool) (plan : StartupCatchupPlan)
      (outcomes : List (TimedCronRunOutcome S))

/-- What it reads before it changes anything. -/
def RunEnding.reload : RunEnding S → Option (Reload S)
  | .manual _ reload _ | .tick _ reload _ => some reload
  | .startup _ reload _ _ _ => reload

def RunEnding.run (deps : MutationDeps S I P) (s : CronServiceState S) : RunEnding S → Answer S Unit
  | .manual runEnd reload jobId => (finishPreparedManualRun deps runEnd reload s jobId).done
  | .tick markers reload completedResults => (finalizeCompletedResults deps markers reload s completedResults).done
  | .startup markers reload stopped plan outcomes =>
      (applyStartupCatchupOutcomes deps markers reload stopped plan s outcomes).done

theorem no_scheduled_autoDisabled (notices : List AutoDisableNotice) :
    (notices.map CronNotice.autoDisabled).filter CronNotice.isScheduled = [] := by
  rw [List.filter_eq_nil_iff]
  intro notice hnotice
  obtain ⟨_, -, rfl⟩ := List.mem_map.mp hnotice
  exact Bool.false_ne_true

/-- The end of a run announces no next run. -/
theorem RunEnd.announced_scheduled (runEnd : RunEnd S) (job : CronJob S) :
    (runEnd.announced job).filter CronNotice.isScheduled = [] := by
  rw [RunEnd.announced, List.filter_append, no_scheduled_autoDisabled, List.nil_append]
  split
  · rfl
  · rfl

theorem applyOutcome_scheduled (s : CronServiceState S) (result : TimedCronRunOutcome S) :
    (applyOutcomeToStoredJob s result).1.scheduled = s.scheduled := by
  have hannounced : ∀ job, (s.sent ++ result.runEnd.announced job).filter CronNotice.isScheduled =
      s.sent.filter CronNotice.isScheduled := by
    intro job
    rw [List.filter_append, result.runEnd.announced_scheduled, List.append_nil]
  unfold applyOutcomeToStoredJob
  split
  · split
    · exact hannounced _
    · rfl
  · exact hannounced _

theorem applyOutcomes_scheduled (outcomes : List (TimedCronRunOutcome S))
    (done : CronServiceState S × List (CronJob S)) : (applyOutcomes outcomes done).1.scheduled = done.1.scheduled := by
  induction outcomes generalizing done with
  | nil => rfl
  | cons result rest ih => exact (ih _).trans (applyOutcome_scheduled done.1 result)

/-- A failed write after a run leaves the snapshot, and has announced no next run. -/
theorem maintainAndPersist_fails (opts : MaintenanceOpts) (s : CronServiceState S) (rollbackSnapshot : CronView S) :
    (maintainAndPersist deps opts s rollbackSnapshot).FailsAs fun after =>
      after.view = rollbackSnapshot ∧ after.scheduled = s.scheduled := by
  intro message h
  obtain ⟨hview, hsent⟩ := persistOrRestore_backAt deps.write _ _ message h
  refine ⟨hview, ?_⟩
  rw [CronServiceState.scheduled, maintainAndPersist, hsent, List.filter_append, no_scheduled_autoDisabled,
    List.append_nil]
  rfl

/-- The same of the write that ends runs, where these announced no next run. -/
theorem ending_write_fails {opts : MaintenanceOpts} (before ended : CronServiceState S)
    (h : ended.scheduled = before.scheduled) (value : β) (last : CronServiceState S → CronServiceState S) :
    ((maintainAndPersist deps opts ended before.view).andThen value last).FailsAs fun after =>
      after.view = before.view ∧ after.scheduled = before.scheduled := by
  refine Answer.FailsAs.andThen (fun message hfails => ?_) value last
  obtain ⟨hview, hscheduled⟩ := maintainAndPersist_fails opts ended before.view message hfails
  exact ⟨hview, hscheduled.trans h⟩

/-- **A failed end of runs** leaves what its reload read, or everything as it was where it reads nothing. -/
theorem ending_fails (ending : RunEnding S) : (ending.run deps s).FailsAs fun after =>
    after.view = (s.ensureLoaded ending.reload).view ∧ after.scheduled = (s.ensureLoaded ending.reload).scheduled := by
  cases ending with
  | manual runEnd reload jobId =>
    refine Answer.FailsAs.done ?_
    unfold finishPreparedManualRun
    dsimp only
    split
    · exact nofun
    · rename_i job _
      obtain ⟨announced, hannounced⟩ : ∃ announced, announced =
        CronServiceState.ensureLoaded { s with sent := s.sent ++ runEnd.announced job } (some reload) := ⟨_, rfl⟩
      have hscheduled : announced.scheduled = (s.ensureLoaded (some reload)).scheduled := by
        simp [hannounced, CronServiceState.ensureLoaded, CronServiceState.scheduled, runEnd.announced_scheduled]
      have hview : announced.view = (s.ensureLoaded (some reload)).view := by rw [hannounced]; rfl
      rw [← hannounced, RunEnding.reload, ← hview, ← hscheduled]
      refine ending_write_fails announced _ ?_ _ _
      rfl
  | tick markers reload completedResults =>
    refine Answer.FailsAs.done ?_
    unfold finalizeCompletedResults
    dsimp only
    split
    · exact nofun
    · split
      · exact nofun
      · exact ending_write_fails (s.ensureLoaded (some reload)) _ (applyOutcomes_scheduled _ _) _ _
  | startup markers reload stopped plan outcomes =>
    refine Answer.FailsAs.done ?_
    unfold applyStartupCatchupOutcomes
    dsimp only
    generalize (if stopped = true then [] else markers.filterCurrent outcomes) = finalizedOutcomes
    split
    · split
      · exact ending_write_fails (s.ensureLoaded reload) _ (applyOutcomes_scheduled finalizedOutcomes _) _ _
      · exact nofun
    · exact ending_write_fails (s.ensureLoaded reload) _ (applyOutcomes_scheduled finalizedOutcomes _) _ _

/-- **Failed mutations leave no trace.** A call that throws leaves the jobs, the durable next runs and
the deferrals as they were, and nothing was announced.  An end of runs that could not be written leaves the deferrals
as they were and the jobs and their next runs as its reload read them, or as they were where it reads nothing; beyond
what the reload announced, no next run was announced. -/
theorem failed_mutations_leave_no_trace (deps : MutationDeps S I P) (s : CronServiceState S) :
    (∀ (call : CronCall S I P) (message : String), (call.run deps s).result = .error message →
      (call.run deps s).state.view = s.view ∧ (call.run deps s).state.sent = s.sent) ∧
    ∀ (ending : RunEnding S) (message : String), (ending.run deps s).result = .error message →
      (ending.run deps s).state.view = (s.ensureLoaded ending.reload).view ∧
        (ending.run deps s).state.scheduled = (s.ensureLoaded ending.reload).scheduled := by
  constructor
  · intro call message h
    exact call_backAt call message h
  · intro ending message h
    exact ending_fails ending message h

/-- A store that cannot be written. -/
def brokenStore : MutationDeps Unit Unit Unit where
  engine := idleEngine
  nowMs := 0
  maintenanceNowMs := 0
  write := { quarantineFlushed := true, saveError := some "disk full" }
  inputId _ := none
  inputDeclarationKey _ := none
  checkRunLogJobId _ := none
  matchesExisting _ := true
  createJob _ _ := .ok (minuteJob 60000)
  applyDeclarativeJobSpec job _ := .ok job
  declarativeFieldsEqual _ _ := true
  applyJobPatch job _ := .ok job
  patchesSchedule _ := false
  patchesScheduling _ := false
  cronSchedulingInputsEqual _ _ := true

def oneJob : CronServiceState Unit where
  view := { jobs := [minuteJob 60000]
            durableNextRunAtMsByJobId := Table.empty
            pendingCatchupDeferralJobIds := [] }

/-- The store holds a later slot. -/
def laterSlot : Reload Unit where
  jobs := [minuteJob 120000]
  durableNextRunAtMsByJobId := Table.empty
  pendingQuarantine := false
  sent := []

/-- A run that changes nothing. -/
def quietRun : RunEnd Unit where
  apply job := job
  shouldDelete _ := false
  notices _ := []
  finished := true

/-- The run of the one job, over and current. -/
def endedRun : TimedCronRunOutcome Unit := ⟨minuteJob 60000, true, quietRun⟩

def currentMarkers : RunMarkers Unit := ⟨fun _ => true, fun _ => true⟩

/-- With a store that cannot be written: a removal, a tick, and a start-up that reads nothing and puts the job off. -/
theorem failed_mutations_leave_no_trace_remove :
    ((CronCall.remove "minute" : CronCall Unit Unit Unit).run brokenStore oneJob).state.view = oneJob.view ∧
      ((RunEnding.tick currentMarkers laterSlot [endedRun]).run brokenStore oneJob).state.view.jobs =
        [minuteJob 120000] ∧
      ((RunEnding.startup currentMarkers none false ⟨[], [("minute", none)]⟩ [endedRun]).run brokenStore
        oneJob).state.view = oneJob.view := by
  obtain ⟨hcalls, hruns⟩ := failed_mutations_leave_no_trace brokenStore oneJob
  refine ⟨?_, ?_, ?_⟩
  · exact (hcalls (.remove "minute") "disk full" rfl).1
  · rw [(hruns (.tick currentMarkers laterSlot [endedRun]) "disk full" rfl).1]
    rfl
  · exact (hruns (.startup currentMarkers none false ⟨[], [("minute", none)]⟩ [endedRun]) "disk full" rfl).1

/-- The end of a run reads the store again: if its write fails, that reading stays. -/
theorem failed_run_keeps_reload : ∃ message,
    (finishPreparedManualRun brokenStore quietRun laterSlot oneJob "minute").result = .error message ∧
      (finishPreparedManualRun brokenStore quietRun laterSlot oneJob "minute").state.view ≠ oneJob.view := by
  refine ⟨"disk full", rfl, fun h => ?_⟩
  have hjobs := congrArg CronView.jobs h
  exact absurd hjobs (by decide)

end OpenClaw.Cron
