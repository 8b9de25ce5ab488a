/-
# OpenClaw.Cron.Maintenance -- recomputing next runs without losing one

Between executions the service walks over its jobs: it normalises them, fills in missing next runs,
repairs slots that do not belong to the schedule any more and, when asked, advances slots that were
already executed.  This module follows the walk of `service/jobs.ts`.  A job is due while its slot has
arrived and was not executed; a maintenance pass leaves such a job's slot alone, so a run of passes does.
-/
import Mathlib.Data.List.Forall2
import OpenClaw.Cron.CronJob
import OpenClaw.Logic.Run

namespace OpenClaw.Cron

open OpenClaw.Logic

variable {S : Type}

def stuckRunMs : Int := 2 * 60 * 60 * 1000

def maxScheduleErrors : Nat := 3

/-- What `notify` hands to the system: an event text, and a heartbeat for its context. -/
structure AutoDisableNotice where
  text : String
  contextKey : String
  agentId : Option String
  sessionKey : Option String
  deriving DecidableEq

/-- What one step of a walk makes of a job. -/
structure JobStep (S : Type) where
  job : CronJob S
  changed : Bool := false
  notices : List AutoDisableNotice := []

/-! ## One job -/

def isPendingErrorBackoffSlot (engine : CronEngine) (job : CronJob S) (nextRunAtMs nowMs : Int) : Bool :=
  (resolveJobErrorBackoffUntilMs engine job).any fun backoffUntilMs =>
    nowMs < backoffUntilMs && nextRunAtMs ≤ backoffUntilMs

/-- A `catch` around a computation makes a throw a missing answer. -/
def caught {α : Type} : Except String (Option α) → Option α
  | .ok a => a
  | .error _ => none

/-- `shouldRepairFutureCronNextRunAtMs` for a slot that is a future one of an idle cron job. -/
def shouldRepairFutureSlot (engine : CronEngine) (job : CronJob S) (nextRun nowMs : Int) : Bool :=
  !isPendingErrorBackoffSlot engine job nextRun nowMs &&
    (caught (computeStaggeredCronNextRunAtMs engine job nowMs)).any fun naturalNext =>
      match isStaggeredCronRunAtMs engine job nextRun with
      | .error _ => false
      | .ok true => false
      | .ok false =>
        if nextRun < naturalNext then job.payloadKind ≠ .agentTurn
        else if nextRun = naturalNext then false
        else
          (caught (computeStaggeredCronNextRunAtMs engine job naturalNext)).any
            fun followingNaturalNext =>
              let naturalIntervalMs := followingNaturalNext - naturalNext
              0 < naturalIntervalMs && followingNaturalNext + naturalIntervalMs ≤ nextRun

def shouldRepairFutureCronNextRunAtMs (engine : CronEngine) (job : CronJob S) (nowMs : Int) : Bool :=
  match job.schedule, job.state.nextRunAtMs with
  | .cron _ _ _, some nextRun =>
    if hasScheduledNextRunAtMs (some nextRun) ∧ nowMs < nextRun ∧ job.state.runningAtMs = none then
      shouldRepairFutureSlot engine job nextRun nowMs
    else false
  | _, _ => false

def autoDisableNotice (job : CronJob S) (errorCount : Nat) (errText : String) : AutoDisableNotice :=
  { text := "⚠️ Cron job \"" ++ job.name ++ "\" has been auto-disabled after " ++
      String.ofList (Nat.toDigits 10 errorCount) ++ " consecutive schedule errors. Last error: " ++ errText
    contextKey := "cron:" ++ job.id ++ ":auto-disabled"
    agentId := job.agentId
    sessionKey := job.sessionKey }

def recordScheduleComputeError (job : CronJob S) (errText : String) : JobStep S :=
  let errorCount := job.state.scheduleErrorCount.getD 0 + 1
  let failed : CronJob S :=
    { job with
      state := { job.state with
        scheduleErrorCount := some errorCount
        nextRunAtMs := none
        lastError := some ("schedule error: " ++ errText) } }
  if maxScheduleErrors ≤ errorCount then
    { job := { failed with enabled := some false }
      changed := true
      notices := [autoDisableNotice job errorCount errText] }
  else { job := failed, changed := true }

/-- The next run of a job after an error is not before its backoff ends. -/
def raiseToBackoff (engine : CronEngine) (job : CronJob S) (next : Option Int) : Option Int :=
  match job.schedule with
  | .at _ => next
  | _ => next.map fun newNext => (resolveJobErrorBackoffUntilMs engine job).elim newNext (max newNext)

def CronJob.withNextRun (job : CronJob S) (nextRunAtMs : Option Int) (scheduleErrorCount : Option Nat) : CronJob S :=
  { job with state := { job.state with nextRunAtMs, scheduleErrorCount } }

def recomputeJobNextRunAtMs (engine : CronEngine) (job : CronJob S) (nowMs : Int) : JobStep S :=
  match computeJobNextRunAtMs engine job nowMs with
  | .error errText => recordScheduleComputeError job errText
  | .ok next =>
    let newNext := raiseToBackoff engine job next
    let hadErrors : Bool := job.state.scheduleErrorCount.getD 0 ≠ 0
    { job := job.withNextRun newNext (if hadErrors then none else job.state.scheduleErrorCount)
      changed := job.state.nextRunAtMs ≠ newNext || hadErrors }

/-- The anchor of an interval schedule is written into the job. -/
def normalizeAnchor (job : CronJob S) (nowMs : Int) : CronJob S :=
  match job.schedule with
  | .every everyMs anchorMs =>
    let anchor := resolveEveryAnchorMs anchorMs (job.createdAtMs.getD nowMs)
    { job with schedule := CronSchedule.every everyMs (some anchor) }
  | _ => job

structure JobTick (S : Type) where
  job : CronJob S
  changed : Bool
  skip : Bool

def normalizeJobTickState (job : CronJob S) (nowMs : Int) : JobTick S :=
  let anchored := normalizeAnchor job nowMs
  let anchorChanged : Bool := anchored.schedule ≠ job.schedule
  if isJobEnabled anchored then
    let clearNext := !hasScheduledNextRunAtMs anchored.state.nextRunAtMs
    let cleared : CronJob S :=
      if clearNext then { anchored with state := { anchored.state with nextRunAtMs := none } }
      else anchored
    let nextChanged : Bool := anchored.state.nextRunAtMs ≠ cleared.state.nextRunAtMs
    match cleared.state.runningAtMs.filter fun runningAt => stuckRunMs < nowMs - runningAt with
    | none => { job := cleared, changed := anchorChanged || nextChanged, skip := false }
    | some _ =>
      -- A stuck marker: the slot is looked at again in this pass only if it was already executed.
      let alreadyExecutedSlot := hasScheduledNextRunAtMs cleared.state.nextRunAtMs &&
        cleared.state.lastRunAtMs.any fun lastRun =>
          cleared.state.nextRunAtMs.any fun nextRun => nextRun ≤ lastRun
      { job := { cleared with state := { cleared.state with runningAtMs := none } }
        changed := true
        skip := !alreadyExecutedSlot }
  else
    { job := { anchored with state := { anchored.state with nextRunAtMs := none, runningAtMs := none } }
      changed := anchorChanged || anchored.state.nextRunAtMs.isSome || anchored.state.runningAtMs.isSome
      skip := true }

/-! ## The walk -/

structure MaintenanceOpts where
  recomputeExpired : Bool := false
  repairFutureCronNextRunAtMs : Bool := true

/-- Where the expired slot of an idle job goes: it stays, unless it was executed already or an error
backoff that began later still runs. -/
def expiredSlotIsDone (engine : CronEngine) (job : CronJob S) (nextRun nowMs : Int) : Bool :=
  (job.state.lastRunAtMs.any fun lastRun => nextRun ≤ lastRun) ||
    (resolveJobErrorBackoffUntilMs engine job).any fun backoffUntilMs =>
      nowMs < backoffUntilMs && nextRun < backoffUntilMs

/-- What the walk does to a normalised job that is not skipped. -/
def maintainJob (engine : CronEngine) (opts : MaintenanceOpts) (deferred : Bool) (job : CronJob S)
    (nowMs : Int) : JobStep S :=
  match job.state.nextRunAtMs.filter (0 < ·) with
  | none => recomputeJobNextRunAtMs engine job nowMs
  | some nextRun =>
    if opts.repairFutureCronNextRunAtMs ∧ ¬ deferred ∧
        shouldRepairFutureCronNextRunAtMs engine job nowMs then
      recomputeJobNextRunAtMs engine job nowMs
    else if opts.recomputeExpired ∧ nextRun ≤ nowMs ∧ job.state.runningAtMs = none ∧
        expiredSlotIsDone engine job nextRun nowMs then
      recomputeJobNextRunAtMs engine job nowMs
    else { job }

/-- The deferred slot of a job has arrived. -/
def deferralArrived (deferralIds : List String) (job : CronJob S) (nowMs : Int) : Bool :=
  job.id ∈ deferralIds && (job.state.nextRunAtMs.filter (0 < ·)).any (· ≤ nowMs)

/-- The markers after a job was looked at. -/
def deferralsAfter (deferralIds : List String) (job : CronJob S) (nowMs : Int) : List String :=
  if deferralArrived deferralIds job nowMs then deferralIds.filter (· ≠ job.id) else deferralIds

structure MaintenancePass (S : Type) where
  jobs : List (CronJob S)
  deferralIds : List String
  changed : Bool := false
  notices : List AutoDisableNotice := []

/-- What a pass makes of a job, with the markers that are left when its turn comes. -/
def visitJob (engine : CronEngine) (opts : MaintenanceOpts) (nowMs : Int) (deferralIds : List String)
    (job : CronJob S) : JobStep S :=
  let tick := normalizeJobTickState job nowMs
  if tick.skip then { job := tick.job, changed := tick.changed }
  else
    let left := deferralsAfter deferralIds tick.job nowMs
    let next := maintainJob engine opts (tick.job.id ∈ left) tick.job nowMs
    { next with changed := tick.changed || deferralArrived deferralIds tick.job nowMs || next.changed }

/-- One job of the walk; the pass so far is handed on. -/
def maintainNext (engine : CronEngine) (opts : MaintenanceOpts) (nowMs : Int) (pass : MaintenancePass S)
    (job : CronJob S) : MaintenancePass S :=
  let tick := normalizeJobTickState job nowMs
  let next := visitJob engine opts nowMs pass.deferralIds job
  { jobs := pass.jobs ++ [next.job]
    deferralIds := if tick.skip then pass.deferralIds else deferralsAfter pass.deferralIds tick.job nowMs
    changed := pass.changed || next.changed
    notices := pass.notices ++ next.notices }

/-- Markers of jobs that will not fire are dropped. -/
def relevantDeferrals (jobs : List (CronJob S)) (deferralIds : List String) : List String :=
  deferralIds.filter fun id => id ∈ (jobs.filter (isJobEnabled ·)).map (·.id)

def recomputeNextRunsForMaintenance (engine : CronEngine) (opts : MaintenanceOpts) (nowMs : Int)
    (jobs : List (CronJob S)) (deferralIds : List String) : MaintenancePass S :=
  jobs.foldl (maintainNext engine opts nowMs)
    { jobs := [], deferralIds := relevantDeferrals jobs deferralIds }

/-! ## Due slots -/

/-- The job waits to be executed for the slot `nextRun`. -/
structure DueAt (engine : CronEngine) (nowMs nextRun : Int) (job : CronJob S) : Prop where
  enabled : isJobEnabled job = true
  slot : job.state.nextRunAtMs = some nextRun
  arrived : nextRun ≤ nowMs
  idle : job.state.runningAtMs = none
  notExecuted : ∀ lastRun, job.state.lastRunAtMs = some lastRun → lastRun < nextRun
  noBackoff : ∀ backoffUntilMs, resolveJobErrorBackoffUntilMs engine job = some backoffUntilMs → backoffUntilMs ≤ nowMs

variable {engine : CronEngine} {nowMs laterMs nextRun : Int} {job : CronJob S}

/-- A later reading of the clock does not end the wait. -/
theorem DueAt.later (h : DueAt engine nowMs nextRun job) (hlater : nowMs ≤ laterMs) :
    DueAt engine laterMs nextRun job :=
  { h with
    arrived := h.arrived.trans hlater
    noBackoff := fun backoffUntilMs hb => (h.noBackoff backoffUntilMs hb).trans hlater }

theorem normalizeAnchor_state (job : CronJob S) (nowMs : Int) :
    (normalizeAnchor job nowMs).state = job.state ∧ (normalizeAnchor job nowMs).enabled = job.enabled := by
  unfold normalizeAnchor
  split
  · exact ⟨rfl, rfl⟩
  · exact ⟨rfl, rfl⟩

theorem DueAt.normalizeAnchor (h : DueAt engine nowMs nextRun job) (laterMs : Int) :
    DueAt engine nowMs nextRun (normalizeAnchor job laterMs) := by
  obtain ⟨hstate, henabled⟩ := normalizeAnchor_state job laterMs
  have hbackoff : resolveJobErrorBackoffUntilMs engine (OpenClaw.Cron.normalizeAnchor job laterMs) =
      resolveJobErrorBackoffUntilMs engine job := by
    unfold resolveJobErrorBackoffUntilMs resolveJobLastRunStatus
    rw [hstate]
  constructor
  · rw [isJobEnabled, henabled]
    exact h.enabled
  · rw [hstate]
    exact h.slot
  · exact h.arrived
  · rw [hstate]
    exact h.idle
  · rw [hstate]
    exact h.notExecuted
  · rw [hbackoff]
    exact h.noBackoff

/-- Normalising a waiting job only fixes the anchor of its schedule. -/
theorem DueAt.normalizeJobTickState (h : DueAt engine nowMs nextRun job) (hpos : 0 < nextRun) :
    (normalizeJobTickState job nowMs).job = OpenClaw.Cron.normalizeAnchor job nowMs ∧
      (normalizeJobTickState job nowMs).skip = false := by
  have hanchored := h.normalizeAnchor nowMs
  have hscheduled : hasScheduledNextRunAtMs (OpenClaw.Cron.normalizeAnchor job nowMs).state.nextRunAtMs = true := by
    rw [hanchored.slot]
    exact decide_eq_true hpos
  simp [OpenClaw.Cron.normalizeJobTickState, hanchored.enabled, hscheduled, hanchored.idle]

/-- The walk leaves the slot of a waiting job: it is no future slot, and it is not done. -/
theorem DueAt.maintainJob (h : DueAt engine nowMs nextRun job) (hpos : 0 < nextRun)
    (opts : MaintenanceOpts) (deferred : Bool) : (maintainJob engine opts deferred job nowMs).job = job := by
  have hslot : job.state.nextRunAtMs.filter (0 < ·) = some nextRun := by
    rw [h.slot]
    simp [hpos]
  have hrepair : shouldRepairFutureCronNextRunAtMs engine job nowMs = false := by
    have hpast : ¬ nowMs < nextRun := not_lt.mpr h.arrived
    unfold shouldRepairFutureCronNextRunAtMs
    rw [h.slot]
    split <;> simp_all
  have hdone : expiredSlotIsDone engine job nextRun nowMs = false := by
    rw [expiredSlotIsDone, Bool.or_eq_false_iff]
    constructor
    · cases hlast : job.state.lastRunAtMs with
      | none => rfl
      | some lastRun => simp [h.notExecuted lastRun hlast]
    · cases hbackoff : resolveJobErrorBackoffUntilMs engine job with
      | none => rfl
      | some backoffUntilMs => simp [h.noBackoff backoffUntilMs hbackoff]
  unfold OpenClaw.Cron.maintainJob
  rw [hslot]
  simp [hrepair, hdone]

theorem DueAt.visitJob (h : DueAt engine nowMs nextRun job) (hpos : 0 < nextRun)
    (opts : MaintenanceOpts) (deferralIds : List String) :
    (visitJob engine opts nowMs deferralIds job).job = OpenClaw.Cron.normalizeAnchor job nowMs := by
  obtain ⟨htick, hskip⟩ := h.normalizeJobTickState hpos
  unfold OpenClaw.Cron.visitJob
  dsimp only
  rw [hskip, htick]
  exact (h.normalizeAnchor nowMs).maintainJob hpos opts _

/-! ## Runs of passes -/

/-- A pass visits each job once, in order. -/
theorem foldl_maintainNext (engine : CronEngine) (opts : MaintenanceOpts) (nowMs : Int)
    (jobs : List (CronJob S)) (pass : MaintenancePass S) :
    ∃ visited, (jobs.foldl (maintainNext engine opts nowMs) pass).jobs = pass.jobs ++ visited ∧
      List.Forall₂ (fun job after => ∃ deferralIds,
        after = (visitJob engine opts nowMs deferralIds job).job) jobs visited := by
  induction jobs generalizing pass with
  | nil => exact ⟨[], by simp, .nil⟩
  | cons job rest ih =>
    obtain ⟨visited, hjobs, hvisited⟩ := ih (maintainNext engine opts nowMs pass job)
    refine ⟨(visitJob engine opts nowMs pass.deferralIds job).job :: visited, ?_, .cons ⟨_, rfl⟩ hvisited⟩
    rw [List.foldl_cons, hjobs]
    simp [maintainNext]

theorem recompute_visits (engine : CronEngine) (opts : MaintenanceOpts) (nowMs : Int)
    (jobs : List (CronJob S)) (deferralIds : List String) :
    List.Forall₂ (fun job after => ∃ left, after = (visitJob engine opts nowMs left job).job) jobs
      (recomputeNextRunsForMaintenance engine opts nowMs jobs deferralIds).jobs := by
  obtain ⟨visited, hjobs, hvisited⟩ := foldl_maintainNext engine opts nowMs jobs
    { jobs := [], deferralIds := relevantDeferrals jobs deferralIds }
  rw [List.nil_append] at hjobs
  rw [recomputeNextRunsForMaintenance, hjobs]
  exact hvisited

/-- The jobs and the markers of deferred catch-up runs. -/
structure CronJobs (S : Type) where
  jobs : List (CronJob S)
  deferralIds : List String

def maintain (engine : CronEngine) (s : CronJobs S) (pass : MaintenanceOpts × Int) : CronJobs S :=
  let done := recomputeNextRunsForMaintenance engine pass.1 pass.2 s.jobs s.deferralIds
  { jobs := done.jobs, deferralIds := done.deferralIds }

/-- The job at a position waits for the slot `nextRun`. -/
def DueIn (engine : CronEngine) (nowMs nextRun : Int) (position : Nat) (id : String) (s : CronJobs S) : Prop :=
  ∃ job, s.jobs[position]? = some job ∧ job.id = id ∧ DueAt engine nowMs nextRun job

theorem maintain_keeps_due {position : Nat} {id : String} {s : CronJobs S}
    {pass : MaintenanceOpts × Int} (hpos : 0 < nextRun) (hlater : nowMs ≤ pass.2)
    (h : DueIn engine nowMs nextRun position id s) :
    DueIn engine nowMs nextRun position id (maintain engine s pass) := by
  obtain ⟨job, hjob, rfl, hdue⟩ := h
  have hvisits := recompute_visits engine pass.1 pass.2 s.jobs s.deferralIds
  obtain ⟨hlength, hat⟩ := List.forall₂_iff_get.mp hvisits
  obtain ⟨hposition, hget⟩ := List.getElem?_eq_some_iff.mp hjob
  obtain ⟨left, hafter⟩ := hat position hposition (hlength ▸ hposition)
  have hstay := (hdue.later hlater).visitJob hpos pass.1 left
  refine ⟨OpenClaw.Cron.normalizeAnchor job pass.2, ?_, ?_, hdue.normalizeAnchor pass.2⟩
  · rw [maintain, List.getElem?_eq_getElem (hlength ▸ hposition), ← hstay, ← hget]
    exact congrArg some hafter
  · unfold OpenClaw.Cron.normalizeAnchor
    split
    · rfl
    · rfl

/-- **No due run is skipped** by maintenance: a job that is due keeps its slot through any passes that
read the clock later. -/
theorem maintenance_keeps_due (passes : List (MaintenanceOpts × Int)) {position : Nat} {id : String}
    {s : CronJobs S} (hdue : DueIn engine nowMs nextRun position id s) (hscheduled : 0 < nextRun)
    (hlater : ∀ pass ∈ passes, nowMs ≤ pass.2) :
    DueIn engine nowMs nextRun position id (run (maintain engine) s passes) := by
  induction passes generalizing s with
  | nil => exact hdue
  | cons pass rest ih =>
    have hfirst := maintain_keeps_due hscheduled (hlater pass List.mem_cons_self) hdue
    exact ih hfirst fun next hnext => hlater next (List.mem_cons_of_mem pass hnext)

/-- No expression has a run, and no absolute time is one. -/
def idleEngine : CronEngine where
  parseAbsoluteTimeMs _ := none
  nextRun _ _ _ := .ok none
  previousRun _ _ _ := .ok none
  isRecurringTopOfHourCronExpr _ := false
  digest _ := 0
  firstBackoffMs := 30000
  laterBackoffMs := []

/-- A job that runs every minute, with its next run at `slot`. -/
def minuteJob (slot : Int) : CronJob Unit where
  id := "minute"
  name := "minute"
  enabled := some true
  createdAtMs := some 0
  updatedAtMs := 0
  agentId := none
  sessionKey := none
  declarationKey := none
  schedule := .every 60000 (some 0)
  payloadKind := .systemEvent
  state := { nextRunAtMs := some slot }
  spec := ()

theorem minuteJob_due {slot nowMs : Int} (h : slot ≤ nowMs) : DueAt idleEngine nowMs slot (minuteJob slot) where
  enabled := rfl
  slot := rfl
  arrived := h
  idle := rfl
  notExecuted := fun _ hlast => by cases hlast
  noBackoff := fun _ hbackoff => by cases hbackoff

/-- A pass that advances executed slots leaves one that was missed. -/
theorem maintenance_keeps_due_minute :
    DueIn idleEngine 65000 60000 0 "minute" (run (maintain idleEngine)
      { jobs := [minuteJob 60000], deferralIds := [] } [({ recomputeExpired := true }, 70000)]) :=
  maintenance_keeps_due _ ⟨minuteJob 60000, rfl, rfl, minuteJob_due (by decide)⟩ (by decide) (by decide)

/-- A next run at the epoch counts as missing, and is computed again. -/
theorem epoch_slot_recomputed :
    DueIn idleEngine 0 0 0 "minute" { jobs := [minuteJob 0], deferralIds := [] } ∧
      ¬ DueIn idleEngine 0 0 0 "minute"
        (maintain idleEngine { jobs := [minuteJob 0], deferralIds := [] } ({}, 0)) := by
  constructor
  · exact ⟨minuteJob 0, rfl, rfl, minuteJob_due (by decide)⟩
  · rintro ⟨job, hjob, -, hdue⟩
    have hafter : (maintain idleEngine { jobs := [minuteJob 0], deferralIds := [] } ({}, 0)).jobs =
        [(minuteJob 60000).withNextRun (some 60000) none] := by decide
    rw [hafter] at hjob
    cases hjob
    have hslot := hdue.slot
    exact absurd hslot (by decide)

end OpenClaw.Cron
