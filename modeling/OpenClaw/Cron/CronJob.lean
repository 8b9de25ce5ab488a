/-
# OpenClaw.Cron.CronJob -- cron jobs and their schedules

A job is enabled or not, has a schedule, and carries the times of its next and last runs.  This module
follows `schedule.ts` and the scheduling half of `service/jobs.ts`.  The expressions themselves are
evaluated by a library outside the repository; its two answers, the next and the previous run of an
expression, are fields of `CronEngine`, beside the parser of absolute times, the hash that spreads jobs
over a window, and the retry table of the configuration.
-/
import Mathlib.Algebra.Order.Group.Unbundled.Int
import Mathlib.Data.Int.Order.Basic
import OpenClaw.Data.JsPrim

namespace OpenClaw.Cron

open OpenClaw.Data

/-! ## Jobs -/

inductive CronSchedule where
  | at (at' : String)
  | every (everyMs : Int) (anchorMs : Option Int)
  | cron (expr : String) (tz : Option String) (staggerMs : Option Int)
  | onExit (command : String) (cwd : Option String)
  deriving DecidableEq

inductive CronPayloadKind where
  | systemEvent
  | agentTurn
  | command
  deriving DecidableEq

inductive CronRunStatus where
  | ok
  | error
  | skipped
  deriving DecidableEq

structure CronJobState where
  nextRunAtMs : Option Int := none
  runningAtMs : Option Int := none
  lastRunAtMs : Option Int := none
  lastRunStatus : Option CronRunStatus := none
  lastStatus : Option CronRunStatus := none
  lastError : Option String := none
  lastDurationMs : Option Int := none
  consecutiveErrors : Option Int := none
  consecutiveSkipped : Option Int := none
  scheduleErrorCount : Option Nat := none
  deriving DecidableEq

/-- A job; `S` holds the fields that are only carried along here. -/
structure CronJob (S : Type) where
  id : String
  name : String
  enabled : Option Bool
  createdAtMs : Option Int
  updatedAtMs : Int
  agentId : Option String
  sessionKey : Option String
  declarationKey : Option String
  schedule : CronSchedule
  payloadKind : CronPayloadKind
  state : CronJobState
  spec : S
  deriving DecidableEq

/-- What the scheduler is told from outside.  The expressions may throw. -/
structure CronEngine where
  parseAbsoluteTimeMs : String → Option Int
  nextRun : String → Option String → Int → Except String (Option Int)
  previousRun : String → Option String → Int → Except String (Option Int)
  isRecurringTopOfHourCronExpr : String → Bool
  /-- The first four bytes of a hash of the job id. -/
  digest : String → Nat
  /-- `retry.backoffMs`; the configuration refuses an empty table. -/
  firstBackoffMs : Int
  laterBackoffMs : List Int

variable {S : Type}

/-- `isFiniteTimestamp(value) && value > 0`; a time here is a finite number or missing. -/
def hasScheduledNextRunAtMs : Option Int → Bool
  | some value => 0 < value
  | none => false

def isJobEnabled (job : CronJob S) : Bool := job.enabled.getD true

def resolveJobLastRunStatus (job : CronJob S) : Option CronRunStatus := job.state.lastRunStatus <|> job.state.lastStatus

/-! ## Backoff -/

def errorBackoffMs (engine : CronEngine) (consecutiveErrors : Int) : Int :=
  let scheduleMs := engine.firstBackoffMs :: engine.laterBackoffMs
  let idx := min (consecutiveErrors - 1) (scheduleMs.length - 1)
  scheduleMs.getD (max 0 idx).toNat engine.firstBackoffMs

def resolveJobErrorBackoffUntilMs (engine : CronEngine) (job : CronJob S) : Option Int :=
  if resolveJobLastRunStatus job = some .error then
    job.state.lastRunAtMs.map fun lastRunAtMs =>
      let consecutiveErrors := max 1 (job.state.consecutiveErrors.getD 1)
      let lastDurationMs := max 0 (job.state.lastDurationMs.getD 0)
      lastRunAtMs + lastDurationMs + errorBackoffMs engine consecutiveErrors
  else none

/-! ## Schedules -/

def defaultTopOfHourStaggerMs : Int := 5 * 60 * 1000

/-- `Math.floor` on the numbers of this model is the identity. -/
def normalizeCronStaggerMs (raw : Option Int) : Option Int := (raw.map (max 0)).filter isSafeInteger

def resolveCronStaggerMs (engine : CronEngine) (expr : String) (staggerMs : Option Int) : Int :=
  match normalizeCronStaggerMs staggerMs with
  | some explicit => explicit
  | none => if engine.isRecurringTopOfHourCronExpr expr then defaultTopOfHourStaggerMs else 0

def resolveStableCronOffsetMs (engine : CronEngine) (jobId : String) (staggerMs : Int) : Int :=
  if staggerMs ≤ 1 then 0 else engine.digest jobId % staggerMs

def nextSecondMs (nowMs : Int) : Int := nowMs / 1000 * 1000 + 1000

/-- `new Date(nowMs).setUTCHours(24, 0, 0, 0)` -/
def tomorrowMs (nowMs : Int) : Int := nowMs / 86400000 * 86400000 + 86400000

/-- The cron case of `computeNextRunAtMs`: a run that is not in the future is asked for again, from the
next second and then from the next day. -/
def computeNextCronRunAtMs (engine : CronEngine) (expr : String) (tz : Option String) (nowMs : Int) :
    Except String (Option Int) := do
  match ← engine.nextRun expr tz nowMs with
  | none => return none
  | some nextMs =>
    if nowMs < nextMs then return some nextMs
    match (← engine.nextRun expr tz (nextSecondMs nowMs)).filter (nowMs < ·) with
    | some retryMs => return some retryMs
    | none => return (← engine.nextRun expr tz (tomorrowMs nowMs)).filter (nowMs < ·)

def computeNextRunAtMs (engine : CronEngine) (schedule : CronSchedule) (nowMs : Int) : Except String (Option Int) :=
  match schedule with
  | .at at' => .ok ((engine.parseAbsoluteTimeMs at').filter (nowMs < ·))
  | .every everyMs anchorMs =>
    let everyMs := max 1 everyMs
    let anchor := max 0 (anchorMs.getD nowMs)
    if nowMs < anchor then .ok (some anchor)
    else .ok (some (anchor + ((nowMs - anchor) / everyMs + 1) * everyMs))
  | .onExit _ _ => .ok none
  | .cron expr tz _ => computeNextCronRunAtMs engine expr tz nowMs

def computePreviousRunAtMs (engine : CronEngine) (expr : String) (tz : Option String) (nowMs : Int) :
    Except String (Option Int) :=
  (engine.previousRun expr tz nowMs).map (·.filter (· < nowMs))

/-- The attempts of `computeStaggeredCronNextRunAtMs`. -/
def staggeredNextFrom (engine : CronEngine) (expr : String) (tz : Option String) (offsetMs nowMs : Int) :
    Nat → Int → Except String (Option Int)
  | 0, _ => .ok none
  | attempts + 1, cursorMs => do
    match ← computeNextCronRunAtMs engine expr tz cursorMs with
    | none => return none
    | some baseNext =>
      if nowMs < baseNext + offsetMs then return some (baseNext + offsetMs)
      staggeredNextFrom engine expr tz offsetMs nowMs attempts (max (cursorMs + 1) (baseNext + 1000))

def computeStaggeredCronNextRunAtMs (engine : CronEngine) (job : CronJob S) (nowMs : Int) :
    Except String (Option Int) :=
  match job.schedule with
  | .cron expr tz staggerMs =>
    let offsetMs := resolveStableCronOffsetMs engine job.id (resolveCronStaggerMs engine expr staggerMs)
    if offsetMs ≤ 0 then computeNextCronRunAtMs engine expr tz nowMs
    else staggeredNextFrom engine expr tz offsetMs nowMs 4 (max 0 (nowMs - offsetMs))
  | schedule => computeNextRunAtMs engine schedule nowMs

/-- The attempts of `computeStaggeredCronPreviousRunAtMs`. -/
def staggeredPreviousFrom (engine : CronEngine) (expr : String) (tz : Option String)
    (offsetMs nowMs : Int) : Nat → Int → Except String (Option Int)
  | 0, _ => .ok none
  | attempts + 1, cursorMs => do
    match ← computePreviousRunAtMs engine expr tz cursorMs with
    | none => return none
    | some basePrevious =>
      if basePrevious + offsetMs ≤ nowMs then return some (basePrevious + offsetMs)
      staggeredPreviousFrom engine expr tz offsetMs nowMs attempts (max 0 (basePrevious - 1000))

def computeStaggeredCronPreviousRunAtMs (engine : CronEngine) (job : CronJob S) (nowMs : Int) :
    Except String (Option Int) :=
  match job.schedule with
  | .cron expr tz staggerMs =>
    let offsetMs := resolveStableCronOffsetMs engine job.id (resolveCronStaggerMs engine expr staggerMs)
    if offsetMs ≤ 0 then computePreviousRunAtMs engine expr tz nowMs
    else staggeredPreviousFrom engine expr tz offsetMs nowMs 4 (max 0 (nowMs - offsetMs))
  | _ => .ok none

def isStaggeredCronRunAtMs (engine : CronEngine) (job : CronJob S) (runAtMs : Int) : Except String Bool :=
  match job.schedule with
  | .cron _ _ _ => (computeStaggeredCronPreviousRunAtMs engine job (runAtMs + 1000)).map (· = some runAtMs)
  | _ => .ok false

def resolveEveryAnchorMs (anchorMs : Option Int) (fallbackAnchorMs : Int) : Int :=
  max 0 (anchorMs.getD fallbackAnchorMs)

/-- When the job runs next; a one-shot job that finished runs again only at a later time. -/
def computeJobNextRunAtMs (engine : CronEngine) (job : CronJob S) (nowMs : Int) : Except String (Option Int) :=
  if isJobEnabled job then
    match job.schedule with
    | .every everyMs anchorMs =>
      match job.state.lastRunAtMs.filter fun lastRunAtMs => nowMs < lastRunAtMs + max 1 everyMs with
      | some lastRunAtMs => .ok (some (lastRunAtMs + max 1 everyMs))
      | none =>
        let anchor := resolveEveryAnchorMs anchorMs (job.createdAtMs.getD nowMs)
        computeNextRunAtMs engine (.every (max 1 everyMs) (some anchor)) nowMs
    | .at at' =>
      let atMs := engine.parseAbsoluteTimeMs at'
      match job.state.lastRunAtMs.filter fun lastRunAtMs =>
          resolveJobLastRunStatus job = some .ok ∧ lastRunAtMs ≠ 0 with
      | some lastRunAtMs => .ok (atMs.filter (lastRunAtMs < ·))
      | none => .ok atMs
    | .cron _ _ _ => do
      match ← computeStaggeredCronNextRunAtMs engine job nowMs with
      | some next => return some next
      | none => computeStaggeredCronNextRunAtMs engine job (nextSecondMs nowMs)
    | .onExit _ _ => computeStaggeredCronNextRunAtMs engine job nowMs
  else .ok none

end OpenClaw.Cron
