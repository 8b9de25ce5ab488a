/-
# OpenClaw.Cron.Store.StorageCodec -- what a stored cron job keeps

A job that was read back once is read back unchanged ever after.  A job whose optional texts are not empty keeps
its schedule, trigger, payload, failure alert and delivery, up to what the columns cannot hold: a completion
destination beside a mode that is not `announce`, a failure destination no field of which is present, a trigger
without a script, and the marker of a default list of tools.
-/
import OpenClaw.Cron.Store.RowCodec

namespace OpenClaw.Cron.Store

open OpenClaw.Data

variable {ν : Type} [CronNumber ν]

/-! ## Reading back what was written -/

/-- An owner as it is read back. -/
def storedOwner (owner : Option CronOwner) : Option CronOwner :=
  ownerFromRow (owner.bind (·.agentId)) (owner.bind (·.sessionKey))

theorem storedOwner_storedOwner (owner : Option CronOwner) : storedOwner (storedOwner owner) = storedOwner owner := by
  unfold storedOwner ownerFromRow
  by_cases hany : (truthy (owner.bind (·.agentId))).isSome || (truthy (owner.bind (·.sessionKey))).isSome
  · simp [hany]
  · simp [hany]

/-- The job that the row stands for, once its schedule and payload are known. -/
def CronJob.storedWith (job : CronJob ν) (schedule : CronSchedule ν) (payload : CronPayload ν) : CronJob ν :=
  { job with
    declarationKey := truthy job.declarationKey
    displayName := truthy job.displayName
    owner := storedOwner job.owner
    description := truthy job.description
    agentId := truthy job.agentId
    sessionKey := truthy job.sessionKey
    schedule
    trigger := job.trigger.filter (·.script ≠ [])
    payload
    delivery := job.delivery.map CronDelivery.stored
    failureAlert := job.failureAlert.stored
    state := job.state.storedState }

theorem rowToCronJob_bind {job decoded : CronJob ν} : rowToCronJob (bindCronJobRow job) = some decoded ↔
      ∃ schedule payload, job.schedule.stored = some schedule ∧ job.payload.stored = some payload ∧
        decoded = job.storedWith schedule payload := by
  unfold rowToCronJob
  simp only [bindCronJobRow, scheduleFromRow_bind, payloadFromRow_bind, triggerFromRow_bind, deliveryFromRow_bind,
    failureAlertFromRow_bind, stateFromRow_bind, integerToBoolean_boolean, Option.getD_some]
  cases hschedule : job.schedule.stored with
  | none => simp
  | some schedule =>
    cases hpayload : job.payload.stored with
    | none => simp
    | some payload =>
      simp only [Option.some.injEq, exists_eq_left', exists_and_left]
      refine Eq.congr_left ?_ |>.trans eq_comm
      unfold CronJob.storedWith
      congr 1
      -- the flag went through an integer
      refine Bool.eq_iff_iff.mpr (Iff.trans decide_eq_true_iff ?_)
      split <;> simp_all

theorem CronJob.storedWith_storedWith (job : CronJob ν) (schedule : CronSchedule ν) (payload : CronPayload ν) :
    (job.storedWith schedule payload).storedWith schedule payload = job.storedWith schedule payload := by
  simp [storedWith, storedOwner_storedOwner, Option.filter_filter, Function.comp_def, CronDelivery.stored_stored,
    FailureAlertSetting.stored_stored, storedState_storedState]

/-- Reading back and writing again gives the same job. -/
theorem rowToCronJob_idempotent {job decoded : CronJob ν} (h : rowToCronJob (bindCronJobRow job) = some decoded) :
    rowToCronJob (bindCronJobRow decoded) = some decoded := by
  obtain ⟨schedule, payload, hschedule, hpayload, rfl⟩ := rowToCronJob_bind.mp h
  apply rowToCronJob_bind.mpr
  refine ⟨schedule, payload, ?_, ?_, (job.storedWith_storedWith schedule payload).symm⟩
  · exact CronSchedule.stored_stored hschedule
  · exact CronPayload.stored_stored hpayload

/-! ## What is kept -/

/-- The optional texts of an agent turn are not empty. -/
def CronPayload.Filled : CronPayload ν → Prop
  | .agentTurn payload => payload.model ≠ some [] ∧ payload.thinking ≠ some []
  | _ => True

/-- No optional text of the parts that the columns keep is empty. -/
structure CronJob.Filled (job : CronJob ν) : Prop where
  schedule : job.schedule.Filled
  payload : job.payload.Filled
  delivery : ∀ delivery, job.delivery = some delivery → delivery.Filled
  failureAlert : job.failureAlert.Filled

/-- An event keeps its text, an agent turn all but a marker that says nothing. -/
def CronPayload.kept : CronPayload ν → CronPayload ν
  | .agentTurn payload => .agentTurn payload.kept
  | payload => payload

def CronPayload.isCommand : CronPayload ν → Bool
  | .command _ => true
  | _ => false

theorem CronPayload.stored_kept {payload decoded : CronPayload ν} (hfilled : payload.Filled)
    (hcommand : payload.isCommand = false) (h : payload.stored = some decoded) : decoded = payload.kept := by
  cases payload with
  | systemEvent text =>
    cases h
    rfl
  | agentTurn payload =>
    obtain ⟨hmodel, hthinking⟩ := hfilled
    cases h
    simp [kept, CronAgentTurnPayload.stored, CronAgentTurnPayload.kept, truthy_of_ne hmodel, truthy_of_ne hthinking]
  | command payload => cases hcommand

theorem kept_parts {job decoded : CronJob ν} (hfilled : job.Filled)
    (h : rowToCronJob (bindCronJobRow job) = some decoded) : decoded.schedule = job.schedule ∧
    decoded.trigger = job.trigger.filter (·.script ≠ []) ∧
    (job.payload.isCommand = false → decoded.payload = job.payload.kept) ∧ decoded.failureAlert = job.failureAlert ∧
    decoded.delivery = job.delivery.map CronDelivery.kept := by
  obtain ⟨schedule, payload, hschedule, hpayload, rfl⟩ := rowToCronJob_bind.mp h
  refine ⟨CronSchedule.stored_same hfilled.schedule hschedule, rfl, fun hcommand => ?_, ?_, ?_⟩
  · exact CronPayload.stored_kept hfilled.payload hcommand hpayload
  · exact FailureAlertSetting.stored_same hfilled.failureAlert
  · apply Option.map_congr
    intro delivery hdelivery
    exact CronDelivery.stored_kept (hfilled.delivery delivery hdelivery)

theorem cron_storage_codec : (∀ job decoded : CronJob ν, rowToCronJob (bindCronJobRow job) = some decoded →
      rowToCronJob (bindCronJobRow decoded) = some decoded) ∧
    ∀ job decoded : CronJob ν, job.Filled → rowToCronJob (bindCronJobRow job) = some decoded →
      decoded.schedule = job.schedule ∧ decoded.trigger = job.trigger.filter (·.script ≠ []) ∧
      (job.payload.isCommand = false → decoded.payload = job.payload.kept) ∧ decoded.failureAlert = job.failureAlert ∧
      decoded.delivery = job.delivery.map CronDelivery.kept :=
  ⟨fun _ _ h => rowToCronJob_idempotent h, fun _ _ hfilled h => kept_parts hfilled h⟩

/-- A job that sends its result nowhere, and still names a webhook for its completion. -/
def silentJob : CronJob Nat where
  id := units "nightly"
  declarationKey := none
  displayName := none
  owner := none
  name := units "Nightly report"
  description := none
  enabled := true
  deleteAfterRun := none
  createdAtMs := 1700000000000
  updatedAtMs := 1700000000000
  agentId := none
  sessionKey := none
  schedule := .cron (units "0 3 * * *") (some (units "UTC")) none
  sessionTarget := units "isolated"
  wakeMode := units "now"
  trigger := none
  payload := .systemEvent (units "report")
  delivery := some
    { mode := .none
      channel := none
      to' := none
      threadId := none
      accountId := none
      bestEffort := none
      completionDestination := some ⟨some (units "https://example.org/done")⟩
      failureDestination := none }
  failureAlert := .disabled
  state := ⟨[], Json.distinct_object.mpr ⟨List.nodup_nil, by simp⟩⟩

theorem silentJob_filled : silentJob.Filled where
  schedule := by simp [silentJob, CronSchedule.Filled]
  payload := trivial
  delivery := by
    rintro delivery ⟨⟩
    exact
      { channel := by simp
        to' := by simp
        threadId := by simp
        accountId := by simp
        completionTo := by
          rintro completion ⟨⟩
          simp
        failure := by simp }
  failureAlert := trivial

theorem silentJob_stored :
    rowToCronJob (bindCronJobRow silentJob) = some (silentJob.storedWith silentJob.schedule silentJob.payload) := by
  apply rowToCronJob_bind.mpr
  exact ⟨_, _, by simp [silentJob, CronSchedule.stored, truthy, Option.filter], rfl, rfl⟩

theorem cron_storage_codec_silent :
    rowToCronJob (bindCronJobRow (silentJob.storedWith silentJob.schedule silentJob.payload)) =
      some (silentJob.storedWith silentJob.schedule silentJob.payload) ∧
    (silentJob.storedWith silentJob.schedule silentJob.payload).schedule = silentJob.schedule :=
  ⟨cron_storage_codec.1 _ _ silentJob_stored, (cron_storage_codec.2 _ _ silentJob_filled silentJob_stored).1⟩

theorem completionDestination_lost :
    ¬∀ job decoded : CronJob Nat, job.Filled → rowToCronJob (bindCronJobRow job) = some decoded →
      decoded.delivery = job.delivery := by
  intro h
  have hdelivery := h _ _ silentJob_filled silentJob_stored
  simp [CronJob.storedWith, silentJob, CronDelivery.stored] at hdelivery

end OpenClaw.Cron.Store
