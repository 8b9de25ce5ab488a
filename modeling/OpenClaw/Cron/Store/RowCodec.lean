/-
# OpenClaw.Cron.Store.RowCodec -- a job written to its row and read back

`rowToCronJob (bindCronJobRow job)` is each part of the job as it is stored, which is none when the schedule has
lost its text or a command its arguments.  What is stored once is stored again unchanged, part by part and so as
a whole.  Columns that only other readers of the table use (the key of the store, the order, the
JSON of the configuration, the identity of the schedule) are left out.
-/
import OpenClaw.Cron.Store.Codecs

namespace OpenClaw.Cron.Store

open OpenClaw.Data

variable {ν : Type}

/-! ## Rows -/

structure CronJobRow (ν : Type) extends ScheduleColumns ν, TriggerColumns, PayloadColumns ν, DeliveryColumns,
    FailureAlertColumns ν, StateColumns ν where
  jobId : JsString
  declarationKey : Option JsString
  displayName : Option JsString
  ownerAgentId : Option JsString
  ownerSessionKey : Option JsString
  name : JsString
  description : Option JsString
  enabled : Int
  deleteAfterRun : Option Int
  createdAtMs : ν
  updatedAt : ν
  agentId : Option JsString
  sessionKey : Option JsString
  sessionTarget : JsString
  wakeMode : JsString
  runtimeUpdatedAtMs : Option ν

section Rows

variable [CronNumber ν]

def bindCronJobRow (job : CronJob ν) : CronJobRow ν where
  toScheduleColumns := bindScheduleColumns job.schedule
  toTriggerColumns := bindTriggerColumns job.trigger
  toPayloadColumns := bindPayloadColumns job.payload
  toDeliveryColumns := bindDeliveryColumns job.delivery
  toFailureAlertColumns := bindFailureAlertColumns job.failureAlert
  toStateColumns := bindStateColumns job.state
  jobId := job.id
  declarationKey := job.declarationKey
  displayName := job.displayName
  ownerAgentId := job.owner.bind (·.agentId)
  ownerSessionKey := job.owner.bind (·.sessionKey)
  name := job.name
  description := job.description
  enabled := if job.enabled then 1 else 0
  deleteAfterRun := booleanToInteger job.deleteAfterRun
  createdAtMs := job.createdAtMs
  updatedAt := job.updatedAtMs
  agentId := job.agentId
  sessionKey := job.sessionKey
  sessionTarget := job.sessionTarget
  wakeMode := job.wakeMode
  runtimeUpdatedAtMs := some job.updatedAtMs

/-- The owner of a row, when it has a part of one. -/
def ownerFromRow (ownerAgentId ownerSessionKey : Option JsString) : Option CronOwner :=
  if (truthy ownerAgentId).isSome || (truthy ownerSessionKey).isSome then
    some ⟨truthy ownerAgentId, truthy ownerSessionKey⟩
  else none

def rowToCronJob (row : CronJobRow ν) : Option (CronJob ν) :=
  match scheduleFromRow row.toScheduleColumns, payloadFromRow row.toPayloadColumns with
  | some schedule, some payload =>
    some
      { id := row.jobId
        declarationKey := truthy row.declarationKey
        displayName := truthy row.displayName
        owner := ownerFromRow row.ownerAgentId row.ownerSessionKey
        name := row.name
        description := truthy row.description
        enabled := row.enabled ≠ 0
        deleteAfterRun := integerToBoolean row.deleteAfterRun
        createdAtMs := row.createdAtMs
        updatedAtMs := row.runtimeUpdatedAtMs.getD row.updatedAt
        agentId := truthy row.agentId
        sessionKey := truthy row.sessionKey
        schedule
        sessionTarget := row.sessionTarget
        wakeMode := row.wakeMode
        trigger := triggerFromRow row.toTriggerColumns
        payload
        delivery := deliveryFromRow row.toDeliveryColumns
        failureAlert := failureAlertFromRow row.toFailureAlertColumns
        state := stateFromRow row.toStateColumns }
  | _, _ => none

end Rows

/-! ## Scalars -/

@[simp] theorem truthy_none : truthy none = none := rfl

@[simp] theorem truthy_truthy (text : Option JsString) : truthy (truthy text) = truthy text := by
  simp [truthy, Option.filter_filter]

theorem truthy_of_ne {text : Option JsString} (h : text ≠ some []) : truthy text = text := by
  cases text with
  | none => rfl
  | some value => simpa [truthy, Option.filter] using h

@[simp] theorem integerToBoolean_boolean (value : Option Bool) : integerToBoolean (booleanToInteger value) = value := by
  match value with
  | none => rfl
  | some false => rfl
  | some true => rfl

/-! ## Schedule -/

/-- A schedule as it is read back. -/
def CronSchedule.stored : CronSchedule ν → Option (CronSchedule ν)
  | .at instant => (truthy (some instant)).map .at
  | .every everyMs anchorMs => some (.every everyMs anchorMs)
  | .cron expr tz staggerMs => (truthy (some expr)).map (.cron · (truthy tz) staggerMs)
  | .onExit command cwd => (truthy (some command)).map (.onExit · (truthy cwd))

theorem scheduleFromRow_bind (schedule : CronSchedule ν) :
    scheduleFromRow (bindScheduleColumns schedule) = schedule.stored := by
  cases schedule <;> simp [scheduleFromRow, bindScheduleColumns, CronSchedule.stored]

theorem truthy_some_eq {text value : JsString} (h : truthy (some text) = some value) :
    text = value ∧ truthy (some value) = some value := by
  obtain rfl := Option.some.inj (Option.eq_some_of_filter_eq_some h)
  exact ⟨rfl, h⟩

theorem CronSchedule.stored_stored {schedule schedule' : CronSchedule ν} (h : schedule.stored = some schedule') :
    schedule'.stored = some schedule' := by
  cases schedule with
  | «at» instant =>
    obtain ⟨value, hvalue, rfl⟩ := Option.map_eq_some_iff.mp h
    simp [stored, (truthy_some_eq hvalue).2]
  | every everyMs anchorMs =>
    cases h
    rfl
  | cron expr tz staggerMs =>
    obtain ⟨value, hvalue, rfl⟩ := Option.map_eq_some_iff.mp h
    simp [stored, (truthy_some_eq hvalue).2]
  | onExit command cwd =>
    obtain ⟨value, hvalue, rfl⟩ := Option.map_eq_some_iff.mp h
    simp [stored, (truthy_some_eq hvalue).2]

/-- The optional texts of a schedule are not empty. -/
def CronSchedule.Filled : CronSchedule ν → Prop
  | .cron _ tz _ => tz ≠ some []
  | .onExit _ cwd => cwd ≠ some []
  | _ => True

theorem CronSchedule.stored_same {schedule schedule' : CronSchedule ν} (hfilled : schedule.Filled)
    (h : schedule.stored = some schedule') : schedule' = schedule := by
  cases schedule with
  | «at» instant =>
    obtain ⟨value, hvalue, rfl⟩ := Option.map_eq_some_iff.mp h
    rw [(truthy_some_eq hvalue).1]
  | every everyMs anchorMs =>
    cases h
    rfl
  | cron expr tz staggerMs =>
    obtain ⟨value, hvalue, rfl⟩ := Option.map_eq_some_iff.mp h
    rw [(truthy_some_eq hvalue).1, truthy_of_ne hfilled]
  | onExit command cwd =>
    obtain ⟨value, hvalue, rfl⟩ := Option.map_eq_some_iff.mp h
    rw [(truthy_some_eq hvalue).1, truthy_of_ne hfilled]

/-! ## Trigger -/

theorem triggerFromRow_bind (trigger : Option CronTrigger) :
    triggerFromRow (bindTriggerColumns trigger) = trigger.filter (·.script ≠ []) := by
  cases trigger with
  | none => rfl
  | some trigger =>
    by_cases hscript : trigger.script = []
    · simp [triggerFromRow, bindTriggerColumns, truthy, Option.filter, hscript]
    · simp [triggerFromRow, bindTriggerColumns, truthy, Option.filter, hscript]

/-! ## Failure alert -/

/-- A failure alert as it is read back. -/
def FailureAlertSetting.stored : FailureAlertSetting ν → FailureAlertSetting ν
  | .alert policy =>
    .alert { policy with
      channel := truthy policy.channel, to' := truthy policy.to', accountId := truthy policy.accountId }
  | setting => setting

@[simp] theorem truthy_mode (mode : Option FailureDestinationMode) :
    truthy (mode.map FailureDestinationMode.text) = mode.map FailureDestinationMode.text := by
  refine truthy_of_ne ?_
  match mode with
  | none => simp
  | some .announce => simp [FailureDestinationMode.text]
  | some .webhook => simp [FailureDestinationMode.text]

@[simp] theorem failureDestinationMode_text (mode : FailureDestinationMode) :
    failureDestinationMode mode.text = mode := by
  cases mode <;> simp [failureDestinationMode, FailureDestinationMode.text]

theorem failureAlertFromRow_bind (setting : FailureAlertSetting ν) :
    failureAlertFromRow (bindFailureAlertColumns setting) = setting.stored := by
  cases setting with
  | absent | disabled => rfl
  | alert policy =>
    simp [failureAlertFromRow, bindFailureAlertColumns, FailureAlertSetting.stored, Function.comp_def]

theorem FailureAlertSetting.stored_stored (setting : FailureAlertSetting ν) : setting.stored.stored = setting.stored := by
  cases setting <;> simp [stored]

def FailureAlertSetting.Filled : FailureAlertSetting ν → Prop
  | .alert policy => policy.channel ≠ some [] ∧ policy.to' ≠ some [] ∧ policy.accountId ≠ some []
  | _ => True

theorem FailureAlertSetting.stored_same {setting : FailureAlertSetting ν} (h : setting.Filled) :
    setting.stored = setting := by
  cases setting with
  | absent | disabled => rfl
  | alert policy =>
    obtain ⟨hchannel, hto, haccountId⟩ := h
    simp [stored, truthy_of_ne hchannel, truthy_of_ne hto, truthy_of_ne haccountId]

/-! ## Delivery -/

/-- The fields of a failure destination, the empty texts taken for undefined ones. -/
def storedField (field : OwnField JsString) : OwnField JsString := field.map truthy

def CronFailureDestination.storedFields (failure : CronFailureDestination) : CronFailureDestination :=
  { failure with
    channel := storedField failure.channel, to' := storedField failure.to', accountId := storedField failure.accountId }

/-- No field is present, not even with the value undefined. -/
def CronFailureDestination.IsEmpty (failure : CronFailureDestination) : Prop :=
  failure.channel = none ∧ failure.to' = none ∧ failure.accountId = none ∧ failure.mode = none

instance (failure : CronFailureDestination) : Decidable failure.IsEmpty := by
  unfold CronFailureDestination.IsEmpty
  exact inferInstance

def ThreadId.storedId : ThreadId ν → Option (ThreadId ν)
  | .text value => (truthy (some value)).map .text
  | .number value => some (.number value)

/-- A delivery as it is read back. -/
def CronDelivery.stored (delivery : CronDelivery ν) : CronDelivery ν :=
  { delivery with
    channel := truthy delivery.channel
    to' := truthy delivery.to'
    threadId := delivery.threadId.bind ThreadId.storedId
    accountId := truthy delivery.accountId
    completionDestination :=
      if delivery.mode = .announce then delivery.completionDestination.map fun completion => ⟨truthy completion.to'⟩
      else none
    failureDestination := (delivery.failureDestination.filter (¬·.IsEmpty)).map CronFailureDestination.storedFields }

@[simp] theorem cronDeliveryModeFromValue_text (mode : CronDeliveryMode) :
    cronDeliveryModeFromValue (some mode.text) = some mode := by
  cases mode <;> simp [cronDeliveryModeFromValue, CronDeliveryMode.text]

@[simp] theorem map_readFailureDestinationField (field : OwnField JsString) :
    (bindFailureDestinationField field).map readFailureDestinationField = storedField field := by
  match field with
  | none => rfl
  | some none => rfl
  | some (some value) => by_cases h : value = [] <;>
      simp [bindFailureDestinationField, readFailureDestinationField, storedField, truthy, Option.filter, h]

@[simp] theorem bindFailureDestinationField_isSome (field : OwnField JsString) :
    (bindFailureDestinationField field).isSome = field.isSome := by
  cases field <;> rfl

section Delivery

variable [CronNumber ν]

theorem number_text_ne (n : ν) : unitsOf (JsonNumber.text n) ≠ [] := by
  rw [Ne, unitsOf_eq_nil]
  exact JsonNumber.text_ne_nil n

theorem threadIdFromRow_bind (delivery : CronDelivery ν) :
    threadIdFromRow (bindDeliveryColumns (some delivery)) = delivery.threadId.bind ThreadId.storedId := by
  unfold threadIdFromRow
  cases hthread : delivery.threadId with
  | none => simp [bindDeliveryColumns, hthread]
  | some threadId =>
    cases threadId with
    | text value =>
      by_cases h : value = [] <;> simp [bindDeliveryColumns, hthread, ThreadId.column, ThreadId.columnType,
        ThreadId.storedId, truthy, Option.filter, h]
    | number n =>
      simp [bindDeliveryColumns, hthread, ThreadId.column, ThreadId.columnType, ThreadId.storedId, truthy,
        Option.filter, number_text_ne, CronNumber.number_text]

theorem failureMode_read (mode : OwnField FailureDestinationMode) :
    (bindFailureDestinationField (mode.map (·.map FailureDestinationMode.text))).map
      (fun value => (readFailureDestinationField value).map failureDestinationMode) = mode := by
  match mode with
  | none => rfl
  | some none => rfl
  | some (some .announce) =>
    simp [bindFailureDestinationField, readFailureDestinationField, FailureDestinationMode.text, failureDestinationMode]
  | some (some .webhook) =>
    simp [bindFailureDestinationField, readFailureDestinationField, FailureDestinationMode.text, failureDestinationMode]

theorem deliveryFromRow_bind (delivery : Option (CronDelivery ν)) :
    deliveryFromRow (bindDeliveryColumns delivery) = delivery.map CronDelivery.stored := by
  cases delivery with
  | none => rfl
  | some delivery =>
    have hthread := threadIdFromRow_bind delivery
    have hmode : cronDeliveryModeFromValue (bindDeliveryColumns (some delivery)).deliveryMode = some delivery.mode := by
      simp [bindDeliveryColumns]
    unfold deliveryFromRow
    simp only [hthread, hmode]
    simp only [Option.isNone_some, Bool.false_and, Bool.false_eq_true, if_false, Option.map_some, Option.some.injEq,
      Option.getD_some]
    unfold CronDelivery.stored
    congr 1
    · simp [bindDeliveryColumns]
    · -- the completion destination
      by_cases hannounce : delivery.mode = .announce
      · cases hcompletion : delivery.completionDestination <;> simp [bindDeliveryColumns, hannounce, hcompletion]
      · simp [hannounce]
    · -- the failure destination
      cases hfailure : delivery.failureDestination with
      | none => simp [bindDeliveryColumns, DeliveryColumns.hasFailureDestination, hfailure, bindFailureDestinationField]
      | some failure =>
        have hhas : (bindDeliveryColumns (some delivery)).hasFailureDestination = decide (¬failure.IsEmpty) := by
          simp only [DeliveryColumns.hasFailureDestination, bindDeliveryColumns, hfailure, Option.bind_some,
            bindFailureDestinationField_isSome, Option.isSome_map]
          rw [Bool.eq_iff_iff, decide_eq_true_iff]
          simp only [Bool.or_eq_true, Option.isSome_iff_ne_none, CronFailureDestination.IsEmpty]
          tauto
        rw [hhas]
        by_cases hempty : failure.IsEmpty
        · simp [hempty, Option.filter]
        · simp [hempty, Option.filter, bindDeliveryColumns, hfailure, CronFailureDestination.storedFields,
            failureMode_read, - Option.map_map]

end Delivery

theorem storedField_storedField (field : OwnField JsString) : storedField (storedField field) = storedField field := by
  cases field <;> simp [storedField]

theorem CronFailureDestination.isEmpty_storedFields (failure : CronFailureDestination) :
    failure.storedFields.IsEmpty ↔ failure.IsEmpty := by
  simp [IsEmpty, storedFields, storedField]

theorem CronFailureDestination.storedFields_storedFields (failure : CronFailureDestination) :
    failure.storedFields.storedFields = failure.storedFields := by
  simp [storedFields, storedField_storedField]

theorem ThreadId.storedId_storedId {threadId threadId' : ThreadId ν} (h : threadId.storedId = some threadId') :
    threadId'.storedId = some threadId' := by
  cases threadId with
  | text value =>
    obtain ⟨value', hvalue, rfl⟩ := Option.map_eq_some_iff.mp h
    simp [storedId, (truthy_some_eq hvalue).2]
  | number n =>
    cases h
    rfl

theorem CronDelivery.stored_stored (delivery : CronDelivery ν) : delivery.stored.stored = delivery.stored := by
  simp only [stored, truthy_truthy]
  congr 1
  · cases hthread : delivery.threadId.bind ThreadId.storedId with
    | none => rfl
    | some threadId =>
      obtain ⟨original, -, horiginal⟩ := Option.bind_eq_some_iff.mp hthread
      exact ThreadId.storedId_storedId horiginal
  · split
    · simp [Function.comp_def]
    · rfl
  · cases delivery.failureDestination with
    | none => rfl
    | some failure =>
      by_cases hempty : failure.IsEmpty
      · simp [Option.filter, hempty]
      · simp [Option.filter, hempty, failure.isEmpty_storedFields, failure.storedFields_storedFields]

/-- The optional texts of a delivery are not empty. -/
structure CronDelivery.Filled (delivery : CronDelivery ν) : Prop where
  channel : delivery.channel ≠ some []
  to' : delivery.to' ≠ some []
  threadId : delivery.threadId ≠ some (.text [])
  accountId : delivery.accountId ≠ some []
  completionTo : ∀ completion, delivery.completionDestination = some completion → completion.to' ≠ some []
  failure : ∀ failure, delivery.failureDestination = some failure → failure.channel ≠ some (some []) ∧
    failure.to' ≠ some (some []) ∧ failure.accountId ≠ some (some [])

/-- What a delivery keeps: a completion destination beside an announcement only, and a failure destination
only when one of its fields is present. -/
def CronDelivery.kept (delivery : CronDelivery ν) : CronDelivery ν :=
  { delivery with
    completionDestination := if delivery.mode = .announce then delivery.completionDestination else none
    failureDestination := delivery.failureDestination.filter (¬·.IsEmpty) }

theorem storedField_of_ne {field : OwnField JsString} (h : field ≠ some (some [])) : storedField field = field := by
  match field with
  | none => rfl
  | some none => rfl
  | some (some value) =>
    have hvalue : some value ≠ some [] := fun heq => h (congrArg some heq)
    simp [storedField, truthy_of_ne hvalue]

theorem CronDelivery.stored_kept {delivery : CronDelivery ν} (h : delivery.Filled) : delivery.stored = delivery.kept := by
  unfold stored kept
  congr 1
  · exact truthy_of_ne h.channel
  · exact truthy_of_ne h.to'
  · have hthread := h.threadId
    cases hcase : delivery.threadId with
    | none => rfl
    | some threadId =>
      cases threadId with
      | text value =>
        have hvalue : some value ≠ some [] := by
          rintro ⟨⟩
          exact hthread hcase
        simp [ThreadId.storedId, truthy_of_ne hvalue]
      | number n => rfl
  · exact truthy_of_ne h.accountId
  · split
    · cases hcompletion : delivery.completionDestination with
      | none => rfl
      | some completion => simp [truthy_of_ne (h.completionTo completion hcompletion)]
    · rfl
  · cases hfailure : delivery.failureDestination with
    | none => rfl
    | some failure =>
      obtain ⟨hchannel, hto, haccountId⟩ := h.failure failure hfailure
      have hsame : failure.storedFields = failure := by
        simp [CronFailureDestination.storedFields, storedField_of_ne hchannel, storedField_of_ne hto,
          storedField_of_ne haccountId]
      by_cases hempty : failure.IsEmpty
      · simp [Option.filter, hempty]
      · simp [Option.filter, hempty, hsame]

/-! ## Payload -/

theorem filterMap_stringItem (strings : List JsString) :
    (strings.map (Json.string (ν := ν))).filterMap stringItem = strings := by
  rw [List.filterMap_map]
  exact List.filterMap_some

/-- The marker of a default is kept as `true`, and only beside an allow-list. -/
def CronAgentTurnPayload.kept (payload : CronAgentTurnPayload ν) : CronAgentTurnPayload ν :=
  { payload with
    toolsAllowIsDefault :=
      if payload.toolsAllow.isSome && payload.toolsAllowIsDefault = some true then some true else none }

/-- An agent turn as it is read back. -/
def CronAgentTurnPayload.stored (payload : CronAgentTurnPayload ν) : CronAgentTurnPayload ν :=
  { payload.kept with model := truthy payload.model, thinking := truthy payload.thinking }

theorem CronAgentTurnPayload.stored_stored (payload : CronAgentTurnPayload ν) : payload.stored.stored = payload.stored := by
  simp only [stored, kept, truthy_truthy]
  congr 1
  split <;> simp_all

section Payload

variable [CronNumber ν]

theorem stringify_ne_nil (value : JsonValue ν) : value.stringify ≠ [] := by
  intro h
  have hread := JsonValue.parse_stringify value
  rw [h, JsonValue.parse_eq_some] at hread
  cases hread

theorem parseJsonArray_serialize (strings : Option (List JsString)) :
    parseJsonArray ν (serializeJson (strings.map (stringsJson ν))) = strings := by
  cases strings with
  | none => rfl
  | some strings =>
    simp only [parseJsonArray, serializeJson, Option.map_some, Option.filter, stringify_ne_nil, ne_eq,
      not_false_eq_true, decide_true, if_true, Option.bind_some, parseJsonValue, JsonValue.parse_stringify]
    simp only [stringsJson, arrayOfStrings, filterMap_stringItem]

theorem parseExternalContentSource_serialize (source : Option HookExternalContentSource) :
    parseExternalContentSource ν (serializeJson (source.map fun source => stringJson ν source.text)) = source := by
  cases source with
  | none => rfl
  | some source =>
    simp only [parseExternalContentSource, serializeJson, Option.map_some, Option.filter, stringify_ne_nil, ne_eq,
      not_false_eq_true, decide_true, if_true, Option.bind_some, parseJsonValue, JsonValue.parse_stringify]
    cases source <;> simp [stringJson, HookExternalContentSource.text]

theorem payloadFromRow_agentTurn (payload : CronAgentTurnPayload ν) :
    payloadFromRow (bindPayloadColumns (.agentTurn payload)) = some (.agentTurn payload.stored) := by
  simp only [payloadFromRow, bindPayloadColumns, units_inj, String.reduceEq, if_false, if_true, Option.map_some,
    parseJsonArray_serialize, parseExternalContentSource_serialize, integerToBoolean_boolean]
  by_cases htools : payload.toolsAllow.isSome = true
  · simp [CronAgentTurnPayload.stored, CronAgentTurnPayload.kept, htools]
  · simp [CronAgentTurnPayload.stored, CronAgentTurnPayload.kept, htools]

end Payload

/-! ## Command payloads -/

/-- The vector of a command that can be read back. -/
def IsArgv (argv : List JsString) : Prop := argv ≠ [] ∧ ∀ argument ∈ argv, argument ≠ []

instance (argv : List JsString) : Decidable (IsArgv argv) := by
  unfold IsArgv
  exact inferInstance

section Members

variable (payload : CronCommandPayload ν)

theorem find_optional {α : Type} (key key' : String) (value : Option α) (json : α → Json ν) :
    (value.map fun a => (units key', json a)).toList.find? (·.1 = units key) =
      if key' = key then value.map fun a => (units key', json a) else none := by
  cases value with
  | none => simp
  | some a => by_cases h : key' = key <;> simp [h]

theorem member_argv : objectMember "argv" payload.members = some (.array (payload.argv.map .string)) := by
  simp [objectMember, CronCommandPayload.members]

theorem member_cwd : objectMember "cwd" payload.members = payload.cwd.map .string := by
  simp only [objectMember, CronCommandPayload.members, List.find?_append, find_optional]
  cases payload.cwd <;> simp

theorem find_env : payload.members.find? (·.1 = units "env") = payload.env.map fun env =>
    (units "env", Json.object (env.entries.map fun (k, v) => (k, .string v))) := by
  simp only [CronCommandPayload.members, List.find?_append, find_optional]
  cases payload.env <;> simp

theorem member_input : objectMember "input" payload.members = payload.input.map .string := by
  simp only [objectMember, CronCommandPayload.members, List.find?_append, find_optional]
  cases payload.input <;> simp

theorem member_noOutputTimeoutSeconds :
    objectMember "noOutputTimeoutSeconds" payload.members = payload.noOutputTimeoutSeconds.map .number := by
  simp only [objectMember, CronCommandPayload.members, List.find?_append, find_optional]
  cases payload.noOutputTimeoutSeconds <;> simp

theorem member_outputMaxBytes : objectMember "outputMaxBytes" payload.members = payload.outputMaxBytes.map .number := by
  simp only [objectMember, CronCommandPayload.members, List.find?_append, find_optional]
  cases payload.outputMaxBytes <;> simp

end Members

theorem stringMembers_strings (entries : List (JsString × JsString)) :
    stringMembers (Json.object (entries.map fun (k, v) => (k, (Json.string v : Json ν)))) = entries := by
  simp only [stringMembers]
  rw [List.filterMap_map]
  exact List.filterMap_some

theorem parseArgv_strings (argv : List JsString) :
    parseArgv (some (Json.array (argv.map (Json.string (ν := ν))))) = if IsArgv argv then some argv else none := by
  have hmap : ∀ argv : List JsString,
      (argv.map (Json.string (ν := ν))).mapM (fun item => (stringItem item).filter (· ≠ [])) =
        if ∀ argument ∈ argv, argument ≠ [] then some argv else none := by
    intro argv
    induction argv with
    | nil => rfl
    | cons argument rest ih =>
      rw [List.map_cons, List.mapM_cons, ih]
      by_cases hargument : argument = []
      · simp [stringItem, Option.filter, hargument]
      · by_cases hrest : ∀ argument ∈ rest, argument ≠ []
        · have hall : ∀ other ∈ argument :: rest, other ≠ [] := by
            intro other hother
            rcases List.mem_cons.mp hother with rfl | hmem
            · exact hargument
            · exact hrest other hmem
          rw [if_pos hrest, if_pos hall]
          simp [stringItem, Option.filter, hargument]
        · have hall : ¬∀ other ∈ argument :: rest, other ≠ [] := fun hall =>
            hrest fun other hother => hall other (List.mem_cons_of_mem _ hother)
          rw [if_neg hrest, if_neg hall]
          simp [stringItem, Option.filter, hargument]
  rw [parseArgv, hmap]
  by_cases hall : ∀ argument ∈ argv, argument ≠ []
  · rw [if_pos hall]
    by_cases hempty : argv = []
    · rw [if_neg fun hargv => hargv.1 hempty]
      simp [Option.filter, hempty]
    · rw [if_pos ⟨hempty, hall⟩]
      simp [Option.filter, hempty]
  · rw [if_neg hall, if_neg fun hargv => hall hargv.2]
    rfl

theorem stringRecord_ext {left right : StringRecord} (h : left.entries = right.entries) : left = right := by
  cases left
  cases right
  cases h
  rfl

theorem parseEnv_eq {record : JsonValue ν} {members : List (JsString × Json ν)} (h : record.json = .object members)
    {env : Option StringRecord} (hfind : members.find? (·.1 = units "env") = env.map fun env =>
      (units "env", Json.object (env.entries.map fun (k, v) => (k, .string v)))) :
    parseEnv record members h = env.filter (·.entries ≠ []) := by
  unfold parseEnv
  split
  · rename_i key value hsome
    rw [hfind] at hsome
    obtain ⟨record, rfl, hpair⟩ := Option.map_eq_some_iff.mp hsome
    obtain ⟨-, rfl⟩ := Prod.mk.inj hpair
    dsimp only
    by_cases hempty : record.entries = []
    · rw [if_pos ((stringMembers_strings _).trans hempty)]
      simp [Option.filter, hempty]
    · rw [if_neg fun h => hempty ((stringMembers_strings _).symm.trans h)]
      simp only [Option.filter, ne_eq, hempty, not_false_eq_true, decide_true, if_true, Option.some.injEq]
      exact stringRecord_ext (stringMembers_strings _)
  · rename_i hnone
    rw [hfind] at hnone
    rw [Option.map_eq_none_iff.mp hnone]
    rfl

theorem bind_stringItem (value : Option JsString) : (value.map (Json.string (ν := ν))).bind stringItem = value := by
  cases value <;> rfl

theorem bind_numberOf (value : Option ν) : (value.map Json.number).bind numberOf = value := by
  cases value <;> rfl

section Commands

variable [CronNumber ν]

/-- A command as it is read back. -/
def CronCommandPayload.stored (payload : CronCommandPayload ν) : Option (CronCommandPayload ν) :=
  if IsArgv payload.argv then
    some { payload with
      cwd := payload.cwd.filter fun cwd => !isBlank cwd
      env := payload.env.filter (·.entries ≠ [])
      outputMaxBytes := payload.outputMaxBytes.filter CronNumber.positive }
  else none

theorem parseCommandPayloadMessage_stringify (payload : CronCommandPayload ν) :
    parseCommandPayloadMessage
      (some (unitsOf (JsonValue.stringify ⟨.object payload.members, payload.members_distinct⟩))) =
      payload.stored.map fun command => { command with timeoutSeconds := none } := by
  have hread : (truthy (some (unitsOf (JsonValue.stringify ⟨.object payload.members, payload.members_distinct⟩)))).bind
      (fun raw => (textOf raw).bind (parseJsonValue : Text → Option (JsonValue ν))) =
      some ⟨.object payload.members, payload.members_distinct⟩ := by
    rw [truthy_of_ne (by simp [unitsOf_eq_nil, stringify_ne_nil])]
    simp [parseJsonValue]
  unfold parseCommandPayloadMessage
  rw [hread]
  simp only [member_argv, member_cwd, member_input, member_noOutputTimeoutSeconds, member_outputMaxBytes,
    bind_stringItem, bind_numberOf, parseEnv_eq _ (find_env payload), parseArgv_strings]
  unfold CronCommandPayload.stored
  by_cases hargv : IsArgv payload.argv <;> simp [hargv]

theorem CronCommandPayload.stored_stored {payload payload' : CronCommandPayload ν}
    (h : payload.stored = some payload') : payload'.stored = some payload' := by
  unfold stored at h
  split at h
  · rename_i hargv
    cases h
    simp [stored, hargv, Option.filter_filter]
  · cases h

/-- A payload as it is read back. -/
def CronPayload.stored : CronPayload ν → Option (CronPayload ν)
  | .systemEvent text => some (.systemEvent text)
  | .agentTurn payload => some (.agentTurn payload.stored)
  | .command payload => payload.stored.map .command

theorem payloadFromRow_bind (payload : CronPayload ν) :
    payloadFromRow (bindPayloadColumns payload) = payload.stored := by
  cases payload with
  | systemEvent text => simp [payloadFromRow, bindPayloadColumns, CronPayload.stored]
  | agentTurn payload => exact payloadFromRow_agentTurn payload
  | command payload =>
    simp only [payloadFromRow, bindPayloadColumns, units_inj, String.reduceEq, if_false, if_true,
      parseCommandPayloadMessage_stringify, CronPayload.stored, CronCommandPayload.stored]
    by_cases hargv : IsArgv payload.argv <;> simp [hargv]

theorem CronPayload.stored_stored {payload payload' : CronPayload ν} (h : payload.stored = some payload') :
    payload'.stored = some payload' := by
  cases payload with
  | systemEvent text =>
    cases h
    rfl
  | agentTurn payload =>
    cases h
    exact congrArg (some ∘ CronPayload.agentTurn) payload.stored_stored
  | command payload =>
    obtain ⟨command, hcommand, rfl⟩ := Option.map_eq_some_iff.mp h
    simp [stored, CronCommandPayload.stored_stored hcommand]

end Commands

/-! ## State -/

theorem jsonObject_ext {left right : JsonObject ν} (h : left.members = right.members) : left = right := by
  cases left
  cases right
  cases h
  rfl

/-- Assigning a member the value that it has changes nothing. -/
theorem setMember_same {members : List (JsString × Json ν)} (hnodup : (members.map Prod.fst).Nodup) {key : String}
    {value : Json ν} (h : objectMember key members = some value) :
    Json.setMember members (units key, value) = members := by
  obtain ⟨member, hfind, rfl⟩ := Option.map_eq_some_iff.mp h
  have hmem := List.mem_of_find?_eq_some hfind
  have hkey : member.1 = units key := by simpa using List.find?_some hfind
  unfold Json.setMember
  rw [if_pos (List.any_eq_true.mpr ⟨member, hmem, by simpa using hkey⟩)]
  refine (List.map_congr_left fun other hother => ?_).trans (List.map_id members)
  split
  · rename_i heq
    have hsame := List.inj_on_of_nodup_map hnodup hother hmem (heq.trans hkey.symm)
    rw [hsame, ← hkey]
    rfl
  · rfl

theorem objectMember_setMember (key key' : String) (members : List (JsString × Json ν)) (value : Json ν) :
    objectMember key (Json.setMember members (units key', value)) =
      if key' = key then some value else objectMember key members := by
  unfold objectMember Json.setMember
  by_cases hhas : (members.any (·.1 = units key')) = true
  · rw [if_pos hhas, List.find?_map]
    have hpredicate : ((fun member : JsString × Json ν => decide (member.1 = units key)) ∘ fun other =>
        if other.1 = units key' then (units key', value) else other) = fun other => decide (other.1 = units key) := by
      funext other
      by_cases hother : other.1 = units key' <;> simp [hother]
    rw [hpredicate]
    by_cases hkey : key' = key
    · subst hkey
      cases hfind : members.find? (·.1 = units key') with
      | none =>
        obtain ⟨member, hmember, heq⟩ := List.any_eq_true.mp hhas
        exact absurd heq (List.find?_eq_none.mp hfind member hmember)
      | some member =>
        have hmember : member.1 = units key' := by simpa using List.find?_some hfind
        simp [hmember]
    · cases hfind : members.find? (·.1 = units key) with
      | none => simp [hkey]
      | some member =>
        have hmember : member.1 = units key := by simpa using List.find?_some hfind
        have hne : ¬key = key' := fun h => hkey h.symm
        simp [hmember, hne, hkey]
  · rw [if_neg hhas, List.find?_append]
    by_cases hkey : key' = key
    · subst hkey
      have hnone : members.find? (·.1 = units key') = none :=
        List.find?_eq_none.mpr fun member hmember heq => hhas (List.any_eq_true.mpr ⟨member, hmember, heq⟩)
      simp [hnone]
    · cases members.find? (·.1 = units key) <;> simp [hkey]

theorem objectMember_spread (key key' : String) (object : JsonObject ν) (column : Option (ColumnValue ν)) :
    objectMember key (object.spread (key', column)).members =
      if key' = key ∧ column.isSome then column.map ColumnValue.json else objectMember key object.members := by
  cases column with
  | none => simp [JsonObject.spread]
  | some value => simp [JsonObject.spread, objectMember_setMember]

/-- Columns that say what the object says change nothing. -/
theorem foldl_spread_same (columns : List (String × Option (ColumnValue ν))) (object : JsonObject ν)
    (h : ∀ key value, (key, some value) ∈ columns → objectMember key object.members = some value.json) :
    columns.foldl JsonObject.spread object = object := by
  induction columns with
  | nil => rfl
  | cons column rest ih =>
    have hstep : object.spread column = object := by
      obtain ⟨key, column⟩ := column
      cases column with
      | none => rfl
      | some value =>
        have hnodup := (Json.distinct_object.mp object.distinct).1
        exact jsonObject_ext (setMember_same hnodup (h key value List.mem_cons_self))
    rw [List.foldl_cons, hstep]
    exact ih fun key value hmem => h key value (List.mem_cons_of_mem _ hmem)

theorem objectMember_of_number {state : JsonObject ν} {key : String} {value : ColumnValue ν}
    (h : (state.numberField key).map ColumnValue.number = some value) :
    objectMember key state.members = some value.json := by
  obtain ⟨n, hfield, rfl⟩ := Option.map_eq_some_iff.mp h
  obtain ⟨json, hmember, hnumber⟩ := Option.bind_eq_some_iff.mp hfield
  cases json <;> cases hnumber
  exact hmember

theorem objectMember_of_text {state : JsonObject ν} {key : String} {value : JsString}
    (h : state.textField key = some value) : objectMember key state.members = some (.string value) := by
  obtain ⟨json, hmember, hstring⟩ := Option.bind_eq_some_iff.mp h
  cases json <;> cases hstring
  exact hmember

theorem objectMember_of_truthy {state : JsonObject ν} {key : String} {value : ColumnValue ν}
    (h : (truthy (state.textField key)).map ColumnValue.text = some value) :
    objectMember key state.members = some value.json := by
  obtain ⟨text, htext, rfl⟩ := Option.map_eq_some_iff.mp h
  exact objectMember_of_text (Option.eq_some_of_filter_eq_some htext)

theorem objectMember_of_boolean {state : JsonObject ν} {key : String} {value : ColumnValue ν}
    (h : (integerToBoolean (booleanToInteger (state.booleanField key))).map ColumnValue.boolean = some value) :
    objectMember key state.members = some value.json := by
  rw [integerToBoolean_boolean] at h
  obtain ⟨b, hfield, rfl⟩ := Option.map_eq_some_iff.mp h
  obtain ⟨json, hmember, hboolean⟩ := Option.bind_eq_some_iff.mp hfield
  cases json <;> cases hboolean
  exact hmember

section State

variable [CronNumber ν]

/-- A state as it is read back. -/
def JsonObject.storedState (state : CronJobState ν) : CronJobState ν :=
  (bindStateColumns state).fields.foldl JsonObject.spread state

theorem stateFromRow_bind (state : CronJobState ν) : stateFromRow (bindStateColumns state) = state.storedState := by
  have hread : (parseJsonObject state.toJson.stringify : JsonObject ν) = state := by
    simp only [parseJsonObject, parseJsonValue, JsonValue.parse_stringify]
    rfl
  unfold stateFromRow JsonObject.storedState
  rw [show (bindStateColumns state).stateJson = state.toJson.stringify from rfl, hread]

/-- The last status is among the members of the state, when it is not taken from the older field. -/
theorem storedState_same {state : CronJobState ν}
    (hstatus : ∀ text, truthy (state.textField "lastRunStatus" <|> state.textField "lastStatus") = some text →
      state.textField "lastRunStatus" = some text) : state.storedState = state := by
  refine foldl_spread_same _ _ fun key value hmem => ?_
  simp only [StateColumns.fields, bindStateColumns, List.mem_cons, List.not_mem_nil, or_false, Prod.mk.injEq] at hmem
  rcases hmem with ⟨rfl, h⟩ | ⟨rfl, h⟩ | ⟨rfl, h⟩ | ⟨rfl, h⟩ | ⟨rfl, h⟩ | ⟨rfl, h⟩ | ⟨rfl, h⟩ | ⟨rfl, h⟩ | ⟨rfl, h⟩ |
    ⟨rfl, h⟩ | ⟨rfl, h⟩ | ⟨rfl, h⟩ | ⟨rfl, h⟩
  case inr.inr.inr.inl =>
    obtain ⟨text, htext, rfl⟩ := Option.map_eq_some_iff.mp h.symm
    exact objectMember_of_text (hstatus text htext)
  all_goals first
    | exact objectMember_of_number h.symm
    | exact objectMember_of_truthy h.symm
    | exact objectMember_of_boolean h.symm

theorem storedState_storedState (state : CronJobState ν) : state.storedState.storedState = state.storedState := by
  have holder : state.storedState.textField "lastStatus" = state.textField "lastStatus" := by
    simp only [JsonObject.textField, JsonObject.storedState, StateColumns.fields, List.foldl_cons, List.foldl_nil,
      objectMember_spread, String.reduceEq, false_and, if_false]
  have hnewer : objectMember "lastRunStatus" state.storedState.members =
      if (truthy (state.textField "lastRunStatus" <|> state.textField "lastStatus")).isSome then
        (truthy (state.textField "lastRunStatus" <|> state.textField "lastStatus")).map .string
      else objectMember "lastRunStatus" state.members := by
    simp only [JsonObject.storedState, StateColumns.fields, List.foldl_cons, List.foldl_nil,
      objectMember_spread, String.reduceEq, false_and, if_false, true_and, bindStateColumns, Option.isSome_map,
      Option.map_map, Function.comp_def, ColumnValue.json]
  refine storedState_same fun text htext => ?_
  cases hfirst : truthy (state.textField "lastRunStatus" <|> state.textField "lastStatus") with
  | some status =>
    rw [hfirst] at hnewer
    have hfield : state.storedState.textField "lastRunStatus" = some status := by
      rw [JsonObject.textField, hnewer]
      rfl
    rw [hfield] at htext ⊢
    exact Option.eq_some_of_filter_eq_some htext
  | none =>
    rw [hfirst] at hnewer
    have hfield : state.storedState.textField "lastRunStatus" = state.textField "lastRunStatus" := by
      rw [JsonObject.textField, hnewer]
      rfl
    rw [hfield, holder, hfirst] at htext
    cases htext

end State

end OpenClaw.Cron.Store
