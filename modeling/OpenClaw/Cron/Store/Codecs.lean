/-
# OpenClaw.Cron.Store.Codecs -- the columns of a cron job

Each codec writes one part of a job into columns and reads it back: schedule, trigger, payload, delivery,
failure alert and state, as the files of `cron/store` have them.  The empty string, null and the integers 0 and 1
stand for what is missing, and what counts as missing is not the same in the two directions.
-/
import OpenClaw.Cron.Store.JobShape

namespace OpenClaw.Cron.Store

open OpenClaw.Data

variable {ν : Type}

/-! ## Scalars -/

/-- A text column under a test of truth: null and the empty string are nothing. -/
def truthy (text : Option JsString) : Option JsString := text.filter (· ≠ [])

def booleanToInteger : Option Bool → Option Int
  | none => none
  | some value => some (if value then 1 else 0)

def integerToBoolean (value : Option Int) : Option Bool := value.map (· ≠ 0)

section Json

variable [JsonNumber ν]

def serializeJson : Option (JsonValue ν) → Option Text := Option.map JsonValue.stringify

/-- `parseJsonValue(raw, undefined)` -/
def parseJsonValue (raw : Text) : Option (JsonValue ν) := JsonValue.parse raw

def stringItem : Json ν → Option JsString
  | .string s => some s
  | _ => none

/-- The strings of an array; none for what is no array. -/
def arrayOfStrings : Json ν → Option (List JsString)
  | .array items => some (items.filterMap stringItem)
  | _ => none

end Json

def stringsJson (ν : Type) (strings : List JsString) : JsonValue ν where
  json := .array (strings.map .string)
  distinct := by
    rw [Json.distinct_array]
    intro item hitem
    obtain ⟨s, -, rfl⟩ := List.mem_map.mp hitem
    trivial

/-- `parseJsonArray(raw)`, for a column that holds strings. -/
def parseJsonArray (ν : Type) [JsonNumber ν] (raw : Option Text) : Option (List JsString) :=
  (raw.filter (· ≠ [])).bind fun raw =>
    (parseJsonValue raw : Option (JsonValue ν)).bind fun value => arrayOfStrings value.json

/-! ## Schedule -/

structure ScheduleColumns (ν : Type) where
  scheduleKind : JsString
  at' : Option JsString
  everyMs : Option ν
  anchorMs : Option ν
  scheduleExpr : Option JsString
  scheduleTz : Option JsString
  staggerMs : Option ν

def bindScheduleColumns : CronSchedule ν → ScheduleColumns ν
  | .at instant => ⟨units "at", some instant, none, none, none, none, none⟩
  | .every everyMs anchorMs => ⟨units "every", none, some everyMs, anchorMs, none, none, none⟩
  -- the columns of an expression and its zone are reused for a command and its directory
  | .onExit command cwd => ⟨units "on-exit", none, none, none, some command, cwd, none⟩
  | .cron expr tz staggerMs => ⟨units "cron", none, none, none, some expr, tz, staggerMs⟩

def scheduleFromRow (row : ScheduleColumns ν) : Option (CronSchedule ν) :=
  if row.scheduleKind = units "at" then (truthy row.at').map .at
  else if row.scheduleKind = units "every" then row.everyMs.map (.every · row.anchorMs)
  else if row.scheduleKind = units "cron" then
    (truthy row.scheduleExpr).map (.cron · (truthy row.scheduleTz) row.staggerMs)
  else if row.scheduleKind = units "on-exit" then
    (truthy row.scheduleExpr).map (.onExit · (truthy row.scheduleTz))
  else none

/-! ## Trigger -/

structure TriggerColumns where
  triggerScript : Option JsString
  triggerOnce : Option Int

def bindTriggerColumns (trigger : Option CronTrigger) : TriggerColumns :=
  ⟨trigger.map (·.script), booleanToInteger (trigger.bind (·.once))⟩

def triggerFromRow (row : TriggerColumns) : Option CronTrigger :=
  (truthy row.triggerScript).map fun script => ⟨script, integerToBoolean row.triggerOnce⟩

/-! ## Failure alert -/

structure FailureAlertColumns (ν : Type) where
  failureAlertDisabled : Option Int
  failureAlertAfter : Option ν
  failureAlertChannel : Option JsString
  failureAlertTo : Option JsString
  failureAlertCooldownMs : Option ν
  failureAlertIncludeSkipped : Option Int
  failureAlertMode : Option JsString
  failureAlertAccountId : Option JsString

def FailureDestinationMode.text : FailureDestinationMode → JsString
  | announce => units "announce"
  | webhook => units "webhook"

/-- A column that is taken for a mode: no other text is written to it. -/
def failureDestinationMode (text : JsString) : FailureDestinationMode :=
  if text = units "webhook" then .webhook else .announce

def bindFailureAlertColumns : FailureAlertSetting ν → FailureAlertColumns ν
  | .disabled => ⟨some 1, none, none, none, none, none, none, none⟩
  | .absent => ⟨none, none, none, none, none, none, none, none⟩
  | .alert alert =>
    ⟨some 0, alert.after, alert.channel, alert.to', alert.cooldownMs, booleanToInteger alert.includeSkipped,
      alert.mode.map (·.text), alert.accountId⟩

def failureAlertFromRow (row : FailureAlertColumns ν) : FailureAlertSetting ν :=
  if row.failureAlertDisabled = some 1 then .disabled
  else if row.failureAlertAfter.isNone && (truthy row.failureAlertChannel).isNone &&
      (truthy row.failureAlertTo).isNone && row.failureAlertCooldownMs.isNone &&
      row.failureAlertIncludeSkipped.isNone && (truthy row.failureAlertMode).isNone &&
      (truthy row.failureAlertAccountId).isNone && row.failureAlertDisabled ≠ some 0 then .absent
  else
    .alert
      { after := row.failureAlertAfter
        channel := truthy row.failureAlertChannel
        to' := truthy row.failureAlertTo
        cooldownMs := row.failureAlertCooldownMs
        includeSkipped := integerToBoolean row.failureAlertIncludeSkipped
        mode := (truthy row.failureAlertMode).map failureDestinationMode
        accountId := truthy row.failureAlertAccountId }

/-! ## Delivery -/

structure DeliveryColumns where
  deliveryMode : Option JsString
  deliveryChannel : Option JsString
  deliveryTo : Option JsString
  deliveryThreadId : Option JsString
  deliveryThreadIdType : Option JsString
  deliveryAccountId : Option JsString
  deliveryBestEffort : Option Int
  deliveryCompletionMode : Option JsString
  deliveryCompletionTo : Option JsString
  failureDeliveryMode : Option JsString
  failureDeliveryChannel : Option JsString
  failureDeliveryTo : Option JsString
  failureDeliveryAccountId : Option JsString

def CronDeliveryMode.text : CronDeliveryMode → JsString
  | none => units "none"
  | announce => units "announce"
  | webhook => units "webhook"

def cronDeliveryModeFromValue (value : Option JsString) : Option CronDeliveryMode :=
  if value = some (units "none") then some .none
  else if value = some (units "announce") then some .announce
  else if value = some (units "webhook") then some .webhook
  else none

/-- The empty string is an internal sentinel for an explicit undefined field. -/
def bindFailureDestinationField (field : OwnField JsString) : Option JsString := field.map (·.getD [])

def readFailureDestinationField (value : JsString) : Option JsString := if value = [] then none else some value

section Delivery

variable [CronNumber ν]

/-- `String(threadId)` -/
def ThreadId.column : ThreadId ν → JsString
  | text value => value
  | number value => unitsOf (JsonNumber.text value)

/-- `typeof threadId` -/
def ThreadId.columnType : ThreadId ν → JsString
  | text _ => units "string"
  | number _ => units "number"

def bindDeliveryColumns (delivery : Option (CronDelivery ν)) : DeliveryColumns :=
  let failureDestination := delivery.bind (·.failureDestination)
  { deliveryMode := delivery.map (·.mode.text)
    deliveryChannel := delivery.bind (·.channel)
    deliveryTo := delivery.bind (·.to')
    deliveryThreadId := (delivery.bind (·.threadId)).map ThreadId.column
    deliveryThreadIdType := (delivery.bind (·.threadId)).map ThreadId.columnType
    deliveryAccountId := delivery.bind (·.accountId)
    deliveryBestEffort := booleanToInteger (delivery.bind (·.bestEffort))
    deliveryCompletionMode := (delivery.bind (·.completionDestination)).map fun _ => units "webhook"
    deliveryCompletionTo := (delivery.bind (·.completionDestination)).bind (·.to')
    failureDeliveryMode :=
      bindFailureDestinationField (failureDestination.bind fun f => f.mode.map (·.map FailureDestinationMode.text))
    failureDeliveryChannel := bindFailureDestinationField (failureDestination.bind (·.channel))
    failureDeliveryTo := bindFailureDestinationField (failureDestination.bind (·.to'))
    failureDeliveryAccountId := bindFailureDestinationField (failureDestination.bind (·.accountId)) }

def threadIdFromRow (row : DeliveryColumns) : Option (ThreadId ν) :=
  (truthy row.deliveryThreadId).map fun value =>
    if row.deliveryThreadIdType = some (units "number") then
      match CronNumber.number value with
      | some numeric => .number numeric
      | none => .text value
    else .text value

/-- Some column of the failure destination is not null. -/
def DeliveryColumns.hasFailureDestination (row : DeliveryColumns) : Bool :=
  row.failureDeliveryChannel.isSome || row.failureDeliveryTo.isSome || row.failureDeliveryMode.isSome ||
    row.failureDeliveryAccountId.isSome

def deliveryFromRow (row : DeliveryColumns) : Option (CronDelivery ν) :=
  let rowMode := cronDeliveryModeFromValue row.deliveryMode
  let threadId : Option (ThreadId ν) := threadIdFromRow row
  let hasDeliveryColumns := (truthy row.deliveryChannel).isSome || (truthy row.deliveryTo).isSome ||
    threadId.isSome || (truthy row.deliveryAccountId).isSome || (truthy row.deliveryCompletionMode).isSome ||
    (truthy row.deliveryCompletionTo).isSome || row.hasFailureDestination || row.deliveryBestEffort.isSome
  let completionDestination : Option CronCompletionDestination :=
    if rowMode = some .announce && row.deliveryCompletionMode = some (units "webhook") then
      some ⟨truthy row.deliveryCompletionTo⟩
    else none
  let failureDestination : Option CronFailureDestination :=
    if row.hasFailureDestination then
      some
        { channel := row.failureDeliveryChannel.map readFailureDestinationField
          to' := row.failureDeliveryTo.map readFailureDestinationField
          mode := row.failureDeliveryMode.map fun value =>
            (readFailureDestinationField value).map failureDestinationMode
          accountId := row.failureDeliveryAccountId.map readFailureDestinationField }
    else none
  if rowMode.isNone && !hasDeliveryColumns then none
  else
    -- Old rows may have destination columns without a mode.
    some
      { mode := rowMode.getD .announce
        channel := truthy row.deliveryChannel
        to' := truthy row.deliveryTo
        threadId
        accountId := truthy row.deliveryAccountId
        bestEffort := integerToBoolean row.deliveryBestEffort
        completionDestination
        failureDestination }

end Delivery

/-! ## Payload -/

structure PayloadColumns (ν : Type) where
  payloadKind : JsString
  payloadMessage : Option JsString
  payloadModel : Option JsString
  payloadFallbacksJson : Option Text
  payloadThinking : Option JsString
  payloadTimeoutSeconds : Option ν
  payloadAllowUnsafeExternalContent : Option Int
  payloadExternalContentSourceJson : Option Text
  payloadLightContext : Option Int
  payloadToolsAllowJson : Option Text
  payloadToolsAllowIsDefault : Option Int

def HookExternalContentSource.text : HookExternalContentSource → JsString
  | gmail => units "gmail"
  | webhook => units "webhook"

def stringJson (ν : Type) (value : JsString) : JsonValue ν := ⟨.string value, trivial⟩

def objectMember (key : String) (members : List (JsString × Json ν)) : Option (Json ν) :=
  (members.find? (·.1 = units key)).map (·.2)

section Payload

/-- The members of a command payload, its time limit aside. -/
def CronCommandPayload.members (payload : CronCommandPayload ν) : List (JsString × Json ν) :=
  [(units "kind", .string (units "command")), (units "argv", .array (payload.argv.map .string))] ++
    (payload.cwd.map fun cwd => (units "cwd", Json.string cwd)).toList ++
    (payload.env.map fun env => (units "env", Json.object (env.entries.map fun (k, v) => (k, .string v)))).toList ++
    (payload.input.map fun input => (units "input", Json.string input)).toList ++
    (payload.noOutputTimeoutSeconds.map fun n => (units "noOutputTimeoutSeconds", Json.number n)).toList ++
    (payload.outputMaxBytes.map fun n => (units "outputMaxBytes", Json.number n)).toList

def numberOf : Json ν → Option ν
  | .number n => some n
  | _ => none

def isBlank (text : JsString) : Bool := text.all fun unit => isJsWhitespace (Char.ofNat unit.val)

def stringMembers : Json ν → List (JsString × JsString)
  | .object members => members.filterMap fun (key, value) => (stringItem value).map (key, ·)
  | _ => []

theorem stringMembers_nodup {value : Json ν} (h : value.Distinct) : ((stringMembers value).map Prod.fst).Nodup := by
  cases value with
  | object members =>
    have hnodup := (Json.distinct_object.mp h).1
    refine hnodup.sublist ?_
    clear h hnodup
    induction members with
    | nil => exact List.Sublist.slnil
    | cons member rest ih =>
      obtain ⟨key, value⟩ := member
      cases hvalue : stringItem value with
      | none => simpa [stringMembers, hvalue] using ih.trans (List.sublist_cons_self _ _)
      | some s => simpa [stringMembers, hvalue] using ih.cons_cons key
  | _ => simp [stringMembers]

/-- The keys of a command payload are among these, each once. -/
def commandKeys : List JsString :=
  ["kind", "argv", "cwd", "env", "input", "noOutputTimeoutSeconds", "outputMaxBytes"].map units

theorem commandKeys_nodup : commandKeys.Nodup := by decide +kernel

theorem CronCommandPayload.members_keys (payload : CronCommandPayload ν) :
    (payload.members.map Prod.fst).Sublist commandKeys := by
  have happend : commandKeys = [units "kind", units "argv"] ++ [units "cwd"] ++ [units "env"] ++ [units "input"] ++
      [units "noOutputTimeoutSeconds"] ++ [units "outputMaxBytes"] := rfl
  rw [happend, members]
  simp only [List.map_append]
  refine (((((List.Sublist.refl _).append ?_).append ?_).append ?_).append ?_).append ?_
  · cases payload.cwd <;> simp
  · cases payload.env <;> simp
  · cases payload.input <;> simp
  · cases payload.noOutputTimeoutSeconds <;> simp
  · cases payload.outputMaxBytes <;> simp

theorem CronCommandPayload.members_distinct (payload : CronCommandPayload ν) :
    (Json.object payload.members).Distinct := by
  refine Json.distinct_object.mpr ⟨commandKeys_nodup.sublist payload.members_keys, ?_⟩
  intro member hmember
  simp only [members, List.mem_append, List.mem_cons, List.not_mem_nil, or_false, Option.mem_toList,
    Option.map_eq_some_iff] at hmember
  rcases hmember with (((((rfl | rfl) | ⟨_, _, rfl⟩) | ⟨env, _, rfl⟩) | ⟨_, _, rfl⟩) | ⟨_, _, rfl⟩) | ⟨_, _, rfl⟩
  · trivial
  · exact (stringsJson ν payload.argv).distinct
  · trivial
  · refine Json.distinct_object.mpr ⟨?_, ?_⟩
    · rw [List.map_map]
      exact env.nodup
    · intro member hmember
      obtain ⟨entry, -, rfl⟩ := List.mem_map.mp hmember
      trivial
  · trivial
  · trivial
  · trivial

variable [CronNumber ν]

def parseExternalContentSource (ν : Type) [CronNumber ν] (raw : Option Text) : Option HookExternalContentSource :=
  match (raw.filter (· ≠ [])).bind fun raw => (parseJsonValue raw : Option (JsonValue ν)) with
  | some ⟨.string s, _⟩ =>
    if s = units "gmail" then some .gmail else if s = units "webhook" then some .webhook else none
  | _ => none

/-- The argument vector of a command: an array of non-empty strings that is not empty. -/
def parseArgv : Option (Json ν) → Option (List JsString)
  | some (.array items) => (items.mapM fun item => (stringItem item).filter (· ≠ [])).filter (· ≠ [])
  | _ => none

def parseEnv (record : JsonValue ν) (members : List (JsString × Json ν)) (h : record.json = .object members) :
    Option StringRecord :=
  match hfind : members.find? (·.1 = units "env") with
  | some (_, value) =>
    let entries := stringMembers value
    if entries = [] then none
    else
      some ⟨entries, stringMembers_nodup
        ((Json.distinct_object.mp (h ▸ record.distinct)).2 _ (List.mem_of_find?_eq_some hfind))⟩
  | none => none

/-- The command of a payload, without its time limit. -/
def parseCommandPayloadMessage (raw : Option JsString) : Option (CronCommandPayload ν) :=
  match (truthy raw).bind fun raw => (textOf raw).bind (parseJsonValue : Text → Option (JsonValue ν)) with
  | some record =>
    match hrecord : record.json with
    | .object members =>
      (parseArgv (objectMember "argv" members)).map fun argv =>
        { argv
          cwd := ((objectMember "cwd" members).bind stringItem).filter fun cwd => !isBlank cwd
          env := parseEnv record members hrecord
          input := (objectMember "input" members).bind stringItem
          timeoutSeconds := none
          noOutputTimeoutSeconds := (objectMember "noOutputTimeoutSeconds" members).bind numberOf
          outputMaxBytes := ((objectMember "outputMaxBytes" members).bind numberOf).filter CronNumber.positive }
    | _ => none
  | none => none

def bindPayloadColumns : CronPayload ν → PayloadColumns ν
  | .systemEvent text => ⟨units "systemEvent", some text, none, none, none, none, none, none, none, none, none⟩
  | .command payload =>
    ⟨units "command", some (unitsOf (JsonValue.stringify ⟨.object payload.members, payload.members_distinct⟩)), none,
      none, none, payload.timeoutSeconds, none, none, none, none, none⟩
  | .agentTurn payload =>
    { payloadKind := units "agentTurn"
      payloadMessage := some payload.message
      payloadModel := payload.model
      payloadFallbacksJson := serializeJson (payload.fallbacks.map (stringsJson ν))
      payloadThinking := payload.thinking
      payloadTimeoutSeconds := payload.timeoutSeconds
      payloadAllowUnsafeExternalContent := booleanToInteger payload.allowUnsafeExternalContent
      payloadExternalContentSourceJson :=
        serializeJson (payload.externalContentSource.map fun source => stringJson ν source.text)
      payloadLightContext := booleanToInteger payload.lightContext
      payloadToolsAllowJson := serializeJson (payload.toolsAllow.map (stringsJson ν))
      payloadToolsAllowIsDefault :=
        if payload.toolsAllow.isSome then booleanToInteger payload.toolsAllowIsDefault else none }

def payloadFromRow (row : PayloadColumns ν) : Option (CronPayload ν) :=
  if row.payloadKind = units "systemEvent" then row.payloadMessage.map .systemEvent
  else if row.payloadKind = units "agentTurn" then
    row.payloadMessage.map fun message =>
      let toolsAllow := parseJsonArray ν row.payloadToolsAllowJson
      .agentTurn
        { message
          model := truthy row.payloadModel
          fallbacks := parseJsonArray ν row.payloadFallbacksJson
          thinking := truthy row.payloadThinking
          timeoutSeconds := row.payloadTimeoutSeconds
          allowUnsafeExternalContent := integerToBoolean row.payloadAllowUnsafeExternalContent
          externalContentSource := parseExternalContentSource ν row.payloadExternalContentSourceJson
          lightContext := integerToBoolean row.payloadLightContext
          toolsAllow
          toolsAllowIsDefault :=
            if toolsAllow.isSome && integerToBoolean row.payloadToolsAllowIsDefault = some true then some true
            else none }
  else if row.payloadKind = units "command" then
    (parseCommandPayloadMessage row.payloadMessage).map fun command =>
      .command { command with timeoutSeconds := row.payloadTimeoutSeconds }
  else none

attribute [grind =] payloadFromRow

end Payload

/-! ## State -/

structure StateColumns (ν : Type) where
  nextRunAtMs : Option ν
  runningAtMs : Option ν
  lastRunAtMs : Option ν
  lastRunStatus : Option JsString
  lastError : Option JsString
  lastDurationMs : Option ν
  consecutiveErrors : Option ν
  consecutiveSkipped : Option ν
  scheduleErrorCount : Option ν
  lastDeliveryStatus : Option JsString
  lastDeliveryError : Option JsString
  lastDelivered : Option Int
  lastFailureAlertAtMs : Option ν
  stateJson : Text

theorem setMember_distinct {members : List (JsString × Json ν)} (h : (Json.object members).Distinct)
    (member : JsString × Json ν) (hmember : member.2.Distinct) :
    (Json.object (Json.setMember members member)).Distinct := by
  obtain ⟨hnodup, hall⟩ := Json.distinct_object.mp h
  exact Json.distinct_object.mpr (Json.setMember_spec hnodup hall hmember)

/-- A plain value of a column. -/
inductive ColumnValue (ν : Type) where
  | number (value : ν)
  | text (value : JsString)
  | boolean (value : Bool)

def ColumnValue.json : ColumnValue ν → Json ν
  | number value => .number value
  | text value => .string value
  | boolean value => .boolean value

theorem ColumnValue.json_distinct (value : ColumnValue ν) : value.json.Distinct := by
  cases value <;> trivial

section State

variable [JsonNumber ν]

def booleanOf : Json ν → Option Bool
  | .boolean b => some b
  | _ => none

/-- The fields of a state have the types that `CronJobState` gives them. -/
def JsonObject.numberField (state : JsonObject ν) (key : String) : Option ν :=
  (objectMember key state.members).bind numberOf

def JsonObject.textField (state : JsonObject ν) (key : String) : Option JsString :=
  (objectMember key state.members).bind stringItem

def JsonObject.booleanField (state : JsonObject ν) (key : String) : Option Bool :=
  (objectMember key state.members).bind booleanOf

def JsonObject.toJson (object : JsonObject ν) : JsonValue ν := ⟨.object object.members, object.distinct⟩

def bindStateColumns (state : CronJobState ν) : StateColumns ν where
  nextRunAtMs := state.numberField "nextRunAtMs"
  runningAtMs := state.numberField "runningAtMs"
  lastRunAtMs := state.numberField "lastRunAtMs"
  lastRunStatus := state.textField "lastRunStatus" <|> state.textField "lastStatus"
  lastError := state.textField "lastError"
  lastDurationMs := state.numberField "lastDurationMs"
  consecutiveErrors := state.numberField "consecutiveErrors"
  consecutiveSkipped := state.numberField "consecutiveSkipped"
  scheduleErrorCount := state.numberField "scheduleErrorCount"
  lastDeliveryStatus := state.textField "lastDeliveryStatus"
  lastDeliveryError := state.textField "lastDeliveryError"
  lastDelivered := booleanToInteger (state.booleanField "lastDelivered")
  lastFailureAlertAtMs := state.numberField "lastFailureAlertAtMs"
  stateJson := state.toJson.stringify

/-- `...(column ? { key: column } : {})` -/
def JsonObject.spread (object : JsonObject ν) (column : String × Option (ColumnValue ν)) : JsonObject ν :=
  match column.2 with
  | none => object
  | some value =>
    ⟨Json.setMember object.members (units column.1, value.json),
      setMember_distinct object.distinct _ value.json_distinct⟩

/-- The columns that win over the fields of `state_json`, in the order in which they are spread. -/
def StateColumns.fields (row : StateColumns ν) : List (String × Option (ColumnValue ν)) :=
  [("nextRunAtMs", row.nextRunAtMs.map .number), ("runningAtMs", row.runningAtMs.map .number),
    ("lastRunAtMs", row.lastRunAtMs.map .number), ("lastRunStatus", (truthy row.lastRunStatus).map .text),
    ("lastError", (truthy row.lastError).map .text), ("lastDurationMs", row.lastDurationMs.map .number),
    ("consecutiveErrors", row.consecutiveErrors.map .number),
    ("consecutiveSkipped", row.consecutiveSkipped.map .number),
    ("scheduleErrorCount", row.scheduleErrorCount.map .number),
    ("lastDeliveryStatus", (truthy row.lastDeliveryStatus).map .text),
    ("lastDeliveryError", (truthy row.lastDeliveryError).map .text),
    ("lastDelivered", (integerToBoolean row.lastDelivered).map .boolean),
    ("lastFailureAlertAtMs", row.lastFailureAlertAtMs.map .number)]

/-- `parseJsonObject(raw, {})`, for a column that holds an object. -/
def parseJsonObject (raw : Text) : JsonObject ν :=
  match (parseJsonValue raw : Option (JsonValue ν)) with
  | some ⟨.object members, distinct⟩ => ⟨members, distinct⟩
  | _ => ⟨[], Json.distinct_object.mpr ⟨List.nodup_nil, by simp⟩⟩

def stateFromRow (row : StateColumns ν) : CronJobState ν :=
  row.fields.foldl JsonObject.spread (parseJsonObject row.stateJson)

end State

end OpenClaw.Cron.Store
