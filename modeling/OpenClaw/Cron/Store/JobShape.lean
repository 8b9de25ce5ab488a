/-
# OpenClaw.Cron.Store.JobShape -- a cron job as the store has it

Every field of a job that a column of `cron_jobs` holds, with the types of `types.ts`.  Numbers are any type of
finite numbers: a job comes from JSON.  A field that may be missing is an `Option`, and a field with the value
`undefined` is a missing one; only the fields of a failure destination tell the two apart, because their
presence clears what is inherited.
-/
import OpenClaw.Data.JsPrim
import OpenClaw.Data.JsonValue

namespace OpenClaw.Cron.Store

open OpenClaw.Data

/-- The numbers of a job. -/
class CronNumber (ν : Type) extends JsonNumber ν where
  /-- `Number(text)`, when it is finite. -/
  number : JsString → Option ν
  /-- `n > 0` -/
  positive : ν → Bool
  number_text : ∀ n, number (unitsOf (text n)) = some n

instance : CronNumber Nat where
  number s := (textOf s).bind JsonNumber.read
  positive n := 0 < n
  number_text n := by simp [JsonNumber.read_text]

inductive CronSchedule (ν : Type) where
  | at (instant : JsString)
  | every (everyMs : ν) (anchorMs : Option ν)
  | cron (expr : JsString) (tz : Option JsString) (staggerMs : Option ν)
  | onExit (command : JsString) (cwd : Option JsString)

structure CronTrigger where
  script : JsString
  once : Option Bool

/-! ## Delivery -/

inductive CronDeliveryMode where
  | none
  | announce
  | webhook
  deriving DecidableEq

inductive FailureDestinationMode where
  | announce
  | webhook
  deriving DecidableEq

/-- `string | number` -/
inductive ThreadId (ν : Type) where
  | text (value : JsString)
  | number (value : ν)

/-- Its mode is always `webhook`. -/
structure CronCompletionDestination where
  to' : Option JsString

/-- A field of a failure destination: missing, present and undefined, or present with a value. -/
abbrev OwnField (α : Type) := Option (Option α)

structure CronFailureDestination where
  channel : OwnField JsString
  to' : OwnField JsString
  accountId : OwnField JsString
  mode : OwnField FailureDestinationMode

structure CronDelivery (ν : Type) where
  mode : CronDeliveryMode
  channel : Option JsString
  to' : Option JsString
  threadId : Option (ThreadId ν)
  accountId : Option JsString
  bestEffort : Option Bool
  completionDestination : Option CronCompletionDestination
  failureDestination : Option CronFailureDestination

/-! ## Failure alerts -/

structure CronFailureAlert (ν : Type) where
  after : Option ν
  channel : Option JsString
  to' : Option JsString
  cooldownMs : Option ν
  includeSkipped : Option Bool
  mode : Option FailureDestinationMode
  accountId : Option JsString

/-- `CronFailureAlert | false | undefined` -/
inductive FailureAlertSetting (ν : Type) where
  | absent
  | disabled
  | alert (alert : CronFailureAlert ν)

/-! ## Payloads -/

inductive HookExternalContentSource where
  | gmail
  | webhook
  deriving DecidableEq

structure CronAgentTurnPayload (ν : Type) where
  message : JsString
  model : Option JsString
  fallbacks : Option (List JsString)
  thinking : Option JsString
  timeoutSeconds : Option ν
  allowUnsafeExternalContent : Option Bool
  externalContentSource : Option HookExternalContentSource
  lightContext : Option Bool
  toolsAllow : Option (List JsString)
  toolsAllowIsDefault : Option Bool

/-- `Record<string, string>` -/
structure StringRecord where
  entries : List (JsString × JsString)
  nodup : (entries.map Prod.fst).Nodup

structure CronCommandPayload (ν : Type) where
  argv : List JsString
  cwd : Option JsString
  env : Option StringRecord
  input : Option JsString
  timeoutSeconds : Option ν
  noOutputTimeoutSeconds : Option ν
  outputMaxBytes : Option ν

inductive CronPayload (ν : Type) where
  | systemEvent (text : JsString)
  | agentTurn (payload : CronAgentTurnPayload ν)
  | command (payload : CronCommandPayload ν)

/-! ## Jobs -/

/-- An object of JSON. -/
structure JsonObject (ν : Type) where
  members : List (JsString × Json ν)
  distinct : (Json.object members).Distinct

/-- The state of a job, with whatever else the runtime keeps there. -/
abbrev CronJobState := JsonObject

structure CronOwner where
  agentId : Option JsString
  sessionKey : Option JsString

/-- All of a job; the scheduler's `Cron.CronJob` has what it reads. -/
structure CronJob (ν : Type) where
  id : JsString
  declarationKey : Option JsString
  displayName : Option JsString
  owner : Option CronOwner
  name : JsString
  description : Option JsString
  enabled : Bool
  deleteAfterRun : Option Bool
  createdAtMs : ν
  updatedAtMs : ν
  agentId : Option JsString
  sessionKey : Option JsString
  schedule : CronSchedule ν
  sessionTarget : JsString
  wakeMode : JsString
  trigger : Option CronTrigger
  payload : CronPayload ν
  delivery : Option (CronDelivery ν)
  failureAlert : FailureAlertSetting ν
  state : CronJobState ν

end OpenClaw.Cron.Store
