/-
# OpenClaw.Outbound.DeliveryQueueStorage -- one row of the outbound delivery queue

An entry is persisted before it is sent and leaves the queue by an acknowledgement, which deletes the
row, or by a dead letter, which keeps it under another status.  `recoveryState` is the evidence a later
recovery reads: `send_attempt_started` says that the platform may have been called, `unknown_after_send`
that some payload was sent.  The writers follow `delivery-queue-storage.ts`, over the row operations of
`delivery-queue-sqlite.ts`.

The queue is keyed by entry id and every writer names its id, so the store is the one row of one entry.
Fields that no function here reads (the route, the payloads, the rendering plan) are left out.
-/
import OpenClaw.Logic.Program

namespace OpenClaw.Outbound

open OpenClaw.Logic

inductive RecoveryState where
  | sendAttemptStarted
  | unknownAfterSend
  deriving DecidableEq, Repr

inductive QueuePolicy where
  | required
  | bestEffort
  deriving DecidableEq, Repr

structure QueuedDeliveryPayload where
  queuePolicy : Option QueuePolicy
  requireUnknownSendReconciliation : Bool
  deriving DecidableEq, Repr

/-- `QueuedDelivery`.  A `replyToId` is `null` or a string. -/
structure QueuedDelivery extends QueuedDeliveryPayload where
  id : String
  enqueuedAt : Int
  retryCount : Nat := 0
  lastAttemptAt : Option Int := none
  lastError : Option String := none
  platformSendStartedAt : Option Int := none
  effectiveReplyToId : Option (Option String) := none
  recoveryState : Option RecoveryState := none
  deriving DecidableEq, Repr

inductive QueueStatus where
  | pending
  | failed
  deriving DecidableEq, Repr

structure QueueRow where
  status : QueueStatus
  entry : QueuedDelivery
  deriving DecidableEq, Repr

/-- The row of the entry, while there is one. -/
abbrev QueueStore := Option QueueRow

/-- An error of the database, or the `ENOENT` of a row that is not pending. -/
structure QueueError where
  code : Option String
  message : String
  deriving DecidableEq, Repr

def enoent (id : String) : QueueError where
  code := some "ENOENT"
  message := "No pending outbound delivery queue entry " ++ id

def upsertDeliveryQueueEntry (entry : QueuedDelivery) (status : QueueStatus) : QueueStore := some { status, entry }

def loadDeliveryQueueEntry (store : QueueStore) : Option QueuedDelivery :=
  match store with
  | some { status := .pending, entry } => some entry
  | _ => none

def deleteDeliveryQueueEntry (store : QueueStore) : QueueStore :=
  if (loadDeliveryQueueEntry store).isSome then none else store

def updateDeliveryQueueEntry (store : QueueStore) (id : String)
    (update : QueuedDelivery → QueuedDelivery) : Except QueueError QueueStore :=
  match loadDeliveryQueueEntry store with
  | none => .error (enoent id)
  | some current => .ok (upsertDeliveryQueueEntry (update current) .pending)

def moveDeliveryQueueEntryToFailed (store : QueueStore) (id : String) : Except QueueError QueueStore :=
  match loadDeliveryQueueEntry store with
  | none => .error (enoent id)
  | some current => .ok (upsertDeliveryQueueEntry current .failed)

/-- `failPendingDeliveryQueueEntry`: the row takes `entry` with the error, if it is still pending. -/
def failPendingDeliveryQueueEntry (store : QueueStore) (lastError : String) (entry : QueuedDelivery) :
    QueueStore × Bool :=
  if (loadDeliveryQueueEntry store).isSome then
    (some { status := .failed, entry := { entry with lastError := some lastError } }, true)
  else (store, false)

/-! ## The writers -/

/-- The entry `enqueueDelivery` persists. -/
def enqueueDelivery (id : String) (now : Int) (params : QueuedDeliveryPayload) : QueuedDelivery :=
  { params with id, enqueuedAt := now }

/-- The reply target of a send.  `replyToId` is absent, or `null`, or a string. -/
structure PlatformSendRoute where
  replyToId : Option (Option String)
  deriving DecidableEq, Repr

/-- `route && "replyToId" in route ? { effectiveReplyToId: route.replyToId ?? null } : {}` -/
def withRoute (entry : QueuedDelivery) (route : Option PlatformSendRoute) : QueuedDelivery :=
  match route with
  | some { replyToId := some replyToId } => { entry with effectiveReplyToId := some replyToId }
  | _ => entry

inductive QueueWrite where
  | ackDelivery
  | failDelivery (error : String)
  | failDeliveryBeforePlatformSend (error : String)
  | failDeliveryAfterPlatformSend (error : String)
  | markDeliveryPlatformSendAttemptStarted (route : Option PlatformSendRoute)
  | markDeliveryPlatformSendDispatched (route : Option PlatformSendRoute)
  | markDeliveryPlatformOutcomeUnknown
  | moveToFailed

/-- What each writer that updates the entry makes of it. -/
def failedAttempt (now : Int) (error : String) (entry : QueuedDelivery) : QueuedDelivery :=
  { entry with
    retryCount := entry.retryCount + 1
    lastAttemptAt := some now
    lastError := some error }

def failedBeforePlatformSend (now : Int) (error : String) (entry : QueuedDelivery) : QueuedDelivery :=
  { failedAttempt now error entry with platformSendStartedAt := none, recoveryState := none }

def failedAfterPlatformSend (now : Int) (error : String) (entry : QueuedDelivery) : QueuedDelivery :=
  { failedAttempt now error entry with
    platformSendStartedAt := some (entry.platformSendStartedAt.getD now)
    recoveryState := some .unknownAfterSend }

def sendAttemptStarted (now : Int) (route : Option PlatformSendRoute) (entry : QueuedDelivery) : QueuedDelivery :=
  { withRoute entry route with
    platformSendStartedAt := some (entry.platformSendStartedAt.getD now)
    recoveryState := some .sendAttemptStarted }

/-- Unlike `sendAttemptStarted`, this refreshes the time of the attempt. -/
def sendDispatched (now : Int) (route : Option PlatformSendRoute) (entry : QueuedDelivery) : QueuedDelivery :=
  { withRoute entry route with
    platformSendStartedAt := some now
    recoveryState := some .sendAttemptStarted }

def outcomeUnknown (now : Int) (entry : QueuedDelivery) : QueuedDelivery :=
  { entry with
    platformSendStartedAt := some (entry.platformSendStartedAt.getD now)
    recoveryState := some .unknownAfterSend }

/-- A write that the database carries out. -/
def performWrite (store : QueueStore) (id : String) (now : Int) :
    QueueWrite → Except QueueError QueueStore
  | .ackDelivery => .ok (deleteDeliveryQueueEntry store)
  | .failDelivery error => updateDeliveryQueueEntry store id (failedAttempt now error)
  | .failDeliveryBeforePlatformSend error => updateDeliveryQueueEntry store id (failedBeforePlatformSend now error)
  | .failDeliveryAfterPlatformSend error => updateDeliveryQueueEntry store id (failedAfterPlatformSend now error)
  | .markDeliveryPlatformSendAttemptStarted route => updateDeliveryQueueEntry store id (sendAttemptStarted now route)
  | .markDeliveryPlatformSendDispatched route => updateDeliveryQueueEntry store id (sendDispatched now route)
  | .markDeliveryPlatformOutcomeUnknown => updateDeliveryQueueEntry store id (outcomeUnknown now)
  | .moveToFailed => moveDeliveryQueueEntryToFailed store id

/-- The writes that record that some payload was sent. -/
def QueueWrite.recordsSend : QueueWrite → Bool
  | .ackDelivery | .failDeliveryAfterPlatformSend _ | .markDeliveryPlatformOutcomeUnknown => true
  | _ => false

/-- The writes that set the recovery state back, whatever it was. -/
def QueueWrite.resets : QueueWrite → Bool
  | .failDeliveryBeforePlatformSend _ | .markDeliveryPlatformSendAttemptStarted _
  | .markDeliveryPlatformSendDispatched _ => true
  | _ => false

theorem loadDeliveryQueueEntry_eq_some {store : QueueStore} {entry : QueuedDelivery} :
    loadDeliveryQueueEntry store = some entry ↔ store = some { status := .pending, entry } := by
  unfold loadDeliveryQueueEntry
  split
  · simp
  · rename_i hnot
    constructor
    · intro h
      cases h
    · intro h
      exact absurd h (hnot entry)

/-- **What a successful write leaves.**  A pending row after a write was pending before; a recording write
leaves it as `unknown_after_send`, and one that does not reset leaves an `unknown_after_send` alone. -/
theorem performWrite_pending {store store' : QueueStore} {id : String} {now : Int} {w : QueueWrite}
    {entry : QueuedDelivery} (h : performWrite store id now w = .ok store')
    (hpending : loadDeliveryQueueEntry store' = some entry) : ∃ before, loadDeliveryQueueEntry store = some before ∧
      (w.recordsSend = true → entry.recoveryState = some .unknownAfterSend) ∧
      (w.resets = false → entry.recoveryState = before.recoveryState ∨
        entry.recoveryState = some .unknownAfterSend) := by
  have hupdate : ∀ update : QueuedDelivery → QueuedDelivery,
      updateDeliveryQueueEntry store id update = .ok store' →
        ∃ before, loadDeliveryQueueEntry store = some before ∧ entry = update before := by
    intro update hok
    unfold updateDeliveryQueueEntry at hok
    split at hok
    · cases hok
    · rename_i before hbefore
      cases hok
      rw [loadDeliveryQueueEntry_eq_some] at hpending
      cases hpending
      exact ⟨before, hbefore, rfl⟩
  cases w with
  | ackDelivery =>
    cases h
    -- Deleting leaves no pending row.
    unfold deleteDeliveryQueueEntry at hpending
    split at hpending
    · cases hpending
    · rename_i hnone
      rw [hpending] at hnone
      exact absurd rfl hnone
  | moveToFailed =>
    simp only [performWrite, moveDeliveryQueueEntryToFailed] at h
    split at h
    · cases h
    · cases h
      cases hpending
  | failDelivery error =>
    obtain ⟨before, hbefore, rfl⟩ := hupdate _ h
    exact ⟨before, hbefore, fun hfalse => absurd hfalse Bool.false_ne_true, fun _ => .inl rfl⟩
  | failDeliveryAfterPlatformSend error =>
    obtain ⟨before, hbefore, rfl⟩ := hupdate _ h
    exact ⟨before, hbefore, fun _ => rfl, fun _ => .inr rfl⟩
  | markDeliveryPlatformOutcomeUnknown =>
    obtain ⟨before, hbefore, rfl⟩ := hupdate _ h
    exact ⟨before, hbefore, fun _ => rfl, fun _ => .inr rfl⟩
  | failDeliveryBeforePlatformSend _ | markDeliveryPlatformSendAttemptStarted _
  | markDeliveryPlatformSendDispatched _ =>
    obtain ⟨before, hbefore, -⟩ := hupdate _ h
    exact ⟨before, hbefore, fun hfalse => absurd hfalse Bool.false_ne_true,
      fun hfalse => absurd hfalse.symm Bool.false_ne_true⟩

end OpenClaw.Outbound
