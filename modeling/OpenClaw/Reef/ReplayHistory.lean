/-
# OpenClaw.Reef.ReplayHistory -- what a replay store promises over its whole life

Calls under other keys do not touch a record, so the history of a record is a run of its own: claimed,
in flight, made available again by a release or a restart, and at last completed or consumed.  Ids
without a line feed give each peer and id a key of their own; the envelope reader lets no other id pass.
-/
import OpenClaw.Reef.ReplayLog

namespace OpenClaw.Reef

open OpenClaw.Data OpenClaw.Logic

/-! ## Keys -/

theorem replayKey_inj {peer peer' id id' : Text} (hid : '\n' ∉ id) (hid' : '\n' ∉ id')
    (h : replayKey peer id = replayKey peer' id') : peer = peer' ∧ id = id' := by
  have hsplit := congrArg (fun key => List.splitOn '\n' key.reverse) h
  simp only [replayKey, List.reverse_append, List.reverse_cons, List.append_assoc, List.singleton_append] at hsplit
  rw [List.splitOn_append_cons_self_of_not_mem (by simpa using hid),
    List.splitOn_append_cons_self_of_not_mem (by simpa using hid')] at hsplit
  obtain rfl : id = id' := List.reverse_injective (List.cons.inj hsplit).1
  exact ⟨List.append_cancel_right h, rfl⟩

def ReplayCall.peer : ReplayCall → Text
  | .claim peer _ _ | .complete peer _ _ _ _ | .consume peer _ | .release peer _ | .completed peer _ => peer

def ReplayCall.id : ReplayCall → Text
  | .claim _ id _ | .complete _ id _ _ _ | .consume _ id | .release _ id | .completed _ id => id

def ReplayCall.key (request : ReplayCall) : Text := replayKey request.peer request.id

/-! ## One key -/

/-- The call on a map that holds one record under every key. -/
def callAlone (record : Option ReplayRecord) (request : ReplayCall) : ReplayResult × Bindings :=
  MemoryReplayStore.call (fun _ => record) request

/-- What becomes of the record under the key of a call. -/
def nextRecord (record : Option ReplayRecord) (request : ReplayCall) : Option ReplayRecord :=
  (callAlone record request).2 request.key

@[simp] theorem set_self (bindings : Bindings) (key : Text) (record : ReplayRecord) :
    bindings.set key record key = some record := if_pos rfl

theorem set_ne (bindings : Bindings) {key key' : Text} (record : ReplayRecord) (h : key' ≠ key) :
    bindings.set key record key' = bindings key' := if_neg h

/-- A call reads and changes only the record under its key. -/
theorem call_local (bindings : Bindings) (request : ReplayCall) :
    (MemoryReplayStore.call bindings request).1 = (callAlone (bindings request.key) request).1 ∧
      (MemoryReplayStore.call bindings request).2 request.key = nextRecord (bindings request.key) request ∧
      ∀ key, key ≠ request.key → (MemoryReplayStore.call bindings request).2 key = bindings key := by
  cases request with
  | claim peer id envelopeHash =>
    simp only [MemoryReplayStore.call, MemoryReplayStore.claim, nextRecord, callAlone, ReplayCall.key,
      ReplayCall.peer, ReplayCall.id]
    cases hfind : bindings (replayKey peer id) with
    | none => exact ⟨rfl, by simp, fun key hkey => set_ne _ _ hkey⟩
    | some existing =>
      by_cases hhash : existing.envelopeHash = envelopeHash
      · cases hstate : existing.state <;>
          simp +contextual [hhash, hstate, hfind, set_ne]
      · simp [hhash, hfind]
  | complete peer id receipt body nonce =>
    simp only [MemoryReplayStore.call, MemoryReplayStore.complete, MemoryReplayStore.inFlight,
      nextRecord, callAlone, ReplayCall.key, ReplayCall.peer, ReplayCall.id]
    cases hflight : (bindings (replayKey peer id)).filter (·.state = .inFlight) with
    | none => exact ⟨rfl, rfl, fun _ _ => rfl⟩
    | some existing =>
      by_cases hid : receipt.id = id
      · cases hvalid : validateCompletion receipt body <;> simp +contextual [hid, set_ne]
      · simp [hid]
  | consume peer id =>
    simp only [MemoryReplayStore.call, MemoryReplayStore.consume, MemoryReplayStore.inFlight,
      nextRecord, callAlone, ReplayCall.key, ReplayCall.peer, ReplayCall.id]
    cases hflight : (bindings (replayKey peer id)).filter (·.state = .inFlight) with
    | none => exact ⟨rfl, rfl, fun _ _ => rfl⟩
    | some existing => exact ⟨rfl, by simp, fun key hkey => set_ne _ _ hkey⟩
  | release peer id =>
    simp only [MemoryReplayStore.call, MemoryReplayStore.release, MemoryReplayStore.inFlight,
      nextRecord, callAlone, ReplayCall.key, ReplayCall.peer, ReplayCall.id]
    cases hflight : (bindings (replayKey peer id)).filter (·.state = .inFlight) with
    | none => exact ⟨rfl, rfl, fun _ _ => rfl⟩
    | some existing => exact ⟨rfl, by simp, fun key hkey => set_ne _ _ hkey⟩
  | completed peer id => exact ⟨rfl, rfl, fun _ _ => rfl⟩

/-- No call ends what is completed or consumed. -/
def ReplayRecord.Ended (record : ReplayRecord) : Prop := record.state = .completed ∨ record.state = .consumed

variable {stored : Option ReplayRecord} {peer id envelopeHash : Text} {event : ReplayEvent} {record : ReplayRecord}

section Record

variable {record : ReplayRecord} {request : ReplayCall}

theorem nextRecord_claim_none : nextRecord none (.claim peer id envelopeHash) =
      some ⟨envelopeHash, .inFlight, none, none⟩ := by
  simp [nextRecord, callAlone, MemoryReplayStore.call, MemoryReplayStore.claim, ReplayCall.key,
    ReplayCall.peer, ReplayCall.id]

theorem nextRecord_ended (h : record.Ended) : nextRecord (some record) request = some record := by
  have hnot : record.state ≠ .inFlight := by rcases h with h | h <;> simp [h]
  cases request with
  | claim peer id envelopeHash =>
    by_cases hhash : record.envelopeHash = envelopeHash
    · rcases h with h | h <;>
        simp [nextRecord, callAlone, MemoryReplayStore.call, MemoryReplayStore.claim, hhash, h]
    · simp [nextRecord, callAlone, MemoryReplayStore.call, MemoryReplayStore.claim, hhash]
  | completed peer id => rfl
  | _ =>
    simp [nextRecord, callAlone, MemoryReplayStore.call, MemoryReplayStore.complete,
      MemoryReplayStore.consume, MemoryReplayStore.release, MemoryReplayStore.inFlight, hnot,
      Option.filter]

/-- The only claim that makes a record is the first. -/
theorem nextRecord_none (request : ReplayCall) :
    nextRecord none request = none ∨ ∃ peer id envelopeHash, request = .claim peer id envelopeHash := by
  cases request with
  | claim peer id envelopeHash => exact .inr ⟨peer, id, envelopeHash, rfl⟩
  | _ => exact .inl rfl

/-- The hash is bound once and for all. -/
theorem nextRecord_hash : ∃ record', nextRecord (some record) request = some record' ∧
      record'.envelopeHash = record.envelopeHash := by
  cases request with
  | claim peer id envelopeHash =>
    by_cases hhash : record.envelopeHash = envelopeHash
    · cases hstate : record.state <;>
        simp [nextRecord, callAlone, MemoryReplayStore.call, MemoryReplayStore.claim, hhash, hstate,
          ReplayCall.key, ReplayCall.peer, ReplayCall.id]
    · simp [nextRecord, callAlone, MemoryReplayStore.call, MemoryReplayStore.claim, hhash]
  | completed peer id => exact ⟨record, rfl, rfl⟩
  | complete peer id receipt body nonce =>
    by_cases hflight : record.state = .inFlight
    · by_cases hid : receipt.id = id
      · cases hvalid : validateCompletion receipt body <;>
          simp [nextRecord, callAlone, MemoryReplayStore.call, MemoryReplayStore.complete,
            MemoryReplayStore.inFlight, hflight, hid, hvalid, Option.filter, ReplayCall.key,
            ReplayCall.peer, ReplayCall.id]
      · simp [nextRecord, callAlone, MemoryReplayStore.call, MemoryReplayStore.complete,
          MemoryReplayStore.inFlight, hflight, hid, Option.filter]
    · simp [nextRecord, callAlone, MemoryReplayStore.call, MemoryReplayStore.complete,
        MemoryReplayStore.inFlight, hflight, Option.filter]
  | _ =>
    by_cases hflight : record.state = .inFlight <;>
      simp [nextRecord, callAlone, MemoryReplayStore.call, MemoryReplayStore.consume,
        MemoryReplayStore.release, MemoryReplayStore.inFlight, hflight, Option.filter,
        ReplayCall.key, ReplayCall.peer, ReplayCall.id]

/-- What is in flight stays so, ends, or is released. -/
theorem nextRecord_inFlight (request : ReplayCall) (h : record.state = .inFlight) :
    nextRecord (some record) request = some record ∨
      (∃ record', nextRecord (some record) request = some record' ∧ record'.Ended) ∨
      ∃ peer id, request = .release peer id := by
  cases request with
  | claim peer id envelopeHash =>
    refine .inl ?_
    by_cases hhash : record.envelopeHash = envelopeHash <;>
      simp [nextRecord, callAlone, MemoryReplayStore.call, MemoryReplayStore.claim, hhash, h]
  | completed peer id => exact .inl rfl
  | complete peer id receipt body nonce =>
    by_cases hid : receipt.id = id
    · cases hvalid : validateCompletion receipt body with
      | error message =>
        refine .inl ?_
        simp [nextRecord, callAlone, MemoryReplayStore.call, MemoryReplayStore.complete,
          MemoryReplayStore.inFlight, h, hid, hvalid, Option.filter]
      | ok u =>
        refine .inr (.inl ⟨{ record with
          state := .completed, receipt := some receipt, body := body.or record.body }, ?_, .inl rfl⟩)
        simp [nextRecord, callAlone, MemoryReplayStore.call, MemoryReplayStore.complete,
          MemoryReplayStore.inFlight, h, hid, hvalid, Option.filter, ReplayCall.key,
          ReplayCall.peer, ReplayCall.id]
    · refine .inl ?_
      simp [nextRecord, callAlone, MemoryReplayStore.call, MemoryReplayStore.complete,
        MemoryReplayStore.inFlight, h, hid, Option.filter]
  | consume peer id =>
    refine .inr (.inl ⟨{ record with state := .consumed, receipt := none, body := none }, ?_, .inr rfl⟩)
    simp [nextRecord, callAlone, MemoryReplayStore.call, MemoryReplayStore.consume,
      MemoryReplayStore.inFlight, h, Option.filter, ReplayCall.key, ReplayCall.peer, ReplayCall.id]
  | release peer id => exact .inr (.inr ⟨peer, id, rfl⟩)

/-! ## Results -/

theorem claim_new_iff : (callAlone stored (.claim peer id envelopeHash)).1 = .claimed .new ↔ stored = none ∨
      ∃ record, stored = some record ∧ record.envelopeHash = envelopeHash ∧ record.state = .available := by
  cases stored with
  | none => simp [callAlone, MemoryReplayStore.call, MemoryReplayStore.claim]
  | some record =>
    by_cases hhash : record.envelopeHash = envelopeHash
    · cases hstate : record.state <;>
        simp [callAlone, MemoryReplayStore.call, MemoryReplayStore.claim, hhash, hstate]
    · simp [callAlone, MemoryReplayStore.call, MemoryReplayStore.claim, hhash]

theorem claim_mismatch_iff : (callAlone (some record) (.claim peer id envelopeHash)).1 = .claimed .mismatch ↔
      record.envelopeHash ≠ envelopeHash := by
  by_cases hhash : record.envelopeHash = envelopeHash
  · cases hstate : record.state <;>
      simp [callAlone, MemoryReplayStore.call, MemoryReplayStore.claim, hhash, hstate]
  · simp [callAlone, MemoryReplayStore.call, MemoryReplayStore.claim, hhash]

/-- A claim that is new puts its hash in flight. -/
theorem nextRecord_claim_new (h : (callAlone stored (.claim peer id envelopeHash)).1 = .claimed .new) :
    ∃ record, nextRecord stored (.claim peer id envelopeHash) = some record ∧ record.envelopeHash = envelopeHash ∧
      record.state = .inFlight := by
  rcases claim_new_iff.mp h with rfl | ⟨record, rfl, hhash, hstate⟩
  · exact ⟨_, nextRecord_claim_none, rfl, rfl⟩
  · refine ⟨{ record with state := .inFlight }, ?_, hhash, rfl⟩
    simp [nextRecord, callAlone, MemoryReplayStore.call, MemoryReplayStore.claim, hhash, hstate,
      ReplayCall.key, ReplayCall.peer, ReplayCall.id]

/-- A completion that returns was in flight, and stores its receipt and body. -/
theorem nextRecord_complete_done {stored : Option ReplayRecord} {peer id : Text}
    {receipt : SignedReceipt} {body : Option MessageBody} {nonce : List UInt8}
    (h : (callAlone stored (.complete peer id receipt body nonce)).1 = .done) :
    ∃ record, stored = some record ∧ record.state = .inFlight ∧
      nextRecord stored (.complete peer id receipt body nonce) = some { record with
        state := .completed, receipt := some receipt, body := body.or record.body } := by
  cases stored with
  | none => simp [callAlone, MemoryReplayStore.call, MemoryReplayStore.complete,
      MemoryReplayStore.inFlight, notInFlight] at h
  | some record =>
    refine ⟨record, rfl, ?_⟩
    by_cases hflight : record.state = .inFlight
    · refine ⟨hflight, ?_⟩
      by_cases hid : receipt.id = id
      · cases hvalid : validateCompletion receipt body with
        | error message =>
          simp [callAlone, MemoryReplayStore.call, MemoryReplayStore.complete,
            MemoryReplayStore.inFlight, hflight, hid, hvalid, Option.filter] at h
        | ok u =>
          simp [nextRecord, callAlone, MemoryReplayStore.call, MemoryReplayStore.complete,
            MemoryReplayStore.inFlight, hflight, hid, hvalid, Option.filter, ReplayCall.key,
            ReplayCall.peer, ReplayCall.id]
      · simp [callAlone, MemoryReplayStore.call, MemoryReplayStore.complete,
          MemoryReplayStore.inFlight, hflight, hid, Option.filter] at h
    · simp [callAlone, MemoryReplayStore.call, MemoryReplayStore.complete,
        MemoryReplayStore.inFlight, hflight, Option.filter, notInFlight] at h

theorem nextRecord_consume_done {peer id : Text} (h : (callAlone stored (.consume peer id)).1 = .done) :
    ∃ record, nextRecord stored (.consume peer id) = some record ∧ record.state = .consumed := by
  cases stored with
  | none => simp [callAlone, MemoryReplayStore.call, MemoryReplayStore.consume,
      MemoryReplayStore.inFlight, notInFlight] at h
  | some record =>
    by_cases hflight : record.state = .inFlight
    · refine ⟨{ record with state := .consumed, receipt := none, body := none }, ?_, rfl⟩
      simp [nextRecord, callAlone, MemoryReplayStore.call, MemoryReplayStore.consume,
        MemoryReplayStore.inFlight, hflight, Option.filter, ReplayCall.key, ReplayCall.peer,
        ReplayCall.id]
    · simp [callAlone, MemoryReplayStore.call, MemoryReplayStore.consume,
        MemoryReplayStore.inFlight, hflight, Option.filter, notInFlight] at h

/-- Only a completion that returns makes a record completed. -/
theorem nextRecord_completed (h : nextRecord stored request = some record) (hstate : record.state = .completed) :
    stored = some record ∨ ∃ receipt body nonce, request = .complete request.peer request.id receipt body nonce ∧
      (callAlone stored request).1 = .done := by
  cases stored with
  | none =>
    cases request with
    | claim peer id envelopeHash =>
      rw [nextRecord_claim_none] at h
      simp [← Option.some.inj h] at hstate
    | _ => exact .inl h
  | some old =>
    cases request with
    | complete peer id receipt body nonce =>
      by_cases hdone : (callAlone (some old) (.complete peer id receipt body nonce)).1 = .done
      · exact .inr ⟨receipt, body, nonce, rfl, hdone⟩
      · refine .inl (Eq.trans ?_ h)
        by_cases hflight : old.state = .inFlight
        · by_cases hid : receipt.id = id
          · cases hvalid : validateCompletion receipt body with
            | error message =>
              simp [nextRecord, callAlone, MemoryReplayStore.call, MemoryReplayStore.complete,
                MemoryReplayStore.inFlight, hflight, hid, hvalid, Option.filter]
            | ok u =>
              simp [callAlone, MemoryReplayStore.call, MemoryReplayStore.complete,
                MemoryReplayStore.inFlight, hflight, hid, hvalid, Option.filter] at hdone
          · simp [nextRecord, callAlone, MemoryReplayStore.call, MemoryReplayStore.complete,
              MemoryReplayStore.inFlight, hflight, hid, Option.filter]
        · simp [nextRecord, callAlone, MemoryReplayStore.call, MemoryReplayStore.complete,
            MemoryReplayStore.inFlight, hflight, Option.filter]
    | claim peer id envelopeHash =>
      refine .inl ?_
      by_cases hhash : old.envelopeHash = envelopeHash
      · cases hold : old.state with
        | available =>
          simp [nextRecord, callAlone, MemoryReplayStore.call, MemoryReplayStore.claim, hhash,
            hold, ReplayCall.key, ReplayCall.peer, ReplayCall.id] at h
          simp [← h] at hstate
        | _ =>
          simpa [nextRecord, callAlone, MemoryReplayStore.call, MemoryReplayStore.claim, hhash, hold] using h
      · simpa [nextRecord, callAlone, MemoryReplayStore.call, MemoryReplayStore.claim, hhash] using h
    | consume peer id =>
      refine .inl ?_
      by_cases hflight : old.state = .inFlight
      · simp [nextRecord, callAlone, MemoryReplayStore.call, MemoryReplayStore.consume,
          MemoryReplayStore.inFlight, hflight, Option.filter, ReplayCall.key, ReplayCall.peer,
          ReplayCall.id] at h
        simp [← h] at hstate
      · simpa [nextRecord, callAlone, MemoryReplayStore.call, MemoryReplayStore.consume,
          MemoryReplayStore.inFlight, hflight, Option.filter] using h
    | release peer id =>
      refine .inl ?_
      by_cases hflight : old.state = .inFlight
      · simp [nextRecord, callAlone, MemoryReplayStore.call, MemoryReplayStore.release,
          MemoryReplayStore.inFlight, hflight, Option.filter, ReplayCall.key, ReplayCall.peer,
          ReplayCall.id] at h
        simp [← h] at hstate
      · simpa [nextRecord, callAlone, MemoryReplayStore.call, MemoryReplayStore.release,
          MemoryReplayStore.inFlight, hflight, Option.filter] using h
    | completed peer id => exact .inl h

end Record

/-! ## Runs of the file store -/

section Runs

variable {ε : Type}

def fileAfter (cipher : BodyCipher ε) (events : List ReplayEvent) : FileReplayStore ε :=
  run (fileStep cipher) .fresh events

/-- What a call returns after some events. -/
def fileResult (cipher : BodyCipher ε) (events : List ReplayEvent) (request : ReplayCall) : ReplayResult :=
  ((fileAfter cipher events).call cipher request).1

/-- The record that the store holds for a peer and id. -/
def recordAfter (cipher : BodyCipher ε) (events : List ReplayEvent) (peer id : Text) : Option ReplayRecord :=
  (fileAfter cipher events).view cipher (replayKey peer id)

/-- No id has a line feed in it. -/
def PlainIds (events : List ReplayEvent) : Prop := ∀ request, ReplayEvent.call request ∈ events → '\n' ∉ request.id

variable {cipher : BodyCipher ε}

theorem logged_after (hcipher : cipher.Inverts) (events : List ReplayEvent) :
    Logged cipher (fileAfter cipher events) := by
  refine run_invariant (fun st event h => ?_) events logged_fresh
  cases event with
  | restart => exact h.restart.1
  | call request =>
    cases hseal : request.sealable with
    | true => exact (h.call hcipher hseal).2.2
    | false => exact (h.call_unsealable hseal).2.2

theorem fileResult_sealable (hcipher : cipher.Inverts) (events : List ReplayEvent)
    {request : ReplayCall} (hseal : request.sealable = true) : fileResult cipher events request =
      (callAlone (recordAfter cipher events request.peer request.id) request).1 := by
  unfold fileResult
  rw [((logged_after hcipher events).call hcipher hseal).1, (call_local _ request).1]
  rfl

theorem sealable_of_done (hcipher : cipher.Inverts) (events : List ReplayEvent) {request : ReplayCall}
    (hdone : fileResult cipher events request = .done) : request.sealable = true := by
  cases hseal : request.sealable with
  | true => rfl
  | false =>
    obtain ⟨⟨message, hthrew⟩, -⟩ := (logged_after hcipher events).call_unsealable hseal
    rw [fileResult, hthrew] at hdone
    cases hdone

/-- What one event does to a record. -/
inductive RecordStep (peer id : Text) :
    ReplayEvent → Option ReplayRecord → Option ReplayRecord → Prop
  | stays (request : ReplayCall) (stored : Option ReplayRecord)
      (h : request.peer ≠ peer ∨ request.id ≠ id ∨ request.sealable = false) :
      RecordStep peer id (.call request) stored stored
  | own (request : ReplayCall) (stored : Option ReplayRecord) (hpeer : request.peer = peer)
      (hid : request.id = id) (hseal : request.sealable = true) :
      RecordStep peer id (.call request) stored (nextRecord stored request)
  | restart (stored : Option ReplayRecord) : RecordStep peer id .restart stored (stored.map settleRecord)

theorem recordAfter_step (hcipher : cipher.Inverts) (events : List ReplayEvent) (peer : Text) {id : Text}
    (hid : '\n' ∉ id) (hplain : PlainIds [event]) : RecordStep peer id event (recordAfter cipher events peer id)
      (recordAfter cipher (events ++ [event]) peer id) := by
  have hlogged := logged_after hcipher events
  have hafter : fileAfter cipher (events ++ [event]) = fileStep cipher (fileAfter cipher events) event := by
    simp [fileAfter, run_append]
  unfold recordAfter
  rw [hafter]
  cases event with
  | restart =>
    rw [fileStep, hlogged.restart.2]
    exact .restart _
  | call request =>
    rw [fileStep]
    cases hseal : request.sealable with
    | false =>
      rw [(hlogged.call_unsealable hseal).2.1]
      exact .stays request _ (.inr (.inr hseal))
    | true =>
      rw [(hlogged.call hcipher hseal).2.1]
      obtain ⟨-, hown, hother⟩ := call_local ((fileAfter cipher events).view cipher) request
      by_cases hkey : replayKey peer id = request.key
      · obtain ⟨rfl, rfl⟩ := replayKey_inj hid (hplain request (by simp)) hkey
        change RecordStep _ _ _ _ ((MemoryReplayStore.call _ request).2 request.key)
        rw [hown]
        exact .own request _ rfl rfl hseal
      · rw [hother _ hkey]
        refine .stays request _ ?_
        by_cases hpeer : request.peer = peer
        · refine .inr (.inl fun hsame => hkey ?_)
          rw [ReplayCall.key, hpeer, hsame]
        · exact .inl hpeer

theorem RecordStep.ended {peer id : Text} (h : RecordStep peer id event (some record) stored)
    (hended : record.Ended) : stored = some record := by
  cases h with
  | stays => rfl
  | own request => exact nextRecord_ended hended
  | restart =>
    have hsettle : settleRecord record = record := by
      obtain ⟨envelopeHash, state, receipt, body⟩ := record
      rcases hended with h | h <;> simp only at h <;> subst h <;> rfl
    simp [hsettle]

theorem RecordStep.hash {peer id : Text} (h : RecordStep peer id event (some record) stored) :
    ∃ record', stored = some record' ∧ record'.envelopeHash = record.envelopeHash := by
  cases h with
  | stays => exact ⟨record, rfl, rfl⟩
  | own request => exact nextRecord_hash
  | restart => exact ⟨settleRecord record, rfl, rfl⟩

/-- What gives a record in flight back: a release, or a restart. -/
def GivesBack (peer id : Text) (event : ReplayEvent) : Prop := event = .restart ∨ event = .call (.release peer id)

theorem RecordStep.inFlight {peer id : Text} (h : RecordStep peer id event (some record) stored)
    (hflight : record.state = .inFlight) : stored = some record ∨ (∃ record', stored = some record' ∧ record'.Ended) ∨
      GivesBack peer id event := by
  cases h with
  | stays => exact .inl rfl
  | own request _ hpeer hid =>
    rcases nextRecord_inFlight request hflight with h | h | ⟨peer', id', rfl⟩
    · exact .inl h
    · exact .inr (.inl h)
    · obtain rfl : peer' = peer := hpeer
      obtain rfl : id' = id := hid
      exact .inr (.inr (.inr rfl))
  | restart => exact .inr (.inr (.inl rfl))

/-- A record becomes completed by a completion that returns, and by nothing else. -/
theorem RecordStep.completed {peer id : Text} (h : RecordStep peer id event stored (some record))
    (hstate : record.state = .completed) : stored = some record ∨ ∃ receipt body nonce, event =
      .call (.complete peer id receipt body nonce) ∧ (ReplayCall.complete peer id receipt body nonce).sealable =
      true ∧ (callAlone stored (.complete peer id receipt body nonce)).1 = .done := by
  generalize htarget : some record = target at h
  cases h with
  | stays => exact .inl rfl
  | own request _ hpeer hid hseal =>
    rcases nextRecord_completed htarget.symm hstate with h | ⟨receipt, body, nonce, hrequest, hdone⟩
    · exact .inl (h.trans htarget)
    · rw [hpeer, hid] at hrequest
      subst hrequest
      exact .inr ⟨receipt, body, nonce, rfl, hseal, hdone⟩
  | restart =>
    obtain ⟨⟨envelopeHash, state, receipt, body⟩, rfl, rfl⟩ := Option.map_eq_some_iff.mp htarget.symm
    cases state with
    | completed => exact .inl rfl
    | _ => simp [settleRecord, settleState] at hstate

end Runs

end OpenClaw.Reef
