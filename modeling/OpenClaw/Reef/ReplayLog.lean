/-
# OpenClaw.Reef.ReplayLog -- the log says what the map says

The live map and the interpreted log differ in one thing only: what is in flight in the one is
available in the other.  `settle` is that difference.  A call on the file store is the call on the map
of the memory store, and a restart settles it.
-/
import OpenClaw.Logic.Fallible
import OpenClaw.Reef.ReplayStore

namespace OpenClaw.Reef

open OpenClaw.Data OpenClaw.Logic

/-! ## What a restart does to the map -/

def settleState : ReplayState → ReplayState
  | .inFlight => .available
  | state => state

def settleRecord (record : ReplayRecord) : ReplayRecord := { record with state := settleState record.state }

/-- Every claim in flight becomes available. -/
def settle (bindings : Bindings) : Bindings := fun key => (bindings key).map settleRecord

@[simp] theorem settleRecord_settleRecord (record : ReplayRecord) :
    settleRecord (settleRecord record) = settleRecord record := by
  rcases record with ⟨envelopeHash, state, receipt, body⟩
  cases state <;> rfl

@[simp] theorem settle_settle (bindings : Bindings) : settle (settle bindings) = settle bindings := by
  funext key
  cases h : bindings key <;> simp [settle, h]

theorem settle_set (bindings : Bindings) (key : Text) (record : ReplayRecord) :
    settle (bindings.set key record) = (settle bindings).set key (settleRecord record) := by
  funext key'
  unfold settle Bindings.set
  by_cases h : key' = key <;> simp [h]

theorem settle_apply {bindings : Bindings} {key : Text} {record : ReplayRecord}
    (h : bindings key = some record) : settle bindings key = some (settleRecord record) := by
  simp [settle, h]

/-! ## Records that are well formed -/

/-- Only a completed record has a receipt or a body. -/
def RecordsOpen (bindings : Bindings) : Prop :=
  ∀ key record, bindings key = some record → record.state ≠ .completed → record.receipt = none ∧ record.body = none

theorem RecordsOpen.set {bindings : Bindings} (h : RecordsOpen bindings) {key : Text} {record : ReplayRecord}
    (hrecord : record.state ≠ .completed → record.receipt = none ∧ record.body = none) :
    RecordsOpen (bindings.set key record) := by
  intro key' found hfound
  unfold Bindings.set at hfound
  split at hfound
  · obtain rfl := Option.some.inj hfound
    exact hrecord
  · exact h key' found hfound

theorem RecordsOpen.settle {bindings : Bindings} (h : RecordsOpen bindings) : RecordsOpen (settle bindings) := by
  intro key record hrecord hstate
  unfold Reef.settle at hrecord
  obtain ⟨old, hold, rfl⟩ := Option.map_eq_some_iff.mp hrecord
  refine h key old hold ?_
  intro hcompleted
  simp [settleRecord, hcompleted, settleState] at hstate

theorem inFlight_eq_some {bindings : Bindings} {peer id : Text} {record : ReplayRecord}
    (h : MemoryReplayStore.inFlight bindings peer id = some record) :
    bindings (replayKey peer id) = some record ∧ record.state = .inFlight := by
  simpa [MemoryReplayStore.inFlight, Option.filter_eq_some_iff] using h

section Log

variable {ε : Type} {cipher : BodyCipher ε}

/-! ## One more record -/

theorem replayLog_append {bindings bindings' : Bindings} {records : List (ReplayLogRecord ε)}
    (record : ReplayLogRecord ε) (h : FileReplayStore.replayLog cipher bindings records = (.ok (), bindings')) :
    FileReplayStore.replayLog cipher bindings (records ++ [record]) =
      FileReplayStore.replayLog cipher bindings' [record] := by
  induction records generalizing bindings with
  | nil =>
    simp only [FileReplayStore.replayLog, Prod.mk.injEq, true_and] at h
    rw [List.nil_append, h]
  | cons first rest ih =>
    rw [List.cons_append, FileReplayStore.replayLog]
    rw [FileReplayStore.replayLog] at h
    cases hfirst : FileReplayStore.replayRecord cipher bindings first with
    | error message => simp [hfirst] at h
    | ok next =>
      rw [hfirst] at h
      exact ih h

/-- The state of the store as its next call sees it. -/
def FileReplayStore.view (cipher : BodyCipher ε) (st : FileReplayStore ε) : Bindings :=
  if st.loaded then st.bindings else (FileReplayStore.replayLog cipher (fun _ => none) st.log).2

/-- The log interprets to the settled view, and an instance that has not loaded holds nothing. -/
structure Logged (cipher : BodyCipher ε) (st : FileReplayStore ε) : Prop where
  interprets : FileReplayStore.replayLog cipher (fun _ => none) st.log = (.ok (), settle (st.view cipher))
  unloaded : st.loaded = false → st.bindings = fun _ => none
  recordsOpen : RecordsOpen (st.view cipher)

theorem logged_fresh : Logged cipher FileReplayStore.fresh where
  interprets := rfl
  unloaded _ := rfl
  recordsOpen key record h := by simp [FileReplayStore.view, FileReplayStore.fresh, FileReplayStore.replayLog] at h

/-- What an unloaded store has logged is settled. -/
theorem Logged.view_unloaded {st : FileReplayStore ε} (h : Logged cipher st)
    (hloaded : st.loaded = false) : st.view cipher = settle (st.view cipher) := by
  have hview : st.view cipher = (FileReplayStore.replayLog cipher (fun _ => none) st.log).2 := by
    unfold FileReplayStore.view
    rw [hloaded]
    rfl
  rw [h.interprets] at hview
  exact hview

theorem Logged.load {st : FileReplayStore ε} (h : Logged cipher st) :
    ∃ st', st.load cipher = (.ok (), st') ∧ st'.loaded = true ∧ st'.bindings = st.view cipher ∧ st'.log = st.log := by
  unfold FileReplayStore.load
  by_cases hloaded : st.loaded = true
  · exact ⟨st, by simp [hloaded], hloaded, by simp [FileReplayStore.view, hloaded], rfl⟩
  · have hloaded : st.loaded = false := by simpa using hloaded
    rw [h.unloaded hloaded, h.interprets, hloaded]
    exact ⟨_, rfl, rfl, (h.view_unloaded hloaded).symm, rfl⟩

theorem Logged.restart {st : FileReplayStore ε} (h : Logged cipher st) :
    Logged cipher st.restart ∧ st.restart.view cipher = settle (st.view cipher) := by
  have hview : st.restart.view cipher = settle (st.view cipher) := by
    have hlog : st.restart.view cipher =
        (FileReplayStore.replayLog cipher (fun _ => none) st.log).2 := rfl
    rw [hlog, h.interprets]
  refine ⟨⟨?_, fun _ => rfl, ?_⟩, hview⟩
  · rw [hview, settle_settle]
    exact h.interprets
  · rw [hview]
    exact h.recordsOpen.settle

/-- A store that is loaded, over a log that interprets to its settled map. -/
structure LoggedLive (cipher : BodyCipher ε) (st : FileReplayStore ε) : Prop where
  loaded : st.loaded = true
  interprets : FileReplayStore.replayLog cipher (fun _ => none) st.log = (.ok (), settle st.bindings)
  recordsOpen : RecordsOpen st.bindings

theorem LoggedLive.logged {st : FileReplayStore ε} (h : LoggedLive cipher st) :
    Logged cipher st ∧ st.view cipher = st.bindings := by
  have hview : st.view cipher = st.bindings := by simp [FileReplayStore.view, h.loaded]
  refine ⟨⟨?_, ?_, ?_⟩, hview⟩
  · rw [hview]
    exact h.interprets
  · simp [h.loaded]
  · rw [hview]
    exact h.recordsOpen

/-- Appending a record that changes the settled map as the call changes the live one. -/
theorem LoggedLive.appendSet {st : FileReplayStore ε} (h : LoggedLive cipher st)
    {record : ReplayLogRecord ε} {key : Text} {binding : ReplayRecord}
    (hrecord : FileReplayStore.replayRecord cipher (settle st.bindings) record =
      .ok ((settle st.bindings).set key (settleRecord binding)))
    (hopen : binding.state ≠ .completed → binding.receipt = none ∧ binding.body = none) :
    LoggedLive cipher (st.appendSet record key binding) where
  loaded := h.loaded
  interprets := by
    rw [FileReplayStore.appendSet, replayLog_append record h.interprets, FileReplayStore.replayLog, hrecord, settle_set]
    rfl
  recordsOpen := h.recordsOpen.set hopen

/-! ## The calls -/

/-- A call whose result and map are those of the memory store, and whose log stays in step. -/
structure FollowsMemory (cipher : BodyCipher ε) (st : FileReplayStore ε)
    (file : ReplayResult × FileReplayStore ε) (memory : ReplayResult × Bindings) : Prop where
  result : file.1 = memory.1
  bindings : file.2.bindings = memory.2
  live : LoggedLive cipher file.2

variable {st : FileReplayStore ε}

theorem LoggedLive.unchanged (h : LoggedLive cipher st) (result : ReplayResult) :
    FollowsMemory cipher st (result, st) (result, st.bindings) :=
  ⟨rfl, rfl, h⟩

theorem LoggedLive.claim (h : LoggedLive cipher st) (peer id envelopeHash : Text) :
    FollowsMemory cipher st (st.claim peer id envelopeHash)
      (MemoryReplayStore.claim st.bindings peer id envelopeHash) := by
  unfold FileReplayStore.claim MemoryReplayStore.claim
  cases hfind : st.bindings (replayKey peer id) with
  | none =>
    refine ⟨rfl, rfl, h.appendSet ?_ fun _ => ⟨rfl, rfl⟩⟩
    simp [FileReplayStore.replayRecord, settle, hfind, settleRecord, settleState]
  | some existing =>
    by_cases hhash : existing.envelopeHash = envelopeHash
    · simp only [hhash, ne_eq, not_true_eq_false, if_false]
      cases hstate : existing.state with
      | completed | consumed | inFlight => exact h.unchanged _
      | available =>
        obtain ⟨hreceipt, hbody⟩ := h.recordsOpen _ _ hfind (by simp [hstate])
        refine ⟨rfl, rfl, h.appendSet ?_ fun _ => ⟨hreceipt, hbody⟩⟩
        simp [FileReplayStore.replayRecord, settle_apply hfind, settleRecord, settleState, hhash,
          hreceipt, hbody, Option.filter]
    · simp only [hhash, ne_eq, not_false_eq_true, if_true]
      exact h.unchanged _

theorem file_inFlight (st : FileReplayStore ε) (peer id : Text) :
    st.inFlight peer id = MemoryReplayStore.inFlight st.bindings peer id :=
  rfl

theorem LoggedLive.consume (h : LoggedLive cipher st) (peer id : Text) :
    FollowsMemory cipher st (st.consume peer id) (MemoryReplayStore.consume st.bindings peer id) := by
  unfold FileReplayStore.consume MemoryReplayStore.consume
  rw [file_inFlight]
  cases hflight : MemoryReplayStore.inFlight st.bindings peer id with
  | none => exact h.unchanged _
  | some existing =>
    obtain ⟨hfind, hstate⟩ := inFlight_eq_some hflight
    refine ⟨rfl, rfl, h.appendSet ?_ fun _ => ⟨rfl, rfl⟩⟩
    simp [FileReplayStore.replayRecord, settle_apply hfind, settleRecord, settleState]

theorem LoggedLive.release (h : LoggedLive cipher st) (peer id : Text) :
    FollowsMemory cipher st (st.release peer id) (MemoryReplayStore.release st.bindings peer id) := by
  unfold FileReplayStore.release MemoryReplayStore.release
  rw [file_inFlight]
  cases hflight : MemoryReplayStore.inFlight st.bindings peer id with
  | none => exact h.unchanged _
  | some existing =>
    obtain ⟨hfind, hstate⟩ := inFlight_eq_some hflight
    obtain ⟨hreceipt, hbody⟩ := h.recordsOpen _ _ hfind (by simp [hstate])
    refine ⟨rfl, rfl, h.appendSet ?_ fun _ => ⟨hreceipt, hbody⟩⟩
    simp [FileReplayStore.replayRecord, settle_apply hfind, settleRecord, settleState]

/-- Whether the file store can seal what a call brings: a valid body and a nonce of twelve bytes. -/
def ReplayCall.sealable : ReplayCall → Bool
  | .complete _ _ _ (some body) nonce => decide (validateMessageBody body = .ok ()) && nonce.length = 12
  | _ => true

theorem encryptReplayBody_ok {nonce : List UInt8} {body : MessageBody} {sealed : ε} :
    FileReplayStore.encryptReplayBody cipher nonce body = .ok sealed ↔
      validateMessageBody body = .ok () ∧ nonce.length = 12 ∧ cipher.encrypt nonce body = sealed := by
  unfold FileReplayStore.encryptReplayBody
  cases validateMessageBody body with
  | error message => simp
  | ok u => by_cases hlength : nonce.length = 12 <;> simp [hlength, throw, throwThe, MonadExceptOf.throw]

theorem LoggedLive.complete (hcipher : cipher.Inverts) (h : LoggedLive cipher st) {peer id : Text}
    {receipt : SignedReceipt} {body : Option MessageBody} {nonce : List UInt8}
    (hseal : (ReplayCall.complete peer id receipt body nonce).sealable = true) :
    FollowsMemory cipher st (st.complete cipher peer id receipt body nonce)
      (MemoryReplayStore.complete st.bindings peer id receipt body) := by
  unfold FileReplayStore.complete MemoryReplayStore.complete
  rw [file_inFlight]
  cases hflight : MemoryReplayStore.inFlight st.bindings peer id with
  | none => exact h.unchanged _
  | some existing =>
    obtain ⟨hfind, hstate⟩ := inFlight_eq_some hflight
    by_cases hid : receipt.id = id
    · simp only [hid, ne_eq, not_true_eq_false, if_false]
      cases hvalid : validateCompletion receipt body with
      | error message => exact h.unchanged _
      | ok u =>
        cases body with
        | none =>
          refine ⟨rfl, rfl, h.appendSet ?_ fun hne => absurd rfl hne⟩
          simp [FileReplayStore.replayRecord, settle_apply hfind, settleRecord, settleState,
            hvalid, pure, Except.pure, bind, Except.bind]
        | some body =>
          simp only [ReplayCall.sealable, Bool.and_eq_true, decide_eq_true_eq] at hseal
          have hencrypt : FileReplayStore.encryptReplayBody cipher nonce body = .ok (cipher.encrypt nonce body) :=
            encryptReplayBody_ok.mpr ⟨hseal.1, hseal.2, rfl⟩
          simp only [Option.mapM_some, hencrypt]
          refine ⟨rfl, rfl, h.appendSet ?_ fun hne => absurd rfl hne⟩
          simp [FileReplayStore.replayRecord, FileReplayStore.decryptReplayBody,
            hcipher nonce body, hseal.1, settle_apply hfind, settleRecord, settleState, hvalid, Except.map, pure,
            Except.pure, bind, Except.bind]
    · simp only [ne_eq, hid, not_false_eq_true, if_true]
      exact h.unchanged _

/-- What cannot be sealed is refused, before anything is written. -/
theorem complete_unsealable {peer id : Text} {receipt : SignedReceipt} {body : Option MessageBody}
    {nonce : List UInt8} (hseal : (ReplayCall.complete peer id receipt body nonce).sealable = false) :
    ∃ message, st.complete cipher peer id receipt body nonce = (.threw message, st) := by
  unfold FileReplayStore.complete
  cases st.inFlight peer id with
  | none => exact ⟨_, rfl⟩
  | some existing =>
    by_cases hid : receipt.id = id
    · simp only [hid, ne_eq, not_true_eq_false, if_false]
      cases validateCompletion receipt body with
      | error message => exact ⟨_, rfl⟩
      | ok u =>
        cases body with
        | none => simp [ReplayCall.sealable] at hseal
        | some body =>
          cases hencrypt : FileReplayStore.encryptReplayBody cipher nonce body with
          | ok sealed =>
            obtain ⟨hvalid, hlength, -⟩ := encryptReplayBody_ok.mp hencrypt
            simp [ReplayCall.sealable, hvalid, hlength] at hseal
          | error message =>
            simp only [Option.mapM_some, hencrypt]
            exact ⟨message, rfl⟩
    · simp only [ne_eq, hid, not_false_eq_true, if_true]
      exact ⟨_, rfl⟩

theorem LoggedLive.completed (h : LoggedLive cipher st) (peer id : Text) :
    FollowsMemory cipher st (st.completed peer id) (MemoryReplayStore.completed st.bindings peer id) :=
  h.unchanged _

theorem LoggedLive.callLoaded (hcipher : cipher.Inverts) (h : LoggedLive cipher st)
    {request : ReplayCall} (hseal : request.sealable = true) : FollowsMemory cipher st (st.callLoaded cipher request)
      (MemoryReplayStore.call st.bindings request) := by
  cases request with
  | claim peer id envelopeHash => exact h.claim peer id envelopeHash
  | complete peer id receipt body nonce => exact h.complete hcipher hseal
  | consume peer id => exact h.consume peer id
  | release peer id => exact h.release peer id
  | completed peer id => exact h.completed peer id

/-- **A call on the file is the call on the map**, for the map the store stands for. -/
theorem Logged.call (hcipher : cipher.Inverts) (h : Logged cipher st) {request : ReplayCall}
    (hseal : request.sealable = true) :
    (st.call cipher request).1 = (MemoryReplayStore.call (st.view cipher) request).1 ∧
      (st.call cipher request).2.view cipher = (MemoryReplayStore.call (st.view cipher) request).2 ∧
      Logged cipher (st.call cipher request).2 := by
  obtain ⟨st', hload, hloaded, hbindings, hlog⟩ := h.load
  have hlive : LoggedLive cipher st' := by
    refine ⟨hloaded, ?_, ?_⟩
    · rw [hlog, hbindings]
      exact h.interprets
    · rw [hbindings]
      exact h.recordsOpen
  have hcall := hlive.callLoaded hcipher hseal
  obtain ⟨hlogged, hview⟩ := hcall.live.logged
  rw [FileReplayStore.call, hload, ← hbindings]
  exact ⟨hcall.result, hview.trans hcall.bindings, hlogged⟩

theorem Logged.call_unsealable (h : Logged cipher st) {request : ReplayCall} (hseal : request.sealable = false) :
    (∃ message, (st.call cipher request).1 = .threw message) ∧
      (st.call cipher request).2.view cipher = st.view cipher ∧ Logged cipher (st.call cipher request).2 := by
  obtain ⟨st', hload, hloaded, hbindings, hlog⟩ := h.load
  have hlive : LoggedLive cipher st' := by
    refine ⟨hloaded, ?_, ?_⟩
    · rw [hlog, hbindings]
      exact h.interprets
    · rw [hbindings]
      exact h.recordsOpen
  obtain ⟨hlogged, hview⟩ := hlive.logged
  cases request with
  | complete peer id receipt body nonce =>
    obtain ⟨message, hthrew⟩ : ∃ message, st'.complete cipher peer id receipt body nonce =
        (.threw message, st') := complete_unsealable hseal
    rw [FileReplayStore.call, hload]
    simp only [FileReplayStore.callLoaded, hthrew]
    exact ⟨⟨message, rfl⟩, hview.trans hbindings, hlogged⟩
  | _ => simp [ReplayCall.sealable] at hseal

end Log

end OpenClaw.Reef
