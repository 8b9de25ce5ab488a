/-
# OpenClaw.Reef.DurableStores -- the audit store and the replay store through crashes

Both stores accept what they append, so no append that returned is lost in a run that never writes behind
a whole record without newline.  A crash can leave such a record, and the next append then spoils both:
`append_behind_record_lost` is such a run.

The records of the replay store are written as JSON objects here, with a cipher that makes texts.
-/
import OpenClaw.Reef.AuditChain
import OpenClaw.Reef.Receipts
import OpenClaw.Reef.ReplayLog

namespace OpenClaw.Reef

open OpenClaw.Data OpenClaw.Logic Json

variable {ν : Type}

/-! ## The records of the replay store -/

/-- A record as the store writes it. -/
def ReplayLogRecord.members : ReplayLogRecord Text → List (JsString × Json ν)
  | .claim peer id envelopeHash =>
    [(key "op", textJson "claim".toList), (key "peer", textJson peer), (key "id", textJson id),
      (key "envelopeHash", textJson envelopeHash)]
  | .complete peer id receipt body =>
    [(key "op", textJson "complete".toList), (key "peer", textJson peer), (key "id", textJson id),
      (key "receipt", receipt.json)] ++
      (body.map fun enc => (key "body", .object [(key "enc", textJson enc)])).toList
  | .consume peer id => [(key "op", textJson "consume".toList), (key "peer", textJson peer), (key "id", textJson id)]
  | .release peer id => [(key "op", textJson "release".toList), (key "peer", textJson peer), (key "id", textJson id)]

def ReplayLogRecord.json (record : ReplayLogRecord Text) : JsonValue ν where
  json := .object record.members
  distinct := by
    refine distinct_object.mpr ?_
    cases record with
    | complete peer id receipt body =>
      cases body with
      | none =>
        simp only [members, Option.map_none, Option.toList_none, List.append_nil]
        exact ⟨by simp only [List.map_cons, List.map_nil]; decide,
          by simp [textJson, Distinct, receipt.json_distinct]⟩
      | some enc =>
        simp only [members, Option.map_some, Option.toList_some, List.cons_append, List.nil_append]
        exact ⟨by simp only [List.map_cons, List.map_nil]; decide,
          by simp [textJson, Distinct, receipt.json_distinct, DistinctMembers]⟩
    | _ =>
      simp only [members]
      exact ⟨by simp only [List.map_cons, List.map_nil]; decide, by simp [textJson, Distinct]⟩

/-! ### Reading them -/

/-- A property that should be a string. -/
def textProperty (value : Json ν) (name : String) : Option Text := (stringOf (property value name)).bind textOf

def statusOf (text : Text) : Option ReceiptStatus :=
  if text = "accepted".toList then some .accepted
  else if text = "rejected".toList then some .rejected
  else none

def receiptOf (value : Json ν) : Option SignedReceipt := do
  let id ← textProperty value "id"
  let bodyHash ← textProperty value "bodyHash"
  let auditHead ← textProperty value "auditHead"
  let status ← (textProperty value "status").bind statusOf
  let signature ← textProperty value "signature"
  return ⟨id, bodyHash, auditHead, status, textProperty value "category", signature⟩

/-- The member of an object. -/
def memberOf (value : Json ν) (name : String) : Option (Json ν) := (property value name).toOption.join

/-- A record as the loading loop takes it; none when it is no record of the store's. -/
def recordOf (value : Json ν) : Option (ReplayLogRecord Text) := do
  let op ← textProperty value "op"
  let peer ← textProperty value "peer"
  let id ← textProperty value "id"
  if op = "claim".toList then
    let envelopeHash ← textProperty value "envelopeHash"
    return .claim peer id envelopeHash
  else if op = "complete".toList then
    let receipt ← (memberOf value "receipt").bind receiptOf
    return .complete peer id receipt ((memberOf value "body").bind (textProperty · "enc"))
  else if op = "consume".toList then return .consume peer id
  else return .release peer id

theorem textProperty_some {value : Json ν} {name : String} {text : Text}
    (h : property value name = .ok (some (textJson text))) : textProperty value name = some text := by
  rw [textProperty, h]
  exact textOf_unitsOf text

theorem textProperty_none {value : Json ν} {name : String} (h : property value name = .ok none) :
    textProperty value name = none := by
  rw [textProperty, h]
  rfl

theorem receiptOf_json (receipt : SignedReceipt) : receiptOf (receipt.json : Json ν) = some receipt := by
  obtain ⟨id, bodyHash, auditHead, status, category, signature⟩ := receipt
  have hstatus : statusOf status.text = some status := by cases status <;> rfl
  have hread : ∀ {value : Json ν} {found : Option Text},
      property value "id" = .ok (some (textJson id)) →
      property value "bodyHash" = .ok (some (textJson bodyHash)) →
      property value "auditHead" = .ok (some (textJson auditHead)) →
      property value "status" = .ok (some (textJson status.text)) →
      property value "signature" = .ok (some (textJson signature)) → textProperty value "category" = found →
      receiptOf value = some ⟨id, bodyHash, auditHead, status, found, signature⟩ := by
    intro value found h1 h2 h3 h4 h5 h6
    rw [receiptOf, textProperty_some h1, textProperty_some h2, textProperty_some h3, textProperty_some h4,
      textProperty_some h5, h6, Option.bind_some, hstatus]
    rfl
  cases category with
  | none => exact hread rfl rfl rfl rfl rfl (textProperty_none rfl)
  | some category => exact hread rfl rfl rfl rfl rfl (textProperty_some rfl)

theorem recordOf_json (record : ReplayLogRecord Text) :
    recordOf (ReplayLogRecord.json record : JsonValue ν).json = some record := by
  have hread : ∀ {value : Json ν} {op peer id : Text},
      property value "op" = .ok (some (textJson op)) →
      property value "peer" = .ok (some (textJson peer)) →
      property value "id" = .ok (some (textJson id)) →
      recordOf value =
        if op = "claim".toList then
          (textProperty value "envelopeHash").bind fun envelopeHash => some (.claim peer id envelopeHash)
        else if op = "complete".toList then
          ((memberOf value "receipt").bind receiptOf).bind fun receipt =>
            some (.complete peer id receipt ((memberOf value "body").bind (textProperty · "enc")))
        else if op = "consume".toList then some (.consume peer id)
        else some (.release peer id) := by
    intro value op peer id h1 h2 h3
    rw [recordOf, textProperty_some h1, textProperty_some h2, textProperty_some h3]
    rfl
  cases record with
  | claim peer id envelopeHash =>
    refine (hread rfl rfl rfl).trans ?_
    have hhash : textProperty (ReplayLogRecord.json (.claim peer id envelopeHash) : JsonValue ν).json
        "envelopeHash" = some envelopeHash := textProperty_some rfl
    rw [if_pos rfl, hhash]
    rfl
  | complete peer id receipt body =>
    have hreceipt : ∀ {value : Json ν}, memberOf value "receipt" = some receipt.json →
        (memberOf value "receipt").bind receiptOf = some receipt := by
      intro value h
      rw [h]
      exact receiptOf_json receipt
    cases body with
    | none =>
      refine (hread rfl rfl rfl).trans ?_
      rw [if_neg (by decide), if_pos rfl, hreceipt rfl]
      rfl
    | some enc =>
      refine (hread rfl rfl rfl).trans ?_
      have henc : textProperty (.object [(key "enc", textJson enc)] : Json ν) "enc" = some enc := textProperty_some rfl
      rw [if_neg (by decide), if_pos rfl, hreceipt rfl]
      exact congrArg (fun body => some (ReplayLogRecord.complete peer id receipt body)) henc
  | consume peer id => exact (hread rfl rfl rfl).trans rfl
  | release peer id => exact (hread rfl rfl rfl).trans rfl

theorem recordsOf_json (log : List (ReplayLogRecord Text)) :
    (log.map ReplayLogRecord.json).mapM (fun record : JsonValue ν => recordOf record.json) = some log := by
  induction log with
  | nil => rfl
  | cons record rest ih =>
    rw [List.map_cons, List.mapM_cons, recordOf_json, ih]
    rfl

/-! ## The replay store on its file -/

/-- `FileReplayStore`: a request is answered on the loaded map, and appends the record it logs. -/
def fileReplayStore (ν : Type) (cipher : BodyCipher Text) : LogClient ν Bindings ReplayCall ReplayResult where
  fresh := fun _ => none
  accept bindings records :=
    match records.mapM fun record => recordOf record.json with
    | none => (.error "TypeError", bindings)
    | some log => FileReplayStore.replayLog cipher bindings log
  answer bindings request :=
    let answered := FileReplayStore.callLoaded cipher ⟨[], bindings, true⟩ request
    ⟨answered.1, answered.2.log.head?.map ReplayLogRecord.json, answered.2.bindings⟩

/-- The records are a log that interprets to the settled map. -/
def HoldsLog (cipher : BodyCipher Text) (records : List (JsonValue ν)) (bindings : Bindings) : Prop :=
  ∃ log : List (ReplayLogRecord Text), records = log.map ReplayLogRecord.json ∧ LoggedLive cipher ⟨log, bindings, true⟩

/-- What a call does on an empty log, it does on any: it adds one record at most. -/
structure AppendsTo (log : List (ReplayLogRecord Text))
    (answered logged : ReplayResult × FileReplayStore Text) : Prop where
  logged_eq : logged = (answered.1, ⟨log ++ answered.2.log, answered.2.bindings, true⟩)
  short : answered.2.log = [] ∨ ∃ record, answered.2.log = [record]

theorem appendsTo_unchanged (log : List (ReplayLogRecord Text)) (bindings : Bindings) (result : ReplayResult) :
    AppendsTo log (result, ⟨[], bindings, true⟩) (result, ⟨log, bindings, true⟩) where
  logged_eq := by rw [List.append_nil]
  short := .inl rfl

theorem appendsTo_set (log : List (ReplayLogRecord Text)) (bindings : Bindings) (result : ReplayResult)
    (record : ReplayLogRecord Text) (key : Text) (binding : ReplayRecord) :
    AppendsTo log (result, FileReplayStore.appendSet ⟨[], bindings, true⟩ record key binding)
      (result, FileReplayStore.appendSet ⟨log, bindings, true⟩ record key binding) where
  logged_eq := rfl
  short := .inr ⟨record, rfl⟩

theorem callLoaded_appendsTo (cipher : BodyCipher Text) (log : List (ReplayLogRecord Text))
    (bindings : Bindings) (request : ReplayCall) :
    AppendsTo log (FileReplayStore.callLoaded cipher ⟨[], bindings, true⟩ request)
      (FileReplayStore.callLoaded cipher ⟨log, bindings, true⟩ request) := by
  have hflight : ∀ peer id, FileReplayStore.inFlight (⟨log, bindings, true⟩ : FileReplayStore Text) peer id =
      FileReplayStore.inFlight (⟨[], bindings, true⟩ : FileReplayStore Text) peer id := fun _ _ => rfl
  cases request with
  | claim peer id envelopeHash =>
    simp only [FileReplayStore.callLoaded, FileReplayStore.claim]
    cases bindings (replayKey peer id) with
    | none => exact appendsTo_set ..
    | some existing =>
      by_cases hhash : existing.envelopeHash = envelopeHash
      · simp only [hhash, ne_eq, not_true_eq_false, if_false]
        cases existing.state with
        | available => exact appendsTo_set ..
        | _ => exact appendsTo_unchanged ..
      · simp only [hhash, ne_eq, not_false_eq_true, if_true]
        exact appendsTo_unchanged ..
  | complete peer id receipt body nonce =>
    simp only [FileReplayStore.callLoaded, FileReplayStore.complete, hflight]
    cases FileReplayStore.inFlight (⟨[], bindings, true⟩ : FileReplayStore Text) peer id with
    | none => exact appendsTo_unchanged ..
    | some existing =>
      by_cases hid : receipt.id = id
      · simp only [hid, ne_eq, not_true_eq_false, if_false]
        cases validateCompletion receipt body with
        | error message => exact appendsTo_unchanged ..
        | ok u =>
          cases body.mapM (FileReplayStore.encryptReplayBody cipher nonce) with
          | error message => exact appendsTo_unchanged ..
          | ok encrypted => exact appendsTo_set ..
      · simp only [hid, ne_eq, not_false_eq_true, if_true]
        exact appendsTo_unchanged ..
  | consume peer id =>
    simp only [FileReplayStore.callLoaded, FileReplayStore.consume, hflight]
    cases FileReplayStore.inFlight (⟨[], bindings, true⟩ : FileReplayStore Text) peer id with
    | none => exact appendsTo_unchanged ..
    | some existing => exact appendsTo_set ..
  | release peer id =>
    simp only [FileReplayStore.callLoaded, FileReplayStore.release, hflight]
    cases FileReplayStore.inFlight (⟨[], bindings, true⟩ : FileReplayStore Text) peer id with
    | none => exact appendsTo_unchanged ..
    | some existing => exact appendsTo_set ..
  | completed peer id => exact appendsTo_unchanged ..

/-- A call that cannot be sealed leaves the store alone. -/
theorem callLoaded_live {cipher : BodyCipher Text} (hcipher : cipher.Inverts)
    {log : List (ReplayLogRecord Text)} {bindings : Bindings}
    (h : LoggedLive cipher ⟨log, bindings, true⟩) (request : ReplayCall) :
    LoggedLive cipher (FileReplayStore.callLoaded cipher ⟨log, bindings, true⟩ request).2 := by
  cases hseal : request.sealable with
  | true => exact (h.callLoaded hcipher hseal).live
  | false =>
    cases request with
    | complete peer id receipt body nonce =>
      obtain ⟨message, hthrew⟩ : ∃ message, FileReplayStore.complete cipher ⟨log, bindings, true⟩ peer id
          receipt body nonce = (.threw message, ⟨log, bindings, true⟩) := complete_unsealable hseal
      rw [FileReplayStore.callLoaded, hthrew]
      exact h
    | _ => cases hseal

/-- **The replay store accepts what it appends.** -/
theorem fileReplayStore_sound {cipher : BodyCipher Text} (hcipher : cipher.Inverts) :
    (fileReplayStore ν cipher).Sound (HoldsLog cipher) where
  fresh := ⟨[], rfl, rfl, rfl, fun _ _ h => by cases h⟩
  appends := by
    rintro records bindings ⟨log, rfl, hlive⟩ request
    have hnext := callLoaded_live hcipher hlive request
    obtain ⟨hlogged, hshort⟩ := callLoaded_appendsTo cipher log bindings request
    rw [hlogged] at hnext
    rcases hshort with hnone | ⟨record, hone⟩
    · refine .inl ⟨by simp [fileReplayStore, hnone], log, rfl, ?_⟩
      rw [hnone, List.append_nil] at hnext
      exact hnext
    · refine .inr ⟨record.json, record.members, by simp [fileReplayStore, hone], rfl, log ++ [record], by simp, ?_⟩
      rw [hone] at hnext
      exact hnext
  accepts := by
    rintro records bindings ⟨log, rfl, hlive⟩
    have hread : (log.map ReplayLogRecord.json).mapM (fun record : JsonValue ν => recordOf record.json) =
        some log := recordsOf_json log
    refine ⟨settle bindings, ?_, log, rfl, rfl, ?_, hlive.recordsOpen.settle⟩
    · simp only [fileReplayStore, hread]
      exact hlive.interprets
    · rw [settle_settle]
      exact hlive.interprets

/-! ## Crashes -/

variable [JsNumber ν] [DecidableEq ν]

/-- **Durable logs.**  In a run of either store that never writes behind a whole record without newline,
every load succeeds and returns all that was appended, in order, but for interrupted records. -/
theorem durable_logs_survive (hash : Hash) (auditCipher : AuditCipher) {bodyCipher : BodyCipher Text}
    (hcipher : bodyCipher.Inverts) : (∀ events : List (LogEvent (AppendCall ν)),
      Guarded (LogStore.step (jsonlAuditStore hash auditCipher))
        (WritesOnNewLine (jsonlAuditStore hash auditCipher)) (.opened (jsonlAuditStore hash auditCipher) []) events →
      Survives (jsonlAuditStore hash auditCipher) (run (LogStore.step (jsonlAuditStore hash auditCipher))
          (.opened (jsonlAuditStore hash auditCipher) []) events)
        (LogStore.attempts (jsonlAuditStore hash auditCipher)
          (.opened (jsonlAuditStore hash auditCipher) []) events)) ∧ ∀ events : List (LogEvent ReplayCall),
        Guarded (LogStore.step (fileReplayStore ν bodyCipher))
          (WritesOnNewLine (fileReplayStore ν bodyCipher)) (.opened (fileReplayStore ν bodyCipher) []) events →
        Survives (fileReplayStore ν bodyCipher)
          (run (LogStore.step (fileReplayStore ν bodyCipher)) (.opened (fileReplayStore ν bodyCipher) []) events)
          (LogStore.attempts (fileReplayStore ν bodyCipher) (.opened (fileReplayStore ν bodyCipher) []) events) :=
  ⟨fun _ h => survives_of_writesOnNewLine (jsonlAuditStore_sound auditCipher) h,
    fun _ h => survives_of_writesOnNewLine (fileReplayStore_sound hcipher) h⟩

/-- A body as the store encrypts it. -/
def bodyJson (body : MessageBody) : JsonValue Nat where
  json := .object ([(key "text", textJson body.text)] ++ optionalMember "replyTo" body.replyTo ++
    optionalMember "thread" body.thread)
  distinct := by
    refine distinct_object.mpr ?_
    rcases body.replyTo with _ | replyTo <;> rcases body.thread with _ | thread <;>
      simp only [optionalMember, List.append_nil, List.cons_append, List.nil_append] <;>
      exact ⟨by simp only [List.map_cons, List.map_nil]; decide, by simp [textJson, Distinct]⟩

/-- The cipher that leaves the text of the body as it is. -/
def bodyTextCipher : BodyCipher Text where
  encrypt _ body := (bodyJson body).stringify
  decrypt text := do
    let value : JsonValue Nat ← JsonValue.parse text
    let text ← textProperty value.json "text"
    return ⟨text, textProperty value.json "replyTo", textProperty value.json "thread"⟩

theorem bodyTextCipher_inverts : bodyTextCipher.Inverts := by
  rintro nonce ⟨text, replyTo, thread⟩
  have hread : ∀ {value : Json Nat} {foundReply foundThread : Option Text},
      property value "text" = .ok (some (textJson text)) → textProperty value "replyTo" = foundReply →
      textProperty value "thread" = foundThread →
      ((textProperty value "text").bind fun text =>
        some (⟨text, textProperty value "replyTo", textProperty value "thread"⟩ : MessageBody)) =
        some ⟨text, foundReply, foundThread⟩ := by
    intro value foundReply foundThread h1 h2 h3
    rw [textProperty_some h1, h2, h3]
    rfl
  rw [bodyTextCipher]
  simp only [JsonValue.parse_stringify]
  rcases replyTo with _ | replyTo <;> rcases thread with _ | thread
  · exact hread rfl (textProperty_none rfl) (textProperty_none rfl)
  · exact hread rfl (textProperty_none rfl) (textProperty_some rfl)
  · exact hread rfl (textProperty_some rfl) (textProperty_none rfl)
  · exact hread rfl (textProperty_some rfl) (textProperty_some rfl)

omit [JsNumber ν] [DecidableEq ν] in
/-- A last append that returned is the last record. -/
theorem Recovered.last {attempts : List (JsonValue ν × Bool)} {records : List (JsonValue ν)}
    (h : Recovered attempts records) {record : JsonValue ν} (hlast : attempts.getLast? = some (record, true)) :
    records.getLast? = some record := by
  cases h with
  | nil => cases hlast
  | kept record' returned _ =>
    rw [List.getLast?_concat] at hlast ⊢
    cases hlast
    rfl
  | lost record' _ =>
    rw [List.getLast?_concat] at hlast
    cases hlast

def sampleClaim (id : String) : ReplayCall := .claim "p".toList id.toList "h".toList

/-- A crash inside a record, and an append by the next process. -/
theorem durable_logs_survive_cut : Survives (fileReplayStore Nat bodyTextCipher)
      (run (LogStore.step (fileReplayStore Nat bodyTextCipher)) (.opened (fileReplayStore Nat bodyTextCipher) [])
        [.append (sampleClaim "a"), .crash (sampleClaim "b") 20, .append (sampleClaim "c")])
      (LogStore.attempts (fileReplayStore Nat bodyTextCipher) (.opened (fileReplayStore Nat bodyTextCipher) [])
        [.append (sampleClaim "a"), .crash (sampleClaim "b") 20, .append (sampleClaim "c")]) :=
  (durable_logs_survive sampleHash (fun _ plaintext => plaintext) bodyTextCipher_inverts).2 _
    (by decide +kernel)

/-- The record of a sample claim. -/
def sampleText (id : String) : Text :=
  (ReplayLogRecord.json (.claim "p".toList id.toList "h".toList) : JsonValue Nat).stringify

/-- A crash that leaves the whole second record without its newline, and an append by the next process. -/
def unendedRun : List (LogEvent ReplayCall) :=
  [.append (sampleClaim "a"), .crash (sampleClaim "b") (utf8 (sampleText "b")).length, .append (sampleClaim "c")]

/-- The third record is lost with the second one: they stand on one line, which is no JSON. -/
theorem append_behind_record_lost : ¬ ∀ events : List (LogEvent ReplayCall),
      Survives (fileReplayStore Nat bodyTextCipher) (run (LogStore.step (fileReplayStore Nat bodyTextCipher))
          (.opened (fileReplayStore Nat bodyTextCipher) []) events)
        (LogStore.attempts (fileReplayStore Nat bodyTextCipher)
          (.opened (fileReplayStore Nat bodyTextCipher) []) events) := by
  intro h
  obtain ⟨records, file, memory, hread, -, hrecovered⟩ := h unendedRun
  have hfirst : (readJsonl (run (LogStore.step (fileReplayStore Nat bodyTextCipher))
      (.opened (fileReplayStore Nat bodyTextCipher) []) unendedRun).file :
        Except String (List (JsonValue Nat) × List UInt8)).map
          (fun read => read.1.map JsonValue.stringify) = .ok [sampleText "a"] := by decide +kernel
  have hthird : ((LogStore.attempts (fileReplayStore Nat bodyTextCipher)
      (.opened (fileReplayStore Nat bodyTextCipher) []) unendedRun).getLast?.map fun attempt =>
        (attempt.1.stringify, attempt.2)) = some (sampleText "c", true) := by decide +kernel
  obtain ⟨⟨record, returned⟩, hlast, hrecord⟩ := Option.map_eq_some_iff.mp hthird
  obtain ⟨hrecord, rfl⟩ := Prod.mk.inj hrecord
  have hkept := congrArg (Option.map JsonValue.stringify) (hrecovered.last hlast)
  rw [hread] at hfirst
  have hrecords : records.map JsonValue.stringify = [sampleText "a"] := Except.ok.inj hfirst
  rw [← List.getLast?_map, hrecords, Option.map_some, hrecord] at hkept
  exact absurd hkept (by decide +kernel)

end OpenClaw.Reef
