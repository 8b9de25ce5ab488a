/-
# OpenClaw.Reef.ReplayStore -- replay protection for received envelopes

A replay store binds the id of a peer's envelope to the hash of the first envelope claimed under it.
`MemoryReplayStore` keeps the bindings in a map.  `FileReplayStore` keeps the same map, appends a log
record before each change, and after a restart interprets the log again: there a claim whose end the
log does not know is available once more.  The bodies in the log are encrypted.

This follows `replay.ts` and `FileReplayStore` of `node.ts`.  The cipher is a parameter, and a log
record is written and read back whole.
-/
import OpenClaw.Data.JsNumeral
import OpenClaw.Logic.Run

namespace OpenClaw.Reef

open OpenClaw.Data

/-! ## Bodies and receipts -/

structure MessageBody where
  text : Text
  replyTo : Option Text := none
  thread : Option Text := none
  deriving DecidableEq

inductive ReceiptStatus where
  | accepted
  | rejected
  deriving DecidableEq

structure SignedReceipt where
  id : Text
  bodyHash : Text
  auditHead : Text
  status : ReceiptStatus
  category : Option Text
  signature : Text
  deriving DecidableEq

/-- `[0-9A-HJKMNP-TV-Z]` -/
def isUlidChar (c : Char) : Bool := isDigit c || (isUpper c && c ≠ 'I' && c ≠ 'L' && c ≠ 'O' && c ≠ 'U')

/-- `ULID_PATTERN` -/
def isUlid (text : Text) : Bool :=
  text.length = 26 && text.all isUlidChar && (text.head?.any fun c => '0' ≤ c && c ≤ '7')

/-- `decodeUtf8(utf8(text))`: the decoder drops a byte order mark. -/
def decodeUtf8Utf8 : Text → Text
  | '\uFEFF' :: rest => rest
  | text => text

/-- `validateMessageBody` on a value of the body's type. -/
def validateMessageBody (body : MessageBody) : Except String Unit :=
  if !body.replyTo.all isUlid || !body.thread.all isUlid then .error "invalid body identifier"
  else if [some body.text, body.replyTo, body.thread].any fun field =>
      field.any fun text => decodeUtf8Utf8 text ≠ text then .error "invalid UTF-8 body"
  else .ok ()

/-! ## Bindings -/

inductive ReplayState where
  | available
  | inFlight
  | completed
  | consumed
  deriving DecidableEq

/-- What a store holds of one message. -/
structure ReplayRecord where
  envelopeHash : Text
  state : ReplayState
  receipt : Option SignedReceipt := none
  body : Option MessageBody := none
  deriving DecidableEq

def replayKey (peer id : Text) : Text := peer ++ '\n' :: id

/-- The map from replay keys to records. -/
abbrev Bindings := Text → Option ReplayRecord

def Bindings.set (bindings : Bindings) (key : Text) (record : ReplayRecord) : Bindings :=
  fun key' => if key' = key then some record else bindings key'

/-- What a claim is answered. -/
inductive ReplayClaim where
  | new
  | duplicate
  | mismatch
  | inFlight
  deriving DecidableEq

/-- What is read back of a completed message. -/
structure CompletedReplay where
  receipt : SignedReceipt
  body : Option MessageBody
  deriving DecidableEq

inductive ReplayCall where
  | claim (peer id envelopeHash : Text)
  /-- With the bytes that the store draws for its cipher. -/
  | complete (peer id : Text) (receipt : SignedReceipt) (body : Option MessageBody) (nonce : List UInt8)
  | consume (peer id : Text)
  | release (peer id : Text)
  | completed (peer id : Text)

inductive ReplayResult where
  | claimed (claim : ReplayClaim)
  | done
  | completed (replay : Option CompletedReplay)
  | threw (message : String)
  deriving DecidableEq

def notInFlight : ReplayResult := .threw "replay claim is not in flight"

/-- A body comes with an acceptance, and with nothing else. -/
def validateCompletion (receipt : SignedReceipt) (body : Option MessageBody) : Except String Unit :=
  if decide (receipt.status = .accepted) ≠ body.isSome then
    .error "accepted replay completion requires body; rejected completion forbids body"
  else .ok ()

/-- What `completed` reads from a record. -/
def completedReplay (existing : Option ReplayRecord) : Option CompletedReplay :=
  match existing with
  | some record =>
    if record.state = .completed then record.receipt.map (⟨·, record.body⟩) else none
  | none => none

/-! ## In memory -/

namespace MemoryReplayStore

variable (bindings : Bindings)

def claim (peer id envelopeHash : Text) : ReplayResult × Bindings :=
  match bindings (replayKey peer id) with
  | none => (.claimed .new, bindings.set (replayKey peer id) ⟨envelopeHash, .inFlight, none, none⟩)
  | some existing =>
    if existing.envelopeHash ≠ envelopeHash then (.claimed .mismatch, bindings)
    else match existing.state with
      | .completed | .consumed => (.claimed .duplicate, bindings)
      | .inFlight => (.claimed .inFlight, bindings)
      | .available => (.claimed .new, bindings.set (replayKey peer id) { existing with state := .inFlight })

/-- The record that is in flight under a key. -/
def inFlight (peer id : Text) : Option ReplayRecord := (bindings (replayKey peer id)).filter (·.state = .inFlight)

def complete (peer id : Text) (receipt : SignedReceipt) (body : Option MessageBody) : ReplayResult × Bindings :=
  match inFlight bindings peer id with
  | none => (notInFlight, bindings)
  | some existing =>
    if receipt.id ≠ id then (.threw "receipt id does not match replay claim", bindings)
    else match validateCompletion receipt body with
      | .error message => (.threw message, bindings)
      | .ok () =>
        (.done, bindings.set (replayKey peer id)
          { existing with state := .completed, receipt := some receipt, body := body.or existing.body })

def consume (peer id : Text) : ReplayResult × Bindings :=
  match inFlight bindings peer id with
  | none => (notInFlight, bindings)
  | some existing =>
    (.done, bindings.set (replayKey peer id)
      { existing with state := .consumed, receipt := none, body := none })

def release (peer id : Text) : ReplayResult × Bindings :=
  match inFlight bindings peer id with
  | none => (.done, bindings)
  | some existing => (.done, bindings.set (replayKey peer id) { existing with state := .available })

def completed (peer id : Text) : ReplayResult × Bindings :=
  (.completed (completedReplay (bindings (replayKey peer id))), bindings)

def call : ReplayCall → ReplayResult × Bindings
  | .claim peer id envelopeHash => claim bindings peer id envelopeHash
  | .complete peer id receipt body _ => complete bindings peer id receipt body
  | .consume peer id => consume bindings peer id
  | .release peer id => release bindings peer id
  | .completed peer id => completed bindings peer id

end MemoryReplayStore

/-! ## On a file -/

/-- Encryption of bodies under the store's key; a text that does not decrypt to a body gives none. -/
structure BodyCipher (ε : Type) where
  encrypt : List UInt8 → MessageBody → ε
  decrypt : ε → Option MessageBody

/-- What is encrypted is read back. -/
def BodyCipher.Inverts {ε : Type} (cipher : BodyCipher ε) : Prop :=
  ∀ nonce body, cipher.decrypt (cipher.encrypt nonce body) = some body

inductive ReplayLogRecord (ε : Type) where
  | claim (peer id envelopeHash : Text)
  | complete (peer id : Text) (receipt : SignedReceipt) (body : Option ε)
  | consume (peer id : Text)
  | release (peer id : Text)

/-- The log, and the bindings once they are loaded from it. -/
structure FileReplayStore (ε : Type) where
  /-- The records of the file. -/
  log : List (ReplayLogRecord ε)
  bindings : Bindings
  loaded : Bool

namespace FileReplayStore

variable {ε : Type} (cipher : BodyCipher ε)

/-- No file, and an instance that has not looked for it. -/
def fresh : FileReplayStore ε := ⟨[], fun _ => none, false⟩

def encryptReplayBody (nonce : List UInt8) (body : MessageBody) : Except String ε := do
  validateMessageBody body
  if nonce.length ≠ 12 then throw "replay body rng returned invalid nonce"
  return cipher.encrypt nonce body

def decryptReplayBody (body : ε) : Except String MessageBody :=
  match cipher.decrypt body with
  | none => .error "invalid encrypted replay body"
  | some value => do
    validateMessageBody value
    return value

/-- One record of the log, as the loading loop takes it. -/
def replayRecord (bindings : Bindings) : ReplayLogRecord ε → Except String Bindings
  | .claim peer id envelopeHash =>
    match (bindings (replayKey peer id)).filter (·.envelopeHash ≠ envelopeHash) with
    | some _ => .error "corrupt replay binding store"
    | none => .ok (bindings.set (replayKey peer id) ⟨envelopeHash, .available, none, none⟩)
  | .complete peer id receipt body =>
    match bindings (replayKey peer id) with
    | none => .error "completed replay lacks claim"
    | some existing => do
      let body ← match body with
        | none => pure none
        | some body => (decryptReplayBody cipher body).map some
      validateCompletion receipt body
      return bindings.set (replayKey peer id)
        { existing with state := .completed, receipt := some receipt, body := body.or existing.body }
  | .consume peer id =>
    match bindings (replayKey peer id) with
    | none => .error "consumed replay lacks claim"
    | some existing =>
      .ok (bindings.set (replayKey peer id)
        { existing with state := .consumed, receipt := none, body := none })
  | .release peer id =>
    match bindings (replayKey peer id) with
    | none => .error "released replay lacks claim"
    | some existing => .ok (bindings.set (replayKey peer id) { existing with state := .available })

/-- The loop over the log; it stops at the first record that it cannot take. -/
def replayLog (bindings : Bindings) : List (ReplayLogRecord ε) → Except String Unit × Bindings
  | [] => (.ok (), bindings)
  | record :: rest =>
    match replayRecord cipher bindings record with
    | .error message => (.error message, bindings)
    | .ok bindings => replayLog bindings rest

variable (st : FileReplayStore ε)

def load : Except String Unit × FileReplayStore ε :=
  if st.loaded then (.ok (), st)
  else
    match replayLog cipher st.bindings st.log with
    | (.ok (), bindings) => (.ok (), { st with bindings, loaded := true })
    | (.error message, bindings) => (.error message, { st with bindings })

/-- Append a record, then change a binding. -/
def appendSet (record : ReplayLogRecord ε) (key : Text) (binding : ReplayRecord) : FileReplayStore ε :=
  { st with log := st.log ++ [record], bindings := st.bindings.set key binding }

def claim (peer id envelopeHash : Text) : ReplayResult × FileReplayStore ε :=
  match st.bindings (replayKey peer id) with
  | none =>
    (.claimed .new, st.appendSet (.claim peer id envelopeHash) (replayKey peer id)
      ⟨envelopeHash, .inFlight, none, none⟩)
  | some existing =>
    if existing.envelopeHash ≠ envelopeHash then (.claimed .mismatch, st)
    else match existing.state with
      | .completed | .consumed => (.claimed .duplicate, st)
      | .inFlight => (.claimed .inFlight, st)
      | .available =>
        (.claimed .new, st.appendSet (.claim peer id envelopeHash) (replayKey peer id)
          { existing with state := .inFlight })

def inFlight (peer id : Text) : Option ReplayRecord := (st.bindings (replayKey peer id)).filter (·.state = .inFlight)

def complete (peer id : Text) (receipt : SignedReceipt) (body : Option MessageBody)
    (nonce : List UInt8) : ReplayResult × FileReplayStore ε :=
  match st.inFlight peer id with
  | none => (notInFlight, st)
  | some existing =>
    if receipt.id ≠ id then (.threw "receipt id does not match replay claim", st)
    else match validateCompletion receipt body with
      | .error message => (.threw message, st)
      | .ok () =>
        match body.mapM (encryptReplayBody cipher nonce) with
        | .error message => (.threw message, st)
        | .ok encrypted =>
          (.done, st.appendSet (.complete peer id receipt encrypted) (replayKey peer id)
            { existing with
              state := .completed, receipt := some receipt, body := body.or existing.body })

def consume (peer id : Text) : ReplayResult × FileReplayStore ε :=
  match st.inFlight peer id with
  | none => (notInFlight, st)
  | some existing =>
    (.done, st.appendSet (.consume peer id) (replayKey peer id)
      { existing with state := .consumed, receipt := none, body := none })

def release (peer id : Text) : ReplayResult × FileReplayStore ε :=
  match st.inFlight peer id with
  | none => (.done, st)
  | some existing => (.done, st.appendSet (.release peer id) (replayKey peer id) { existing with state := .available })

def completed (peer id : Text) : ReplayResult × FileReplayStore ε :=
  (.completed (completedReplay (st.bindings (replayKey peer id))), st)

/-- A call on a loaded store. -/
def callLoaded : ReplayCall → ReplayResult × FileReplayStore ε
  | .claim peer id envelopeHash => st.claim peer id envelopeHash
  | .complete peer id receipt body nonce => st.complete cipher peer id receipt body nonce
  | .consume peer id => st.consume peer id
  | .release peer id => st.release peer id
  | .completed peer id => st.completed peer id

/-- Every call loads first, under the store's lock. -/
def call (request : ReplayCall) : ReplayResult × FileReplayStore ε :=
  match st.load cipher with
  | (.error message, st) => (.threw message, st)
  | (.ok (), st) => st.callLoaded cipher request

/-- A new process opens the same file. -/
def restart : FileReplayStore ε := ⟨st.log, fun _ => none, false⟩

end FileReplayStore

/-! ## Runs -/

inductive ReplayEvent where
  | call (request : ReplayCall)
  | restart

def fileStep {ε : Type} (cipher : BodyCipher ε) (st : FileReplayStore ε) :
    ReplayEvent → FileReplayStore ε
  | .call request => (st.call cipher request).2
  | .restart => st.restart

def memoryStep (bindings : Bindings) (request : ReplayCall) : Bindings := (MemoryReplayStore.call bindings request).2

end OpenClaw.Reef
