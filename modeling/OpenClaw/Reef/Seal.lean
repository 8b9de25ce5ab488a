/-
# OpenClaw.Reef.Seal -- sealing a body, and opening what was sealed

`seal` checks its arguments, encrypts the canonical JSON of the body under a fresh key and signs the envelope.
`openClaimed` checks an envelope, claims its id from a replay store, and only then decrypts and reads the
body; when that fails it releases the claim.

This follows `envelope.ts`.  A body is a record of own properties, and a replay store is what answers the
requests of `openClaimed`.
-/
import OpenClaw.Logic.Traces
import OpenClaw.Reef.EnvelopeSize

namespace OpenClaw.Reef

open OpenClaw.Data OpenClaw.Logic Json

variable {ν : Type}

/-! ## Sealing -/

structure SealOptions (ν : Type) where
  id : Text
  sender : Text
  recipient : Text
  body : RawBody
  senderSigningSecretKey : Text
  recipientEncryptionPublicKey : Text
  ts : Option ν := none

/-- `Math.floor(Date.now() / 1000)` at each time that it is read. -/
structure SystemClock (ν : Type) [JsNumber ν] where
  now : Nat → ν
  isTime_now : ∀ reading, isTime (now reading) = true

section Seal

variable [JsArithmetic ν] (crypto : Crypto)

/-- `seal(options)`: a keyword of Lean; `rng` says what each of the two draws returns. -/
def sealEnvelope (options : SealOptions ν) (clock : SystemClock ν) (rng : Nat → List UInt8) :
    Except EnvelopeError (Envelope ν) := do
  protocolError (validateEnvelopeMetadata options.id options.sender options.recipient
    (options.ts.getD (clock.now 0)))
  let body ← protocolError (readMessageBody options.body)
  let plaintext := canonicalBytes (body.json : Json ν)
  if maxPlaintext < plaintext.length then throw (.protocol ProtocolErrorCode.tooLarge.error)
  let keys ← otherError (crypto.keygen (rng 0))
  sealedEnvelope crypto options.id options.sender options.recipient plaintext (options.ts.getD (clock.now 1))
    options.recipientEncryptionPublicKey options.senderSigningSecretKey keys (rng 1)

end Seal

/-! ## Opening -/

inductive ReplayRequest where
  | claim (peer id envelopeHash : Text)
  | completed (peer id : Text)
  | release (peer id : Text)

/-- What a request to the store resolves to. -/
abbrev ReplayRequest.Answer : ReplayRequest → Type
  | .claim _ _ _ => ReplayClaim
  | .completed _ _ => Option CompletedReplay
  | .release _ _ => Unit

structure OpenOptions (ν : Type) where
  envelope : Envelope ν
  self : Text
  recipientEncryptionSecretKey : Text
  senderSigningPublicKey : Option Text
  now : ν
  limits : OpenLimits ν

inductive ClaimedOpenResult where
  | new (body : MessageBody) (envelopeHash : Text)
  | duplicate (completed : Option CompletedReplay)

def replayedError (message : String) : EnvelopeError := .protocol ⟨.replayed, message⟩

/-- What is thrown when reading a claimed envelope failed. -/
def EnvelopeError.rethrown : EnvelopeError → EnvelopeError
  | .protocol error => .protocol error
  | .other _ => .protocol ProtocolErrorCode.malformed.error

section Open

variable [JsArithmetic ν] [DecidableEq ν] (crypto : Crypto) (options : OpenOptions ν)

/-- `openClaimed` up to the claim: the peer and the hash. -/
def admitEnvelope : Except EnvelopeError (Text × Text) := do
  protocolError (validateEnvelope options.envelope)
  match options.senderSigningPublicKey.filter (· ≠ []) with
  | none => throw (.protocol ProtocolErrorCode.notPinned.error)
  | some publicKey =>
    if !verifySignature crypto options.envelope publicKey then
      throw (.protocol ProtocolErrorCode.badSignature.error)
    if options.envelope.v ≠ JsArithmetic.literal 1 then throw (.protocol ProtocolErrorCode.malformed.error)
    protocolError (validateEnvelopeMetadata options.envelope.id options.envelope.sender options.envelope.recipient
      options.envelope.ts)
    if options.envelope.recipient ≠ options.self then throw (.protocol ProtocolErrorCode.wrongRecipient.error)
    let peer ← otherError (parseHandleEpoch options.envelope.sender)
    return (peer.handle, envelopeHash crypto options.envelope)

/-- The end of `openClaimed`, with what reading a claimed envelope gave. -/
def openRead (peer hash : Text) :
    Except EnvelopeError MessageBody → Throwing EnvelopeError ReplayRequest.Answer ClaimedOpenResult
  | .ok body => return .new body hash
  | .error error => do
    let _ ← Throwing.ask (ReplayRequest.release peer options.envelope.id)
    throw error.rethrown

/-- `openClaimed` from the claim on. -/
def openAdmitted (peer hash : Text) : Throwing EnvelopeError ReplayRequest.Answer ClaimedOpenResult := do
  let claim : ReplayClaim ← Throwing.ask (ReplayRequest.claim peer options.envelope.id hash)
  match claim with
  | .mismatch => throw (replayedError "replay id binding mismatch")
  | .inFlight => throw (replayedError "in flight")
  | .duplicate => do
    let completed ← Throwing.ask (ReplayRequest.completed peer options.envelope.id)
    return .duplicate completed
  | .new =>
    openRead options peer hash
      (readPlaintext crypto options.envelope options.recipientEncryptionSecretKey options.limits options.now)

/-- `openClaimed(options)` -/
def openClaimed : Throwing EnvelopeError ReplayRequest.Answer ClaimedOpenResult := do
  let admitted ← Throwing.compute (admitEnvelope crypto options)
  openAdmitted crypto options admitted.1 admitted.2

end Open

/-! ## Stores -/

def ReplayRequest.call : ReplayRequest → ReplayCall
  | .claim peer id envelopeHash => .claim peer id envelopeHash
  | .completed peer id => .completed peer id
  | .release peer id => .release peer id

/-- What the caller of a store sees; the last case does not come up. -/
def ReplayRequest.reply : (request : ReplayRequest) → ReplayResult → Except EnvelopeError request.Answer
  | .claim _ _ _, .claimed found => .ok found
  | .completed _ _, .completed found => .ok found
  | .release _ _, .done => .ok ()
  | _, .threw message => .error (.other message)
  | _, _ => .error (.other "TypeError")

/-- A replay store: how it answers, and which claims are in flight. -/
structure ReplayStore (σ χ : Type) where
  handle : σ → (request : ReplayRequest) → χ → σ × Except EnvelopeError request.Answer
  inFlight : σ → Text → Text → Prop
  not_inFlight : ∀ st peer id chance, (handle st (.release peer id) chance).2 = .ok () →
    ¬ inFlight (handle st (.release peer id) chance).1 peer id

theorem filter_set_available (bindings : Bindings) (key : Text) (record : ReplayRecord) :
    ((bindings.set key { record with state := .available }) key).filter (·.state = .inFlight) = none := by
  rw [Bindings.set, if_pos rfl]
  rfl

/-! ### In memory -/

def memoryHandle (bindings : Bindings) (request : ReplayRequest) (_ : Unit) :
    Bindings × Except EnvelopeError request.Answer :=
  let (result, bindings) := MemoryReplayStore.call bindings request.call
  (bindings, request.reply result)

theorem memory_not_inFlight (bindings : Bindings) (peer id : Text) (chance : Unit)
    (_ : (memoryHandle bindings (.release peer id) chance).2 = .ok ()) :
    ¬ (MemoryReplayStore.inFlight (memoryHandle bindings (.release peer id) chance).1 peer id).isSome = true := by
  show ¬ (MemoryReplayStore.inFlight (MemoryReplayStore.release bindings peer id).2 peer id).isSome = true
  unfold MemoryReplayStore.release
  split
  · rename_i hnone
    simp [hnone]
  · rename_i existing hsome
    rw [MemoryReplayStore.inFlight, filter_set_available]
    simp

def memoryStore : ReplayStore Bindings Unit where
  handle := memoryHandle
  inFlight bindings peer id := (MemoryReplayStore.inFlight bindings peer id).isSome
  not_inFlight := memory_not_inFlight

/-! ### On a file -/

section File

variable {ε : Type} (cipher : BodyCipher ε)

/-- A call while the file may not be written: then a call that appends throws, and nothing is changed. -/
def FileReplayStore.attempt (st : FileReplayStore ε) (request : ReplayCall) (writable : Bool) :
    ReplayResult × FileReplayStore ε :=
  match st.load cipher with
  | (.error message, st) => (.threw message, st)
  | (.ok (), st) =>
    let (result, after) := st.callLoaded cipher request
    if writable ∨ after.log.length = st.log.length then (result, after) else (.threw "ENOSPC", st)

def fileHandle (st : FileReplayStore ε) (request : ReplayRequest) (writable : Bool) :
    FileReplayStore ε × Except EnvelopeError request.Answer :=
  let (result, st) := st.attempt cipher request.call writable
  (st, request.reply result)

theorem release_not_inFlight (st : FileReplayStore ε) (peer id : Text) :
    ¬ ((st.release peer id).2.inFlight peer id).isSome = true := by
  unfold FileReplayStore.release
  split
  · rename_i hnone
    simp [hnone]
  · rename_i existing hsome
    rw [FileReplayStore.inFlight, FileReplayStore.appendSet, filter_set_available]
    simp

/-- A call throws, or it is one on a store that is loaded. -/
theorem attempt_cases (st : FileReplayStore ε) (request : ReplayCall) (writable : Bool) :
    (∃ message st', st.attempt cipher request writable = (.threw message, st')) ∨
      ∃ loaded : FileReplayStore ε, st.attempt cipher request writable = loaded.callLoaded cipher request := by
  unfold FileReplayStore.attempt
  split
  · exact .inl ⟨_, _, rfl⟩
  · rename_i loaded hload
    by_cases hwritten : writable = true ∨ (loaded.callLoaded cipher request).2.log.length = loaded.log.length
    · exact .inr ⟨loaded, if_pos hwritten⟩
    · exact .inl ⟨_, _, if_neg hwritten⟩

theorem file_not_inFlight (st : FileReplayStore ε) (peer id : Text) (writable : Bool)
    (h : (fileHandle cipher st (.release peer id) writable).2 = .ok ()) :
    ¬ ((fileHandle cipher st (.release peer id) writable).1.inFlight peer id).isSome = true := by
  simp only [fileHandle, ReplayRequest.call] at h ⊢
  rcases attempt_cases cipher st (.release peer id) writable with ⟨message, st', hattempt⟩ | ⟨loaded, hattempt⟩
  · rw [hattempt] at h
    cases h
  · rw [hattempt]
    exact release_not_inFlight loaded peer id

def fileStore : ReplayStore (FileReplayStore ε) Bool where
  handle := fileHandle cipher
  inFlight st peer id := (st.inFlight peer id).isSome
  not_inFlight := file_not_inFlight cipher

end File

end OpenClaw.Reef
