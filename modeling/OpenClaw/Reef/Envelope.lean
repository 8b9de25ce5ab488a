/-
# OpenClaw.Reef.Envelope -- envelopes, their bodies, and what is checked of both

A body is checked as the value that arrives, an envelope as a record of the fields its type names.  The
checks are pure: `sealedEnvelope` makes an envelope from the bytes that were drawn for it, `verifySignature`
and `readPlaintext` are the two halves of opening one, before and after the replay claim.

This follows `envelope.ts` and `parseHandleEpoch` of `identity.ts`.  The curves and the cipher are
parameters.  A string that is no well-formed text fails the checks of a body; ids, names and keys are texts.
-/
import OpenClaw.Reef.Receipts

namespace OpenClaw.Reef

open OpenClaw.Data OpenClaw.Logic Json

/-! ## Errors -/

inductive ProtocolErrorCode where
  | badSignature
  | notPinned
  | wrongRecipient
  | expired
  | replayed
  | tooLarge
  | malformed
  deriving DecidableEq

def ProtocolErrorCode.text : ProtocolErrorCode → String
  | .badSignature => "bad_signature"
  | .notPinned => "not_pinned"
  | .wrongRecipient => "wrong_recipient"
  | .expired => "expired"
  | .replayed => "replayed"
  | .tooLarge => "too_large"
  | .malformed => "malformed"

structure ProtocolError where
  code : ProtocolErrorCode
  message : String
  deriving DecidableEq

/-- The error of a class without a message of its own. -/
def ProtocolErrorCode.error (code : ProtocolErrorCode) : ProtocolError := ⟨code, code.text⟩

def malformedError (message : String) : ProtocolError := ⟨.malformed, message⟩

/-! ## Handles -/

structure HandleEpoch where
  handle : Text
  keyEpoch : Nat
  deriving DecidableEq

/-- `[a-z0-9]`, in either case. -/
def isHandleStart (c : Char) : Bool := isLower c || isUpper c || isDigit c

/-- `[1-9][0-9]*` -/
def isEpochText (text : Text) : Bool := isDigits text && text.head? ≠ some '0'

def parseHandleEpoch (value : Text) : Except String HandleEpoch :=
  let handle := value.takeWhile (· ≠ '#')
  let epoch := (value.dropWhile (· ≠ '#')).drop 1
  if '#' ∈ value ∧ matchesHeadTail isHandleStart (fun c => isHandleStart c || c = '_' || c = '-') 62 handle ∧
      isEpochText epoch then
    match numberOfDigits epoch with
    | some keyEpoch =>
      if isSafeInteger keyEpoch then .ok ⟨handle, keyEpoch⟩ else .error "invalid key epoch"
    | none => .error "invalid key epoch"
  else .error "invalid handle#key_epoch"

/-! ## Numbers -/

/-- The numbers of JavaScript, with what a check of a time needs. -/
class JsArithmetic (ν : Type) extends JsNumber ν where
  literal : Nat → ν
  plus : ν → ν → ν
  minus : ν → ν → ν
  /-- `left < right` -/
  less : ν → ν → Bool

instance : JsArithmetic Nat where
  literal := id
  plus := Nat.add
  minus := Nat.sub
  less left right := decide (left < right)

/-! ## Envelopes -/

structure Envelope (ν : Type) where
  v : ν
  id : Text
  sender : Text
  recipient : Text
  ts : ν
  epk : Text
  n : Text
  ct : Text
  sig : Text

variable {ν : Type}

def Envelope.unsignedMembers (envelope : Envelope ν) : List (JsString × Json ν) :=
  [(key "v", .number envelope.v), (key "id", textJson envelope.id), (key "from", textJson envelope.sender),
    (key "to", textJson envelope.recipient), (key "ts", .number envelope.ts),
    (key "epk", textJson envelope.epk), (key "n", textJson envelope.n), (key "ct", textJson envelope.ct)]

/-- `const { sig, ...unsigned } = envelope` -/
def Envelope.unsignedJson (envelope : Envelope ν) : Json ν := .object envelope.unsignedMembers

def Envelope.json (envelope : Envelope ν) : Json ν :=
  .object (envelope.unsignedMembers ++ [(key "sig", textJson envelope.sig)])

def maxPlaintext : Nat := 32 * 1024

def maxCiphertextBase64 : Nat := 44752

def maxEnvelopeBytes : Nat := 48 * 1024

section Checks

variable [JsNumber ν]

def isSafeNumber (n : ν) : Bool := (JsNumber.integer n).any isSafeInteger

def validateEnvelopeMetadata (id sender recipient : Text) (ts : ν) : Except ProtocolError Unit :=
  if !isUlid id || !isSafeNumber ts || (JsNumber.integer ts).any (· < 0) then
    .error (malformedError "invalid envelope metadata")
  else
    match parseHandleEpoch sender, parseHandleEpoch recipient with
    | .ok _, .ok _ => .ok ()
    | _, _ => .error (malformedError "invalid envelope peer")

/-- The text is bytes in base64, this many of them. -/
def isBase64Of (count : Nat) (value : Text) : Bool := (fromBase64 value).toOption.any (·.length = count)

/-- `validateEnvelope` on a record whose fields have their types. -/
def validateEnvelope (envelope : Envelope ν) : Except ProtocolError Unit :=
  if !isSafeNumber envelope.ts then .error ProtocolErrorCode.malformed.error
  else if envelope.id.jsLength ≠ 26 then .error (malformedError "invalid envelope id length")
  else if 80 < envelope.sender.jsLength ∨ 80 < envelope.recipient.jsLength ∨ 46 < envelope.epk.jsLength ∨
      18 < envelope.n.jsLength ∨ 90 < envelope.sig.jsLength ∨ maxCiphertextBase64 < envelope.ct.jsLength then
    .error ProtocolErrorCode.tooLarge.error
  else if !isBase64Of 32 envelope.epk || !isBase64Of 12 envelope.n || !isBase64Of 64 envelope.sig ||
      !(fromBase64 envelope.ct).toOption.isSome then
    .error ProtocolErrorCode.malformed.error
  else if maxEnvelopeBytes < (canonicalBytes envelope.json).length then .error ProtocolErrorCode.tooLarge.error
  else .ok ()

end Checks

/-! ## Bodies -/

/-- A body whose strings have not been looked at. -/
structure RawBody where
  text : JsString
  replyTo : Option JsString := none
  thread : Option JsString := none
  deriving DecidableEq

/-- The properties of a value, none of them but the three of a body, each a string. -/
def rawBodyOf (value : Json ν) : Except ProtocolError RawBody :=
  match value with
  | .object members =>
    if !members.all fun member => member.1 ∈ ["text", "replyTo", "thread"].map key then
      .error (malformedError "invalid body")
    else
      match stringOf (property value "text"), property value "replyTo", property value "thread" with
      | some text, .ok replyTo, .ok thread =>
        if replyTo.isSome ∧ stringOf (.ok replyTo) = none ∨ thread.isSome ∧ stringOf (.ok thread) = none then
          .error (malformedError "invalid body")
        else .ok ⟨text, stringOf (.ok replyTo), stringOf (.ok thread)⟩
      | _, _, _ => .error (malformedError "invalid body")
  | _ => .error (malformedError "invalid body")

/-- `validateMessageBody` from the checks of identifiers on: the body that it has accepted. -/
def readMessageBody (body : RawBody) : Except ProtocolError MessageBody :=
  let isUlidString (value : JsString) := (textOf value).any isUlid
  if !body.replyTo.all isUlidString || !body.thread.all isUlidString then
    .error (malformedError "invalid body identifier")
  else
    match textOf body.text with
    | none => .error (malformedError "invalid UTF-8 body")
    | some text =>
      let accepted : MessageBody := ⟨text, body.replyTo.bind textOf, body.thread.bind textOf⟩
      match validateMessageBody accepted with
      | .error message => .error (malformedError message)
      | .ok () => .ok accepted

def MessageBody.json (body : MessageBody) : Json ν :=
  .object ((key "text", textJson body.text) ::
    (optionalMember "replyTo" body.replyTo ++ optionalMember "thread" body.thread))

/-! ## Cryptography -/

/-- SHA-256, Ed25519, X25519 with the key derivation, and AES-GCM.  Each may throw on its arguments. -/
structure Crypto where
  sha256 : Hash
  sign : List UInt8 → List UInt8 → Except String (List UInt8)
  verify : List UInt8 → List UInt8 → List UInt8 → Except String Bool
  /-- The secret and the public key of a seed. -/
  keygen : List UInt8 → Except String (List UInt8 × List UInt8)
  getSharedSecret : List UInt8 → List UInt8 → Except String (List UInt8)
  hkdf : List UInt8 → List UInt8
  encrypt : List UInt8 → List UInt8 → List UInt8 → Except String (List UInt8)
  decrypt : List UInt8 → List UInt8 → List UInt8 → Except String (List UInt8)

/-- An error of the pure code: of the protocol, or of something it calls. -/
inductive EnvelopeError where
  | protocol (error : ProtocolError)
  | other (message : String)
  deriving DecidableEq

def otherError {α : Type} : Except String α → Except EnvelopeError α := Except.mapError .other

def protocolError {α : Type} : Except ProtocolError α → Except EnvelopeError α := Except.mapError .protocol

def decodeKey (value : Text) : Except EnvelopeError (List UInt8) := do
  let bytes ← otherError (fromBase64url value)
  if bytes.length ≠ 32 then .error (.protocol (malformedError "invalid key length")) else .ok bytes

section Cryptography

variable [JsArithmetic ν] (crypto : Crypto)

def envelopeHash (envelope : Envelope ν) : Text := hex (crypto.sha256.digest (canonicalBytes envelope.json))

def bodyHash (ν : Type) [JsArithmetic ν] (body : MessageBody) : Text :=
  hex (crypto.sha256.digest (canonicalBytes (body.json : Json ν)))

/-- What `seal` makes of its checked arguments and of the bytes that its `rng` returned. -/
def sealedEnvelope (id sender recipient : Text) (plaintext : List UInt8) (ts : ν)
    (recipientEncryptionPublicKey senderSigningSecretKey : Text)
    (keys : List UInt8 × List UInt8) (nonce : List UInt8) :
    Except EnvelopeError (Envelope ν) := do
  let encryptionKey ← decodeKey recipientEncryptionPublicKey
  let shared ← otherError (crypto.getSharedSecret keys.1 encryptionKey)
  if nonce.length ≠ 12 then throw (.protocol (malformedError "rng returned invalid nonce"))
  let ct ← otherError (crypto.encrypt (crypto.hkdf shared) nonce plaintext)
  let unsigned : Envelope ν :=
    ⟨JsArithmetic.literal 1, id, sender, recipient, ts, base64 keys.2, base64 nonce, base64 ct, []⟩
  let secretKey ← decodeKey senderSigningSecretKey
  let sig ← otherError (crypto.sign (canonicalBytes unsigned.unsignedJson) secretKey)
  return { unsigned with sig := base64 sig }

/-- The signature check; what throws in it is a bad signature. -/
def verifySignature (envelope : Envelope ν) (senderSigningPublicKey : Text) : Bool :=
  let checked := do
    let sig ← otherError (fromBase64 envelope.sig)
    let publicKey ← decodeKey senderSigningPublicKey
    otherError (crypto.verify sig (canonicalBytes envelope.unsignedJson) publicKey)
  checked.toOption.getD false

structure OpenLimits (ν : Type) where
  maxAgeSeconds : ν
  maxFutureSkewSeconds : ν

/-- What is read from a claimed envelope at a time, or why it is not. -/
def readPlaintext (envelope : Envelope ν) (recipientEncryptionSecretKey : Text) (limits : OpenLimits ν)
    (now : ν) : Except EnvelopeError MessageBody := do
  if JsArithmetic.less (JsArithmetic.plus now limits.maxFutureSkewSeconds) envelope.ts ||
      JsArithmetic.less envelope.ts (JsArithmetic.minus now limits.maxAgeSeconds) then
    throw (.protocol ProtocolErrorCode.expired.error)
  let secretKey ← decodeKey recipientEncryptionSecretKey
  let epk ← otherError (fromBase64 envelope.epk)
  let shared ← otherError (crypto.getSharedSecret secretKey epk)
  let nonce ← otherError (fromBase64 envelope.n)
  let ct ← otherError (fromBase64 envelope.ct)
  let plaintext ← otherError (crypto.decrypt (crypto.hkdf shared) nonce ct)
  if maxPlaintext < plaintext.length then throw (.protocol ProtocolErrorCode.tooLarge.error)
  let value ← match (decodeUtf8 plaintext).bind (JsonValue.parse : Text → Option (JsonValue ν)) with
    | some value => pure value
    | none => throw (.other "SyntaxError")
  let raw ← protocolError (rawBodyOf value.json)
  protocolError (readMessageBody raw)

end Cryptography

end OpenClaw.Reef
