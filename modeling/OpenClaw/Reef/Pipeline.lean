/-
# OpenClaw.Reef.Pipeline -- the guarded way of a message out, and in

A message passes deterministic checks, a guard and, where the guard wants it, a review, before `composeOutbound`
seals it or `composeInbound` accepts it.  Every step is audited before the next one.  An envelope that was claimed
anew is completed with a receipt, or its claim is given back.

This follows `pipeline.ts` and `deterministicChecks` of `checks.ts`; the patterns and the entropy of the checks
are a parameter.  Guard, review gate, audit log and replay store answer requests, and each may throw anything.
-/
import OpenClaw.Reef.Guard
import OpenClaw.Reef.Seal

namespace OpenClaw.Reef

open OpenClaw.Data OpenClaw.Logic Json

variable {ν : Type}

/-! ## Deterministic checks -/

inductive FindingCode where
  | invalidUtf8
  | tooLarge
  | privateKey
  | openaiKey
  | githubToken
  | awsAccessKey
  | slackToken
  | jwt
  | highEntropyToken
  deriving DecidableEq

def FindingCode.text : FindingCode → Text
  | .invalidUtf8 => "invalid_utf8".toList
  | .tooLarge => "too_large".toList
  | .privateKey => "private_key".toList
  | .openaiKey => "openai_key".toList
  | .githubToken => "github_token".toList
  | .awsAccessKey => "aws_access_key".toList
  | .slackToken => "slack_token".toList
  | .jwt => "jwt".toList
  | .highEntropyToken => "high_entropy_token".toList

/-- What is looked for in a text of fair size, in this order. -/
def secretRules : List FindingCode :=
  [.privateKey, .openaiKey, .githubToken, .awsAccessKey, .slackToken, .jwt, .highEntropyToken]

/-- `deterministicChecks(text).findings`; `finds` says which rule finds something.  Nothing found is `allowed`. -/
def deterministicChecks (finds : FindingCode → Text → Bool) (text : Text) : List FindingCode :=
  if decodeUtf8 (utf8 text) ≠ some text then [.invalidUtf8]
  else if maxPlaintext < (utf8 text).length then [.tooLarge]
  else secretRules.filter (finds · text)

/-! ## Reviews and errors -/

structure ReviewRequest where
  id : Text
  source : Text
  destination : Text
  direction : GuardDirection
  bodyHash : Text
  approvalDigest : Text
  verdict : Verdict

structure ReviewApproval where
  approved : Bool
  approvalDigest : JsString

inductive PipelineStage where
  | deterministic
  | guard
  | review
  deriving DecidableEq

inductive ReviewOutcome where
  | pending
  | denied
  deriving DecidableEq

structure PipelineError where
  stage : PipelineStage
  message : String
  verdict : Option Verdict := none
  receipt : Option SignedReceipt := none
  reviewOutcome : Option ReviewOutcome := none
  approvalDigest : Option Text := none
  deriving DecidableEq

/-- What is thrown: an error of the pipeline, or any other. -/
inductive PipelineThrown where
  | pipeline (error : PipelineError)
  | other (error : EnvelopeError)

/-! ## Requests -/

/-- What the pipeline awaits. -/
inductive PipelineRequest (ν : Type) where
  | classify (request : GuardRequest)
  | review (request : ReviewRequest)
  | appendAudit (type : String) (payload : Json ν)
  | replay (request : ReplayRequest)
  | complete (peer id : Text) (receipt : SignedReceipt) (body : Option MessageBody)

abbrev PipelineRequest.Answer : PipelineRequest ν → Type
  | .classify _ => Unknown
  | .review _ => Option ReviewApproval
  | .appendAudit _ _ => AuditEntry ν
  | .replay request => request.Answer
  | .complete _ _ _ _ => Unit

abbrev Pipelined (ν α : Type) := Throwing PipelineThrown (PipelineRequest.Answer (ν := ν)) α

abbrev PipelineExchange (ν : Type) := Exchange fun request : PipelineRequest ν => Except PipelineThrown request.Answer

/-- The requests of `openClaimed` among those of the pipeline. -/
def replayRequests (ν : Type) :
    Throwing.Inclusion EnvelopeError PipelineThrown ReplayRequest.Answer (PipelineRequest.Answer (ν := ν)) where
  request := .replay
  answer := id
  failure := .other
  own
    | .other error => some error
    | .pipeline _ => none
  failure_of_own {thrown error} h := by
    cases thrown with
    | other found => exact congrArg PipelineThrown.other (Option.some.inj h).symm
    | pipeline => cases h

def computed {α : Type} (x : Except EnvelopeError α) : Pipelined ν α := Throwing.compute (x.mapError .other)

def fail {α : Type} (error : PipelineError) : Pipelined ν α := throw (.pipeline error)

/-- An object with these properties. -/
def payload (properties : List (String × Json ν)) : Json ν :=
  .object (properties.map fun property => (key property.1, property.2))

/-! ## Guard and review -/

structure GuardedPipelineOptions where
  pinnedModel : JsString
  policyVersion : JsString
  /-- Whether there is a gate. -/
  reviewGate : Bool

/-- What is judged: the arguments of `classifyWithReview` but the options. -/
structure Proposal where
  direction : GuardDirection
  id : Text
  bodyHash : Text
  approvalDigest : Text
  source : Text
  destination : Text
  text : Text

def approvalJson (id source destination : Text) (direction : GuardDirection) (proposalHash : Text)
    (policyVersion : JsString) : Json ν :=
  payload [("id", textJson id), ("from", textJson source), ("to", textJson destination),
    ("direction", textJson direction.text), ("bodyHash", textJson proposalHash),
    ("policyVersion", .string policyVersion)]

def computeApprovalDigest (ν : Type) [JsonNumber ν] (crypto : Crypto) (id source destination : Text)
    (direction : GuardDirection) (proposalHash : Text) (policyVersion : JsString) : Text :=
  hex (crypto.sha256.digest (canonicalBytes
    (approvalJson id source destination direction proposalHash policyVersion : Json ν)))

def Decision.text : Decision → Text
  | .allow => "allow".toList
  | .deny => "deny".toList
  | .review => "review".toList

/-- `...verdict` -/
def Verdict.properties (verdict : Verdict) : List (String × Json ν) :=
  [("decision", textJson verdict.decision.text), ("category", .string verdict.category),
    ("reason", .string verdict.reason), ("model", .string verdict.model),
    ("policyVersion", .string verdict.policyVersion)]

namespace Proposal

variable (proposal : Proposal)

def guardRequest (policyVersion : JsString) : GuardRequest :=
  ⟨proposal.direction, proposal.source, proposal.destination, proposal.text, policyVersion⟩

def reviewRequest (verdict : Verdict) : ReviewRequest :=
  ⟨proposal.id, proposal.source, proposal.destination, proposal.direction, proposal.bodyHash,
    proposal.approvalDigest, verdict⟩

/-- The properties that the events of guard and review share. -/
def properties : List (String × Json ν) :=
  [("id", textJson proposal.id), ("from", textJson proposal.source), ("to", textJson proposal.destination),
    ("direction", textJson proposal.direction.text), ("bodyHash", textJson proposal.bodyHash),
    ("approvalDigest", textJson proposal.approvalDigest)]

def deterministicPayload (findings : List FindingCode) : Json ν :=
  payload [("id", textJson proposal.id), ("approvalDigest", textJson proposal.approvalDigest),
    ("decision", textJson "deny".toList), ("findings", .array (findings.map fun code =>
      payload [("code", textJson code.text), ("decision", textJson "deny".toList)]))]

end Proposal

section Review

variable (options : GuardedPipelineOptions) (proposal : Proposal)

/-- What is admitted of the guard's answer. -/
def admitted (raw : Unknown) : Verdict := admitVerdict raw options.pinnedModel options.policyVersion

/-- The guard is asked, and what is admitted of its answer is audited. -/
def classify (extra : List (String × Json ν)) : Pipelined ν Verdict := do
  let raw ← Throwing.ask (PipelineRequest.classify (proposal.guardRequest options.policyVersion))
  let _ ← Throwing.ask (PipelineRequest.appendAudit "guard_verdict"
    (payload (proposal.properties ++ extra ++ (admitted options raw).properties)))
  return admitted options raw

/-- `options.reviewGate?.(request)` -/
def askReviewGate (verdict : Verdict) : Pipelined ν (Option ReviewApproval) :=
  if options.reviewGate then Throwing.ask (PipelineRequest.review (proposal.reviewRequest verdict)) else pure none

/-- The review that a verdict asks for. -/
def review (verdict : Verdict) : Pipelined ν Unit := do
  let approval ← askReviewGate options proposal verdict
  match approval with
  | none => fail ⟨.review, "review approval pending", some verdict, none, some .pending, some proposal.approvalDigest⟩
  | some approval =>
    if approval.approvalDigest ≠ unitsOf proposal.approvalDigest then
      fail ⟨.review, "approval digest mismatch", some verdict, none, some .pending, some proposal.approvalDigest⟩
    else if !approval.approved then
      fail ⟨.review, "review explicitly denied", some verdict, none, some .denied, some proposal.approvalDigest⟩
    else do
      let _ ← Throwing.ask (PipelineRequest.appendAudit "review_approval"
        (payload (proposal.properties ++ [("approved", .boolean true)])))

def classifyWithReview : Pipelined ν Verdict := do
  let verdict ← classify options proposal []
  match verdict.decision with
  | .deny => fail { stage := .guard, message := "guard denied message", verdict := some verdict }
  | .allow => return verdict
  | .review => do
    review options proposal verdict
    let verdict ← classify options proposal [("afterApproval", .boolean true)]
    if verdict.decision = .deny then
      fail { stage := .guard, message := "guard denied approved message", verdict := some verdict }
    else return verdict

end Review

/-! ## Out -/

/-- The clock after it was read so often. -/
def SystemClock.after [JsNumber ν] (clock : SystemClock ν) (readings : Nat) : SystemClock ν where
  now reading := clock.now (readings + reading)
  isTime_now reading := clock.isTime_now (readings + reading)

structure ComposeOutboundOptions (ν : Type) extends SealOptions ν, GuardedPipelineOptions

section Pipeline

variable [JsArithmetic ν] (crypto : Crypto) (finds : FindingCode → Text → Bool)

/-- What is judged of a body. -/
def proposalOf (ν : Type) [JsArithmetic ν] (crypto : Crypto) (direction : GuardDirection) (id source destination : Text)
    (policyVersion : JsString) (body : MessageBody) : Proposal where
  direction := direction
  id := id
  bodyHash := bodyHash crypto ν body
  approvalDigest :=
    computeApprovalDigest ν crypto id source destination direction (bodyHash crypto ν body) policyVersion
  source := source
  destination := destination
  text := body.text

section Outbound

variable (options : ComposeOutboundOptions ν) (clock : SystemClock ν) (rng : Nat → List UInt8)

/-- The first checks of `composeOutbound`: the body that they have accepted. -/
def checkOutbound : Except EnvelopeError MessageBody := do
  protocolError (validateEnvelopeMetadata options.id options.sender options.recipient
    (options.ts.getD (clock.now 0)))
  let body ← protocolError (readMessageBody options.body)
  let invalidKeys : Except EnvelopeError MessageBody := .error (.other "invalid outbound key material")
  let secretKey ← otherError (fromBase64url options.senderSigningSecretKey)
  if secretKey.length ≠ 32 then invalidKeys
  else do
    let publicKey ← otherError (fromBase64url options.recipientEncryptionPublicKey)
    if publicKey.length ≠ 32 then invalidKeys else return body

def ComposeOutboundOptions.proposal (body : MessageBody) : Proposal :=
  proposalOf ν crypto .outbound options.id options.sender options.recipient options.policyVersion body

/-- What is audited before anything is judged. -/
def proposalPayload (proposal : Proposal) (body : MessageBody) : Json ν :=
  payload [("id", textJson proposal.id), ("from", textJson proposal.source), ("to", textJson proposal.destination),
    ("bodyHash", textJson proposal.bodyHash), ("approvalDigest", textJson proposal.approvalDigest),
    ("body", body.json)]

def envelopePayload (proposal : Proposal) (envelope : Envelope ν) : Json ν :=
  payload [("id", textJson proposal.id), ("approvalDigest", textJson proposal.approvalDigest),
    ("envelope", envelope.json)]

def composeOutbound : Pipelined ν (Envelope ν × Verdict) := do
  let body ← computed (checkOutbound options clock)
  let findings := deterministicChecks finds body.text
  let proposal := options.proposal crypto body
  if .invalidUtf8 ∈ findings ∨ .tooLarge ∈ findings then
    fail { stage := .deterministic, message := "invalid outbound message" }
  else do
    let _ ← Throwing.ask (PipelineRequest.appendAudit "proposal" (proposalPayload proposal body))
    if findings ≠ [] then do
      let _ ← Throwing.ask (PipelineRequest.appendAudit "deterministic_verdict"
        (proposal.deterministicPayload findings))
      fail { stage := .deterministic, message := "deterministic checks denied message" }
    else do
      let verdict ← classifyWithReview options.toGuardedPipelineOptions proposal
      let envelope ← computed (sealEnvelope crypto options.toSealOptions (clock.after 1) rng)
      let _ ← Throwing.ask (PipelineRequest.appendAudit "envelope" (envelopePayload proposal envelope))
      return (envelope, verdict)

end Outbound

/-! ## In -/

structure ComposeInboundOptions (ν : Type) extends OpenOptions ν, GuardedPipelineOptions where
  recipientSigningSecretKey : Text

inductive InboundResult where
  | accepted (body : MessageBody) (verdict : Verdict) (receipt : SignedReceipt)
  | duplicate (body : Option MessageBody) (receipt : SignedReceipt)

section Inbound

variable [DecidableEq ν] (options : ComposeInboundOptions ν)

def ComposeInboundOptions.proposal (body : MessageBody) : Proposal :=
  proposalOf ν crypto .inbound options.envelope.id options.envelope.sender options.self options.policyVersion body

/-- What is written on the receipt under this head of the audit log. -/
def receiptBody (proposal : Proposal) (entry : AuditEntry ν) (status : ReceiptStatus) (category : Option Text) :
    ReceiptBody :=
  ⟨proposal.id, proposal.bodyHash, entry.entryHash, status, category⟩

def receiptPayload (proposal : Proposal) (receipt : SignedReceipt) : Json ν :=
  payload [("id", textJson proposal.id), ("approvalDigest", textJson proposal.approvalDigest),
    ("receipt", receipt.json)]

/-- The claim is completed: the event is audited, a receipt names its entry, and is audited too. -/
def completeWith (peer : Text) (proposal : Proposal) (type : String) (event : Json ν) (status : ReceiptStatus)
    (category : Option Text) (body : Option MessageBody) : Pipelined ν SignedReceipt := do
  let entry ← Throwing.ask (PipelineRequest.appendAudit type event)
  let receipt ← computed (otherError
    (signReceipt ν crypto.sign (receiptBody proposal entry status category) options.recipientSigningSecretKey))
  let _ ← Throwing.ask (PipelineRequest.appendAudit "receipt" (receiptPayload proposal receipt : Json ν))
  let _ ← Throwing.ask (PipelineRequest.complete (ν := ν) peer options.envelope.id receipt body)
  return receipt

def rejectionPayload (proposal : Proposal) (category : Text) : Json ν :=
  payload [("id", textJson proposal.id), ("bodyHash", textJson proposal.bodyHash),
    ("approvalDigest", textJson proposal.approvalDigest), ("decision", textJson "deny".toList),
    ("category", textJson category)]

def inboxPayload (proposal : Proposal) (verdict : Verdict) : Json ν :=
  payload [("id", textJson proposal.id), ("bodyHash", textJson proposal.bodyHash),
    ("approvalDigest", textJson proposal.approvalDigest), ("text", textJson proposal.text),
    ("verdict", payload verdict.properties)]

def completeRejection (peer : Text) (proposal : Proposal) (category : Text) : Pipelined ν SignedReceipt :=
  completeWith crypto options peer proposal "inbox_rejected" (rejectionPayload proposal category) .rejected
    (some category) none

/-- What a denial by guard or reviewer is completed as, and the error that follows. -/
def rejectionOf (proposal : Proposal) : PipelineThrown → Option (Text × (SignedReceipt → PipelineError))
  | .pipeline error =>
    if error.stage = .guard ∧ error.verdict.map Verdict.decision = some .deny then
      some ("guard_deny".toList, fun receipt => ⟨.guard, error.message, error.verdict, some receipt, none, none⟩)
    else if error.stage = .review ∧ error.reviewOutcome = some .denied then
      some ("review_denied".toList, fun receipt =>
        ⟨.review, error.message, error.verdict, some receipt, some .denied, some proposal.approvalDigest⟩)
    else none
  | .other _ => none

/-- `classifyWithReview` and its `catch`; an error that is returned is thrown once the claim is `finalized`. -/
def judgeOpened (peer : Text) (proposal : Proposal) : Pipelined ν (Except PipelineError Verdict) :=
  tryCatch
    (do
      let verdict ← classifyWithReview options.toGuardedPipelineOptions proposal
      return .ok verdict)
    fun thrown =>
      match rejectionOf proposal thrown with
      | none => throw thrown
      | some (category, rejected) => do
        let receipt ← completeRejection crypto options peer proposal category
        return .error (rejected receipt)

/-- The outer `try`, likewise. -/
def settleOpened (peer : Text) (body : MessageBody) : Pipelined ν (Except PipelineError InboundResult) := do
  let proposal := options.proposal crypto body
  let findings := deterministicChecks finds body.text
  if findings ≠ [] then do
    let _ ← Throwing.ask (PipelineRequest.appendAudit "deterministic_verdict" (proposal.deterministicPayload findings))
    let receipt ← completeRejection crypto options peer proposal "deterministic_deny".toList
    return .error ⟨.deterministic, "deterministic checks denied message", none, some receipt, none, none⟩
  else do
    let judged ← judgeOpened crypto options peer proposal
    match judged with
    | .error error => return .error error
    | .ok verdict => do
      let receipt ← completeWith crypto options peer proposal "inbox" (inboxPayload proposal verdict) .accepted none
        (some body)
      return .ok (.accepted body verdict receipt)

/-- The outer `catch`, before the claim is `finalized`. -/
def giveBack {α : Type} (peer : Text) (thrown : PipelineThrown) : Pipelined ν α := do
  let _ ← Throwing.ask (PipelineRequest.replay (ν := ν) (.release peer options.envelope.id))
  throw thrown

/-- What follows a new claim. -/
def acceptOpened (peer : Text) (body : MessageBody) : Pipelined ν InboundResult := do
  let settled ← tryCatch (settleOpened crypto finds options peer body) (giveBack options peer)
  match settled with
  | .error error => fail error
  | .ok result => return result

def composeInbound : Pipelined ν InboundResult := do
  let opened ← (replayRequests ν).embed (openClaimed crypto options.toOpenOptions)
  match opened with
  | .duplicate none => throw (.other (replayedError "duplicate envelope"))
  | .duplicate (some completed) => return .duplicate completed.body completed.receipt
  | .new body _ => do
    let peer ← computed (otherError (parseHandleEpoch options.envelope.sender))
    acceptOpened crypto finds options peer.handle body

end Inbound

end Pipeline

end OpenClaw.Reef
