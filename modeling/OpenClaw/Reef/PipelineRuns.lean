/-
# OpenClaw.Reef.PipelineRuns -- what passes the pipeline, and how every claim ends

An envelope goes out, or a body is accepted, only after the exchanges listed here: the deterministic checks found
nothing, the last verdict is no denial and is of the pinned model under the policy, a review that was asked for was
approved under the digest of this very proposal, and all of it was audited.

An inbound run without a new claim leaves all claims as they are.  One with a new claim completes it or gives it
back, once, and its result says which.
-/
import OpenClaw.Reef.Pipeline
import OpenClaw.Reef.SealedOpens

namespace OpenClaw.Reef

open OpenClaw.Data OpenClaw.Logic Json Throwing

variable {ν : Type}

abbrev PipelineTrace (ν : Type) := List (PipelineExchange ν)

/-- The exchange makes a claim new, gives one back, or completes one. -/
def moves : PipelineExchange ν → Bool
  | ⟨.replay (.claim _ _ _), .ok .new⟩ => true
  | ⟨.replay (.release _ _), _⟩ => true
  | ⟨.complete _ _ _ _, .ok ()⟩ => true
  | _ => false

/-! ## Cleared proposals -/

section Review

variable {options : GuardedPipelineOptions} {proposal : Proposal} {trace : PipelineTrace ν} {verdict : Verdict}

/-- The guard's answer, and what is admitted of it in the audit log. -/
def classified (options : GuardedPipelineOptions) (proposal : Proposal) (extra : List (String × Json ν))
    (raw : Unknown) (entry : AuditEntry ν) : PipelineTrace ν :=
  [⟨.classify (proposal.guardRequest options.policyVersion), .ok raw⟩,
    ⟨.appendAudit "guard_verdict" (payload (proposal.properties ++ extra ++ (admitted options raw).properties)),
      .ok entry⟩]

/-- The approval under the proposal's own digest, and its entry in the audit log. -/
def approved (proposal : Proposal) (verdict : Verdict) (entry : AuditEntry ν) : PipelineTrace ν :=
  [⟨.review (proposal.reviewRequest verdict), .ok (some ⟨true, unitsOf proposal.approvalDigest⟩)⟩,
    ⟨.appendAudit "review_approval" (payload (proposal.properties ++ [("approved", .boolean true)])), .ok entry⟩]

/-- The exchanges after which a proposal goes on with a verdict. -/
inductive Cleared (options : GuardedPipelineOptions) (proposal : Proposal) : PipelineTrace ν → Verdict → Prop
  | allowed (raw : Unknown) (entry : AuditEntry ν) (hallowed : (admitted options raw).decision = .allow) :
      Cleared options proposal (classified options proposal [] raw entry) (admitted options raw)
  | approved (raw raw' : Unknown) (entry entry' entry'' : AuditEntry ν) (hgate : options.reviewGate = true)
      (hreview : (admitted options raw).decision = .review) (hlast : (admitted options raw').decision ≠ .deny) :
      Cleared options proposal
        (classified options proposal [] raw entry ++ (approved proposal (admitted options raw) entry' ++
          classified options proposal [("afterApproval", .boolean true)] raw' entry''))
        (admitted options raw')

theorem Cleared.quiet (h : Cleared options proposal trace verdict) : Quiet moves trace := by
  cases h <;> rfl

/-- What is known of a verdict under which something passes. -/
structure Passes (options : GuardedPipelineOptions) (proposal : Proposal) (trace : PipelineTrace ν)
    (verdict : Verdict) : Prop where
  cleared : Cleared options proposal trace verdict
  decision : verdict.decision ≠ .deny
  model : verdict.model = options.pinnedModel
  policy : verdict.policyVersion = options.policyVersion
  pinned : assertPinnedModel options.pinnedModel = .ok ()

theorem Cleared.passes (h : Cleared options proposal trace verdict) : Passes options proposal trace verdict := by
  have hadmitted : ∃ raw, verdict = admitted options raw ∧ verdict.decision ≠ .deny := by
    cases h with
    | allowed raw entry hallowed => exact ⟨raw, rfl, by simp [hallowed]⟩
    | approved raw raw' entry entry' entry'' hgate hreview hlast => exact ⟨raw', rfl, hlast⟩
  obtain ⟨raw, rfl, hdecision⟩ := hadmitted
  obtain ⟨hmodel, hpolicy⟩ := admitVerdict_names raw options.pinnedModel options.policyVersion
  exact ⟨h, hdecision, hmodel, hpolicy, (admitVerdict_read hdecision).2⟩

theorem does_classify {extra : List (String × Json ν)} :
    Does (classify options proposal extra) (returning moves fun verdict trace =>
      ∃ raw entry, trace = classified options proposal extra raw entry ∧ verdict = admitted options raw) := by
  refine does_ask_andThen (fun _ => rfl) fun raw => ?_
  exact does_ask_returns (fun _ => rfl) fun entry => ⟨raw, entry, rfl, rfl⟩

theorem does_askReviewGate :
    Does (askReviewGate options proposal verdict) (returning moves fun approval (trace : PipelineTrace ν) =>
      Quiet moves trace ∧ ∀ agreed, approval = some agreed →
        options.reviewGate = true ∧ trace = [⟨.review (proposal.reviewRequest verdict), .ok approval⟩]) := by
  unfold askReviewGate
  split
  · rename_i hgate
    refine does_ask ?_
    rintro (e | approval)
    · rfl
    · exact ⟨rfl, fun _ _ => ⟨hgate, rfl⟩⟩
  · exact does_pure ⟨rfl, nofun⟩

theorem does_review : Does (review options proposal verdict) (returning moves fun _ (trace : PipelineTrace ν) =>
      options.reviewGate = true ∧ ∃ entry, trace = approved proposal verdict entry) := by
  refine does_askReviewGate.andThen And.left ?_
  rintro (_ | ⟨agreed, digest⟩) front ⟨hquiet, hasked⟩
  · exact does_throw rfl
  · obtain ⟨hgate, rfl⟩ := hasked _ rfl
    dsimp only
    split
    · exact does_throw rfl
    · rename_i hdigest
      split
      · exact does_throw rfl
      · rename_i hagreed
        obtain rfl := not_not.mp hdigest
        obtain rfl : agreed = true := by simpa using hagreed
        exact does_ask_returns (fun _ => rfl) fun entry => ⟨hgate, entry, rfl⟩

/-- **What the review returns**, in every environment. -/
theorem does_classifyWithReview :
    Does (classifyWithReview options proposal) (returning moves fun verdict (trace : PipelineTrace ν) =>
      Cleared options proposal trace verdict) := by
  refine does_classify.andThen ?_ ?_
  · rintro verdict _ ⟨raw, entry, rfl, rfl⟩
    rfl
  · rintro verdict _ ⟨raw, entry, rfl, rfl⟩
    cases hdecision : (admitted options raw).decision with
    | deny => exact does_throw rfl
    | allow => exact does_pure (.allowed raw entry hdecision)
    | review =>
      refine does_review.andThen ?_ ?_
      · rintro ⟨⟩ _ ⟨-, entry', rfl⟩
        rfl
      · rintro ⟨⟩ _ ⟨hgate, entry', rfl⟩
        refine does_classify.andThen ?_ ?_
        · rintro verdict _ ⟨raw', entry'', rfl, rfl⟩
          rfl
        · rintro verdict _ ⟨raw', entry'', rfl, rfl⟩
          split
          · exact does_throw rfl
          · rename_i hlast
            exact does_pure (.approved raw raw' entry entry' entry'' hgate hdecision hlast)

end Review

/-! ## Out -/

section Outbound

variable [JsArithmetic ν] {crypto : Crypto} {finds : FindingCode → Text → Bool} {options : ComposeOutboundOptions ν}
  {clock : SystemClock ν} {rng : Nat → List UInt8}

theorem mapError_eq_ok {ε ε' α : Type} {f : ε → ε'} {x : Except ε α} {a : α} : x.mapError f = .ok a ↔ x = .ok a := by
  cases x <;> simp [Except.mapError]

/-- **The way out fails closed**: no claim moves, and an envelope is returned after these exchanges only. -/
theorem composeOutbound_fails_closed :
    Does (composeOutbound crypto finds options clock rng) (returning moves fun result trace =>
      ∃ body judged first last, checkOutbound options clock = .ok body ∧ deterministicChecks finds body.text = [] ∧
        Passes options.toGuardedPipelineOptions (options.proposal crypto body) judged result.2 ∧
        sealEnvelope crypto options.toSealOptions (clock.after 1) rng = .ok result.1 ∧
        trace = ⟨.appendAudit "proposal" (proposalPayload (options.proposal crypto body) body), .ok first⟩ :: (judged ++
          [⟨.appendAudit "envelope" (envelopePayload (options.proposal crypto body) result.1), .ok last⟩])) := by
  refine does_compute_bind (fun _ _ => rfl) fun body hbody => ?_
  have hbody := mapError_eq_ok.mp hbody
  dsimp only
  split
  · exact does_throw rfl
  · refine does_ask_andThen (fun _ => rfl) fun first => ?_
    split
    · exact does_ask_andThen (fun _ => rfl) fun denied => does_throw rfl
    · rename_i hfound
      refine does_classifyWithReview.andThen (fun hcleared => hcleared.quiet) fun {verdict judged} hcleared => ?_
      refine does_compute_bind (fun _ _ => rfl) fun envelope hsealed => ?_
      exact does_ask_returns (fun _ => rfl) fun last => ⟨body, judged, first, last, hbody, not_not.mp hfound,
        hcleared.passes, mapError_eq_ok.mp hsealed, rfl⟩

end Outbound

/-! ## In -/

/-- The request that claims an envelope anew. -/
abbrev claimedAnew (peer id hash : Text) : PipelineExchange ν := ⟨.replay (.claim peer id hash), .ok .new⟩

/-- The request that gives a claim back, answered. -/
abbrev givenBack (peer id : Text) (answer : Except PipelineThrown Unit) : PipelineExchange ν :=
  ⟨.replay (.release peer id), answer⟩

/-- The request that completes a claim, granted. -/
abbrev completed (peer id : Text) (receipt : SignedReceipt) (body : Option MessageBody) : PipelineExchange ν :=
  ⟨.complete peer id receipt body, .ok ()⟩

section Opening

variable [JsArithmetic ν] [DecidableEq ν] {crypto : Crypto} {opening : OpenOptions ν} {peer hash : Text}

/-- The peer of an admitted envelope is its sender's handle. -/
theorem admitEnvelope_parsed (h : admitEnvelope crypto opening = .ok (peer, hash)) :
    ∃ parsed, parseHandleEpoch opening.envelope.sender = .ok parsed ∧ parsed.handle = peer := by
  unfold admitEnvelope at h
  obtain ⟨_, -, h⟩ := bind_eq_ok.mp h
  split at h
  · cases h
  · rename_i publicKey _
    by_cases hsignature : (!verifySignature crypto opening.envelope publicKey) = true
    · simp [hsignature] at h
    · by_cases hversion : opening.envelope.v ≠ JsArithmetic.literal 1
      · simp [hsignature, hversion] at h
      · by_cases hself : opening.envelope.recipient ≠ opening.self
        · simp [hsignature, hversion, hself] at h
        · simp only [hsignature, hversion, hself, if_false] at h
          obtain ⟨_, -, h⟩ := bind_eq_ok.mp h
          obtain ⟨parsed, hparsed, h⟩ := bind_eq_ok.mp h
          obtain ⟨rfl, -⟩ := Prod.mk.inj (Except.ok.inj h)
          exact ⟨parsed, otherError_eq_ok.mp hparsed, rfl⟩

/-- What opening does with the claim of an envelope. -/
def Opens (crypto : Crypto) (opening : OpenOptions ν) :
    Except PipelineThrown ClaimedOpenResult → PipelineTrace ν → Prop
  | .ok (.new body hash), trace => ∃ peer, admitEnvelope crypto opening = .ok (peer, hash) ∧
      readPlaintext crypto opening.envelope opening.recipientEncryptionSecretKey opening.limits opening.now = .ok body ∧
      trace = [claimedAnew peer opening.envelope.id hash]
  | .ok (.duplicate _), trace => Quiet moves trace
  | .error _, trace => Quiet moves trace ∨ ∃ peer hash answer, trace =
      [claimedAnew peer opening.envelope.id hash, givenBack peer opening.envelope.id answer]

theorem does_openClaimed : Does ((replayRequests ν).embed (openClaimed crypto opening)) (Opens crypto opening) := by
  simp only [openClaimed, openAdmitted, Inclusion.embed_bind, Inclusion.embed_compute, Inclusion.embed_ask]
  refine does_compute_bind (fun _ _ => .inl rfl) fun ⟨peer, hash⟩ hadmitted => ?_
  have hadmitted := mapError_eq_ok.mp hadmitted
  refine Does.bind (Q := fun reply trace => trace = [⟨.replay (.claim peer opening.envelope.id hash), reply⟩] ∧
    ∀ e, reply = .error e → Quiet moves trace) ?_ (fun h => .inl (h.2 _ rfl)) ?_
  · refine does_ask_map ?_
    rintro (e | claim)
    · exact ⟨rfl, fun _ _ => rfl⟩
    · exact ⟨rfl, nofun⟩
  · rintro claim _ ⟨rfl, -⟩
    cases claim with
    | mismatch | inFlight => exact does_throw (.inl rfl)
    | duplicate =>
      simp only [Inclusion.embed_bind, Inclusion.embed_ask, Inclusion.embed_pure]
      refine Does.bind (Q := fun _ trace => Quiet moves trace) (does_ask_map fun _ => rfl) (fun h => .inl h) ?_
      intro found front h
      refine does_pure ?_
      rw [List.append_nil]
      exact h
    | new =>
      cases hread : readPlaintext crypto opening.envelope opening.recipientEncryptionSecretKey opening.limits
        opening.now with
      | ok body => exact does_pure ⟨peer, hadmitted, hread, rfl⟩
      | error error =>
        simp only [openRead, Inclusion.embed_bind, Inclusion.embed_ask, Inclusion.embed_throw]
        refine Does.bind (Q := fun _ trace => ∃ answer, trace = [givenBack peer opening.envelope.id answer])
          (does_ask_map fun answer => ⟨answer, rfl⟩) ?_ ?_
        · rintro e _ ⟨answer, rfl⟩
          exact .inr ⟨peer, hash, answer, rfl⟩
        · rintro ⟨⟩ _ ⟨answer, rfl⟩
          exact does_throw (.inr ⟨peer, hash, answer, rfl⟩)

end Opening

section Inbound

variable [JsArithmetic ν] {crypto : Crypto} {finds : FindingCode → Text → Bool} {options : ComposeInboundOptions ν}
  {peer : Text} {proposal : Proposal} {body : MessageBody}

/-- The exchanges that complete a claim under a receipt. -/
def closed (peer id : Text) (proposal : Proposal) (type : String) (event : Json ν) (entry written : AuditEntry ν)
    (receipt : SignedReceipt) (body : Option MessageBody) : PipelineTrace ν :=
  [⟨.appendAudit type event, .ok entry⟩, ⟨.appendAudit "receipt" (receiptPayload proposal receipt), .ok written⟩,
    completed peer id receipt body]

theorem does_completeWith {type : String} {event : Json ν} {status : ReceiptStatus} {category : Option Text}
    {body : Option MessageBody} :
    Does (completeWith crypto options peer proposal type event status category body) (returning moves
      fun receipt trace => ∃ entry written, signReceipt ν crypto.sign (receiptBody proposal entry status category)
        options.recipientSigningSecretKey = .ok receipt ∧
        trace = closed peer options.envelope.id proposal type event entry written receipt body) := by
  refine does_ask_andThen (fun _ => rfl) fun entry => ?_
  refine does_compute_bind (fun _ _ => rfl) fun receipt hsigned => ?_
  refine does_ask_andThen (fun _ => rfl) fun written => ?_
  exact does_ask_returns (fun _ => rfl) fun ⟨⟩ =>
    ⟨entry, written, otherError_eq_ok.mp (mapError_eq_ok.mp hsigned), rfl⟩

/-- The claim is completed under a receipt that rejects and that the error carries. -/
def Rejects (peer id : Text) (error : PipelineError) (trace : PipelineTrace ν) : Prop :=
  ∃ receipt, error.receipt = some receipt ∧ receipt.status = .rejected ∧
    trace.filter moves = [completed peer id receipt none]

/-- What was done when a program that settles a claim returns a value, or an error that is then thrown. -/
def settling {α : Type} (peer id : Text) (R : α → PipelineTrace ν → Prop) :
    Except PipelineError α → PipelineTrace ν → Prop
  | .ok a, trace => R a trace
  | .error error, trace => Rejects peer id error trace

theorem does_completeRejection {α : Type} {category : Text} {rejected : SignedReceipt → PipelineError}
    {R : α → PipelineTrace ν → Prop} (front : PipelineTrace ν)
    (hreceipt : ∀ receipt, (rejected receipt).receipt = some receipt) (hfront : Quiet moves front) :
    Does (do
      let receipt ← completeRejection crypto options peer proposal category
      return .error (rejected receipt))
      (returning moves fun judged back => settling peer options.envelope.id R judged (front ++ back)) := by
  refine does_completeWith.returns ?_
  rintro receipt _ ⟨entry, written, hsigned, rfl⟩
  refine ⟨receipt, hreceipt receipt, (signReceipt_eq_ok hsigned).2.2.1, ?_⟩
  rw [List.filter_append, hfront]
  rfl

/-- The error of a rejection carries the receipt. -/
theorem rejectionOf_receipt {thrown : PipelineThrown} {category : Text} {rejected : SignedReceipt → PipelineError}
    (h : rejectionOf proposal thrown = some (category, rejected)) (receipt : SignedReceipt) :
    (rejected receipt).receipt = some receipt := by
  unfold rejectionOf at h
  split at h
  · split at h
    · cases h
      rfl
    · split at h
      · cases h
        rfl
      · cases h
  · cases h

theorem does_judgeOpened :
    Does (judgeOpened crypto options peer proposal) (returning moves (settling peer options.envelope.id
      fun verdict (trace : PipelineTrace ν) => Cleared options.toGuardedPipelineOptions proposal trace verdict)) := by
  refine Does.tryCatch (Q := returning moves fun judged trace => ∃ verdict, judged = .ok verdict ∧
    Cleared options.toGuardedPipelineOptions proposal trace verdict) ?_ ?_ ?_
  · exact does_classifyWithReview.returns fun {verdict _} hcleared => ⟨verdict, rfl, hcleared⟩
  · rintro _ _ ⟨verdict, rfl, hcleared⟩
    exact hcleared
  · intro thrown front hfront
    split
    · refine does_throw ?_
      rw [List.append_nil]
      exact hfront
    · rename_i category rejected hrejection
      intro back result hends
      have hback := does_completeRejection (R := fun verdict trace => Cleared options.toGuardedPipelineOptions
        proposal trace verdict) front (rejectionOf_receipt hrejection) hfront hends
      cases result with
      | ok judged => exact hback
      | error e => exact Quiet.append hfront hback

/-- What was done when a body was accepted. -/
def Accepts (crypto : Crypto) (finds : FindingCode → Text → Bool) (options : ComposeInboundOptions ν) (peer : Text)
    (body : MessageBody) (result : InboundResult) (trace : PipelineTrace ν) : Prop :=
  ∃ verdict receipt judged entry written, result = .accepted body verdict receipt ∧
    deterministicChecks finds body.text = [] ∧
    Passes options.toGuardedPipelineOptions (options.proposal crypto body) judged verdict ∧
    signReceipt ν crypto.sign (receiptBody (options.proposal crypto body) entry .accepted none)
      options.recipientSigningSecretKey = .ok receipt ∧
    trace = judged ++ closed peer options.envelope.id (options.proposal crypto body) "inbox"
      (inboxPayload (options.proposal crypto body) verdict) entry written receipt (some body)

theorem does_settleOpened :
    Does (settleOpened crypto finds options peer body) (returning moves (settling peer options.envelope.id
      (Accepts crypto finds options peer body))) := by
  unfold settleOpened
  dsimp only
  split
  · refine does_ask_andThen (fun _ => rfl) fun denied => ?_
    exact does_completeRejection [⟨_, .ok denied⟩] (fun _ => rfl) rfl
  · rename_i hfound
    refine Does.bind does_judgeOpened id ?_
    rintro (error | verdict) judged hjudged
    · refine does_pure ?_
      rw [List.append_nil]
      exact hjudged
    · have hpasses := Cleared.passes hjudged
      intro back result hends
      have hback := does_completeWith.returns (g := fun receipt => .ok (InboundResult.accepted body verdict receipt))
        (S := fun settled closing => settling peer options.envelope.id
          (Accepts crypto finds options peer body) settled (judged ++ closing)) (fun {receipt _} hclosed => ?_) hends
      · cases result with
        | ok settled => exact hback
        | error e => exact hpasses.cleared.quiet.append hback
      · obtain ⟨entry, written, hsigned, rfl⟩ := hclosed
        exact ⟨verdict, receipt, judged, entry, written, rfl, not_not.mp hfound, hpasses, hsigned, rfl⟩

/-- How a claim that is not accepted ends, and what the caller gets. -/
inductive Refused (peer id : Text) : PipelineThrown → PipelineExchange ν → Prop
  | rejected (error : PipelineError) (receipt : SignedReceipt) (hreceipt : error.receipt = some receipt)
      (hstatus : receipt.status = .rejected) : Refused peer id (.pipeline error) (completed peer id receipt none)
  | givenBack (answer : Except PipelineThrown Unit) (thrown : PipelineThrown) :
      Refused peer id thrown (givenBack peer id answer)

/-- How a new claim ends. -/
def Settled (crypto : Crypto) (finds : FindingCode → Text → Bool) (options : ComposeInboundOptions ν) (peer : Text)
    (body : MessageBody) : Except PipelineThrown InboundResult → PipelineTrace ν → Prop
  | .ok result, trace => Accepts crypto finds options peer body result trace
  | .error thrown, trace => ∃ last, trace.filter moves = [last] ∧ Refused peer options.envelope.id thrown last

theorem does_acceptOpened :
    Does (acceptOpened crypto finds options peer body) (Settled crypto finds options peer body) := by
  refine Does.bind (Q := fun settled trace => match settled with
    | .ok judged => settling peer options.envelope.id (Accepts crypto finds options peer body) judged trace
    | .error thrown => ∃ last, trace.filter moves = [last] ∧ Refused peer options.envelope.id thrown last) ?_ id ?_
  · refine Does.tryCatch does_settleOpened id fun {thrown front} hfront => ?_
    refine Does.bind (Q := fun reply trace => trace = [givenBack peer options.envelope.id reply])
      (does_ask fun _ => rfl) ?_ ?_
    · rintro e _ rfl
      exact ⟨_, by rw [List.filter_append, hfront]; rfl, .givenBack _ e⟩
    · rintro ⟨⟩ _ rfl
      exact does_throw ⟨_, by rw [List.filter_append, List.filter_append, hfront]; rfl, .givenBack _ thrown⟩
  · rintro (error | result) front hfront
    · obtain ⟨receipt, hreceipt, hstatus, hmoved⟩ := hfront
      refine does_throw ⟨_, ?_, .rejected error receipt hreceipt hstatus⟩
      rw [List.append_nil]
      exact hmoved
    · refine does_pure ?_
      rw [List.append_nil]
      exact hfront

variable [DecidableEq ν]

/-- **The way in fails closed, and every claim ends once.**  Without a new claim nothing moves and no body is accepted.
After a new claim a body is accepted only after the exchanges of `Accepts`, or the claim is completed or given
back by one exchange, as the caller is told. -/
theorem composeInbound_fails_closed : Does (composeInbound crypto finds options) fun result trace =>
      (Quiet moves trace ∧ ∀ body verdict receipt, result ≠ .ok (.accepted body verdict receipt)) ∨
      ∃ peer hash rest, trace = claimedAnew peer options.envelope.id hash :: rest ∧
        ((∃ answer thrown, rest = [givenBack peer options.envelope.id answer] ∧ result = .error thrown) ∨
          ∃ body, admitEnvelope crypto options.toOpenOptions = .ok (peer, hash) ∧ readPlaintext crypto options.envelope
              options.recipientEncryptionSecretKey options.limits options.now = .ok body ∧
            Settled crypto finds options peer body result rest) := by
  refine Does.bind does_openClaimed ?_ ?_
  · rintro thrown _ (hquiet | ⟨peer, hash, answer, rfl⟩)
    · exact .inl ⟨hquiet, nofun⟩
    · exact .inr ⟨peer, hash, _, rfl, .inl ⟨answer, thrown, rfl, rfl⟩⟩
  · rintro (⟨body, hash⟩ | found) front hopened
    · obtain ⟨peer, hadmitted, hread, rfl⟩ := hopened
      obtain ⟨parsed, hparsed, rfl⟩ := admitEnvelope_parsed hadmitted
      refine does_compute_bind (fun e h => ?_) fun found hfound => ?_
      · rw [hparsed] at h
        cases h
      · rw [hparsed] at hfound
        obtain rfl := Except.ok.inj hfound
        intro rest result hends
        exact .inr ⟨_, hash, rest, rfl, .inr ⟨body, hadmitted, hread, does_acceptOpened hends⟩⟩
    · cases found with
      | none => exact does_throw (.inl ⟨by rw [List.append_nil]; exact hopened, nofun⟩)
      | some found => exact does_pure (.inl ⟨by rw [List.append_nil]; exact hopened, nofun⟩)

end Inbound

end OpenClaw.Reef
