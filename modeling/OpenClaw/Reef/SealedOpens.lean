/-
# OpenClaw.Reef.SealedOpens -- a sealed envelope opens, and a claim that fails is given back

The sender's checks imply the receiver's: what `seal` returns is within every limit, its signature holds, and
what is decrypted is the canonical JSON of the body that was accepted, so that the same body is read from it.
When reading a claimed envelope fails, the last thing `openClaimed` does is to release the claim.

This follows `envelope.ts`.
-/
import OpenClaw.Reef.AuditRedaction
import OpenClaw.Reef.CanonicalForm
import OpenClaw.Reef.Seal

namespace OpenClaw.Reef

open OpenClaw.Data OpenClaw.Logic Json

variable {ν : Type}

/-! ## What is assumed of the cryptography -/

structure CryptoLaws (crypto : Crypto) : Prop where
  length_keygen : ∀ seed keys, crypto.keygen seed = .ok keys → keys.2.length = 32
  length_sign : ∀ message secretKey sig, crypto.sign message secretKey = .ok sig → sig.length = 64
  length_encrypt : ∀ key nonce plaintext ct, crypto.encrypt key nonce plaintext = .ok ct →
    ct.length = plaintext.length + 16
  decrypt_encrypt : ∀ key nonce plaintext ct, crypto.encrypt key nonce plaintext = .ok ct →
    crypto.decrypt key nonce ct = .ok plaintext

/-- What the one key signs the other verifies. -/
def SigningPair (crypto : Crypto) (secretKey publicKey : List UInt8) : Prop :=
  ∀ message sig, crypto.sign message secretKey = .ok sig → crypto.verify sig message publicKey = .ok true

/-- What another party agrees on with the public key, the secret key agrees on with that party. -/
def AgreementPair (crypto : Crypto) (secretKey publicKey : List UInt8) : Prop :=
  ∀ seed keys shared, crypto.keygen seed = .ok keys → crypto.getSharedSecret keys.1 publicKey = .ok shared →
    crypto.getSharedSecret secretKey keys.2 = .ok shared

/-- The recipient that was addressed opens the envelope, with the right keys. -/
structure Addressed [JsArithmetic ν] (crypto : Crypto) (options : SealOptions ν) (opening : OpenOptions ν) : Prop where
  self : opening.self = options.recipient
  signing : ∃ publicText secretKey publicKey, opening.senderSigningPublicKey = some publicText ∧
    decodeKey options.senderSigningSecretKey = .ok secretKey ∧ decodeKey publicText = .ok publicKey ∧
    SigningPair crypto secretKey publicKey
  agreement : ∃ secretKey publicKey, decodeKey opening.recipientEncryptionSecretKey = .ok secretKey ∧
    decodeKey options.recipientEncryptionPublicKey = .ok publicKey ∧ AgreementPair crypto secretKey publicKey

/-- It is opened at a time that is allowed. -/
structure InWindow [JsArithmetic ν] (opening : OpenOptions ν) : Prop where
  early : JsArithmetic.less (JsArithmetic.plus opening.now opening.limits.maxFutureSkewSeconds) opening.envelope.ts =
    false
  late : JsArithmetic.less opening.envelope.ts (JsArithmetic.minus opening.now opening.limits.maxAgeSeconds) = false

/-! ## Bodies -/

/-- The body as a record of strings. -/
def MessageBody.raw (body : MessageBody) : RawBody where
  text := unitsOf body.text
  replyTo := body.replyTo.map unitsOf
  thread := body.thread.map unitsOf

theorem bind_textOf {s : Option JsString} (h : s.all fun value => (textOf value).any isUlid) :
    (s.bind textOf).map unitsOf = s := by
  rcases s with _ | value
  · rfl
  · obtain ⟨text, htext, -⟩ := (Option.any_eq_true _ _).mp h
    simp [textOf_eq_some.mp htext]

/-- The body that is accepted is the one that was given. -/
theorem readMessageBody_raw {raw : RawBody} {body : MessageBody} (h : readMessageBody raw = .ok body) :
    body.raw = raw := by
  simp only [readMessageBody] at h
  split at h
  · cases h
  · rename_i hids
    simp only [Bool.or_eq_true, Bool.not_eq_true', not_or, Bool.not_eq_false] at hids
    split at h
    · cases h
    · rename_i text htext
      split at h
      · cases h
      · cases h
        obtain ⟨rawText, replyTo, thread⟩ := raw
        rw [MessageBody.raw, bind_textOf hids.1, bind_textOf hids.2]
        exact congrArg (RawBody.mk · replyTo thread) (textOf_eq_some.mp htext).symm

theorem key_inj {name name' : String} : key name = key name' ↔ name = name' := units_inj

theorem MessageBody.json_distinct (body : MessageBody) : (body.json : Json ν).Distinct := by
  refine distinct_object.mpr ?_
  rcases body with ⟨text, _ | replyTo, _ | thread⟩ <;>
    simp [optionalMember, key_inj, textJson, Distinct]

/-- The strings of a body are not sorted. -/
theorem sortKeysMembers_body (body : MessageBody) : sortKeysMembers ((key "text", (textJson body.text : Json ν)) ::
      (optionalMember "replyTo" body.replyTo ++ optionalMember "thread" body.thread)) =
    (key "text", textJson body.text) :: (optionalMember "replyTo" body.replyTo ++ optionalMember "thread" body.thread) := by
  rcases body with ⟨text, _ | replyTo, _ | thread⟩ <;> rfl

/-- A property is found wherever the member stands. -/
theorem property_perm {members others : List (JsString × Json ν)} (hkeys : (members.map Prod.fst).Nodup)
    (hperm : members.Perm others) (name : String) :
    property (.object members) name = property (.object others) name := by
  have hfind : members.find? (fun member => decide (member.1 = key name)) =
      others.find? fun member => decide (member.1 = key name) := by
    rcases hmember : members.find? (fun member => decide (member.1 = key name)) with _ | member
    · symm
      rw [hmember, List.find?_eq_none]
      intro other hother
      exact List.find?_eq_none.mp hmember other (hperm.mem_iff.mpr hother)
    · have hmem := List.mem_of_find?_eq_some hmember
      have hkey : member.1 = key name := by simpa using List.find?_some hmember
      rcases hother : others.find? (fun member => decide (member.1 = key name)) with _ | other
      · exact absurd (decide_eq_true hkey) (List.find?_eq_none.mp hother member (hperm.mem_iff.mp hmem))
      · have hmem' := hperm.mem_iff.mpr (List.mem_of_find?_eq_some hother)
        have hkey' : other.1 = key name := by simpa using List.find?_some hother
        rw [hmember, hother, List.inj_on_of_nodup_map hkeys hmem hmem' (hkey.trans hkey'.symm)]
  simp only [property, hfind]

theorem rawBodyOf_perm {members others : List (JsString × Json ν)} (hkeys : (members.map Prod.fst).Nodup)
    (hperm : members.Perm others) : rawBodyOf (.object members) = rawBodyOf (.object others) := by
  simp only [rawBodyOf, property_perm hkeys hperm, hperm.all_eq]

theorem rawBodyOf_json (body : MessageBody) : rawBodyOf (body.json : Json ν) = .ok body.raw := by
  rcases body with ⟨text, _ | replyTo, _ | thread⟩ <;>
    simp [MessageBody.json, rawBodyOf, optionalMember, property, stringOf, textJson, key_inj, MessageBody.raw]

section Reading

variable [JsonNumber ν]

/-- **The bytes of a body are read as the body.** -/
theorem read_canonicalBytes (body : MessageBody) : ∃ value : JsonValue ν,
    (decodeUtf8 (canonicalBytes (body.json : Json ν))).bind JsonValue.parse = some value ∧
      rawBodyOf value.json = .ok body.raw := by
  have hdistinct := body.json_distinct (ν := ν)
  have hsorted := sortKeys_distinct _ hdistinct
  refine ⟨⟨_, hsorted⟩, ?_, ?_⟩
  · -- the text starts with a brace, so the decoder drops nothing
    have hbrace : decodeUtf8Utf8 (canonicalJson (body.json : Json ν)) = canonicalJson (body.json : Json ν) :=
      decodeUtf8Utf8_eq_self.mpr (by simp [MessageBody.json, canonicalJson])
    rw [canonicalBytes, decodeUtf8_utf8, hbrace, Option.bind_some, JsonValue.parse_eq_some, canonicalJson_eq]
    exact parse_stringify hsorted
  · have hkeys := (distinct_object.mp hdistinct).1
    show rawBodyOf (sortKeys (body.json : Json ν)) = .ok body.raw
    rw [MessageBody.json, sortKeys, sortKeysMembers_body, ← rawBodyOf_perm hkeys (sortByKey_perm _).symm]
    exact rawBodyOf_json body

end Reading

/-! ## What a sender has done -/

section Sealed

variable [JsArithmetic ν] {crypto : Crypto} {options : SealOptions ν} {clock : SystemClock ν}
  {rng : Nat → List UInt8} {envelope : Envelope ν}

/-- The steps of `seal` that went through. -/
structure Sealing (crypto : Crypto) (options : SealOptions ν) (clock : SystemClock ν) (rng : Nat → List UInt8)
    (envelope : Envelope ν) (body : MessageBody) (keys : List UInt8 × List UInt8)
    (encryptionKey shared ct secretKey sig : List UInt8) : Prop where
  metadata : validateEnvelopeMetadata options.id options.sender options.recipient
    (options.ts.getD (clock.now 0)) = .ok ()
  accepted : readMessageBody options.body = .ok body
  fits : (canonicalBytes (body.json : Json ν)).length ≤ maxPlaintext
  generated : crypto.keygen (rng 0) = .ok keys
  recipientKey : decodeKey options.recipientEncryptionPublicKey = .ok encryptionKey
  agreed : crypto.getSharedSecret keys.1 encryptionKey = .ok shared
  nonce : (rng 1).length = 12
  encrypted : crypto.encrypt (crypto.hkdf shared) (rng 1) (canonicalBytes (body.json : Json ν)) = .ok ct
  signingKey : decodeKey options.senderSigningSecretKey = .ok secretKey
  signed : crypto.sign (canonicalBytes envelope.unsignedJson) secretKey = .ok sig
  result : envelope = ⟨JsArithmetic.literal 1, options.id, options.sender, options.recipient,
    options.ts.getD (clock.now 1), base64 keys.2, base64 (rng 1), base64 ct, base64 sig⟩

theorem protocolError_eq_ok {α : Type} {x : Except ProtocolError α} {a : α} : protocolError x = .ok a ↔ x = .ok a := by
  cases x <;> simp [protocolError, Except.mapError]

theorem otherError_eq_ok {α : Type} {x : Except String α} {a : α} : otherError x = .ok a ↔ x = .ok a := by
  cases x <;> simp [otherError, Except.mapError]

theorem sealEnvelope_eq_ok (h : sealEnvelope crypto options clock rng = .ok envelope) :
    ∃ body keys encryptionKey shared ct secretKey sig,
      Sealing crypto options clock rng envelope body keys encryptionKey shared ct secretKey sig := by
  simp only [sealEnvelope, sealedEnvelope] at h
  obtain ⟨_, hmetadata, h⟩ := bind_eq_ok.mp h
  obtain ⟨body, hbody, h⟩ := bind_eq_ok.mp h
  split at h
  · cases h
  · rename_i hfits
    obtain ⟨keys, hkeys, h⟩ := bind_eq_ok.mp h
    obtain ⟨encryptionKey, hencryptionKey, h⟩ := bind_eq_ok.mp h
    obtain ⟨shared, hshared, h⟩ := bind_eq_ok.mp h
    split at h
    · cases h
    · rename_i hnonce
      obtain ⟨ct, hct, h⟩ := bind_eq_ok.mp h
      obtain ⟨secretKey, hsecretKey, h⟩ := bind_eq_ok.mp h
      obtain ⟨sig, hsig, h⟩ := bind_eq_ok.mp h
      obtain rfl := pure_eq_ok.mp h
      exact ⟨body, keys, encryptionKey, shared, ct, secretKey, sig, protocolError_eq_ok.mp hmetadata,
        protocolError_eq_ok.mp hbody, Nat.not_lt.mp hfits, otherError_eq_ok.mp hkeys, hencryptionKey,
        otherError_eq_ok.mp hshared, not_ne_iff.mp hnonce, otherError_eq_ok.mp hct, hsecretKey,
        otherError_eq_ok.mp hsig, rfl⟩

theorem validateEnvelopeMetadata_eq_ok {id sender recipient : Text} {ts : ν} :
    validateEnvelopeMetadata id sender recipient ts = .ok () ↔
      isUlid id = true ∧ isTime ts = true ∧ (∃ parsed, parseHandleEpoch sender = .ok parsed) ∧
        ∃ parsed, parseHandleEpoch recipient = .ok parsed := by
  have htime : isTime ts = true ↔ isSafeNumber ts = true ∧ (JsNumber.integer ts).any (· < 0) = false := by
    unfold isTime isSafeNumber
    cases JsNumber.integer ts with
    | none => simp
    | some n => simp
  unfold validateEnvelopeMetadata
  rw [htime]
  split
  · rename_i hbad
    constructor
    · intro h
      cases h
    · rintro ⟨hid, ⟨hsafe, hpositive⟩, -⟩
      rw [hid, hsafe, hpositive] at hbad
      cases hbad
  · rename_i hgood
    simp only [Bool.or_eq_true, Bool.not_eq_true', not_or, Bool.not_eq_false, Bool.not_eq_true] at hgood
    obtain ⟨⟨hid, hsafe⟩, hpositive⟩ := hgood
    rw [hid, hsafe, hpositive]
    cases parseHandleEpoch sender with
    | error message => simp
    | ok parsed => cases parseHandleEpoch recipient <;> simp

variable {body : MessageBody} {keys : List UInt8 × List UInt8} {encryptionKey shared ct secretKey sig : List UInt8}

theorem Sealing.isTime_ts (h : Sealing crypto options clock rng envelope body keys encryptionKey shared ct secretKey
    sig) : isTime (options.ts.getD (clock.now 1)) = true := by
  have hchecked := (validateEnvelopeMetadata_eq_ok.mp h.metadata).2.1
  rcases hts : options.ts with _ | ts
  · exact clock.isTime_now 1
  · rw [hts] at hchecked
    exact hchecked

/-- **What is sealed is well sealed.** -/
theorem Sealing.wellSealed (laws : CryptoLaws crypto)
    (h : Sealing crypto options clock rng envelope body keys encryptionKey shared ct secretKey sig) :
    WellSealed envelope := by
  obtain ⟨hid, -, hsender, hrecipient⟩ := validateEnvelopeMetadata_eq_ok.mp h.metadata
  have hct := laws.length_encrypt _ _ _ _ h.encrypted
  have hfits := h.fits
  rw [h.result]
  exact {
    version := rfl
    id := hid
    sender := hsender
    recipient := hrecipient
    ts := h.isTime_ts
    epk := ⟨keys.2, laws.length_keygen _ _ h.generated, rfl⟩
    n := ⟨rng 1, h.nonce, rfl⟩
    ct := ⟨ct, by omega, rfl⟩
    sig := ⟨sig, laws.length_sign _ _ _ h.signed, rfl⟩ }

theorem Sealing.metadata_envelope
    (h : Sealing crypto options clock rng envelope body keys encryptionKey shared ct secretKey sig) :
    validateEnvelopeMetadata envelope.id envelope.sender envelope.recipient envelope.ts = .ok () := by
  obtain ⟨hid, -, hsender, hrecipient⟩ := validateEnvelopeMetadata_eq_ok.mp h.metadata
  rw [h.result]
  exact validateEnvelopeMetadata_eq_ok.mpr ⟨hid, h.isTime_ts, hsender, hrecipient⟩

theorem Sealing.verified {publicText : Text} {publicKey : List UInt8}
    (h : Sealing crypto options clock rng envelope body keys encryptionKey shared ct secretKey sig)
    (hpublic : decodeKey publicText = .ok publicKey) (hpair : SigningPair crypto secretKey publicKey) :
    verifySignature crypto envelope publicText = true := by
  have hverify := hpair _ _ h.signed
  have hsig : fromBase64 envelope.sig = .ok sig := by
    rw [h.result]
    exact fromBase64_base64 sig
  unfold verifySignature
  rw [hsig, hpublic]
  show ((otherError (crypto.verify sig (canonicalBytes envelope.unsignedJson) publicKey)).toOption).getD false = true
  rw [hverify]
  rfl

/-- **What is decrypted is the body.** -/
theorem Sealing.read (laws : CryptoLaws crypto)
    (h : Sealing crypto options clock rng envelope body keys encryptionKey shared ct secretKey sig)
    {opening : OpenOptions ν} (henvelope : opening.envelope = envelope) (haddressed : Addressed crypto options opening)
    (hwindow : InWindow opening) :
    readPlaintext crypto envelope opening.recipientEncryptionSecretKey opening.limits opening.now = .ok body := by
  obtain ⟨recipientSecret, publicKey, hsecret, hpublic, hpair⟩ := haddressed.agreement
  obtain rfl : encryptionKey = publicKey := Except.ok.inj (h.recipientKey.symm.trans hpublic)
  have hshared := hpair _ _ _ h.generated h.agreed
  have hplaintext := laws.decrypt_encrypt _ _ _ _ h.encrypted
  have hepk : fromBase64 envelope.epk = .ok keys.2 := by rw [h.result]; exact fromBase64_base64 _
  have hn : fromBase64 envelope.n = .ok (rng 1) := by rw [h.result]; exact fromBase64_base64 _
  have hct : fromBase64 envelope.ct = .ok ct := by rw [h.result]; exact fromBase64_base64 _
  obtain ⟨value, hparse, hraw⟩ := read_canonicalBytes (ν := ν) body
  have hbody : readMessageBody body.raw = .ok body := by
    rw [readMessageBody_raw h.accepted]
    exact h.accepted
  have hallowed : ¬ (JsArithmetic.less (JsArithmetic.plus opening.now opening.limits.maxFutureSkewSeconds) envelope.ts ||
      JsArithmetic.less envelope.ts (JsArithmetic.minus opening.now opening.limits.maxAgeSeconds)) = true := by
    rw [← henvelope, hwindow.early, hwindow.late]
    decide
  unfold readPlaintext
  rw [if_neg hallowed, hsecret, hepk, hn, hct]
  simp only [otherError, Except.mapError, bind, Except.bind, hshared, hplaintext]
  rw [if_neg (Nat.not_lt.mpr h.fits), hparse]
  simp only [pure, Except.pure, hraw, protocolError, Except.mapError, hbody]

/-! ## What a receiver does -/

variable [DecidableEq ν] [LawfulNumbers ν] {opening : OpenOptions ν}

theorem decodeKey_ne_nil {value : Text} {bytes : List UInt8} (h : decodeKey value = .ok bytes) : value ≠ [] := by
  rintro rfl
  cases h

/-- The receiver's checks up to the claim go through. -/
theorem Sealing.admitted (laws : CryptoLaws crypto)
    (h : Sealing crypto options clock rng envelope body keys encryptionKey shared ct secretKey sig)
    (henvelope : opening.envelope = envelope) (haddressed : Addressed crypto options opening) :
    ∃ peer, parseHandleEpoch envelope.sender = .ok peer ∧
      admitEnvelope crypto opening = .ok (peer.handle, envelopeHash crypto envelope) := by
  have hwell := h.wellSealed laws
  obtain ⟨peer, hpeer⟩ := hwell.sender
  obtain ⟨publicText, secret, publicKey, hpinned, hsecret, hpublic, hpair⟩ := haddressed.signing
  obtain rfl : secretKey = secret := Except.ok.inj (h.signingKey.symm.trans hsecret)
  have hself : envelope.recipient = opening.self := by rw [haddressed.self, h.result]
  have hfilter : opening.senderSigningPublicKey.filter (· ≠ []) = some publicText := by
    rw [hpinned]
    exact Option.filter_some_pos (by simpa using decodeKey_ne_nil hpublic)
  refine ⟨peer, hpeer, ?_⟩
  unfold admitEnvelope
  rw [henvelope, hwell.valid, hfilter]
  dsimp only
  rw [h.verified hpublic hpair, h.metadata_envelope, hpeer]
  simp only [protocolError, otherError, Except.mapError, bind, Except.bind, pure, Except.pure]
  rw [if_neg (by simp), if_neg (not_not.mpr hwell.version), if_neg (not_not.mpr hself)]

end Sealed

/-! ## Claims -/

variable {trace : Throwing.Trace EnvelopeError ReplayRequest.Answer}

section Claims

variable [JsArithmetic ν] [DecidableEq ν] {crypto : Crypto} {opening : OpenOptions ν}

/-- The request that claims an envelope, answered. -/
abbrev claimed (peer id hash : Text) (reply : Except EnvelopeError ReplayClaim) :
    Exchange fun request : ReplayRequest => Except EnvelopeError request.Answer := ⟨.claim peer id hash, reply⟩

/-- The request that gives a claim back, answered. -/
abbrev released (peer id : Text) (reply : Except EnvelopeError Unit) :
    Exchange fun request : ReplayRequest => Except EnvelopeError request.Answer := ⟨.release peer id, reply⟩

omit [DecidableEq ν] in
/-- The one claim is the first thing that is asked of a store. What is new is read, or it is released. -/
theorem openAdmitted_ends {peer hash : Text} {result : Except EnvelopeError ClaimedOpenResult}
    (h : Throwing.Ends (openAdmitted crypto opening peer hash) trace result) :
    ∃ reply rest, trace = claimed peer opening.envelope.id hash reply :: rest ∧
      (∀ peer' id' hash' reply', claimed peer' id' hash' reply' ∉ rest) ∧ (reply = .ok .new →
      (∃ body, readPlaintext crypto opening.envelope opening.recipientEncryptionSecretKey opening.limits opening.now =
      .ok body ∧ result = .ok (.new body hash)) ∨ (∃ error answer thrown,
      readPlaintext crypto opening.envelope opening.recipientEncryptionSecretKey opening.limits opening.now =
      .error error ∧ rest = [released peer opening.envelope.id answer] ∧ result = .error thrown)) := by
  unfold openAdmitted at h
  rcases Throwing.ends_bind.mp h with ⟨claim, front, back, rfl, hask, hrest⟩ | ⟨e, hask, rfl⟩
  · obtain rfl := Throwing.ends_ask.mp hask
    refine ⟨.ok claim, back, rfl, ?_⟩
    cases claim with
    | mismatch =>
      obtain ⟨rfl, -⟩ := Throwing.ends_throw.mp hrest
      exact ⟨by simp, by simp⟩
    | inFlight =>
      obtain ⟨rfl, -⟩ := Throwing.ends_throw.mp hrest
      exact ⟨by simp, by simp⟩
    | duplicate =>
      refine ⟨?_, by simp⟩
      rcases Throwing.ends_bind.mp hrest with ⟨_, middle, last, rfl, hcompleted, hpure⟩ | ⟨e, hcompleted, -⟩
      · obtain rfl := Throwing.ends_ask.mp hcompleted
        obtain ⟨rfl, -⟩ := Throwing.ends_pure.mp hpure
        simp
      · obtain rfl := Throwing.ends_ask.mp hcompleted
        simp
    | new =>
      rcases hread : readPlaintext crypto opening.envelope opening.recipientEncryptionSecretKey opening.limits
        opening.now with error | body
      · rw [hread] at hrest
        rcases Throwing.ends_bind.mp hrest with ⟨_, middle, last, rfl, hrelease, hthrow⟩ | ⟨e, hrelease, rfl⟩
        · obtain rfl := Throwing.ends_ask.mp hrelease
          obtain ⟨rfl, rfl⟩ := Throwing.ends_throw.mp hthrow
          exact ⟨by simp, fun _ => .inr ⟨error, .ok (), _, rfl, rfl, rfl⟩⟩
        · obtain rfl := Throwing.ends_ask.mp hrelease
          exact ⟨by simp, fun _ => .inr ⟨error, .error e, e, rfl, rfl, rfl⟩⟩
      · rw [hread] at hrest
        obtain ⟨rfl, rfl⟩ := Throwing.ends_pure.mp hrest
        exact ⟨by simp, fun _ => .inl ⟨body, rfl, rfl⟩⟩
  · obtain rfl := Throwing.ends_ask.mp hask
    exact ⟨.error e, [], rfl, by simp, by simp⟩

theorem openClaimed_ends {result : Except EnvelopeError ClaimedOpenResult}
    (h : Throwing.Ends (openClaimed crypto opening) trace result) : (∃ e, admitEnvelope crypto opening = .error e ∧
      trace = [] ∧ result = .error e) ∨ ∃ peer hash, admitEnvelope crypto opening = .ok (peer, hash) ∧
      Throwing.Ends (openAdmitted crypto opening peer hash) trace result := by
  unfold openClaimed at h
  rcases Throwing.ends_bind.mp h with ⟨⟨peer, hash⟩, front, back, rfl, hcompute, hrest⟩ | ⟨e, hcompute, rfl⟩
  · obtain ⟨rfl, hadmitted⟩ := Throwing.ends_compute.mp hcompute
    exact .inr ⟨peer, hash, hadmitted.symm, hrest⟩
  · obtain ⟨rfl, hrefused⟩ := Throwing.ends_compute.mp hcompute
    exact .inl ⟨e, hrefused.symm, rfl, rfl⟩

/-- A run of `openClaimed` on a store: what it asked, and what it leaves. -/
def OpensOn {σ χ : Type} (crypto : Crypto) (opening : OpenOptions ν) (store : ReplayStore σ χ) (st : σ)
    (trace : Throwing.Trace EnvelopeError ReplayRequest.Answer) (st' : σ)
    (result : Except EnvelopeError ClaimedOpenResult) : Prop :=
  Program.Runs store.handle (openClaimed crypto opening).run st trace st' result

/-- **A claim that fails is given back.** -/
theorem claim_given_back {σ χ : Type} {store : ReplayStore σ χ} {st st' : σ} {e : EnvelopeError} {peer id hash : Text}
    (h : OpensOn crypto opening store st trace st' (.error e)) (hnew : claimed peer id hash (.ok .new) ∈ trace) :
    ∃ answer, released peer id answer ∈ trace ∧ (answer = .ok () → ¬ store.inFlight st' peer id) := by
  rcases openClaimed_ends h.traced with ⟨_, -, rfl, -⟩ | ⟨peer', hash', -, hends⟩
  · cases hnew
  · obtain ⟨reply, rest, rfl, honly, hcases⟩ := openAdmitted_ends hends
    rcases List.mem_cons.mp hnew with heq | hmem
    · obtain ⟨⟨rfl, rfl, rfl⟩, rfl⟩ : (peer = peer' ∧ id = opening.envelope.id ∧ hash = hash') ∧ .ok .new = reply := by
        simpa using heq
      rcases hcases rfl with ⟨body, -, hresult⟩ | ⟨error, answer, thrown, -, rfl, -⟩
      · cases hresult
      · refine ⟨answer, by simp, ?_⟩
        rintro rfl
        have hrun : Program.Runs store.handle (openClaimed crypto opening).run st
          ([claimed peer opening.envelope.id hash (.ok .new)] ++ [released peer opening.envelope.id (.ok ())]) st'
          (.error e) := h
        obtain ⟨before, chance, hlast⟩ := hrun.last
        have hgone := store.not_inFlight before peer opening.envelope.id chance
        rw [hlast] at hgone
        exact hgone rfl
    · exact absurd hmem (honly _ _ _ _)

/-- A claimed envelope that cannot be read, on a store that answers the claim and the release like this. -/
theorem opensOn_unread {σ χ : Type} {store : ReplayStore σ χ} {st st₁ st₂ : σ} {peer hash : Text}
    {error : EnvelopeError} {answer : Except EnvelopeError Unit} {first second : χ}
    (hadmitted : admitEnvelope crypto opening = .ok (peer, hash))
    (hread : readPlaintext crypto opening.envelope opening.recipientEncryptionSecretKey opening.limits opening.now =
      .error error) (hclaim : store.handle st (.claim peer opening.envelope.id hash) first = (st₁, .ok .new))
    (hrelease : store.handle st₁ (.release peer opening.envelope.id) second = (st₂, answer)) :
    ∃ thrown, OpensOn crypto opening store st
      [claimed peer opening.envelope.id hash (.ok .new), released peer opening.envelope.id answer] st₂
      (.error thrown) := by
  have hfirst : (store.handle st (.claim peer opening.envelope.id hash) first).2 = .ok .new := by rw [hclaim]
  have hsecond : (store.handle st₁ (.release peer opening.envelope.id) second).2 = answer := by rw [hrelease]
  -- what is asked after the claim, and after the release
  have hthrow : ∃ thrown, Program.Runs store.handle (openRead opening peer hash (.error error)).run st₁
      [released peer opening.envelope.id answer] st₂ (.error thrown) := by
    rcases answer with e | ⟨⟩
    · refine ⟨e, second, [], ?_, ?_⟩
      · rw [hsecond]
      · rw [hsecond, hrelease]
        exact ⟨rfl, rfl, rfl⟩
    · refine ⟨error.rethrown, second, [], ?_, ?_⟩
      · rw [hsecond]
      · rw [hsecond, hrelease]
        exact ⟨rfl, rfl, rfl⟩
  obtain ⟨thrown, hthrow⟩ := hthrow
  refine ⟨thrown, ?_⟩
  unfold OpensOn openClaimed
  rw [hadmitted]
  refine ⟨first, [released peer opening.envelope.id answer], ?_, ?_⟩
  · rw [hfirst]
  · rw [hfirst, hclaim]
    show Program.Runs store.handle (openRead opening peer hash (readPlaintext crypto opening.envelope
      opening.recipientEncryptionSecretKey opening.limits opening.now)).run st₁ _ st₂ _
    rw [hread]
    exact hthrow

end Claims

section Result

variable [JsArithmetic ν] [DecidableEq ν] [LawfulNumbers ν] {crypto : Crypto} {options : SealOptions ν}
  {clock : SystemClock ν} {rng : Nat → List UInt8} {envelope : Envelope ν}

/-- **A sealed envelope opens**: it passes the receiver's checks, the recipient that claims it anew reads the body
that was sealed, and a claim that fails is no longer in flight once it is released. -/
theorem sealed_opens (laws : CryptoLaws crypto) (h : sealEnvelope crypto options clock rng = .ok envelope) :
    validateEnvelope envelope = .ok () ∧
      (∀ {opening : OpenOptions ν}, opening.envelope = envelope → Addressed crypto options opening →
        InWindow opening → ∀ {σ χ : Type} {store : ReplayStore σ χ} {st st' trace result},
          OpensOn crypto opening store st trace st' result →
          ∃ peer reply rest, parseHandleEpoch options.sender = .ok peer ∧
            trace = claimed peer.handle options.id (envelopeHash crypto envelope) reply :: rest ∧
            (reply = .ok .new → ∃ body, result = .ok (.new body (envelopeHash crypto envelope)) ∧
              body.raw = options.body)) ∧
      ∀ {opening : OpenOptions ν} {σ χ : Type} {store : ReplayStore σ χ} {st st' trace e peer id hash},
        OpensOn crypto opening store st trace st' (.error e) → claimed peer id hash (.ok .new) ∈ trace →
        ∃ answer, released peer id answer ∈ trace ∧ (answer = .ok () → ¬ store.inFlight st' peer id) := by
  obtain ⟨body, keys, encryptionKey, shared, ct, secretKey, sig, hsealing⟩ := sealEnvelope_eq_ok h
  refine ⟨(hsealing.wellSealed laws).valid, ?_, fun hopens hnew => claim_given_back hopens hnew⟩
  intro opening henvelope haddressed hwindow σ χ store st st' trace result hopens
  have hsender : envelope.sender = options.sender := by rw [hsealing.result]
  have hid : opening.envelope.id = options.id := by rw [henvelope, hsealing.result]
  obtain ⟨peer, hpeer, hadmitted⟩ := hsealing.admitted laws henvelope haddressed
  rcases openClaimed_ends hopens.traced with ⟨e, hrefused, -⟩ | ⟨peer', hash', hadmitted', hends⟩
  · rw [hadmitted] at hrefused
    cases hrefused
  · obtain ⟨rfl, rfl⟩ := Prod.mk.inj (Except.ok.inj (hadmitted.symm.trans hadmitted'))
    obtain ⟨reply, rest, rfl, -, hcases⟩ := openAdmitted_ends hends
    refine ⟨peer, reply, rest, hsender ▸ hpeer, by rw [hid], fun hnew => ?_⟩
    have hread := hsealing.read laws henvelope haddressed hwindow
    rcases hcases hnew with ⟨body', hbody', hresult⟩ | ⟨error, -, -, hfailed, -⟩
    · rw [henvelope, hread] at hbody'
      obtain rfl := Except.ok.inj hbody'
      exact ⟨body, hresult, readMessageBody_raw hsealing.accepted⟩
    · rw [henvelope, hread] at hfailed
      cases hfailed

end Result

/-! ## An exchange -/

/-- Cryptography that hides nothing. -/
def plainCrypto : Crypto where
  sha256 := zeroHash
  sign _ _ := .ok (List.replicate 64 0)
  verify _ _ _ := .ok true
  keygen _ := .ok (List.replicate 32 0, List.replicate 32 0)
  getSharedSecret _ _ := .ok []
  hkdf := id
  encrypt _ _ plaintext := .ok (plaintext ++ List.replicate 16 0)
  decrypt _ _ ct := .ok (ct.take (ct.length - 16))

theorem plainCrypto_laws : CryptoLaws plainCrypto where
  length_keygen seed keys h := by
    obtain rfl := Except.ok.inj h
    rfl
  length_sign message secretKey sig h := by
    obtain rfl := Except.ok.inj h
    rfl
  length_encrypt key nonce plaintext ct h := by
    obtain rfl := Except.ok.inj h
    simp
  decrypt_encrypt key nonce plaintext ct h := by
    obtain rfl := Except.ok.inj h
    simp [plainCrypto]

/-- Thirty-two zero bytes as a key, and as its text. -/
def plainKey : List UInt8 := List.replicate 32 0

def plainKeyText : Text := List.replicate 43 'A'

def plainOptions : SealOptions Nat where
  id := List.replicate 26 '0'
  sender := "a#1".toList
  recipient := "b#1".toList
  body := ⟨unitsOf "hi".toList, none, none⟩
  senderSigningSecretKey := plainKeyText
  recipientEncryptionPublicKey := plainKeyText
  ts := some 5

theorem isTime_five : isTime 5 = true := by decide

def plainClock : SystemClock Nat where
  now _ := 5
  isTime_now _ := isTime_five

def plainRng (draw : Nat) : List UInt8 := List.replicate (if draw = 0 then 32 else 12) 0

def plainOpening (envelope : Envelope Nat) (now : Nat) : OpenOptions Nat where
  envelope := envelope
  self := "b#1".toList
  recipientEncryptionSecretKey := plainKeyText
  senderSigningPublicKey := some plainKeyText
  now := now
  limits := ⟨10, 10⟩

set_option maxRecDepth 4096 in
theorem decodeKey_plain : decodeKey plainKeyText = .ok plainKey := by rfl

theorem plain_sealed : ∃ envelope, sealEnvelope plainCrypto plainOptions plainClock plainRng = .ok envelope := by
  have hfits : ¬ maxPlaintext < (canonicalBytes (MessageBody.json ⟨"hi".toList, none, none⟩ : Json Nat)).length := by
    have hsize := canonicalBytes_object_le [(key "text", (textJson "hi".toList : Json Nat))]
    rw [List.map_singleton, List.sum_singleton, memberSize_text (by decide) (by decide)] at hsize
    exact Nat.not_lt.mpr (hsize.trans (by decide))
  have hchecked : validateEnvelopeMetadata plainOptions.id plainOptions.sender plainOptions.recipient
      (plainOptions.ts.getD (plainClock.now 0)) = .ok () := by rfl
  have hbody : readMessageBody plainOptions.body = .ok ⟨"hi".toList, none, none⟩ := by rfl
  unfold sealEnvelope
  rw [hchecked, hbody]
  simp only [protocolError, Except.mapError, bind, Except.bind]
  have hrecipientKey : decodeKey plainOptions.recipientEncryptionPublicKey = .ok plainKey := decodeKey_plain
  have hsigningKey : decodeKey plainOptions.senderSigningSecretKey = .ok plainKey := decodeKey_plain
  rw [if_neg hfits]
  unfold sealedEnvelope
  rw [hrecipientKey, hsigningKey]
  exact ⟨_, rfl⟩

theorem plain_addressed (envelope : Envelope Nat) (now : Nat) :
    Addressed plainCrypto plainOptions (plainOpening envelope now) where
  self := rfl
  signing := by
    refine ⟨plainKeyText, plainKey, plainKey, rfl, decodeKey_plain, decodeKey_plain, ?_⟩
    intro message sig _
    rfl
  agreement := ⟨plainKey, plainKey, decodeKey_plain, decodeKey_plain, fun _ _ _ _ hshared => hshared⟩

theorem plain_envelope {envelope : Envelope Nat}
    (h : sealEnvelope plainCrypto plainOptions plainClock plainRng = .ok envelope) :
    envelope.id = plainOptions.id ∧ envelope.sender = plainOptions.sender ∧ envelope.ts = 5 := by
  obtain ⟨_, _, _, _, _, _, _, hsealing⟩ := sealEnvelope_eq_ok h
  rw [hsealing.result]
  exact ⟨rfl, rfl, rfl⟩

/-- On an empty store in memory the body arrives. -/
theorem sealed_opens_plain : ∃ envelope, sealEnvelope plainCrypto plainOptions plainClock plainRng = .ok envelope ∧
    validateEnvelope envelope = .ok () ∧ ∀ {st' trace result},
      OpensOn plainCrypto (plainOpening envelope 5) memoryStore (fun _ => none) trace st' result →
      ∃ body, result = .ok (.new body (envelopeHash plainCrypto envelope)) ∧ body.raw = plainOptions.body := by
  obtain ⟨envelope, henvelope⟩ := plain_sealed
  obtain ⟨hvalid, hopen, -⟩ := sealed_opens plainCrypto_laws henvelope
  have hwindow : InWindow (plainOpening envelope 5) := by
    constructor
    · simp only [plainOpening, (plain_envelope henvelope).2.2]
      decide
    · simp only [plainOpening, (plain_envelope henvelope).2.2]
      decide
  refine ⟨envelope, henvelope, hvalid, ?_⟩
  intro st' trace result hrun
  obtain ⟨peer, reply, rest, -, rfl, hnew⟩ := hopen rfl (plain_addressed envelope 5) hwindow hrun
  obtain ⟨chance, hreply⟩ := hrun.first
  exact hnew hreply

/-- A new store after one claim. -/
def claimedStore {ε : Type} (peer id hash : Text) : FileReplayStore ε :=
  ⟨[.claim peer id hash], Bindings.set (fun _ => none) (replayKey peer id) ⟨hash, .inFlight, none, none⟩, true⟩

theorem claimedStore_inFlight {ε : Type} (peer id hash : Text) :
    (claimedStore (ε := ε) peer id hash).inFlight peer id = some ⟨hash, .inFlight, none, none⟩ := by
  simp [FileReplayStore.inFlight, claimedStore, Bindings.set, Option.filter]

theorem claim_fresh {ε : Type} (cipher : BodyCipher ε) (peer id hash : Text) :
    fileHandle cipher .fresh (.claim peer id hash) true = (claimedStore peer id hash, .ok .new) := rfl

theorem release_unwritable {ε : Type} (cipher : BodyCipher ε) {st : FileReplayStore ε} {peer id : Text}
    {existing : ReplayRecord} (hloaded : st.loaded = true) (hflight : st.inFlight peer id = some existing) :
    fileHandle cipher st (.release peer id) false = (st, .error (.other "ENOSPC")) := by
  simp [fileHandle, FileReplayStore.attempt, FileReplayStore.load, hloaded, ReplayRequest.call,
    FileReplayStore.callLoaded, FileReplayStore.release, hflight, FileReplayStore.appendSet, ReplayRequest.reply]

/-- A store whose file cannot be written when the claim is released leaves it in flight. -/
theorem release_refused : ¬ ∀ (opening : OpenOptions Nat) (cipher : BodyCipher Unit) st trace st' e peer id hash,
    OpensOn plainCrypto opening (fileStore cipher) st trace st' (.error e) →
    claimed peer id hash (.ok .new) ∈ trace → ¬ (fileStore cipher).inFlight st' peer id := by
  intro hall
  obtain ⟨envelope, henvelope⟩ := plain_sealed
  obtain ⟨hid, hsender, hts⟩ := plain_envelope henvelope
  obtain ⟨_, _, _, _, _, _, _, hsealing⟩ := sealEnvelope_eq_ok henvelope
  obtain ⟨peer, hpeer, hadmitted⟩ := hsealing.admitted plainCrypto_laws
    (show (plainOpening envelope 100).envelope = envelope from rfl) (plain_addressed envelope 100)
  -- the envelope has expired at 100
  have hread : readPlaintext plainCrypto envelope plainKeyText ⟨10, 10⟩ 100 =
      .error (.protocol ProtocolErrorCode.expired.error) := by
    unfold readPlaintext
    rw [hts]
    rfl
  let cipher : BodyCipher Unit := ⟨fun _ _ => (), fun _ => none⟩
  let hash := envelopeHash plainCrypto envelope
  let st := claimedStore (ε := Unit) peer.handle envelope.id hash
  have hflight : st.inFlight peer.handle envelope.id = some ⟨hash, .inFlight, none, none⟩ :=
    claimedStore_inFlight peer.handle envelope.id hash
  have hclaim : (fileStore cipher).handle .fresh (.claim peer.handle envelope.id hash) true = (st, .ok .new) :=
    claim_fresh cipher peer.handle envelope.id hash
  have hrelease : (fileStore cipher).handle st (.release peer.handle envelope.id) false =
      (st, .error (.other "ENOSPC")) := release_unwritable cipher rfl hflight
  have hin : (fileStore cipher).inFlight st peer.handle envelope.id := by
    show (st.inFlight peer.handle envelope.id).isSome = true
    rw [hflight]
    rfl
  obtain ⟨thrown, hopens⟩ := opensOn_unread hadmitted hread hclaim hrelease
  exact absurd hin (hall _ cipher _ _ _ _ _ _ _ hopens List.mem_cons_self)

end OpenClaw.Reef
