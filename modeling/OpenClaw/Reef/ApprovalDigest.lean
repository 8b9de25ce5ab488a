/-
# OpenClaw.Reef.ApprovalDigest -- what an approval is for

A digest is approved.  It is taken of the id, the two parties, the way, the policy and the hash of the body, so that
an approval of one message approves no other, and not the same one under another policy.

This follows `computeApprovalDigest` of `pipeline.ts`; the hash is a parameter, and collisions are shown.
-/
import OpenClaw.Reef.Pipeline
import OpenClaw.Reef.SealedOpens

namespace OpenClaw.Reef

open OpenClaw.Data Json

variable {ν : Type}

/-- Different bytes under one hash. -/
def Collides (crypto : Crypto) (bytes bytes' : List UInt8) : Prop :=
  bytes ≠ bytes' ∧ crypto.sha256.digest bytes = crypto.sha256.digest bytes'

theorem hex_injective : Function.Injective hex := by
  intro bytes bytes' h
  have hread := hexPairs_hex bytes
  rw [h, hexPairs_hex] at hread
  exact (Option.some.inj hread).symm

theorem unitsOf_injective : Function.Injective unitsOf := by
  intro text text' h
  have hread := textOf_unitsOf text
  rw [h, textOf_unitsOf] at hread
  exact (Option.some.inj hread).symm

theorem MessageBody.raw_injective : Function.Injective MessageBody.raw := by
  rintro ⟨text, replyTo, thread⟩ ⟨text', replyTo', thread'⟩ h
  obtain ⟨htext, hreplyTo, hthread⟩ := RawBody.mk.inj h
  obtain rfl : text = text' := unitsOf_injective htext
  obtain rfl : replyTo = replyTo' := Option.map_injective unitsOf_injective hreplyTo
  obtain rfl : thread = thread' := Option.map_injective unitsOf_injective hthread
  rfl

/-- A body is read back from its bytes. -/
theorem body_of_canonicalBytes [JsonNumber ν] {body body' : MessageBody}
    (h : canonicalBytes (body.json : Json ν) = canonicalBytes (body'.json : Json ν)) : body = body' := by
  obtain ⟨value, hparsed, hraw⟩ := read_canonicalBytes (ν := ν) body
  obtain ⟨value', hparsed', hraw'⟩ := read_canonicalBytes (ν := ν) body'
  rw [h, hparsed'] at hparsed
  rw [← Option.some.inj hparsed, hraw'] at hraw
  exact (MessageBody.raw_injective (Except.ok.inj hraw)).symm

theorem direction_of_text {direction direction' : GuardDirection} (h : direction.text = direction'.text) :
    direction = direction' := by
  cases direction <;> cases direction' <;> first | rfl | exact absurd h (by decide)

section Bytes

variable {id id' source source' destination destination' hash hash' : Text} {direction direction' : GuardDirection}
  {policy policy' : JsString}

theorem approvalJson_distinct : (approvalJson id source destination direction hash policy : Json ν).Distinct := by
  refine distinct_object.mpr ⟨?_, by simp [textJson, Distinct]⟩
  simp only [List.map_cons, List.map_nil]
  decide

/-- The bytes under an approval digest say all that was put into them. -/
theorem approval_of_canonicalBytes [JsonNumber ν]
    (h : canonicalBytes (approvalJson id source destination direction hash policy : Json ν) =
      canonicalBytes (approvalJson id' source' destination' direction' hash' policy' : Json ν)) :
    id = id' ∧ source = source' ∧ destination = destination' ∧ direction = direction' ∧ hash = hash' ∧
      policy = policy' := by
  have hsame := same_of_canonicalJson approvalJson_distinct approvalJson_distinct (utf8_injective h)
  simp only [approvalJson, payload, List.map_cons, List.map_nil, Same, SameMembers, textJson, Json.object.injEq,
    exists_eq_left', List.mem_cons, Prod.mk.injEq, key_inj, String.reduceEq, false_and, false_or, or_false, true_and,
    List.not_mem_nil, exists_eq_left, Json.string.injEq, and_true] at hsame
  obtain ⟨-, hid, hsource, hdestination, hdirection, hhash, hpolicy⟩ := hsame
  exact ⟨(unitsOf_injective hid).symm, (unitsOf_injective hsource).symm, (unitsOf_injective hdestination).symm,
    (direction_of_text (unitsOf_injective hdirection)).symm, (unitsOf_injective hhash).symm, hpolicy.symm⟩

end Bytes

variable [JsArithmetic ν] {crypto : Crypto}

/-- **An approval digest is of one message**: one way, sender, recipient, policy and body under its id, where no two
of the byte strings that were hashed collide. -/
theorem approvalDigest_names_message (id id' source source' destination destination' : Text)
    (direction direction' : GuardDirection) (policy policy' : JsString) (body body' : MessageBody) :
    ((proposalOf ν crypto direction id source destination policy body).approvalDigest =
        (proposalOf ν crypto direction' id' source' destination' policy' body').approvalDigest ∧ ¬ Collides crypto
        (canonicalBytes (approvalJson id source destination direction (bodyHash crypto ν body) policy : Json ν))
        (canonicalBytes (approvalJson id' source' destination' direction' (bodyHash crypto ν body') policy' : Json ν)) ∧
      ¬ Collides crypto (canonicalBytes (body.json : Json ν)) (canonicalBytes (body'.json : Json ν))) ↔
    id = id' ∧ source = source' ∧ destination = destination' ∧ direction = direction' ∧ policy = policy' ∧
      body = body' := by
  constructor
  · rintro ⟨hdigest, happroval, hbody⟩
    have hbytes := by_contra fun hne => happroval ⟨hne, hex_injective hdigest⟩
    obtain ⟨hid, hsource, hdestination, hdirection, hhash, hpolicy⟩ := approval_of_canonicalBytes hbytes
    have hbodies := by_contra fun hne => hbody ⟨hne, hex_injective hhash⟩
    exact ⟨hid, hsource, hdestination, hdirection, hpolicy, body_of_canonicalBytes hbodies⟩
  · rintro ⟨rfl, rfl, rfl, rfl, rfl, rfl⟩
    exact ⟨rfl, fun h => h.1 rfl, fun h => h.1 rfl⟩

end OpenClaw.Reef
