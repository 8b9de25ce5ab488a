/-
# OpenClaw.Reef.Receipts -- what a receiver signs about an envelope

A receipt names the envelope, the hash of its body, the head of the receiver's audit log, and whether the
body was accepted.  Nothing else is signed, and the sender checks it with the receiver's public key.  This follows
`signReceipt` and `verifyReceipt` of `receipts.ts`; the signature is a parameter.
-/
import OpenClaw.Reef.AuditStore
import OpenClaw.Reef.Encoding

namespace OpenClaw.Reef

open OpenClaw.Data OpenClaw.Logic Json

variable {ν : Type}

/-! ## Receipts as JSON -/

def textJson (text : Text) : Json ν := .string (unitsOf text)

def optionalMember (name : String) : Option Text → List (JsString × Json ν)
  | none => []
  | some text => [(key name, textJson text)]

def ReceiptStatus.text : ReceiptStatus → Text
  | .accepted => "accepted".toList
  | .rejected => "rejected".toList

def SignedReceipt.json (receipt : SignedReceipt) : Json ν :=
  .object ([(key "id", textJson receipt.id), (key "bodyHash", textJson receipt.bodyHash),
    (key "auditHead", textJson receipt.auditHead), (key "status", textJson receipt.status.text)] ++
    optionalMember "category" receipt.category ++ [(key "signature", textJson receipt.signature)])

theorem SignedReceipt.json_distinct (receipt : SignedReceipt) : (receipt.json : Json ν).Distinct := by
  refine distinct_object.mpr ?_
  cases receipt.category with
  | none =>
    simp only [optionalMember, List.append_nil, List.cons_append, List.nil_append]
    exact ⟨by simp only [List.map_cons, List.map_nil]; decide, by simp [textJson, Distinct]⟩
  | some category =>
    simp only [optionalMember, List.cons_append, List.nil_append]
    exact ⟨by simp only [List.map_cons, List.map_nil]; decide, by simp [textJson, Distinct]⟩

/-! ## Signing -/

/-- What is signed; the head is as the audit store returned it. -/
structure ReceiptBody where
  id : Text
  bodyHash : Text
  auditHead : JsString
  status : ReceiptStatus
  category : Option Text

def ReceiptBody.json (body : ReceiptBody) : Json ν :=
  .object ([(key "id", textJson body.id), (key "bodyHash", textJson body.bodyHash),
    (key "auditHead", .string body.auditHead), (key "status", textJson body.status.text)] ++
    optionalMember "category" body.category)

/-- `validateReceiptBody`; the head that it has accepted. -/
def validateReceiptBody (body : ReceiptBody) : Except String Text :=
  match textOf body.auditHead with
  | none => .error "invalid receipt"
  | some auditHead =>
    if isUlid body.id && isHexHash body.bodyHash && isHexHash auditHead &&
        body.category.all fun category => 1 ≤ category.jsLength && category.jsLength ≤ 64 then
      .ok auditHead
    else .error "invalid receipt"

variable [JsonNumber ν]

/-- `signReceipt`, with `ed25519.sign` as a parameter. -/
def signReceipt (ν : Type) [JsonNumber ν] (sign : List UInt8 → List UInt8 → Except String (List UInt8))
    (body : ReceiptBody) (recipientSigningSecretKey : Text) : Except String SignedReceipt := do
  let auditHead ← validateReceiptBody body
  let secretKey ← fromBase64url recipientSigningSecretKey
  let signature ← sign (canonicalBytes (body.json : Json ν)) secretKey
  return ⟨body.id, body.bodyHash, auditHead, body.status, body.category, base64 signature⟩

/-- **A signed receipt says what was to be signed.** -/
theorem signReceipt_eq_ok {sign : List UInt8 → List UInt8 → Except String (List UInt8)} {body : ReceiptBody}
    {secretKey : Text} {receipt : SignedReceipt} (h : signReceipt ν sign body secretKey = .ok receipt) :
    receipt.id = body.id ∧ receipt.bodyHash = body.bodyHash ∧ receipt.status = body.status ∧
      receipt.category = body.category := by
  simp only [signReceipt, bind_eq_ok, pure_eq_ok] at h
  obtain ⟨auditHead, -, secretKey, -, signature, -, rfl⟩ := h
  exact ⟨rfl, rfl, rfl, rfl⟩

end OpenClaw.Reef
