/-
# OpenClaw.Reef.Guard -- verdicts of the guard, and which of them are admitted

A guard adapter returns any value.  `admitVerdict` reads it as a verdict of the pinned model under the
policy that was asked for, and makes a denial of everything else.

This follows `guard.ts`.  Property access runs no code of the value.
-/
import OpenClaw.Reef.AuditStore

namespace OpenClaw.Reef

open OpenClaw.Data OpenClaw.Logic

inductive GuardDirection where
  | outbound
  | inbound
  deriving DecidableEq

def GuardDirection.text : GuardDirection → Text
  | .outbound => "outbound".toList
  | .inbound => "inbound".toList

structure GuardRequest where
  direction : GuardDirection
  source : Text
  destination : Text
  text : Text
  policyVersion : JsString
  deriving DecidableEq

inductive Decision where
  | allow
  | deny
  | review
  deriving DecidableEq

structure Verdict where
  decision : Decision
  category : JsString
  reason : JsString
  model : JsString
  policyVersion : JsString
  deriving DecidableEq

/-- A value of type `unknown`, as far as a verdict is read from it: a record of own properties, each a
string or something else, or no such record. -/
inductive Unknown where
  | record (properties : List (JsString × Option JsString))
  | other

/-- `record[name]`, when it is a string. -/
def stringProperty (properties : List (JsString × Option JsString)) (name : String) : Option JsString :=
  (properties.lookup (key name)).join

def decisionOf (value : JsString) : Option Decision :=
  if value = key "allow" then some .allow
  else if value = key "deny" then some .deny
  else if value = key "review" then some .review
  else none

/-- The lengths that `parseVerdict` accepts. -/
def Verdict.wellSized (verdict : Verdict) : Bool :=
  1 ≤ verdict.category.length && verdict.category.length ≤ 128 &&
    1 ≤ verdict.reason.length && verdict.reason.length ≤ 512 && 1 ≤ verdict.policyVersion.length

def verdictKeys : List String := ["decision", "category", "reason", "model", "policyVersion"]

def parseVerdict : Unknown → Except String Verdict
  | .other => .error "invalid guard verdict"
  | .record properties =>
    if properties.length ≠ verdictKeys.length ∨
        ¬verdictKeys.all fun name => properties.any fun property => property.1 = key name then
      .error "invalid guard verdict schema"
    else
      match (stringProperty properties "decision").bind decisionOf with
      | none => .error "invalid guard decision"
      | some decision =>
        match stringProperty properties "category", stringProperty properties "reason",
          stringProperty properties "model", stringProperty properties "policyVersion" with
        | some category, some reason, some model, some policyVersion =>
          let verdict : Verdict := ⟨decision, category, reason, model, policyVersion⟩
          if verdict.wellSized then .ok verdict else .error "invalid guard verdict fields"
        | _, _, _, _ => .error "invalid guard verdict fields"

/-! ## Pinned models -/

/-- The string has the shape, in which `d` stands for a digit. -/
def hasShape : Text → JsString → Bool
  | [], [] => true
  | c :: shape, unit :: rest =>
    (if c = 'd' then 0x30 ≤ unit.val && unit.val ≤ 0x39 else unit.val = c.toNat) && hasShape shape rest
  | _, _ => false

def endsWithShape (shape : String) (value : JsString) : Bool :=
  hasShape shape.toList (value.drop (value.length - shape.length))

/-- `PINNED_MODEL` -/
def isDatedSnapshot (model : JsString) : Bool := endsWithShape "-dddddddd" model || endsWithShape "-dddd-dd-dd" model

def undatedImmutableModels : List String := ["gpt-5.6-sol", "gpt-5.6-terra", "gpt-5.6-luna"]

def assertPinnedModel (model : JsString) : Except String Unit :=
  if isDatedSnapshot model || undatedImmutableModels.any fun name => model = key name then .ok ()
  else .error "guard model must be a dated snapshot or a documented immutable model id"

/-! ## Admission -/

def guardFailure (model policyVersion : JsString) : Verdict where
  decision := .deny
  category := key "guard_failure"
  reason := key "Guard unavailable or invalid."
  model := model
  policyVersion := policyVersion

/-- The part of `admitVerdict` that may throw. -/
def readVerdict (raw : Unknown) (pinnedModel policyVersion : JsString) : Except String Verdict := do
  let verdict ← parseVerdict raw
  assertPinnedModel verdict.model
  if verdict.model ≠ pinnedModel ∨ verdict.policyVersion ≠ policyVersion then .error "guard evidence mismatch"
  else .ok verdict

def admitVerdict (raw : Unknown) (pinnedModel policyVersion : JsString) : Verdict :=
  match readVerdict raw pinnedModel policyVersion with
  | .ok verdict => verdict
  | .error _ => guardFailure pinnedModel policyVersion

variable {raw : Unknown} {pinnedModel policyVersion : JsString} {verdict : Verdict}

theorem readVerdict_eq_ok : readVerdict raw pinnedModel policyVersion = .ok verdict ↔
    parseVerdict raw = .ok verdict ∧ assertPinnedModel verdict.model = .ok () ∧
      verdict.model = pinnedModel ∧ verdict.policyVersion = policyVersion := by
  simp only [readVerdict, bind_eq_ok]
  constructor
  · rintro ⟨found, hparse, _, hpinned, h⟩
    split at h
    · cases h
    · rename_i hmatches
      cases h
      obtain ⟨hmodel, hpolicy⟩ := not_or.mp hmatches
      exact ⟨hparse, hpinned, not_not.mp hmodel, not_not.mp hpolicy⟩
  · rintro ⟨hparse, hpinned, hmodel, hpolicy⟩
    exact ⟨verdict, hparse, (), hpinned, if_neg (not_or.mpr ⟨not_not.mpr hmodel, not_not.mpr hpolicy⟩)⟩

/-- **What is admitted carries the pinned model and the policy version.** -/
theorem admitVerdict_names (raw : Unknown) (pinnedModel policyVersion : JsString) :
    (admitVerdict raw pinnedModel policyVersion).model = pinnedModel ∧
      (admitVerdict raw pinnedModel policyVersion).policyVersion = policyVersion := by
  unfold admitVerdict
  split
  · rename_i verdict h
    exact (readVerdict_eq_ok.mp h).2.2
  · exact ⟨rfl, rfl⟩

/-- **A verdict that is no denial was read from the value, of a pinned model.** -/
theorem admitVerdict_read (h : (admitVerdict raw pinnedModel policyVersion).decision ≠ .deny) :
    parseVerdict raw = .ok (admitVerdict raw pinnedModel policyVersion) ∧ assertPinnedModel pinnedModel = .ok () := by
  unfold admitVerdict at h ⊢
  split at h
  · rename_i verdict hread
    obtain ⟨hparse, hpinned, hmodel, -⟩ := readVerdict_eq_ok.mp hread
    exact ⟨hparse, hmodel ▸ hpinned⟩
  · exact absurd rfl h

end OpenClaw.Reef
