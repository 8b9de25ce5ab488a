/-
# OpenClaw.Shared.DeviceBootstrapProfile -- the roles and scopes a bootstrap token hands off

A bootstrap token carries a profile: roles, scopes and a closed purpose.  Profiles are normalized
whenever they are read, and the scopes an operator may get through a token are bounded by an allowlist
that depends on the purpose.  This module follows `device-bootstrap-profile.ts`.
-/
import OpenClaw.Shared.OperatorScopes

namespace OpenClaw.Shared

open OpenClaw.Data

/-- The codes of specialised tokens. -/
inductive DeviceBootstrapPurpose where
  | controlUi
  | mobileFull
  deriving DecidableEq

/-- The roles and scopes that a token carries. -/
structure DeviceBootstrapProfile where
  roles : List String
  scopes : List String
  purpose : Option DeviceBootstrapPurpose := none
  deriving DecidableEq

/-- A profile as a caller gives it. -/
structure DeviceBootstrapProfileInput where
  roles : Option (List String) := none
  scopes : Option (List String) := none
  purpose : Option DeviceBootstrapPurpose := none

/-- What may cross the short-lived handoff. -/
def bootstrapHandoffOperatorScopes : List String :=
  ["operator.approvals", "operator.read", "operator.talk.secrets", "operator.write"]

/-- What the mobile setup profile may carry, and no other. -/
def mobileFullAccessOperatorScopes : List String := "operator.admin" :: bootstrapHandoffOperatorScopes

/-- The setup code with the least rights. -/
def pairingSetupBootstrapProfile : DeviceBootstrapProfile where
  roles := ["node", "operator"]
  scopes := bootstrapHandoffOperatorScopes

/-- A profile where an input is expected. -/
def DeviceBootstrapProfile.input (profile : DeviceBootstrapProfile) : DeviceBootstrapProfileInput where
  roles := some profile.roles
  scopes := some profile.scopes
  purpose := profile.purpose

def normalizeBootstrapRoles (roles : Option (List String)) : List String :=
  normalizeSortedUniqueTrimmedStringList (roles.getD [])

/-- Normalised, without the bounds of the handoff. -/
def normalizeDeviceBootstrapProfile (input : Option DeviceBootstrapProfileInput) : DeviceBootstrapProfile where
  roles := normalizeBootstrapRoles (input.bind (·.roles))
  scopes := normalizeDeviceAuthScopes ((input.bind (·.scopes)).getD [])
  purpose := input.bind (·.purpose)

def deviceBootstrapProfilesEqual (left right : DeviceBootstrapProfile) : Bool :=
  normalizeDeviceBootstrapProfile (some left.input) = normalizeDeviceBootstrapProfile (some right.input)

/-- The operator scopes a token of this purpose may carry. -/
def handoffScopes (purpose : Option DeviceBootstrapPurpose) : List String :=
  if purpose = some .mobileFull then mobileFullAccessOperatorScopes else bootstrapHandoffOperatorScopes

/-- What a profile may carry of the requested scopes for one role. -/
def resolveBootstrapProfileScopesForRole (role : String) (scopes : List String)
    (purpose : Option DeviceBootstrapPurpose) : List String :=
  if normalizeDeviceAuthRole role = operatorRole then
    (normalizeDeviceAuthScopes scopes).filter (· ∈ handoffScopes purpose)
  else []

def resolveBootstrapProfileScopesForRoles (roles scopes : List String)
    (purpose : Option DeviceBootstrapPurpose) : List String :=
  normalizeDeviceAuthScopes
    (roles.flatMap fun role => resolveBootstrapProfileScopesForRole role scopes purpose)

/-- Normalised, and cut down to what may be handed off. -/
def normalizeDeviceBootstrapHandoffProfile (input : DeviceBootstrapProfileInput) : DeviceBootstrapProfile :=
  let profile := normalizeDeviceBootstrapProfile (some input)
  { profile with
    scopes := resolveBootstrapProfileScopesForRoles profile.roles profile.scopes profile.purpose }

/-! ## Normal forms -/

/-- A profile as `normalizeDeviceBootstrapProfile` makes it. -/
structure NormalProfile (profile : DeviceBootstrapProfile) : Prop where
  roles : normalizeBootstrapRoles (some profile.roles) = profile.roles
  scopes : NormalScopes profile.scopes

theorem normalizeBootstrapRoles_idem (roles : Option (List String)) :
    normalizeBootstrapRoles (some (normalizeBootstrapRoles roles)) = normalizeBootstrapRoles roles := by
  have hsorted : ∀ values : List String,
      normalizeSortedUniqueTrimmedStringList (normalizeSortedUniqueTrimmedStringList values) =
        normalizeSortedUniqueTrimmedStringList values := by
    intro values
    have htrimmed : ∀ s ∈ normalizeSortedUniqueTrimmedStringList values, Trimmed s := fun _ => trimmed_of_mem_normalize
    have hnodup : (normalizeSortedUniqueTrimmedStringList values).Nodup :=
      (toSorted_perm _ _).nodup_iff.mpr (nodup_eraseDups _)
    rw [normalizeSortedUniqueTrimmedStringList, normalizeTrimmedStringList_of_trimmed htrimmed,
      sortUniqueStrings, uniqueStrings, eraseDups_of_nodup hnodup]
    exact toSorted_of_sorted (toSorted_sorted _)
  exact hsorted _

theorem normalizeDeviceBootstrapProfile_normal (input : Option DeviceBootstrapProfileInput) :
    NormalProfile (normalizeDeviceBootstrapProfile input) :=
  ⟨normalizeBootstrapRoles_idem _, normalizeDeviceAuthScopes_normal _⟩

/-- **A normalized profile is its own normal form.** -/
theorem normalizeDeviceBootstrapProfile_of_normal {profile : DeviceBootstrapProfile}
    (h : NormalProfile profile) : normalizeDeviceBootstrapProfile (some profile.input) = profile := by
  obtain ⟨hroles, hscopes⟩ := h
  have hnormal := normalizeDeviceAuthScopes_of_normal hscopes
  cases profile
  simp only [normalizeDeviceBootstrapProfile, DeviceBootstrapProfile.input, Option.bind_some,
    Option.getD_some] at hroles hnormal ⊢
  rw [hroles, hnormal]

theorem normalizeDeviceBootstrapHandoffProfile_normal (input : DeviceBootstrapProfileInput) :
    NormalProfile (normalizeDeviceBootstrapHandoffProfile input) :=
  ⟨normalizeBootstrapRoles_idem _, normalizeDeviceAuthScopes_normal _⟩

theorem pairingSetupBootstrapProfile_normal : NormalProfile pairingSetupBootstrapProfile := by
  have hfixed : normalizeDeviceBootstrapProfile (some pairingSetupBootstrapProfile.input) =
      pairingSetupBootstrapProfile := by decide +kernel
  rw [← hfixed]
  exact normalizeDeviceBootstrapProfile_normal _

theorem deviceBootstrapProfilesEqual_iff {left right : DeviceBootstrapProfile}
    (hleft : NormalProfile left) (hright : NormalProfile right) :
    deviceBootstrapProfilesEqual left right = true ↔ left = right := by
  unfold deviceBootstrapProfilesEqual
  rw [normalizeDeviceBootstrapProfile_of_normal hleft, normalizeDeviceBootstrapProfile_of_normal hright,
    decide_eq_true_eq]

theorem mem_normalizeBootstrapRoles {role : String} {roles : List String} :
    role ∈ normalizeBootstrapRoles (some roles) ↔ role ∈ normalizeTrimmedStringList roles := by
  unfold normalizeBootstrapRoles normalizeSortedUniqueTrimmedStringList sortUniqueStrings uniqueStrings
  rw [mem_toSorted, List.mem_eraseDups, Option.getD_some]

/-! ## Scopes of one role -/

theorem handoffScopes_closed (purpose : Option DeviceBootstrapPurpose) :
    operatorReadScope ∈ handoffScopes purpose ∧ operatorWriteScope ∈ handoffScopes purpose := by
  unfold handoffScopes
  split <;> decide

/-- What a role may carry is trimmed, and closed under what its scopes bring along. -/
theorem resolveBootstrapProfileScopesForRole_closed {role : String} {scopes : List String}
    {purpose : Option DeviceBootstrapPurpose} :
    (∀ s ∈ resolveBootstrapProfileScopesForRole role scopes purpose, Trimmed s) ∧
      ∀ s, ScopeIn (resolveBootstrapProfileScopesForRole role scopes purpose) s →
        s ∈ resolveBootstrapProfileScopesForRole role scopes purpose := by
  have hnormal := normalizeDeviceAuthScopes_normal scopes
  obtain ⟨hread, hwrite⟩ := handoffScopes_closed purpose
  unfold resolveBootstrapProfileScopesForRole
  split
  · have hmem : ∀ s, s ∈ (normalizeDeviceAuthScopes scopes).filter (· ∈ handoffScopes purpose) ↔
        s ∈ normalizeDeviceAuthScopes scopes ∧ s ∈ handoffScopes purpose := by
      intro s
      rw [List.mem_filter, decide_eq_true_eq]
    refine ⟨fun s hs => hnormal.trimmed s ((hmem s).mp hs).1, ?_⟩
    rintro s (hs | ⟨rfl, hs | hs⟩ | ⟨rfl, hs⟩)
    · exact hs
    · refine (hmem _).mpr ⟨hnormal.closed _ (.inr (.inl ⟨rfl, .inl ((hmem _).mp hs).1⟩)), hread⟩
    · refine (hmem _).mpr ⟨hnormal.closed _ (.inr (.inl ⟨rfl, .inr ((hmem _).mp hs).1⟩)), hread⟩
    · refine (hmem _).mpr ⟨hnormal.closed _ (.inr (.inr ⟨rfl, ((hmem _).mp hs).1⟩)), hwrite⟩
  · refine ⟨fun s hs => by (cases hs), ?_⟩
    rintro s (hs | ⟨-, hs | hs⟩ | ⟨-, hs⟩) <;> cases hs

end OpenClaw.Shared
