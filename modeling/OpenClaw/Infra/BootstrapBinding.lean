/-
# OpenClaw.Infra.BootstrapBinding -- one device and one handshake for each bootstrap token

`Legal` says what a history of the store may look like: a token is verified only while it is live, for
one device, inside the profile it was issued with, and for the request its handshake has staged until
that request is covered by redemptions.  The invariant ties each record to the history of its token.
-/
import Mathlib.Data.List.Perm.Basic
import OpenClaw.Infra.DeviceBootstrap

namespace OpenClaw.Infra.DeviceBootstrap

open OpenClaw.Logic OpenClaw.Data OpenClaw.Shared OpenClaw.Infra.DevicePublicKey

/-! ## Redemptions -/

/-- The roles and scopes redeemed with `token`. -/
def redeemCalls (token : String) : List BootstrapFact → List (String × List String)
  | [] => []
  | .redeemed token' role scopes _ :: past =>
    if token' = token then (role, scopes) :: redeemCalls token past else redeemCalls token past
  | _ :: past => redeemCalls token past

/-- The scopes these redemptions hand off under `purpose`. -/
def redeemedScopes (calls : List (String × List String)) (purpose : Option DeviceBootstrapPurpose) : List String :=
  calls.flatMap fun call => resolveBootstrapProfileScopesForRole call.1 call.2 purpose

/-- **The redemptions cover** every role of `required` with that role's scopes. -/
def CoveredBy (calls : List (String × List String)) (purpose : Option DeviceBootstrapPurpose)
    (required : DeviceBootstrapProfile) : Prop :=
  ∀ role ∈ required.roles, (∃ call ∈ calls, trim call.1 = role) ∧
    roleScopesAllow role (resolveBootstrapProfileScopesForRole role required.scopes required.purpose)
      (redeemedScopes calls purpose) = true

variable {record : DeviceBootstrapTokenRecord} {decoder : KeyDecoder} {s : BootstrapStore}
    {history : List BootstrapFact} {token : String} {profile : DeviceBootstrapProfile}
    {purpose : Option DeviceBootstrapPurpose} {calls : List (String × List String)}

theorem mem_redeemedScopes {s : String} : s ∈ redeemedScopes calls purpose ↔
      ∃ call ∈ calls, s ∈ resolveBootstrapProfileScopesForRole call.1 call.2 purpose :=
  List.mem_flatMap

theorem redeemedScopes_trimmed : ∀ s ∈ redeemedScopes calls purpose, Trimmed s := by
  intro s hs
  obtain ⟨call, -, hmem⟩ := mem_redeemedScopes.mp hs
  exact resolveBootstrapProfileScopesForRole_closed.1 s hmem

theorem CoveredBy.mono {calls calls' : List (String × List String)} {required : DeviceBootstrapProfile}
    (hcalls : ∀ call ∈ calls, call ∈ calls') (h : CoveredBy calls purpose required) :
    CoveredBy calls' purpose required := by
  intro role hrole
  obtain ⟨⟨call, hcall, htrim⟩, hscopes⟩ := h role hrole
  refine ⟨⟨call, hcalls call hcall, htrim⟩, roleScopesAllow_mono (fun s hs => ?_) hscopes⟩
  rw [normalizeTrimmedStringList_of_trimmed redeemedScopes_trimmed] at hs ⊢
  obtain ⟨call, hcall, hmem⟩ := mem_redeemedScopes.mp hs
  exact mem_redeemedScopes.mpr ⟨call, hcalls call hcall, hmem⟩

/-- `redeemed` is what these redemptions come to. -/
structure RedeemedMatches (calls : List (String × List String))
    (purpose : Option DeviceBootstrapPurpose) (redeemed : DeviceBootstrapProfile) : Prop where
  normal : NormalProfile redeemed
  roles : ∀ role, role ∈ redeemed.roles ↔ role ≠ "" ∧ ∃ call ∈ calls, trim call.1 = role
  scopes : ∀ s, s ∈ redeemed.scopes ↔ s ∈ redeemedScopes calls purpose

theorem normalRoles_trimmed (h : NormalProfile profile) {role : String} (hrole : role ∈ profile.roles) :
    Trimmed role := by
  rw [← h.roles] at hrole
  exact trimmed_of_mem (mem_normalizeBootstrapRoles.mp hrole)

/-- **Satisfying a profile** is covering it. -/
theorem bootstrapProfileSatisfiesProfile_iff {calls : List (String × List String)}
    {purpose : Option DeviceBootstrapPurpose} {redeemed required : DeviceBootstrapProfile}
    (h : RedeemedMatches calls purpose redeemed) (hrequired : NormalProfile required) :
    bootstrapProfileSatisfiesProfile redeemed required = true ↔ CoveredBy calls purpose required := by
  have hallow : ∀ role scopes, roleScopesAllow role scopes redeemed.scopes =
      roleScopesAllow role scopes (redeemedScopes calls purpose) := by
    intro role scopes
    refine roleScopesAllow_congr (fun s => ?_) role scopes
    rw [normalizeTrimmedStringList_of_trimmed h.normal.scopes.trimmed,
      normalizeTrimmedStringList_of_trimmed redeemedScopes_trimmed]
    exact h.scopes s
  have hempty : ∀ role allowed, roleScopesAllow role [] allowed = true := fun _ _ => rfl
  unfold bootstrapProfileSatisfiesProfile CoveredBy bootstrapProfileAllowsRequest
  rw [List.all_eq_true]
  refine forall₂_congr fun role hrole => ?_
  have hne := (normalRoles_trimmed hrequired hrole).2
  dsimp only
  simp only [Bool.and_eq_true, Bool.or_eq_true, decide_eq_true_eq, h.roles role, hallow]
  constructor
  · rintro ⟨⟨-, hcall⟩, hnone | ⟨-, hscopes⟩⟩
    · rw [hnone]
      exact ⟨hcall, hempty _ _⟩
    · exact ⟨hcall, hscopes⟩
  · rintro ⟨hcall, hscopes⟩
    exact ⟨⟨hne, hcall⟩, .inr ⟨⟨hne, hcall⟩, hscopes⟩⟩

theorem resolvePersisted_of_normal (h : NormalProfile profile) : resolvePersistedProfile (some profile) = profile := normalizeDeviceBootstrapProfile_of_normal h

theorem redeemedMatches_nil (purpose : Option DeviceBootstrapPurpose) :
    RedeemedMatches [] purpose (normalizeDeviceBootstrapProfile none) where
  normal := normalizeDeviceBootstrapProfile_normal none
  roles := by
    intro role
    have hroles : (normalizeDeviceBootstrapProfile none).roles = [] := by decide
    simp [hroles]
  scopes := by
    intro s
    have hscopes : (normalizeDeviceBootstrapProfile none).scopes = [] := by decide
    simp [hscopes, redeemedScopes]

/-- **One more redemption.** -/
theorem redeemProfile_matches {profile redeemed : DeviceBootstrapProfile}
    (hprofile : resolvePersistedBootstrapProfile record = profile) (hredeemed :
    resolvePersistedRedeemedProfile record = redeemed) (h : RedeemedMatches calls profile.purpose redeemed) (role :
    String) (scopes : List String) : RedeemedMatches ((role, scopes) ::
      calls) profile.purpose (redeemProfile record role scopes) := by
  unfold redeemProfile
  rw [hprofile, hredeemed]
  refine ⟨normalizeDeviceBootstrapProfile_normal _, fun role' => ?_, fun s => ?_⟩
  · show role' ∈ normalizeBootstrapRoles (some (redeemed.roles ++ [role])) ↔ _
    rw [mem_normalizeBootstrapRoles, mem_normalizeTrimmedStringList]
    constructor
    · rintro ⟨v, hv, htrim, hne⟩
      rcases List.mem_append.mp hv with hold | hnew
      · rw [(normalRoles_trimmed h.normal hold).1] at htrim
        obtain ⟨-, call, hcall, hrole⟩ := (h.roles v).mp hold
        exact ⟨hne, call, List.mem_cons_of_mem _ hcall, hrole.trans htrim⟩
      · rw [List.mem_singleton] at hnew
        exact ⟨hne, (role, scopes), List.mem_cons_self, hnew ▸ htrim⟩
    · rintro ⟨hne, call, hcall, hrole⟩
      rcases List.mem_cons.mp hcall with rfl | hold
      · exact ⟨role, by simp, hrole, hne⟩
      · have hmem := (h.roles role').mpr ⟨hne, call, hold, hrole⟩
        exact ⟨role', List.mem_append_left _ hmem, (normalRoles_trimmed h.normal hmem).1, hne⟩
  · show s ∈ normalizeDeviceAuthScopes (redeemed.scopes ++
      resolveBootstrapProfileScopesForRole role scopes profile.purpose) ↔ _
    obtain ⟨htrimmed, hclosed⟩ := @resolveBootstrapProfileScopesForRole_closed role scopes profile.purpose
    have hboth : ∀ s ∈ redeemed.scopes ++
        resolveBootstrapProfileScopesForRole role scopes profile.purpose, Trimmed s := by
      intro s hs
      rcases List.mem_append.mp hs with hold | hnew
      · exact h.normal.scopes.trimmed s hold
      · exact htrimmed s hnew
    rw [mem_normalizeDeviceAuthScopes, normalizeTrimmedStringList_of_trimmed hboth,
      scopeIn_append h.normal.scopes.closed hclosed, List.mem_append, h.scopes s, mem_redeemedScopes,
      mem_redeemedScopes]
    constructor
    · rintro (⟨call, hcall, hmem⟩ | hnew)
      · exact ⟨call, List.mem_cons_of_mem _ hcall, hmem⟩
      · exact ⟨(role, scopes), List.mem_cons_self, hnew⟩
    · rintro ⟨call, hcall, hmem⟩
      rcases List.mem_cons.mp hcall with rfl | hold
      · exact .inr hmem
      · exact .inl ⟨call, hold, hmem⟩

/-! ## Histories -/

/-- `token` was issued, and was not revoked or cleared without being restored. -/
def Live (token : String) : List BootstrapFact → Prop
  | [] => False
  | .issued token' _ :: past => token' = token ∨ Live token past
  | .removed token' :: past => token' ≠ token ∧ Live token past
  | .cleared :: _ => False
  | .restored token' :: past => token' = token ∨ Live token past
  | .verified .. :: past | .redeemed .. :: past => Live token past

/-- What a fact says about the token's past. -/
def FactOk : BootstrapFact → List BootstrapFact → Prop
  | .verified token deviceId publicKey role scopes staged, past =>
    Live token past ∧ ∃ profile, issuedProfile token past = some profile ∧ role ∈ profile.roles ∧
      roleScopesAllow role scopes profile.scopes = true ∧
      staged = resolveRequestedBootstrapProfile role scopes profile.purpose ∧
      ∀ deviceId' publicKey' role' scopes' staged',
        .verified token deviceId' publicKey' role' scopes' staged' ∈ past →
        deviceId' = deviceId ∧ publicKey' = publicKey ∧
          (CoveredBy (redeemCalls token past) profile.purpose staged' ∨ staged' = staged)
  | .redeemed token role scopes fullyRedeemed, past =>
    ∃ profile, issuedProfile token past = some profile ∧
      (fullyRedeemed = true ↔
        CoveredBy ((role, scopes) :: redeemCalls token past) profile.purpose profile)
  | _, _ => True

/-- **A legal history.** -/
def Legal : List BootstrapFact → Prop
  | [] => True
  | fact :: past => FactOk fact past ∧ Legal past

/-! ## Records and their histories -/

/-- A token the fact is about, where the fact changes what was done with that token. -/
def Concerns (token : String) : BootstrapFact → Prop
  | .issued token' _ | .verified token' .. | .redeemed token' .. => token' = token
  | .removed _ | .cleared | .restored _ => False

theorem issuedProfile_cons {fact : BootstrapFact} {past : List BootstrapFact} (h : ¬ Concerns token fact) :
    issuedProfile token (fact :: past) = issuedProfile token past := by
  cases fact with
  | issued token' profile => exact if_neg h
  | verified | redeemed | removed | cleared | restored => rfl

theorem redeemCalls_cons {token : String} {fact : BootstrapFact} {past : List BootstrapFact}
    (h : ¬ Concerns token fact) : redeemCalls token (fact :: past) = redeemCalls token past := by
  cases fact with
  | redeemed token' role scopes fully => exact if_neg h
  | verified | issued | removed | cleared | restored => rfl

/-- The record of a token that was issued with `profile`, after `history`. -/
structure RecordSound (decoder : KeyDecoder) (history : List BootstrapFact)
    (record : DeviceBootstrapTokenRecord) (profile : DeviceBootstrapProfile) : Prop where
  issued : issuedProfile record.token history = some profile
  normal : NormalProfile profile
  stored : record.profile = some profile
  redeemed : ∃ redeemed, record.redeemedProfile = some redeemed ∧
    RedeemedMatches (redeemCalls record.token history) profile.purpose redeemed
  binding : (record.deviceId = none ∧ record.publicKey = none) ∨ ∃ deviceId publicKey,
    record.deviceId = some deviceId ∧ record.publicKey = some publicKey ∧ Trimmed deviceId ∧
      normalizeBootstrapPublicKey decoder publicKey = publicKey
  pendingNormal : ∀ pending, record.pendingProfile = some pending → NormalProfile pending
  verified : ∀ deviceId publicKey role scopes staged,
    .verified record.token deviceId publicKey role scopes staged ∈ history →
    record.deviceId = some deviceId ∧ record.publicKey = some publicKey ∧
      NormalProfile staged ∧ (record.pendingProfile = some staged ∨
        CoveredBy (redeemCalls record.token history) profile.purpose staged)

/-- Facts about other tokens change nothing. -/
theorem RecordSound.cons {decoder : KeyDecoder} {history : List BootstrapFact}
    {record : DeviceBootstrapTokenRecord} {profile : DeviceBootstrapProfile}
    (h : RecordSound decoder history record profile) {fact : BootstrapFact}
    (hfact : ¬ Concerns record.token fact) : RecordSound decoder (fact :: history) record profile := by
  have hcalls := @redeemCalls_cons record.token fact history hfact
  refine ⟨(issuedProfile_cons hfact).trans h.issued, h.normal, h.stored, ?_, h.binding, h.pendingNormal, ?_⟩
  · rw [hcalls]
    exact h.redeemed
  · intro deviceId publicKey role scopes staged hmem
    rw [hcalls]
    rcases List.mem_cons.mp hmem with rfl | hold
    · exact absurd rfl hfact
    · exact h.verified deviceId publicKey role scopes staged hold

theorem RecordSound.removed (h : RecordSound decoder history record profile) (tokens : List String) :
    RecordSound decoder (tokens.map .removed ++ history) record profile := by
  induction tokens with
  | nil => exact h
  | cons token rest ih => exact ih.cons id

/-- A token that was never issued was never verified or redeemed. -/
theorem not_concerns_of_unissued (h : Legal history) (hunissued : issuedProfile token history = none) :
    ∀ fact ∈ history, ¬ Concerns token fact := by
  induction history with
  | nil => exact fun _ hmem => absurd hmem List.not_mem_nil
  | cons fact past ih =>
    have hpast : ¬ Concerns token fact := by
      intro hconcerns
      cases fact with
      | issued token' profile =>
        rw [issuedProfile, if_pos (show token' = token from hconcerns)] at hunissued
        cases hunissued
      | verified token' =>
        obtain ⟨-, profile, hissued, -⟩ := h.1
        cases hconcerns
        exact absurd (hissued.symm.trans hunissued) (fun h => by cases h)
      | redeemed token' =>
        obtain ⟨profile, hissued, -⟩ := h.1
        cases hconcerns
        exact absurd (hissued.symm.trans hunissued) (fun h => by cases h)
      | removed | cleared | restored => exact hconcerns
    rw [issuedProfile_cons hpast] at hunissued
    intro other hother
    rcases List.mem_cons.mp hother with rfl | hold
    · exact hpast
    · exact ih h.2 hunissued other hold

theorem redeemCalls_of_unissued (h : ∀ fact ∈ history, ¬ Concerns token fact) : redeemCalls token history = [] := by
  induction history with
  | nil => rfl
  | cons fact past ih =>
    rw [redeemCalls_cons (h fact List.mem_cons_self)]
    exact ih fun other hother => h other (List.mem_cons_of_mem fact hother)

/-! ## The store -/

/-- **The invariant.** -/
structure StoreSound (decoder : KeyDecoder) (s : BootstrapStore) : Prop where
  legal : Legal s.history
  records : ∀ token record, s.state.find token = some record →
    record.token = token ∧ Live token s.history ∧ ∃ profile, RecordSound decoder s.history record profile
  returned : ∀ record ∈ s.returned,
    s.state.find record.token = none ∧ ∃ profile, RecordSound decoder s.history record profile
  distinct : (s.returned.map (·.token)).Nodup

theorem find_dropExpired {stored state : BootstrapState} {nowMs : Int} {key token : String}
    (h : (dropExpired stored nowMs state key).find token = some record) : state.find token = some record := by
  unfold dropExpired at h
  split at h
  · exact h
  · split at h
    · by_cases htoken : token = key
      · rw [htoken, Table.find_deleteKey_self] at h
        cases h
      · rw [Table.find_deleteKey_ne _ htoken] at h
        exact h
    · exact h

/-- Dropping expired records keeps what is left as it was. -/
theorem find_loadState {nowMs : Int} (h : (loadState s nowMs).find token = some record) :
    s.state.find token = some record := by
  have hfold : ∀ (keys : List String) (state : BootstrapState),
      (keys.foldl (dropExpired s.state nowMs) state).find token = some record → state.find token = some record := by
    intro keys
    induction keys with
    | nil => exact fun _ h => h
    | cons key rest ih => exact fun state hrest => find_dropExpired (ih _ hrest)
  exact hfold _ _ h

theorem findEntry_eq_some {state : BootstrapState} {providedToken tokenKey : String}
    (h : findEntry state providedToken = some (tokenKey, record)) : state.find tokenKey = some record ∧
      record.token = providedToken := by
  have hmem := List.mem_of_find?_eq_some h
  have hmatch := List.find?_some h
  simp only [verifyPairingToken, Bool.and_eq_true, decide_eq_true_eq] at hmatch
  exact ⟨Table.mem_rows.mp hmem, hmatch.2.symm⟩

/-- The entry a call works on. -/
theorem StoreSound.entry (h : StoreSound decoder s) {nowMs : Int} {providedToken tokenKey : String}
    (hfound : findEntry (loadState s nowMs) providedToken = some (tokenKey, record)) :
    s.state.find tokenKey = some record ∧ record.token = tokenKey ∧ Live tokenKey s.history ∧
      ∃ profile, RecordSound decoder s.history record profile := by
  obtain ⟨hfind, -⟩ := findEntry_eq_some hfound
  have hbefore := find_loadState hfind
  exact ⟨hbefore, h.records tokenKey record hbefore⟩

theorem issue_sound (h : StoreSound decoder s) (hfresh : issuedProfile token s.history = none)
    (input : Option DeviceBootstrapProfileInput) (nowMs : Int) :
    StoreSound decoder (issueDeviceBootstrapToken s token input nowMs).1 := by
  have hunused := not_concerns_of_unissued h.legal hfresh
  have hnormal : NormalProfile (resolveIssuedBootstrapProfile input) := by
    cases input with
    | none => exact pairingSetupBootstrapProfile_normal
    | some input => exact normalizeDeviceBootstrapHandoffProfile_normal input
  -- A record whose token was issued is another one's.
  have hother : ∀ {record profile}, RecordSound decoder s.history record profile → record.token ≠ token := by
    intro record profile hrecord heq
    have hissued := hrecord.issued
    rw [heq, hfresh] at hissued
    cases hissued
  unfold issueDeviceBootstrapToken
  split
  · exact h
  · refine ⟨⟨trivial, h.legal⟩, fun token' record hfind => ?_, fun record hrecord => ?_, h.distinct⟩
    · dsimp only at hfind
      rw [Table.find_upsert] at hfind
      split at hfind
      · rename_i htoken
        cases hfind
        refine ⟨htoken.symm, .inl htoken.symm, resolveIssuedBootstrapProfile input, ?_⟩
        have hcalls : redeemCalls token s.history = [] := redeemCalls_of_unissued hunused
        refine ⟨if_pos rfl, hnormal, rfl, ⟨_, rfl, ?_⟩, .inl ⟨rfl, rfl⟩, fun _ h => by (cases h), ?_⟩
        · show RedeemedMatches (redeemCalls token s.history) _ _
          rw [hcalls]
          exact redeemedMatches_nil _
        · intro deviceId publicKey role scopes staged hmem
          rcases List.mem_cons.mp hmem with hnew | hold
          · cases hnew
          · exact absurd rfl (hunused _ hold)
      · obtain ⟨htoken, hlive, profile, hrecord⟩ := h.records token' record (find_loadState hfind)
        exact ⟨htoken, .inr hlive, profile, hrecord.cons fun heq => hother hrecord heq.symm⟩
    · obtain ⟨hnone, profile, hsound⟩ := h.returned record hrecord
      refine ⟨?_, profile, hsound.cons fun heq => hother hsound heq.symm⟩
      show ((loadState s nowMs).upsert token _).find record.token = none
      rw [Table.find_upsert_ne _ (hother hsound)]
      cases hload : (loadState s nowMs).find record.token with
      | none => rfl
      | some found => exact absurd ((find_loadState hload).symm.trans hnone) (fun h => by cases h)

theorem clear_sound (h : StoreSound decoder s) (nowMs : Int) :
    StoreSound decoder (clearDeviceBootstrapTokens s nowMs).1 := by
  refine ⟨⟨trivial, h.legal⟩, fun _ _ hfind => by (cases hfind), fun record hrecord => ?_, h.distinct⟩
  obtain ⟨-, profile, hsound⟩ := h.returned record hrecord
  exact ⟨rfl, profile, hsound.cons id⟩

/-- What is not in the store is not in the loaded state. -/
theorem loadState_none {nowMs : Int} (h : s.state.find token = none) : (loadState s nowMs).find token = none := by
  cases hload : (loadState s nowMs).find token with
  | none => rfl
  | some found => exact absurd ((find_loadState hload).symm.trans h) (fun h => by cases h)

theorem revoke_sound (h : StoreSound decoder s) (token : String) (nowMs : Int) :
    StoreSound decoder (revokeDeviceBootstrapToken s token nowMs).1 := by
  unfold revokeDeviceBootstrapToken
  dsimp only
  split
  · exact h
  · split
    · exact h
    · rename_i tokenKey record hfound
      obtain ⟨hfind, htoken, -, profile, hsound⟩ := h.entry hfound
      refine ⟨⟨trivial, h.legal⟩, fun token' record' hfind' => ?_, fun record' hrecord' => ?_, ?_⟩
      · dsimp only at hfind'
        by_cases heq : token' = tokenKey
        · rw [heq, Table.find_deleteKey_self] at hfind'
          cases hfind'
        · rw [Table.find_deleteKey_ne _ heq] at hfind'
          obtain ⟨htoken', hlive, profile', hsound'⟩ := h.records token' record' (find_loadState hfind')
          exact ⟨htoken', ⟨fun h => heq h.symm, hlive⟩, profile', hsound'.cons id⟩
      · rcases List.mem_cons.mp hrecord' with rfl | hold
        · refine ⟨?_, profile, hsound.cons id⟩
          rw [htoken]
          exact Table.find_deleteKey_self _ _
        · obtain ⟨hnone, profile', hsound'⟩ := h.returned record' hold
          refine ⟨?_, profile', hsound'.cons id⟩
          show ((loadState s nowMs).deleteKey tokenKey).find record'.token = none
          rw [Table.find_deleteKey]
          split
          · rfl
          · exact loadState_none hnone
      · refine List.nodup_cons.mpr ⟨fun hmem => ?_, h.distinct⟩
        obtain ⟨other, hother, heq⟩ := List.mem_map.mp hmem
        have hnone := (h.returned other hother).1
        rw [show other.token = tokenKey from heq.trans htoken, hfind] at hnone
        cases hnone

theorem find_of_deleteKeys {state : BootstrapState} {tokens : List String}
    (h : (tokens.foldl Table.deleteKey state).find token = some record) : token ∉ tokens ∧
      state.find token = some record := by
  induction tokens generalizing state with
  | nil => exact ⟨List.not_mem_nil, h⟩
  | cons key rest ih =>
    obtain ⟨hrest, hfind⟩ := ih h
    by_cases heq : token = key
    · rw [heq, Table.find_deleteKey_self] at hfind
      cases hfind
    · rw [Table.find_deleteKey_ne _ heq] at hfind
      refine ⟨fun hmem => ?_, hfind⟩
      rcases List.mem_cons.mp hmem with rfl | hmem
      · exact heq rfl
      · exact hrest hmem

theorem live_removed {past : List BootstrapFact} {tokens : List String} (htoken : token ∉ tokens)
    (h : Live token past) : Live token (tokens.map .removed ++ past) := by
  induction tokens with
  | nil => exact h
  | cons key rest ih =>
    refine ⟨fun heq => htoken (heq ▸ List.mem_cons_self), ?_⟩
    exact ih fun hmem => htoken (List.mem_cons_of_mem key hmem)

theorem legal_removed {past : List BootstrapFact} (h : Legal past) (tokens : List String) :
    Legal (tokens.map .removed ++ past) := by
  induction tokens with
  | nil => exact h
  | cons key rest ih => exact ⟨trivial, ih⟩

theorem revokeForDevice_sound (h : StoreSound decoder s) (deviceId publicKey : String) (nowMs : Int) :
    StoreSound decoder (revokeDeviceBootstrapTokensForDevice decoder s deviceId publicKey nowMs).1 := by
  unfold revokeDeviceBootstrapTokensForDevice
  dsimp only
  split
  · exact h
  · split
    · exact h
    · refine ⟨legal_removed h.legal _, fun token record hfind => ?_, fun record hrecord => ?_, h.distinct⟩
      · obtain ⟨hkept, hfind⟩ := find_of_deleteKeys hfind
        obtain ⟨htoken, hlive, profile, hsound⟩ := h.records token record (find_loadState hfind)
        exact ⟨htoken, live_removed hkept hlive, profile, hsound.removed _⟩
      · obtain ⟨hnone, profile, hsound⟩ := h.returned record hrecord
        refine ⟨?_, profile, hsound.removed _⟩
        cases hfind : (List.foldl Table.deleteKey (loadState s nowMs) (boundTokens decoder
            (loadState s nowMs) (trim deviceId)
            (normalizeBootstrapPublicKey decoder publicKey))).find record.token with
        | none => rfl
        | some found =>
          have hbefore := find_loadState (find_of_deleteKeys hfind).2
          exact absurd (hbefore.symm.trans hnone) (fun h => by cases h)

theorem restore_sound (h : StoreSound decoder s) {position : Nat} (hrecord : s.returned[position]? = some record)
    (nowMs : Int) : StoreSound decoder (restoreDeviceBootstrapToken s position record nowMs) := by
  have hmem := List.mem_of_getElem? hrecord
  obtain ⟨-, profile, hsound⟩ := h.returned record hmem
  unfold restoreDeviceBootstrapToken
  refine ⟨⟨trivial, h.legal⟩, fun token found hfind => ?_, fun other hother => ?_, ?_⟩
  · dsimp only at hfind
    rw [Table.find_upsert] at hfind
    split at hfind
    · rename_i htoken
      cases hfind
      exact ⟨htoken.symm, .inl htoken.symm, profile, hsound.cons id⟩
    · obtain ⟨htoken, hlive, profile', hsound'⟩ := h.records token found (find_loadState hfind)
      exact ⟨htoken, .inr hlive, profile', hsound'.cons id⟩
  · obtain ⟨hnone, profile', hsound'⟩ := h.returned other (List.mem_of_mem_eraseIdx hother)
    refine ⟨?_, profile', hsound'.cons id⟩
    -- A record is returned once, so what is left has other tokens.
    have hne : other.token ≠ record.token := by
      intro heq
      obtain ⟨hposition, hget⟩ := List.getElem?_eq_some_iff.mp hrecord
      have hperm := List.getElem_cons_eraseIdx_perm hposition
      rw [hget] at hperm
      have hrest := (List.nodup_cons.mp
        ((hperm.map (·.token)).nodup_iff.mpr h.distinct)).1
      exact hrest (List.mem_map.mpr ⟨other, hother, heq⟩)
    show ((loadState s nowMs).upsert record.token record).find other.token = none
    rw [Table.find_upsert_ne _ hne]
    exact loadState_none hnone
  · exact h.distinct.sublist (List.Sublist.map _ (List.eraseIdx_sublist _ _))

theorem RecordSound.resolve_profile (h : RecordSound decoder history record profile) :
    resolvePersistedBootstrapProfile record = profile := by
  rw [resolvePersistedBootstrapProfile, h.stored]
  exact resolvePersisted_of_normal h.normal

/-- A fact of `token`, by a call that keeps the record of `token`. -/
def Works (token : String) (fact : BootstrapFact) : Prop :=
  (∃ deviceId publicKey role scopes staged,
    fact = .verified token deviceId publicKey role scopes staged) ∨
  ∃ role scopes fully, fact = .redeemed token role scopes fully

/-- **A call on one record**: the rest of the store is as it was loaded. -/
theorem StoreSound.put {decoder : KeyDecoder} {s : BootstrapStore} (h : StoreSound decoder s)
    {record updated : DeviceBootstrapTokenRecord} {fact : BootstrapFact} {nowMs : Int}
    (hfind : s.state.find record.token = some record) (hfact : Works record.token fact)
    (hok : FactOk fact s.history) (htoken : updated.token = record.token)
    (hupdated : ∃ profile, RecordSound decoder (fact :: s.history) updated profile) :
    StoreSound decoder { s with
      state := (loadState s nowMs).upsert record.token updated
      history := fact :: s.history } := by
  have hconcerns : ∀ {token}, Concerns token fact → token = record.token := by
    rintro token hconcerns
    rcases hfact with ⟨_, _, _, _, _, rfl⟩ | ⟨_, _, _, rfl⟩
    · exact Eq.symm hconcerns
    · exact Eq.symm hconcerns
  have hkeeps : ∀ {token}, Live token s.history → Live token (fact :: s.history) := by
    intro token hlive
    rcases hfact with ⟨_, _, _, _, _, rfl⟩ | ⟨_, _, _, rfl⟩
    · exact hlive
    · exact hlive
  refine ⟨⟨hok, h.legal⟩, fun token found hfound => ?_, fun other hother => ?_, h.distinct⟩
  · dsimp only at hfound
    rw [Table.find_upsert] at hfound
    split at hfound
    · rename_i heq
      cases hfound
      refine ⟨htoken.trans heq.symm, ?_, hupdated⟩
      rw [heq]
      exact hkeeps (h.records _ record hfind).2.1
    · rename_i hne
      obtain ⟨heq, hlive, profile, hsound⟩ := h.records token found (find_loadState hfound)
      refine ⟨heq, hkeeps hlive, profile, hsound.cons fun hof => hne ?_⟩
      exact heq.symm.trans (hconcerns hof)
  · obtain ⟨hnone, profile, hsound⟩ := h.returned other hother
    have hne : other.token ≠ record.token := by
      intro heq
      rw [heq, hfind] at hnone
      cases hnone
    refine ⟨?_, profile, hsound.cons fun hof => hne (hconcerns hof)⟩
    show ((loadState s nowMs).upsert record.token updated).find other.token = none
    rw [Table.find_upsert_ne _ hne]
    exact loadState_none hnone

theorem redeem_sound (h : StoreSound decoder s) (token role : String) (scopes : List String) (nowMs : Int) :
    StoreSound decoder (redeemDeviceBootstrapTokenProfile s token role scopes nowMs).1 := by
  unfold redeemDeviceBootstrapTokenProfile
  dsimp only
  split
  · exact h
  · split
    · exact h
    · rename_i tokenKey record hfound
      obtain ⟨hfind, rfl, hlive, profile, hsound⟩ := h.entry hfound
      obtain ⟨redeemed, hstored, hmatches⟩ := hsound.redeemed
      have hprofile := hsound.resolve_profile
      have hredeemed : resolvePersistedRedeemedProfile record = redeemed := by
        rw [resolvePersistedRedeemedProfile, hstored]
        exact resolvePersisted_of_normal hmatches.normal
      have hmatches' := redeemProfile_matches hprofile hredeemed hmatches role scopes
      have hsatisfies := fun {required} => @bootstrapProfileSatisfiesProfile_iff _ _ _ required hmatches'
      rw [hprofile]
      refine h.put hfind (.inr ⟨role, scopes, _, rfl⟩) ⟨profile, hsound.issued, ?_⟩ rfl ?_
      · exact hsatisfies hsound.normal
      · have hcalls : ∀ fully, redeemCalls record.token (.redeemed record.token role scopes fully ::
            s.history) = (role, scopes) :: redeemCalls record.token s.history := fun _ => if_pos rfl
        refine ⟨profile, hsound.issued, hsound.normal, rfl, ⟨_, rfl, ?_⟩, hsound.binding, ?_, ?_⟩
        · rw [hcalls]
          exact hmatches'
        · intro pending hpending
          obtain ⟨old, -, rfl⟩ := Option.map_eq_some_iff.mp (Option.filter_eq_some_iff.mp hpending).1
          exact normalizeDeviceBootstrapProfile_normal _
        · intro deviceId publicKey role' scopes' staged hmem
          have hold := hsound.verified deviceId publicKey role' scopes' staged
            (List.mem_of_ne_of_mem (fun heq => by cases heq) hmem)
          refine ⟨hold.1, hold.2.1, hold.2.2.1, ?_⟩
          rw [hcalls]
          rcases hold.2.2.2 with hpending | hcovered
          · have hresolved : resolvePersistedPendingProfile record = some staged := by
              rw [resolvePersistedPendingProfile, hpending]
              exact congrArg some (resolvePersisted_of_normal hold.2.2.1)
            by_cases hdone : bootstrapProfileSatisfiesProfile (redeemProfile record role scopes) staged = true
            · exact .inr ((hsatisfies hold.2.2.1).mp hdone)
            · refine .inl (Option.filter_eq_some_iff.mpr ⟨hresolved, ?_⟩)
              simpa using hdone
          · exact .inr (hcovered.mono fun call hcall => List.mem_cons_of_mem _ hcall)

/-- **What a verify may stage**: the request, for a record bound to nobody, or to this device. -/
theorem stageRequest_cases {profile requested staged : DeviceBootstrapProfile} {deviceId publicKey : String}
    (h : RecordSound decoder history record profile) (hrequested : NormalProfile requested)
    (hstage : stageRequest decoder record deviceId publicKey requested = some staged) : staged = requested ∧
      (record.deviceId = none ∨ record.deviceId = some deviceId ∧ record.publicKey = some publicKey ∧
      ∀ pending, record.pendingProfile = some pending → pending = requested) := by
  unfold stageRequest at hstage
  dsimp only at hstage
  rcases h.binding with ⟨hdevice, hkey⟩ | ⟨boundDevice, boundKey, hdevice, hkey, htrim, hnormal⟩
  · rw [hdevice, hkey] at hstage
    cases hstage
    exact ⟨rfl, .inl hdevice⟩
  · have hbound : isBound (some boundDevice) = true := by simpa [isBound] using htrim.2
    rw [hdevice, hkey, Option.map_some, Option.map_some, htrim.1, hnormal, hbound, Bool.true_or,
      if_pos rfl] at hstage
    split at hstage
    · cases hstage
    · rename_i hsame
      obtain ⟨hsameDevice, hsameKey⟩ := not_or.mp hsame
      rw [not_ne_iff] at hsameDevice hsameKey
      split at hstage
      · rename_i hpending
        cases hstage
        refine ⟨rfl, .inr ⟨hdevice.trans hsameDevice, hkey.trans hsameKey, fun pending hsome => ?_⟩⟩
        rw [resolvePersistedPendingProfile, hsome] at hpending
        cases hpending
      · rename_i pending hpending
        split at hstage
        · rename_i hequal
          cases hstage
          obtain ⟨stored, hsome, rfl⟩ := Option.map_eq_some_iff.mp hpending
          have hkept := normalizeDeviceBootstrapProfile_of_normal (h.pendingNormal stored hsome)
          rw [hkept] at hequal ⊢
          have heq := (deviceBootstrapProfilesEqual_iff (h.pendingNormal stored hsome) hrequested).mp hequal
          refine ⟨heq, .inr ⟨hdevice.trans hsameDevice, hkey.trans hsameKey, fun other hother => ?_⟩⟩
          rw [hsome] at hother
          cases hother
          exact heq
        · cases hstage

theorem verify_sound (hlabel : NeedsLabel decoder) (h : StoreSound decoder s) (params : VerifyParams) (nowMs : Int) :
    StoreSound decoder (verifyDeviceBootstrapToken decoder s params nowMs).1 := by
  unfold verifyDeviceBootstrapToken
  dsimp only
  split
  · exact h
  · split
    · exact h
    · rename_i tokenKey record hfound
      obtain ⟨hfind, rfl, hlive, profile, hsound⟩ := h.entry hfound
      rw [hsound.resolve_profile]
      obtain ⟨requested, hrequest⟩ : ∃ requested, resolveRequestedBootstrapProfile (trim params.role)
        params.scopes profile.purpose = requested := ⟨_, rfl⟩
      have hrequested : NormalProfile requested := by
        rw [← hrequest]
        exact normalizeDeviceBootstrapProfile_normal _
      rw [hrequest]
      split
      · exact h
      · rename_i hnonempty
        split
        · exact h
        · rename_i hallowed
          split
          · exact h
          · rename_i staged hstage
            obtain ⟨hstaged, hbinding⟩ := stageRequest_cases hsound hrequested hstage
            rw [hstaged]
            obtain ⟨-, hallows⟩ := not_or.mp hallowed
            rw [Bool.not_eq_false, bootstrapProfileAllowsRequest, Bool.and_eq_true, decide_eq_true_eq] at hallows
            -- Whatever was verified before was verified for this device, and is staged or covered.
            have hbefore : ∀ deviceId publicKey role scopes staged,
                .verified record.token deviceId publicKey role scopes staged ∈ s.history →
                deviceId = trim params.deviceId ∧
                  publicKey = normalizeBootstrapPublicKey decoder params.publicKey ∧
                  (CoveredBy (redeemCalls record.token s.history) profile.purpose staged ∨
                    staged = requested) := by
              intro deviceId publicKey role scopes staged hmem
              obtain ⟨hdevice, hkey, -, hstaged⟩ := hsound.verified deviceId publicKey role scopes staged hmem
              rcases hbinding with hnone | ⟨hsameDevice, hsameKey, hpending⟩
              · rw [hnone] at hdevice
                cases hdevice
              · rw [hsameDevice] at hdevice
                rw [hsameKey] at hkey
                cases hdevice
                cases hkey
                exact ⟨rfl, rfl, hstaged.symm.imp_right (hpending staged)⟩
            refine h.put hfind (.inl ⟨_, _, _, _, _, rfl⟩) ?_ rfl ?_
            · exact ⟨(h.records _ record hfind).2.1, profile, hsound.issued, hallows.1, hallows.2,
                hrequest.symm, hbefore⟩
            · have hdevice : Trimmed (trim params.deviceId) :=
                ⟨trim_trim _, fun hempty => hnonempty (.inl hempty)⟩
              refine ⟨profile, hsound.issued, hsound.normal, rfl, hsound.redeemed,
                .inr ⟨_, _, rfl, rfl, hdevice, normalizeBootstrapPublicKey_idem decoder hlabel _⟩, ?_, ?_⟩
              · intro pending hpending
                cases hpending
                exact hrequested
              · intro deviceId publicKey role scopes staged hmem
                rcases List.mem_cons.mp hmem with hnew | hold
                · cases hnew
                  exact ⟨rfl, rfl, hrequested, .inl rfl⟩
                · obtain ⟨rfl, rfl, hstaged⟩ := hbefore _ _ _ _ _ hold
                  have hnormal := (hsound.verified _ _ _ _ _ hold).2.2.1
                  refine ⟨rfl, rfl, hnormal, ?_⟩
                  rcases hstaged with hcovered | rfl
                  · exact .inr hcovered
                  · exact .inl rfl

/-! ## Answers -/

/-- The record that a call finds, unless it has expired. -/
def heldRecord (s : BootstrapStore) (nowMs : Int) (token : String) : Option DeviceBootstrapTokenRecord :=
  if trim token = "" then none else (loadState s nowMs).find (trim token)

/-- **What an answer says** of the call: the facts it has added, newest first.  A verify succeeds exactly if its fact
is there, and a redemption reports what its fact says; it is recorded exactly if the store holds the token. -/
def Says (decoder : KeyDecoder) (s : BootstrapStore) (nowMs : Int) :
    BootstrapCall → BootstrapAnswer → List BootstrapFact → Prop
  | .issue token input, .issued (.ok answer), facts =>
      answer.1 = token ∧ facts = [.issued token (resolveIssuedBootstrapProfile input)]
  | .issue _ _, .issued (.error _), facts => facts = []
  | .clear, .cleared _, facts => facts = [.cleared]
  | .revoke token, .revoked record, facts =>
      record = heldRecord s nowMs token ∧ facts = record.toList.map fun _ => .removed (trim token)
  | .revokeForDevice _ _, .revokedForDevice removed, facts =>
      ∃ tokens : List String, tokens.length = removed ∧ facts = tokens.map .removed
  | .restore position, .restored, facts =>
      ∃ record, s.returned[position]? = some record ∧ facts = [.restored record.token]
  | .redeem token role scopes, .redeemed result, facts =>
      (result.recorded = true ↔ heldRecord s nowMs token ≠ none) ∧
        (result.fullyRedeemed = true → result.recorded = true) ∧
        facts = if result.recorded then [.redeemed (trim token) role scopes result.fullyRedeemed] else []
  | .verify params, .verified .ok, facts =>
      ∃ staged, facts = [.verified (trim params.token) (trim params.deviceId)
        (normalizeBootstrapPublicKey decoder params.publicKey) (trim params.role) params.scopes staged]
  | .verify _, .verified .bootstrapTokenInvalid, facts => facts = []
  | _, _, _ => False

section Answers

variable {decoder : KeyDecoder} {s : BootstrapStore}

/-- The entry of a token is its record. -/
theorem StoreSound.findEntry_eq (h : StoreSound decoder s) (htoken : trim token ≠ "") (nowMs : Int) :
    findEntry (loadState s nowMs) (trim token) = (heldRecord s nowMs token).map (Prod.mk (trim token)) := by
  rw [heldRecord, if_neg htoken]
  cases hfound : findEntry (loadState s nowMs) (trim token) with
  | some entry =>
    obtain ⟨tokenKey, record⟩ := entry
    obtain ⟨hfind, hprovided⟩ := findEntry_eq_some hfound
    obtain rfl : trim token = tokenKey := hprovided.symm.trans (h.entry hfound).2.1
    rw [hfind]
    rfl
  | none =>
    cases hfind : (loadState s nowMs).find (trim token) with
    | none => rfl
    | some record =>
      have hnone := List.find?_eq_none.mp hfound (trim token, record) (Table.mem_rows.mpr hfind)
      have heq := (h.records _ record (find_loadState hfind)).1
      exact absurd (by simp [verifyPairingToken, heq, htoken]) hnone

theorem redeem_says (h : StoreSound decoder s) (token role : String) (scopes : List String) (nowMs : Int) :
    ∃ facts, (redeemDeviceBootstrapTokenProfile s token role scopes nowMs).1.history = facts ++ s.history ∧
      Says decoder s nowMs (.redeem token role scopes)
        (.redeemed (redeemDeviceBootstrapTokenProfile s token role scopes nowMs).2) facts := by
  unfold redeemDeviceBootstrapTokenProfile
  dsimp only
  split
  · rename_i hempty
    exact ⟨[], rfl, by simp [heldRecord, hempty], nofun, rfl⟩
  · rename_i hne
    rw [h.findEntry_eq hne]
    cases hheld : heldRecord s nowMs token with
    | none => exact ⟨[], rfl, by simp [hheld], nofun, rfl⟩
    | some record => exact ⟨[_], rfl, by simp [hheld], fun _ => rfl, rfl⟩

theorem revoke_says (h : StoreSound decoder s) (token : String) (nowMs : Int) :
    ∃ facts, (revokeDeviceBootstrapToken s token nowMs).1.history = facts ++ s.history ∧
      Says decoder s nowMs (.revoke token) (.revoked (revokeDeviceBootstrapToken s token nowMs).2) facts := by
  unfold revokeDeviceBootstrapToken
  dsimp only
  split
  · rename_i hempty
    exact ⟨[], rfl, (if_pos hempty).symm, rfl⟩
  · rename_i hne
    rw [h.findEntry_eq hne]
    cases hheld : heldRecord s nowMs token with
    | none => exact ⟨[], rfl, hheld.symm, rfl⟩
    | some record => exact ⟨[.removed (trim token)], rfl, hheld.symm, rfl⟩

theorem verify_says (h : StoreSound decoder s) (params : VerifyParams) (nowMs : Int) :
    ∃ facts, (verifyDeviceBootstrapToken decoder s params nowMs).1.history = facts ++ s.history ∧
      Says decoder s nowMs (.verify params) (.verified (verifyDeviceBootstrapToken decoder s params nowMs).2) facts := by
  unfold verifyDeviceBootstrapToken
  dsimp only
  split
  · exact ⟨[], rfl, rfl⟩
  · rename_i hne
    rw [h.findEntry_eq hne]
    cases heldRecord s nowMs params.token with
    | none => exact ⟨[], rfl, rfl⟩
    | some record =>
      dsimp only [Option.map_some]
      split
      · exact ⟨[], rfl, rfl⟩
      · split
        · exact ⟨[], rfl, rfl⟩
        · split
          · exact ⟨[], rfl, rfl⟩
          · exact ⟨[_], rfl, _, rfl⟩

theorem revokeForDevice_says (deviceId publicKey : String) (nowMs : Int) :
    ∃ facts, (revokeDeviceBootstrapTokensForDevice decoder s deviceId publicKey nowMs).1.history = facts ++ s.history ∧
      Says decoder s nowMs (.revokeForDevice deviceId publicKey)
        (.revokedForDevice (revokeDeviceBootstrapTokensForDevice decoder s deviceId publicKey nowMs).2) facts := by
  unfold revokeDeviceBootstrapTokensForDevice
  dsimp only
  split
  · exact ⟨[], rfl, [], rfl, rfl⟩
  · split
    · exact ⟨[], rfl, [], rfl, rfl⟩
    · exact ⟨_, rfl, _, rfl, rfl⟩

end Answers

/-! ## Runs -/

theorem storeSound_empty (decoder : KeyDecoder) : StoreSound decoder {} where
  legal := trivial
  records := fun _ _ hfind => by cases hfind
  returned := fun _ hmem => absurd hmem List.not_mem_nil
  distinct := List.nodup_nil

/-- **Every call** keeps the store sound, and answers what it has done. -/
theorem call_spec (hlabel : NeedsLabel decoder) {s s' : BootstrapStore} {event : BootstrapCall × Int}
    {answer : BootstrapAnswer} (h : StoreSound decoder s) (hcall : callBootstrap? decoder s event =
    some (s', answer)) : StoreSound decoder s' ∧ ∃ facts, s'.history = facts ++ s.history ∧
      Says decoder s event.2 event.1 answer facts := by
  obtain ⟨call, nowMs⟩ := event
  cases call with
  | issue token input =>
    rw [callBootstrap?] at hcall
    dsimp only at hcall
    split at hcall
    · rename_i hfresh
      obtain ⟨rfl, rfl⟩ := Prod.mk.inj (Option.some.inj hcall)
      refine ⟨issue_sound h hfresh.2 input nowMs, ?_⟩
      unfold issueDeviceBootstrapToken
      split
      · exact ⟨[], rfl, rfl⟩
      · exact ⟨[_], rfl, rfl, rfl⟩
    · cases hcall
  | clear =>
    obtain ⟨rfl, rfl⟩ := Prod.mk.inj (Option.some.inj hcall)
    exact ⟨clear_sound h nowMs, [.cleared], rfl, rfl⟩
  | revoke token =>
    obtain ⟨rfl, rfl⟩ := Prod.mk.inj (Option.some.inj hcall)
    exact ⟨revoke_sound h token nowMs, revoke_says h token nowMs⟩
  | revokeForDevice deviceId publicKey =>
    obtain ⟨rfl, rfl⟩ := Prod.mk.inj (Option.some.inj hcall)
    exact ⟨revokeForDevice_sound h deviceId publicKey nowMs, revokeForDevice_says deviceId publicKey nowMs⟩
  | restore position =>
    obtain ⟨record, hrecord, heq⟩ := Option.map_eq_some_iff.mp hcall
    obtain ⟨rfl, rfl⟩ := Prod.mk.inj heq
    exact ⟨restore_sound h hrecord nowMs, [_], rfl, record, hrecord, rfl⟩
  | redeem token role scopes =>
    obtain ⟨rfl, rfl⟩ := Prod.mk.inj (Option.some.inj hcall)
    exact ⟨redeem_sound h token role scopes nowMs, redeem_says h token role scopes nowMs⟩
  | verify params =>
    obtain ⟨rfl, rfl⟩ := Prod.mk.inj (Option.some.inj hcall)
    exact ⟨verify_sound hlabel h params nowMs, verify_says h params nowMs⟩

theorem run_sound (hlabel : NeedsLabel decoder) (script : List (BootstrapCall × Int)) :
    StoreSound decoder (run (stepBootstrap decoder) {} script) := by
  refine run_invariant (fun s event hs => ?_) script (storeSound_empty decoder)
  refine skipDisabled_keeps hs fun s' hstep => ?_
  obtain ⟨⟨_, answer⟩, hcall, rfl⟩ := Option.map_eq_some_iff.mp hstep
  exact (call_spec hlabel hs hcall).1

/-- **Bootstrap tokens are bound.**  Whatever calls were made, a token was verified only while it was issued and not
revoked or cleared since, for one device and key, inside its profile, and, until redemptions covered what a verify
staged, for that same request; and a redemption was full exactly when the redemptions so far covered the profile.
The next call, too, answers what it adds to that history. -/
theorem bootstrap_tokens_bound {decoder : KeyDecoder} (hlabel : NeedsLabel decoder)
    (script : List (BootstrapCall × Int)) :
    let s := run (stepBootstrap decoder) {} script
    Legal s.history ∧ ∀ event s' answer, callBootstrap? decoder s event = some (s', answer) →
      ∃ facts, s'.history = facts ++ s.history ∧ Says decoder s event.2 event.1 answer facts :=
  ⟨(run_sound hlabel script).legal, fun _ _ _ hcall => (call_spec hlabel (run_sound hlabel script) hcall).2⟩

def noDecoder : KeyDecoder := { decodeBase64 := fun _ => [], spkiDer := fun _ => none }

def phoneRequest : VerifyParams :=
  { token := "t", deviceId := "phone", publicKey := "key", role := "operator", scopes := ["operator.read"] }

/-- A phone pairs as operator, a tablet tries to, and the token is redeemed, revoked and restored. -/
def pairing : List (BootstrapCall × Int) :=
  [(.issue "t" (some { roles := some ["operator"], scopes := some ["operator.read"], purpose := none }), 0),
    (.verify phoneRequest, 1), (.verify { phoneRequest with deviceId := "tablet" }, 2),
    (.redeem "t" "operator" ["operator.read"], 3), (.revoke "t", 4), (.restore 0, 5)]

/-- The tablet adds nothing to the history, and the phone is verified again. -/
theorem bootstrap_tokens_bound_pairing :
    let s := run (stepBootstrap noDecoder) {} pairing
    let verified := verifyDeviceBootstrapToken noDecoder s phoneRequest 6
    Legal s.history ∧ s.history.length = 5 ∧ verified.2 = .ok ∧ ∃ staged, verified.1.history =
      .verified "t" "phone" "key" "operator" ["operator.read"] staged :: s.history := by
  obtain ⟨hlegal, hsays⟩ := @bootstrap_tokens_bound noDecoder (fun _ _ => rfl) pairing
  have hok : (verifyDeviceBootstrapToken noDecoder (run (stepBootstrap noDecoder) {} pairing) phoneRequest 6).2 =
      .ok := by decide +kernel
  obtain ⟨facts, hhistory, hsaid⟩ := hsays (.verify phoneRequest, 6) _ _ rfl
  rw [hok] at hsaid
  obtain ⟨staged, rfl⟩ := hsaid
  have htexts : trim "t" = "t" ∧ trim "phone" = "phone" ∧ normalizeBootstrapPublicKey noDecoder "key" = "key" ∧
      trim "operator" = "operator" := by decide +kernel
  obtain ⟨htoken, hdevice, hkey, hrole⟩ := htexts
  simp only [phoneRequest, htoken, hdevice, hkey, hrole] at hhistory
  exact ⟨hlegal, by decide +kernel, hok, staged, hhistory⟩

end OpenClaw.Infra.DeviceBootstrap
