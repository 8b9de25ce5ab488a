/-
# OpenClaw.Infra.DeviceBootstrap -- bootstrap tokens

A bootstrap token is issued with a profile, bound to the first device that shows it, and redeemed role
by role.  Its record carries the binding, the request the current handshake has staged and what was
redeemed so far.  This module follows `device-bootstrap.ts`; every function there loads the records,
drops the expired ones, works on one record and writes all of them back.

`history` is bookkeeping of this model: what was done with which token, newest first.  So is `returned`,
the records that `revokeDeviceBootstrapToken` handed out and that were not restored since.
-/
import OpenClaw.Data.Table
import OpenClaw.Infra.DevicePublicKey
import OpenClaw.Logic.Run
import OpenClaw.Shared.DeviceBootstrapProfile

namespace OpenClaw.Infra.DeviceBootstrap

open OpenClaw.Logic OpenClaw.Data OpenClaw.Shared OpenClaw.Infra.DevicePublicKey

def deviceBootstrapTokenTtlMs : Int := 10 * 60 * 1000

structure DeviceBootstrapTokenRecord where
  token : String
  ts : Int
  deviceId : Option String := none
  publicKey : Option String := none
  profile : Option DeviceBootstrapProfile := none
  redeemedProfile : Option DeviceBootstrapProfile := none
  pendingProfile : Option DeviceBootstrapProfile := none
  issuedAtMs : Int
  lastUsedAtMs : Option Int := none

abbrev BootstrapState := Table String DeviceBootstrapTokenRecord

/-! ## Profiles of a record -/

def resolvePersistedProfile (profile : Option DeviceBootstrapProfile) : DeviceBootstrapProfile :=
  normalizeDeviceBootstrapProfile (profile.map (·.input))

def resolvePersistedBootstrapProfile (record : DeviceBootstrapTokenRecord) : DeviceBootstrapProfile :=
  resolvePersistedProfile record.profile

def resolvePersistedRedeemedProfile (record : DeviceBootstrapTokenRecord) : DeviceBootstrapProfile :=
  resolvePersistedProfile record.redeemedProfile

def resolvePersistedPendingProfile (record : DeviceBootstrapTokenRecord) : Option DeviceBootstrapProfile :=
  record.pendingProfile.map fun profile => normalizeDeviceBootstrapProfile (some profile.input)

def resolveRequestedBootstrapProfile (role : String) (scopes : List String)
    (purpose : Option DeviceBootstrapPurpose) : DeviceBootstrapProfile :=
  normalizeDeviceBootstrapProfile (some
    { roles := some [role]
      scopes := some (resolveBootstrapProfileScopesForRole role scopes purpose)
      purpose })

/-- `none` is a caller that names neither a profile nor roles nor scopes. -/
def resolveIssuedBootstrapProfile (input : Option DeviceBootstrapProfileInput) : DeviceBootstrapProfile :=
  match input with
  | some input => normalizeDeviceBootstrapHandoffProfile input
  | none => pairingSetupBootstrapProfile

def bootstrapProfileAllowsRequest (allowedProfile : DeviceBootstrapProfile) (requestedRole : String)
    (requestedScopes : List String) : Bool :=
  requestedRole ∈ allowedProfile.roles &&
    roleScopesAllow requestedRole requestedScopes allowedProfile.scopes

def bootstrapProfileSatisfiesProfile (actualProfile requiredProfile : DeviceBootstrapProfile) : Bool :=
  requiredProfile.roles.all fun requiredRole =>
    let requiredScopes := resolveBootstrapProfileScopesForRole requiredRole requiredProfile.scopes
      requiredProfile.purpose
    requiredRole ∈ actualProfile.roles &&
      (requiredScopes = [] || bootstrapProfileAllowsRequest actualProfile requiredRole requiredScopes)

/-! ## The store -/

/-- One thing done with a token.  `staged` is the request a verify made of the token's profile. -/
inductive BootstrapFact where
  | issued (token : String) (profile : DeviceBootstrapProfile)
  | verified (token deviceId publicKey role : String) (scopes : List String)
      (staged : DeviceBootstrapProfile)
  | redeemed (token role : String) (scopes : List String) (fullyRedeemed : Bool)
  | removed (token : String)
  | cleared
  | restored (token : String)

structure BootstrapStore where
  state : BootstrapState := .empty
  history : List BootstrapFact := []
  returned : List DeviceBootstrapTokenRecord := []

def verifyPairingToken (provided expected : String) : Bool :=
  trim provided ≠ "" && trim expected ≠ "" && provided = expected

/-- One round of the loop of `pruneExpiredPending`, over the records as they were stored. -/
def dropExpired (stored : BootstrapState) (nowMs : Int) (state : BootstrapState) (token : String) : BootstrapState :=
  match stored.find token with
  | none => state
  | some record =>
    if nowMs - record.ts > deviceBootstrapTokenTtlMs then state.deleteKey token else state

/-- `loadState`: expired records are dropped. -/
def loadState (s : BootstrapStore) (nowMs : Int) : BootstrapState :=
  s.state.keys.foldl (dropExpired s.state nowMs) s.state

/-- The entry whose token is `providedToken`. -/
def findEntry (state : BootstrapState) (providedToken : String) : Option (String × DeviceBootstrapTokenRecord) :=
  state.rows.find? fun entry => verifyPairingToken providedToken entry.2.token

def maxDateTimestampMs : Int := 8640000000000000

/-- `resolveExpiresAtMsFromDurationMs` for the lifetime of a token. -/
def resolveExpiresAtMs (issuedAtMs : Int) : Option Int :=
  let expiresAt := issuedAtMs + deviceBootstrapTokenTtlMs
  if -maxDateTimestampMs ≤ issuedAtMs ∧ issuedAtMs ≤ maxDateTimestampMs ∧ isSafeInteger expiresAt ∧
      -maxDateTimestampMs ≤ expiresAt ∧ expiresAt ≤ maxDateTimestampMs then some expiresAt
  else none

/-- `token` is what `generatePairingToken` answers. -/
def issueDeviceBootstrapToken (s : BootstrapStore) (token : String)
    (input : Option DeviceBootstrapProfileInput) (nowMs : Int) : BootstrapStore × Except String (String × Int) :=
  match resolveExpiresAtMs nowMs with
  | none => (s, .error "Device bootstrap token expiry could not be resolved.")
  | some expiresAtMs =>
    let profile := resolveIssuedBootstrapProfile input
    let record : DeviceBootstrapTokenRecord :=
      { token
        ts := nowMs
        profile := some profile
        redeemedProfile := some (normalizeDeviceBootstrapProfile none)
        issuedAtMs := nowMs }
    ({ s with
        state := (loadState s nowMs).upsert token record
        history := .issued token profile :: s.history },
      .ok (token, expiresAtMs))

def clearDeviceBootstrapTokens (s : BootstrapStore) (nowMs : Int) : BootstrapStore × Nat :=
  ({ s with state := .empty, history := .cleared :: s.history }, (loadState s nowMs).keys.length)

def revokeDeviceBootstrapToken (s : BootstrapStore) (token : String) (nowMs : Int) :
    BootstrapStore × Option DeviceBootstrapTokenRecord :=
  let providedToken := trim token
  if providedToken = "" then (s, none)
  else
    let state := loadState s nowMs
    match findEntry state providedToken with
    | none => (s, none)
    | some (tokenKey, record) =>
      ({ s with
          state := state.deleteKey tokenKey
          history := .removed tokenKey :: s.history
          returned := record :: s.returned },
        some record)

variable (decoder : KeyDecoder)

/-- The loop of `revokeDeviceBootstrapTokensForDevice`. -/
def boundTokens (state : BootstrapState) (deviceId publicKey : String) : List String :=
  state.keys.filter fun token =>
    match state.find token with
    | none => false
    | some record =>
      record.deviceId.map trim = some deviceId &&
        record.publicKey.map (normalizeBootstrapPublicKey decoder) = some publicKey

def revokeDeviceBootstrapTokensForDevice (s : BootstrapStore) (deviceId publicKey : String)
    (nowMs : Int) : BootstrapStore × Nat :=
  let deviceId := trim deviceId
  let publicKey := normalizeBootstrapPublicKey decoder publicKey
  if deviceId = "" ∨ publicKey = "" then (s, 0)
  else
    let state := loadState s nowMs
    let removed := boundTokens decoder state deviceId publicKey
    if removed = [] then (s, 0)
    else
      ({ s with
          state := removed.foldl Table.deleteKey state
          history := removed.map .removed ++ s.history },
        removed.length)

/-- Restoring the record at `position` of `returned`. -/
def restoreDeviceBootstrapToken (s : BootstrapStore) (position : Nat)
    (record : DeviceBootstrapTokenRecord) (nowMs : Int) : BootstrapStore :=
  { state := (loadState s nowMs).upsert record.token record
    history := .restored record.token :: s.history
    returned := s.returned.eraseIdx position }

/-- `redeemedProfile` after one more redemption. -/
def redeemProfile (record : DeviceBootstrapTokenRecord) (role : String) (scopes : List String) :
    DeviceBootstrapProfile :=
  let issuedProfile := resolvePersistedBootstrapProfile record
  let redeemed := resolvePersistedRedeemedProfile record
  normalizeDeviceBootstrapProfile (some
    { roles := some (redeemed.roles ++ [role])
      scopes := some (redeemed.scopes ++
        resolveBootstrapProfileScopesForRole role scopes issuedProfile.purpose)
      purpose := issuedProfile.purpose })

structure RedeemResult where
  recorded : Bool
  fullyRedeemed : Bool

def redeemDeviceBootstrapTokenProfile (s : BootstrapStore) (token role : String) (scopes : List String)
    (nowMs : Int) : BootstrapStore × RedeemResult :=
  let providedToken := trim token
  if providedToken = "" then (s, { recorded := false, fullyRedeemed := false })
  else
    let state := loadState s nowMs
    match findEntry state providedToken with
    | none => (s, { recorded := false, fullyRedeemed := false })
    | some (tokenKey, record) =>
      let issuedProfile := resolvePersistedBootstrapProfile record
      let redeemedProfile := redeemProfile record role scopes
      let pendingProfile := (resolvePersistedPendingProfile record).filter fun pendingProfile =>
        !bootstrapProfileSatisfiesProfile redeemedProfile pendingProfile
      let fullyRedeemed := bootstrapProfileSatisfiesProfile redeemedProfile issuedProfile
      ({ s with
          state := state.upsert tokenKey
            { record with
              profile := some issuedProfile
              redeemedProfile := some redeemedProfile
              pendingProfile }
          history := .redeemed tokenKey role scopes fullyRedeemed :: s.history },
        { recorded := true, fullyRedeemed })

/-! ## Verification -/

/-- A binding field counts only when it is a nonempty string. -/
def isBound (field : Option String) : Bool := field.getD "" ≠ ""

structure VerifyParams where
  token : String
  deviceId : String
  publicKey : String
  role : String
  scopes : List String

/-- The record after a verify that succeeds. -/
def bindRecord (record : DeviceBootstrapTokenRecord) (allowedProfile : DeviceBootstrapProfile)
    (pendingProfile : DeviceBootstrapProfile) (deviceId publicKey : String) (nowMs : Int) :
    DeviceBootstrapTokenRecord :=
  { record with
    profile := some allowedProfile
    pendingProfile := some pendingProfile
    deviceId := some deviceId
    publicKey := some publicKey
    lastUsedAtMs := some nowMs }

/-- The binding and the handshake of a record let the request in: the request to stage, or `none`. -/
def stageRequest (record : DeviceBootstrapTokenRecord) (deviceId publicKey : String)
    (requestedProfile : DeviceBootstrapProfile) : Option DeviceBootstrapProfile :=
  let boundDeviceId := record.deviceId.map trim
  let boundPublicKey := record.publicKey.map (normalizeBootstrapPublicKey decoder)
  if isBound boundDeviceId || isBound boundPublicKey then
    if boundDeviceId ≠ some deviceId ∨ boundPublicKey ≠ some publicKey then none
    else
      match resolvePersistedPendingProfile record with
      | none => some requestedProfile
      | some pendingProfile =>
        if deviceBootstrapProfilesEqual pendingProfile requestedProfile then some pendingProfile
        else none
  else some requestedProfile

inductive VerifyResult where
  | ok
  | bootstrapTokenInvalid
  deriving DecidableEq

def verifyDeviceBootstrapToken (s : BootstrapStore) (params : VerifyParams) (nowMs : Int) :
    BootstrapStore × VerifyResult :=
  let state := loadState s nowMs
  let providedToken := trim params.token
  if providedToken = "" then (s, .bootstrapTokenInvalid)
  else
    match findEntry state providedToken with
    | none => (s, .bootstrapTokenInvalid)
    | some (tokenKey, record) =>
      let deviceId := trim params.deviceId
      let publicKey := normalizeBootstrapPublicKey decoder params.publicKey
      let role := trim params.role
      if deviceId = "" ∨ publicKey = "" ∨ role = "" then (s, .bootstrapTokenInvalid)
      else
        let allowedProfile := resolvePersistedBootstrapProfile record
        if allowedProfile.roles = [] ∨
            bootstrapProfileAllowsRequest allowedProfile role params.scopes = false then
          (s, .bootstrapTokenInvalid)
        else
          let requestedProfile := resolveRequestedBootstrapProfile role params.scopes allowedProfile.purpose
          match stageRequest decoder record deviceId publicKey requestedProfile with
          | none => (s, .bootstrapTokenInvalid)
          | some pendingProfile =>
            ({ s with
                state := state.upsert tokenKey
                  (bindRecord record allowedProfile pendingProfile deviceId publicKey nowMs)
                history := .verified tokenKey deviceId publicKey role params.scopes
                  requestedProfile :: s.history },
              .ok)

/-! ## Runs -/

inductive BootstrapCall where
  | issue (token : String) (input : Option DeviceBootstrapProfileInput)
  | clear
  | revoke (token : String)
  | revokeForDevice (deviceId publicKey : String)
  | restore (position : Nat)
  | redeem (token role : String) (scopes : List String)
  | verify (params : VerifyParams)

/-- The profile `token` was issued with. -/
def issuedProfile (token : String) : List BootstrapFact → Option DeviceBootstrapProfile
  | [] => none
  | .issued token' profile :: past => if token' = token then some profile else issuedProfile token past
  | _ :: past => issuedProfile token past

/-- What a call answers. -/
inductive BootstrapAnswer where
  | issued (answer : Except String (String × Int))
  | cleared (removed : Nat)
  | revoked (record : Option DeviceBootstrapTokenRecord)
  | revokedForDevice (removed : Nat)
  | restored
  | redeemed (result : RedeemResult)
  | verified (result : VerifyResult)

/-- What a function returned, as the answer of a call. -/
def answered {α : Type} (returned : BootstrapStore × α) (answer : α → BootstrapAnswer) : BootstrapStore × BootstrapAnswer :=
  (returned.1, answer returned.2)

/-- One call at time `nowMs`, and its answer.  Random tokens are text without white space and are never
drawn twice; an `issue` of another token is disabled, and so is a `restore` of a record that no revoke
returned. -/
def callBootstrap? (s : BootstrapStore) (event : BootstrapCall × Int) : Option (BootstrapStore × BootstrapAnswer) :=
  let nowMs := event.2
  match event.1 with
  | .issue token input =>
    if Trimmed token ∧ issuedProfile token s.history = none then
      some (answered (issueDeviceBootstrapToken s token input nowMs) .issued)
    else none
  | .clear => some (answered (clearDeviceBootstrapTokens s nowMs) .cleared)
  | .revoke token => some (answered (revokeDeviceBootstrapToken s token nowMs) .revoked)
  | .revokeForDevice deviceId publicKey =>
    some (answered (revokeDeviceBootstrapTokensForDevice decoder s deviceId publicKey nowMs) .revokedForDevice)
  | .restore position =>
    s.returned[position]?.map fun record => (restoreDeviceBootstrapToken s position record nowMs, .restored)
  | .redeem token role scopes => some (answered (redeemDeviceBootstrapTokenProfile s token role scopes nowMs) .redeemed)
  | .verify params => some (answered (verifyDeviceBootstrapToken decoder s params nowMs) .verified)

/-- The store after a call. -/
def stepBootstrap? (s : BootstrapStore) (event : BootstrapCall × Int) : Option BootstrapStore :=
  (callBootstrap? decoder s event).map Prod.fst

def stepBootstrap : BootstrapStore → BootstrapCall × Int → BootstrapStore := skipDisabled (stepBootstrap? decoder)

end OpenClaw.Infra.DeviceBootstrap
