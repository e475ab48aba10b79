import Kerghan.Integrations.Impl.Store

/-!
This module contains `IntegrationsService`, `IntegrationConnectionTestService` with its cooldown, and
`IntegrationsKeyRotationService`.
-/

namespace Kerghan.Integrations

open IntegrationStoreService IntegrationCredentialService

section Label

def LABEL_MIN_LENGTH : Nat := 1

def LABEL_MAX_LENGTH : Nat := 100

/--
The library behind the decorators of the data transfer objects.
-/
class ClassValidator where
  /-- `length(value, min, max)`. It does not count all characters. -/
  length : String → Nat → Nat → Bool

/--
The label that `IsIntegrationLabel` makes of the value of a request, if it accepts it.
-/
def isIntegrationLabel [ClassValidator] (value : Json) : Option String :=
  match value with
  | .string value =>
    let label := trim value
    if ClassValidator.length label LABEL_MIN_LENGTH LABEL_MAX_LENGTH then some label else none
  | _ => none

def normalizeLabel [Locale] (label : String) : String :=
  Locale.toLowerCase (trim label)

end Label

variable [Platform] (cfg : IntegrationsConfig)

def DEFAULT_INTEGRATIONS_MAX_PER_USER : Int := 20

def maxPerUser : Int :=
  getNumberConfig cfg.toAuthConfig "KERGHAN_INTEGRATIONS_MAX_PER_USER" DEFAULT_INTEGRATIONS_MAX_PER_USER

namespace IntegrationTestCooldownService

def DEFAULT_INTEGRATIONS_TEST_COOLDOWN_MS : Int := 30000

def cooldownMs : Int :=
  getNumberConfig cfg.toAuthConfig "KERGHAN_INTEGRATIONS_TEST_COOLDOWN_MS"
    DEFAULT_INTEGRATIONS_TEST_COOLDOWN_MS

inductive CooldownClaim where
  | claimed
  | refused (retryAfterSeconds : Int)

/--
`Math.ceil(ms / 1000)`
-/
def seconds (ms : Int) : Int :=
  -(-ms / 1000)

def remainingSeconds (uuid : String) (userId : Nat) (now : Date) : Api Int := do
  match ← Api.query (findIntegration uuid userId) with
  | none => throw integrationNotFound
  | some (row : Integration) =>
    let remainingMs :=
      match row.lastTestedAt with
      | none => 0
      | some lastTestedAt => lastTestedAt + cooldownMs cfg - now
    pure (max 1 (min (seconds remainingMs) (seconds (cooldownMs cfg))))

def claim (uuid : String) (userId : Nat) (now : Date) : Api CooldownClaim := do
  let affected : Nat ← Api.query (claimTest uuid userId now (now - cooldownMs cfg))
  if affected = 1 then
    pure .claimed
  else
    pure (.refused (← remainingSeconds cfg uuid userId now))

end IntegrationTestCooldownService

variable [Crypto]

namespace IntegrationConnectionTestService

def reencryptIfPrevious (row : Integration) : Api Integration := do
  let fromKeyId := row.secret.keyId
  if IntegrationsEncryptionService.isPreviousKeyId cfg.keys fromKeyId then
    match ← IntegrationsEncryptionService.reencrypt cfg.keys row.secret row.uuid row.type with
    | none => pure row
    | some encrypted => pure ((← rewriteSecret row encrypted fromKeyId).getD row)
  else
    pure row

def activeColumns (githubLogin : String) (expiresAt : Option Date) (metadata : TypeMetadata) (now : Date)
    (row : Integration)
    : Integration :=
  { row with
    status := .active
    statusReason := none
    githubLogin
    expiresAt
    metadata
    lastTestedAt := some now
    lastTestResult := some .success }

def rejectedColumns (status : IntegrationStatus) (statusReason : Option String) (now : Date)
    (row : Integration)
    : Integration :=
  { row with
    status
    statusReason
    lastTestedAt := some now
    lastTestResult := some .rejected }

def transientColumns (now : Date) (row : Integration) : Integration :=
  { row with
    lastTestedAt := some now
    lastTestResult := some .transientError }

def undecryptableColumns (now : Date) (row : Integration) : Integration :=
  { row with
    status := .undecryptable
    statusReason := none
    lastTestedAt := some now
    lastTestResult := some .undecryptable }

def record (row : Integration) (outcome : TestOutcome) (now : Date) : Api Integration := do
  match outcome with
  | .active githubLogin expiresAt metadata =>
    let metadata ← Prog.ofExcept (describeMetadata row.type metadata)
    updateOwned row fun keep => activeColumns githubLogin expiresAt metadata (keep now)
  | .invalid reason => updateOwned row fun keep => rejectedColumns .invalid (some reason) (keep now)
  | .expired => updateOwned row fun keep => rejectedColumns .expired none (keep now)
  | .transient error retryAfterSeconds =>
    let _ ← updateOwned row fun keep => transientColumns (keep now)
    match error with
    | .rateLimited => throw (githubRateLimited retryAfterSeconds)
    | .unavailable => throw githubUnavailable

def test (userId : Nat) (uuid : String) : Api Integration := do
  let row ← findOwned userId uuid
  let now ← Api.now
  match ← IntegrationTestCooldownService.claim cfg row.uuid userId now with
  | .refused retryAfterSeconds => throw (testCooldown retryAfterSeconds)
  | .claimed =>
    match decryptRow cfg.keys row.type row with
    | none => updateOwned row fun keep => undecryptableColumns (keep now)
    | some secret =>
      let row ← reencryptIfPrevious cfg row
      record row (← testSecret cfg secret row) now

end IntegrationConnectionTestService

namespace IntegrationsKeyRotationService

def REENCRYPT_BATCH_SIZE : Nat := 100

structure ReencryptResult where
  reencrypted : Nat
  skippedUndecryptable : Nat
  skippedChanged : Nat
  deriving DecidableEq, Repr

/--
`result`, counting one more row.
-/
def reencryptRow (row : Integration) (result : ReencryptResult) : Api ReencryptResult := do
  let fromKeyId := row.secret.keyId
  match ← IntegrationsEncryptionService.reencrypt cfg.keys row.secret row.uuid row.type with
  | none => pure { result with skippedUndecryptable := result.skippedUndecryptable + 1 }
  | some encrypted =>
    match ← rewriteSecret row encrypted fromKeyId with
    | none => pure { result with skippedChanged := result.skippedChanged + 1 }
    | some _ => pure { result with reencrypted := result.reencrypted + 1 }

def reencryptRows (rows : List Integration) (result : ReencryptResult) : Api ReencryptResult :=
  match rows with
  | [] => pure result
  | row :: rows => do reencryptRows rows (← reencryptRow cfg row result)

/--
The loop of `reencrypt`, if the operator lets it have this many batches.
-/
def reencryptFrom (afterId : Nat) (result : ReencryptResult) : (batches : Nat) → Api ReencryptResult
  | 0 => pure result
  | batches + 1 => do
    let batch ← findBySecretKeyIdsForOperator
      (IntegrationsEncryptionService.previousKeyIds cfg.keys) afterId REENCRYPT_BATCH_SIZE
    let result ← reencryptRows cfg batch result
    if batch.length = REENCRYPT_BATCH_SIZE then
      reencryptFrom ((batch.getLast?.map Integration.id).getD afterId) result batches
    else
      pure result

def reencrypt (batches : Nat) : Api ReencryptResult :=
  reencryptFrom cfg 0 ⟨0, 0, 0⟩ batches

end IntegrationsKeyRotationService

namespace IntegrationsService

structure CreateIntegrationDto where
  label : String
  provider : String
  type : IntegrationType
  credential : Json

/--
The row that is created for a credential that has just been validated.
-/
def createdRow [Locale] (userId : Nat) (provider : String) (type : IntegrationType) (label uuid : String)
    (credential : SealedCredential) (now : Date) (id : Nat)
    : Integration where
  id
  uuid
  userId
  provider
  type
  label
  labelNormalized := normalizeLabel label
  status := .active
  statusReason := none
  githubLogin := credential.githubLogin
  expiresAt := credential.expiresAt
  lastTestedAt := some now
  lastTestResult := some .success
  metadata := credential.metadata
  secretHint := credential.secretHint
  secret := credential.secret

/--
The preconditions that a create checks before anything is asked from GitHub: `assertCreatable` of the flows.
-/
def assertCreatable [Locale] (userId : Nat) (label : String) : Api Unit := do
  if (← countOwned userId) ≥ maxPerUser cfg then
    throw limitReached
  else
    assertLabelFree userId (normalizeLabel label) none

def create [Locale] (userId : Nat) (dto : CreateIntegrationDto) : Api Integration := do
  let parsed ← Prog.ofExcept (parse dto.type dto.credential)
  assertNotLocked userId
  assertCreatable cfg userId dto.label
  let validated ← validate cfg userId parsed
  let uuid ← Api.randomUUID
  let now ← Api.now
  let credential ← sealCredential cfg.keys dto.type validated uuid
  insertWithinCap userId
    (fun keep => createdRow userId dto.provider dto.type dto.label uuid credential (keep now)) (maxPerUser cfg)

def rename [Locale] (userId : Nat) (uuid label : String) : Api Integration := do
  let row ← findOwned userId uuid
  let labelNormalized := normalizeLabel label
  assertLabelFree userId labelNormalized (some row.id)
  updateOwned row fun _ row => { row with label, labelNormalized }

def replaceCredential (userId : Nat) (uuid : String) (raw : Json) : Api Integration := do
  let row ← findOwned userId uuid
  let parsed ← Prog.ofExcept (parse row.type raw)
  assertNotLocked userId
  let validated ← validate cfg userId parsed
  let credential ← sealCredential cfg.keys row.type validated row.uuid
  let now ← Api.now
  updateOwned row fun keep => credential.freshColumns (keep now)

/--
Only the strategy of OAuth Apps has something to clean up.
-/
def cleanUp (row : Integration) : Api Unit :=
  tryCatch
    (match row.type with
      | .oauthApp => OauthAppStrategy.onDelete cfg (decryptRow cfg.keys row.type row) row
      | .pat | .githubApp => pure ())
    fun _ => pure ()

def delete (userId : Nat) (uuid : String) : Api Unit := do
  let row ← findOwned userId uuid
  cleanUp cfg row
  deleteOwned row

end IntegrationsService

end Kerghan.Integrations
