import Kerghan.Auth.Impl.Config
import Kerghan.Integrations.Statements

/-!
This module contains the configuration of the Integrations module, the errors it throws,
`IntegrationCredentialAbuseGuardService` and what `IntegrationCredentialService` does around a credential
check.
-/

namespace Kerghan.Integrations

structure KeyEntry where
  key : Buffer
  keyId : String
  deriving DecidableEq, Repr

/--
The keys of an environment. `integrationsKeySetOf` refuses two keys that share a key id.
-/
structure IntegrationsKey where
  current : KeyEntry
  previous : List KeyEntry
  distinct : ((current :: previous).map KeyEntry.keyId).Nodup

structure EnabledOauthAppConfig where
  clientId : String
  callbackUrl : String
  deriving DecidableEq, Repr

structure EnabledGithubAppConfig where
  appId : Int
  clientId : String
  slug : String
  callbackUrl : String
  deriving DecidableEq, Repr

structure IntegrationsConfig extends AuthConfig where
  keys : IntegrationsKey
  oauthApp : Option EnabledOauthAppConfig
  githubApp : Option EnabledGithubAppConfig

section Errors

def integrationNotFound : Thrown :=
  .http { status := 404, code := none, message := "Integration not found" }

def flowUnsupported : Thrown :=
  .http { status := 400, code := some .integrationFlowUnsupported
          message := "This integration type does not support pasting a credential" }

def labelTaken : Thrown :=
  .http { status := 409, code := some .integrationLabelTaken
          message := "label is already used by another integration" }

def limitReached : Thrown :=
  .http { status := 409, code := some .integrationsLimitReached, message := "Integration limit reached" }

def credentialLocked : Thrown :=
  .http { status := 423, code := some .integrationCredentialLocked
          message := "Too many rejected credentials; try again later" }

def testCooldown (retryAfterSeconds : Int) : Thrown :=
  .http { status := 429, code := some .integrationTestCooldown
          message := "This integration was tested recently; try again later"
          retryAfterSeconds := some retryAfterSeconds }

def githubUnavailable : Thrown :=
  .http { status := 502, code := some .githubUnavailable
          message := "GitHub is unavailable; try again later" }

def githubRateLimited (retryAfterSeconds : Option Int) : Thrown :=
  .http { status := 503, code := some .githubRateLimited
          message := "GitHub rate limit reached; try again later"
          retryAfterSeconds }

def invalidRedirectState : Thrown :=
  .http { status := 400, code := some .integrationRedirectStateInvalid
          message := "This GitHub authorization link expired or was already used" }

/--
`new NotFoundException()`, thrown while a type is not enabled.
-/
def notEnabled : Thrown :=
  .http { status := 404, code := none, message := "Not Found" }

def validationFailed (problem : String) : Thrown :=
  .http { status := 400, code := some .validationFailed, message := problem }

def httpErrorFor : IntegrationCredentialError → Thrown
  | .credentialInvalid =>
    .http { status := 422, code := some .integrationCredentialInvalid
            message := "GitHub rejected the credential" }
  | .insufficientPermissions message =>
    .http { status := 422, code := some .integrationInsufficientPermissions, message }
  | .installationNotAccessible =>
    .http { status := 422, code := some .integrationInstallationNotAccessible
            message := "Your GitHub account cannot access that installation of the GitHub App" }
  | .installationSuspended =>
    .http { status := 422, code := some .integrationInstallationSuspended
            message := "This installation is suspended on GitHub" }
  | .githubRateLimited retryAfterSeconds => githubRateLimited retryAfterSeconds
  | .githubUnavailable => githubUnavailable

end Errors

variable [Platform]

namespace IntegrationCredentialAbuseGuardService

def DEFAULT_INTEGRATIONS_CREDENTIAL_MAX_ATTEMPTS : Int := 5

def DEFAULT_INTEGRATIONS_CREDENTIAL_LOCK_MS : Int := 900000

def maxAttempts (cfg : IntegrationsConfig) : Int :=
  getNumberConfig cfg.toAuthConfig "KERGHAN_INTEGRATIONS_CREDENTIAL_MAX_ATTEMPTS"
    DEFAULT_INTEGRATIONS_CREDENTIAL_MAX_ATTEMPTS

def lockMs (cfg : IntegrationsConfig) : Int :=
  getNumberConfig cfg.toAuthConfig "KERGHAN_INTEGRATIONS_CREDENTIAL_LOCK_MS"
    DEFAULT_INTEGRATIONS_CREDENTIAL_LOCK_MS

def isLockedOut (userId : Nat) : Api Bool := do
  match ← Api.query (findLockout userId) with
  | none => pure false
  | some lockout =>
    match lockout.lockedUntil with
    | none => pure false
    | some lockedUntil =>
      let now ← Api.now
      pure (lockedUntil > now)

/--
`ENSURE_LOCKOUT_ROW_SQL`
-/
def ensureLockoutRow (userId : Nat) : Api Unit :=
  tryCatch
    (do
      let _ ← Api.query (insertLockoutRow userId))
    fun error => if error = .database .duplicateEntry then pure () else throw error

def reserveAttempt (cfg : IntegrationsConfig) (userId : Nat) : Api Bool := do
  let now ← Api.now
  ensureLockoutRow userId
  let affected : Nat ← Api.query (reserveAttemptSql (maxAttempts cfg) (now + lockMs cfg) userId now)
  pure (affected == 1)

def releaseAttempt (userId : Nat) : Api Unit := do
  let _ ← Api.query (releaseAttemptSql userId)

def reset (userId : Nat) : Api Unit := do
  let _ ← Api.query (resetLockout userId)

end IntegrationCredentialAbuseGuardService

namespace IntegrationCredentialService

open IntegrationCredentialAbuseGuardService

def assertNotLocked (userId : Nat) : Api Unit := do
  if ← isLockedOut userId then
    throw credentialLocked
  else
    pure ()

def settleFailure (userId : Nat) (error : Thrown) : Api Thrown :=
  match error with
  | .credential e => do
    if e.countsTowardCoolOff then
      Prog.perform (Effect.countFailure userId)
    else
      releaseAttempt userId
    pure (httpErrorFor e)
  | error => do
    releaseAttempt userId
    pure error

/--
What follows `run` once it has ended.
-/
def settle {T : Type} (userId : Nat) (resetsCoolOff : T → Bool) (result : T) : Api T := do
  if resetsCoolOff result then
    reset userId
  else
    releaseAttempt userId
  pure result

/--
`run`, with its error as a value.
-/
def outcome {T : Type} (run : Api T) : Api (Except Thrown T) :=
  tryCatch (Except.ok <$> run) fun error => pure (.error error)

def attempt {T : Type} (cfg : IntegrationsConfig) (userId : Nat) (run : Api T)
    (resetsCoolOff : T → Bool)
    : Api T := do
  if ← reserveAttempt cfg userId then
    match ← outcome run with
    | .ok result => settle userId resetsCoolOff result
    | .error error => throw (← settleFailure userId error)
  else
    throw credentialLocked

end IntegrationCredentialService

end Kerghan.Integrations
