import Kerghan.Integrations.Impl.Pat

/-!
This module contains `GithubAppStrategy` with the verification of the user and of the installation.
-/

namespace Kerghan.Integrations

section Credential

def parseGithubAppPayload (payload : Json) : Option Payload :=
  match payload with
  | .object [("installationId", .number installationId)] =>
    if isPositiveId installationId then some (.githubApp installationId) else none
  | _ => none

def maskInstallationId (installationId : Int) : String :=
  "installation " ++ ELLIPSIS ++ lastChars HINT_SUFFIX_LENGTH (toString installationId)

end Credential

section Metadata

def PERMISSION_LEVELS : List (Option String) :=
  [some "read", some "write"]

def hasRequiredPermissions (permissions : GithubPermissions) : Bool :=
  PERMISSION_LEVELS.contains permissions.issues && PERMISSION_LEVELS.contains permissions.metadata

def describeGithubAppMetadata (metadata : TypeMetadata) : Except Thrown TypeMetadata :=
  match metadata with
  | .githubApp metadata =>
    if isPositiveId metadata.installationId && isPositiveId metadata.appId
        && isGithubLogin (some metadata.accountLogin) && isGithubLogin (some metadata.verifiedBy)
        && hasRequiredPermissions metadata.permissions then
      .ok (.githubApp metadata)
    else
      .error (.invalidMetadata .githubApp)
  | _ => .error (.invalidMetadata .githubApp)

def buildGithubAppMetadata (installation : GithubAppInstallation) (verifiedBy : String)
    : Except Thrown TypeMetadata :=
  describeGithubAppMetadata (.githubApp {
    installationId := installation.installationId
    appId := installation.appId
    accountLogin := installation.accountLogin
    accountType := installation.accountType
    repositorySelection := installation.repositorySelection
    permissions := installation.permissions
    verifiedBy
  })

end Metadata

namespace GithubAppRevocationService

def revoke (app : EnabledGithubAppConfig) (token : String) : Api Unit := do
  let _ ← Prog.perform (Effect.revokeOauthToken { clientId := app.clientId, token })

end GithubAppRevocationService

namespace GithubAppInstallationService

def GITHUB_APP_INSUFFICIENT_PERMISSIONS_MESSAGE : String :=
  "This installation has not granted Issues and Metadata read access to the GitHub App"

inductive InstallationCheck where
  | ok (installation : GithubAppInstallation)
  | notFound
  | suspended
  | insufficientPermissions
  | rateLimited (retryAfterSeconds : Option Int)
  | unavailable
  deriving DecidableEq, Repr

def classifyFailure (answer : GithubRateLimitFields) : Api InstallationCheck := do
  if answer.status = 404 then
    pure .notFound
  else if isRateLimited answer then
    let now ← Api.now
    pure (.rateLimited (retryAfterSecondsFor answer now))
  else
    pure .unavailable

def classifyLookup (answer : GithubAppInstallationResponse) (appId : Int) : Api InstallationCheck := do
  if answer.status ≠ 200 then
    classifyFailure answer.toGithubRateLimitFields
  else
    match answer.installation with
    | none => pure .unavailable
    | some installation =>
      if installation.appId ≠ appId then
        pure .notFound
      else if installation.suspended then
        pure .suspended
      else if hasRequiredPermissions installation.permissions then
        pure (.ok installation)
      else
        pure .insufficientPermissions

def classifyMint (answer : GithubRateLimitFields) (looked : InstallationCheck) : Api InstallationCheck := do
  if answer.status = 201 then
    pure looked
  else if answer.status = 403 ∧ isRateLimited answer = false then
    pure .suspended
  else
    classifyFailure answer

/--
`GithubAppClientService.getAppInstallation`, which drops an installation that is malformed.
-/
def getAppInstallation (installationId : Int)
    : Api (Except ClientError GithubAppInstallationResponse) := do
  match ← Prog.perform (Effect.getAppInstallation installationId) with
  | .ok answer =>
    pure (.ok { answer with
      installation := answer.installation.filter fun i => isWellFormed i.toGithubUserInstallation })
  | .error reason => pure (.error reason)

def check (app : EnabledGithubAppConfig) (installationId : Int) : Api InstallationCheck := do
  match ← getAppInstallation installationId with
  | .error (.githubClientError _) => pure .unavailable
  | .error .unexpected => throw .unexpected
  | .ok lookup =>
    match ← classifyLookup lookup app.appId with
    | .ok installation =>
      match ← Prog.perform (Effect.createInstallationToken installationId) with
      | .error (.githubClientError _) => pure .unavailable
      | .error .unexpected => throw .unexpected
      | .ok minted => classifyMint minted (.ok installation)
    | looked => pure looked

def verify (app : EnabledGithubAppConfig) (installationId : Int) : Api GithubAppInstallation := do
  match ← check app installationId with
  | .ok installation => pure installation
  | .notFound => throw (.credential .installationNotAccessible)
  | .suspended => throw (.credential .installationSuspended)
  | .insufficientPermissions =>
    throw (.credential (.insufficientPermissions GITHUB_APP_INSUFFICIENT_PERMISSIONS_MESSAGE))
  | .rateLimited retryAfterSeconds => throw (.credential (.githubRateLimited retryAfterSeconds))
  | .unavailable => throw (.credential .githubUnavailable)

def GITHUB_APP_REASON_UNINSTALLED : String :=
  "uninstalled"

def GITHUB_APP_REASON_SUSPENDED : String :=
  "suspended"

/--
The outcome of a test if there is no installation to describe.
-/
def probe (app : EnabledGithubAppConfig) (installationId : Int)
    : Api (Except TestOutcome GithubAppInstallation) := do
  match ← check app installationId with
  | .ok installation => pure (.ok installation)
  | .notFound => pure (.error (.invalid GITHUB_APP_REASON_UNINSTALLED))
  | .suspended => pure (.error (.invalid GITHUB_APP_REASON_SUSPENDED))
  | .insufficientPermissions => pure (.error (.invalid STATUS_REASON_INSUFFICIENT_PERMISSIONS))
  | .rateLimited retryAfterSeconds => pure (.error (.transient .rateLimited retryAfterSeconds))
  | .unavailable => pure (.error (.transient .unavailable none))

end GithubAppInstallationService

structure VerifiedGithubUser where
  login : String
  installations : List GithubUserInstallation
  deriving DecidableEq, Repr

namespace GithubAppUserVerificationService

def GITHUB_APP_USER_TOKEN_PREFIX : String :=
  "ghu_"

def GITHUB_APP_MAX_INSTALLATION_PAGES : Nat := 10

def isUserToken (token : String) : Bool :=
  startsWith token GITHUB_APP_USER_TOKEN_PREFIX
    && utf16Length token > utf16Length GITHUB_APP_USER_TOKEN_PREFIX

def exchange (app : EnabledGithubAppConfig) (code : String) : Api String := do
  let answer ← exchangeOauthCode
    { clientId := app.clientId, code, codeVerifier := none, redirectUri := app.callbackUrl }
  match answer.accessToken with
  | some token =>
    if answer.status = 200 ∧ isUserToken token = true then
      pure token
    else
      GithubAppRevocationService.revoke app token
      throw (← exchangeErrorFor answer)
  | none => throw (← exchangeErrorFor answer)

def loginOf (token : String) : Api String := do
  match ← fetchGithubUser token with
  | .ok login _ =>
    if isGithubLogin (some login) then
      pure login
    else
      throw (.credential .githubUnavailable)
  | answer => throw (.credential (validationErrorFor answer))

def pageErrorFor (page : GithubInstallationsPage) : Api Thrown := do
  if page.status = 401 then
    pure (.credential .credentialInvalid)
  else if isRateLimited page.toGithubRateLimitFields then
    let now ← Api.now
    pure (.credential (.githubRateLimited (retryAfterSecondsFor page.toGithubRateLimitFields now)))
  else
    pure (.credential .githubUnavailable)

/--
The well-formed entries of a page, and the URL of the next one.
-/
def fetchPage (token : String) (pageUrl : Option String)
    : Api (List GithubUserInstallation × Option String) := do
  match ← Prog.perform (Effect.listUserInstallations token pageUrl) with
  | .error (.githubClientError _) => throw (.credential .githubUnavailable)
  | .error .unexpected => throw .unexpected
  | .ok page =>
    match page.status == 200, page.installations with
    | true, some installations => pure (installations.filter isWellFormed, page.nextUrl)
    | _, _ => throw (← pageErrorFor page)

/--
`found.set`: an installation with the same id is replaced where it stands.
-/
def setFound (found : List GithubUserInstallation) (installation : GithubUserInstallation)
    : List GithubUserInstallation :=
  if installation.installationId ∈ found.map GithubUserInstallation.installationId then
    found.map fun old => if old.installationId = installation.installationId then installation else old
  else
    found ++ [installation]

/--
`found`, with the installations of the app on a page whose ids it does not have yet.
-/
def addFound (appId : Int) (found entries : List GithubUserInstallation) : List GithubUserInstallation :=
  -- The page is filtered before the first of it is added.
  (entries.filter fun installation => installation.appId = appId &&
    !(found.map GithubUserInstallation.installationId).contains installation.installationId).foldl setFound found

/--
At most `pages` more pages are followed.
-/
def installationsFrom (token : String) (appId : Int) (found : List GithubUserInstallation)
    : (pages : Nat) → (pageUrl : Option String) → Api (List GithubUserInstallation)
  | 0, _ => pure found
  | pages + 1, pageUrl => do
    let (entries, nextUrl) ← fetchPage token pageUrl
    let found := addFound appId found entries
    match nextUrl with
    | none => pure found
    | some nextUrl => installationsFrom token appId found pages (some nextUrl)

def installationsOf (token : String) (appId : Int) : Api (List GithubUserInstallation) :=
  installationsFrom token appId [] GITHUB_APP_MAX_INSTALLATION_PAGES none

def verify (app : EnabledGithubAppConfig) (code : String) : Api VerifiedGithubUser := do
  let token ← exchange app code
  let verified ← IntegrationCredentialService.outcome do
    let login ← loginOf token
    let installations ← installationsOf token app.appId
    pure { login, installations : VerifiedGithubUser }
  GithubAppRevocationService.revoke app token
  Prog.ofExcept verified

end GithubAppUserVerificationService

namespace GithubAppStrategy

def validateInstallation (app : EnabledGithubAppConfig) (installationId : Int) (verifiedBy : String)
    : Api ValidatedCredential := do
  let installation ← GithubAppInstallationService.verify app installationId
  let metadata ← Prog.ofExcept (buildGithubAppMetadata installation verifiedBy)
  pure {
    secret := .githubApp installation.installationId
    githubLogin := installation.accountLogin
    expiresAt := none
    metadata
  }

/--
The login that the metadata of a row says an installation has been verified by.
-/
def verifiedByOf : TypeMetadata → Option String
  | .githubApp metadata => some metadata.verifiedBy
  | _ => none

def test (cfg : IntegrationsConfig) (installationId : Int) (current : Integration) : Api TestOutcome := do
  match cfg.githubApp with
  | none => pure (.transient .unavailable none)
  | some app =>
    match ← GithubAppInstallationService.probe app installationId with
    | .error outcome => pure outcome
    | .ok installation =>
      let verifiedBy := verifiedByOf current.metadata
      let metadata ← Prog.ofExcept (buildGithubAppMetadata installation
        (if isGithubLogin verifiedBy then verifiedBy.getD "" else installation.accountLogin))
      pure (.active installation.accountLogin none metadata)

end GithubAppStrategy

end Kerghan.Integrations
