import Kerghan.Core.Impl.Cors
import Kerghan.Integrations.Impl.Pat

/-!
This module contains `OauthAppStrategy` with its code exchange and its revocation.
-/

namespace Kerghan.Integrations

section Credential

def OAUTH_APP_TOKEN_PREFIX : String :=
  "gho_"

def isOauthAppToken (token : String) : Bool :=
  startsWith token OAUTH_APP_TOKEN_PREFIX && utf16Length token > utf16Length OAUTH_APP_TOKEN_PREFIX

def parseOauthAppPayload (payload : Json) : Option Payload :=
  match payload with
  | .object [("token", .string token)] => if isOauthAppToken token then some (.oauthApp token) else none
  | _ => none

def maskOauthAppToken (token : String) : String :=
  OAUTH_APP_TOKEN_PREFIX ++ ELLIPSIS ++ lastChars HINT_SUFFIX_LENGTH token

end Credential

section Metadata

/--
`/^[A-Za-z0-9._-]{1,100}$/`
-/
def OAUTH_APP_CLIENT_ID_PATTERN (clientId : String) : Bool :=
  0 < clientId.toList.length && clientId.toList.length ≤ 100
    && clientId.toList.all fun c => isAlphanumeric c || c == '.' || c == '_' || c == '-'

def buildOauthAppMetadata (scopesHeader : Option String) (clientId : String) : OauthAppMetadata where
  scopes := parseScopes scopesHeader
  clientId

def describeOauthAppMetadata (metadata : TypeMetadata) : Except Thrown TypeMetadata :=
  match metadata with
  | .oauthApp metadata =>
    if isScopeList metadata.scopes && OAUTH_APP_CLIENT_ID_PATTERN metadata.clientId then
      .ok (.oauthApp {
        scopes := metadata.scopes.eraseDups.insertionSort fun a b => utf16 a ≤ utf16 b
        clientId := metadata.clientId
      })
    else
      .error (.invalidMetadata .oauthApp)
  | _ => .error (.invalidMetadata .oauthApp)

/--
The `clientIdOf` of the strategy and of the flow.
-/
def clientIdOf : TypeMetadata → Option String
  | .oauthApp metadata => some metadata.clientId
  | _ => none

end Metadata

section Config

def OAUTH_APP_CLIENT_ID_VAR : String := "KERGHAN_GITHUB_OAUTH_APP_CLIENT_ID"

def OAUTH_APP_CLIENT_SECRET_VAR : String := "KERGHAN_GITHUB_OAUTH_APP_CLIENT_SECRET"

def OAUTH_APP_CALLBACK_PATH : String := "/integrations/oauth_app/callback"

def FRONTEND_BASE_URL_VAR : String := "FRONTEND_BASE_URL"

def readTrimmed (get : String → Option String) (key : String) : String :=
  trim ((get key).getD "")

variable (parseUrl : String → Option Url)

def parseOrigin (raw typeName : String) : Except String Url :=
  match (parseUrl raw).filter fun url => url.protocol == "https:" || url.protocol == "http:" with
  | none => throw s!"{FRONTEND_BASE_URL_VAR} must be a valid http(s) URL when the {typeName} is enabled"
  | some url => pure url

def buildCallbackUrl (get : String → Option String) (callbackPath typeName : String) : Except String String := do
  let origin ← parseOrigin parseUrl (readTrimmed get FRONTEND_BASE_URL_VAR) typeName
  let isProduction := readTrimmed get "NODE_ENV" == "production"
  if isProduction && origin.protocol != "https:" then
    throw s!"{FRONTEND_BASE_URL_VAR} must be https when NODE_ENV=production and the {typeName} is enabled"
  else
    pure (origin.origin ++ callbackPath)

/--
There is no result if OAuth Apps are disabled.
-/
def buildOauthAppConfig (get : String → Option String) : Except String (Option EnabledOauthAppConfig) := do
  let clientId := readTrimmed get OAUTH_APP_CLIENT_ID_VAR
  let clientSecret := readTrimmed get OAUTH_APP_CLIENT_SECRET_VAR
  if clientId == "" && clientSecret == "" then
    pure none
  else if clientId == "" || clientSecret == "" then
    let missing := if clientId == "" then OAUTH_APP_CLIENT_ID_VAR else OAUTH_APP_CLIENT_SECRET_VAR
    throw s!"{missing} is missing or blank: set both OAuth App variables, or neither"
  else if OAUTH_APP_CLIENT_ID_PATTERN clientId = false then
    throw s!"{OAUTH_APP_CLIENT_ID_VAR} must be 1-100 characters of [A-Za-z0-9._-]"
  else
    let callbackUrl ← buildCallbackUrl parseUrl get OAUTH_APP_CALLBACK_PATH "OAuth App"
    pure (some { clientId, callbackUrl })

theorem clientId_of_buildOauthAppConfig {get : String → Option String} {app : EnabledOauthAppConfig}
    (h : buildOauthAppConfig parseUrl get = .ok (some app))
    : OAUTH_APP_CLIENT_ID_PATTERN app.clientId = true := by
  unfold buildOauthAppConfig at h
  dsimp only at h
  split at h
  . cases h
  . split at h
    . cases h
    . split at h
      . cases h
      . next hpattern =>
        cases hcallback : buildCallbackUrl parseUrl get OAUTH_APP_CALLBACK_PATH "OAuth App" with
        | error message =>
          rw [hcallback] at h
          cases h
        | ok callbackUrl =>
          rw [hcallback] at h
          cases h
          simpa using hpattern

end Config

variable (cfg : IntegrationsConfig)

namespace OauthAppRevocationService

def revoke (token : String) (clientIdOfToken : Option String) : Api Unit := do
  match cfg.oauthApp with
  | none => pure ()
  | some app =>
    if clientIdOfToken ≠ some app.clientId then
      pure ()
    else
      let _ ← Prog.perform (Effect.revokeOauthToken { clientId := app.clientId, token })

end OauthAppRevocationService

namespace OauthAppCodeExchangeService

def exchange (app : EnabledOauthAppConfig) (code codeVerifier : String) : Api String := do
  let answer ← exchangeOauthCode
    {
      clientId := app.clientId
      code
      codeVerifier := some codeVerifier
      redirectUri := app.callbackUrl
    }
  match answer.accessToken with
  | some token =>
    if answer.status = 200 ∧ isOauthAppToken token = true then
      pure token
    else
      OauthAppRevocationService.revoke cfg token (some app.clientId)
      throw (← exchangeErrorFor answer)
  | none => throw (← exchangeErrorFor answer)

end OauthAppCodeExchangeService

namespace OauthAppStrategy

def OAUTH_APP_REASON_REVOKED : String :=
  "revoked"

def REQUIRED_SCOPE : String :=
  "repo"

def hasRequiredScope (metadata : OauthAppMetadata) : Bool :=
  metadata.scopes.contains REQUIRED_SCOPE

def identify (token clientId : String) : Api ValidatedCredential := do
  match ← fetchGithubUser token with
  | .ok login response =>
    let metadata := buildOauthAppMetadata response.oauthScopes clientId
    if hasRequiredScope metadata then
      pure { secret := .oauthApp token, githubLogin := login, expiresAt := none, metadata := .oauthApp metadata }
    else
      throw (.credential (.insufficientPermissions "The authorization lacks the repo scope"))
  | answer => throw (.credential (validationErrorFor answer))

def validate (code codeVerifier : String) : Api ValidatedCredential := do
  match cfg.oauthApp with
  | none => throw (.credential .githubUnavailable)
  | some app =>
    let token ← OauthAppCodeExchangeService.exchange cfg app code codeVerifier
    tryCatch (identify token app.clientId) fun error => do
      OauthAppRevocationService.revoke cfg token (some app.clientId)
      throw error

def activeOutcome (login : String) (response : GithubUserResponse) (clientId : Option String)
    : TestOutcome :=
  let metadata := buildOauthAppMetadata response.oauthScopes
    (clientId.getD ((cfg.oauthApp.map EnabledOauthAppConfig.clientId).getD ""))
  if hasRequiredScope metadata then
    .active login none (.oauthApp metadata)
  else
    .invalid STATUS_REASON_INSUFFICIENT_PERMISSIONS

def test (token : String) (current : Integration) : Api TestOutcome := do
  match ← fetchGithubUser token with
  | .ok login response => pure (activeOutcome cfg login response (clientIdOf current.metadata))
  | .unauthorized => pure (.invalid OAUTH_APP_REASON_REVOKED)
  | .rateLimited retryAfterSeconds => pure (.transient .rateLimited retryAfterSeconds)
  | .unavailable => pure (.transient .unavailable none)

def onDelete (secret : Option Payload) (current : Integration) : Api Unit := do
  match secret with
  | some (.oauthApp token) => OauthAppRevocationService.revoke cfg token (clientIdOf current.metadata)
  | _ => pure ()

end OauthAppStrategy

end Kerghan.Integrations
