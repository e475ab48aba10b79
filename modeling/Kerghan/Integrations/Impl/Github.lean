import Kerghan.Integrations.Impl.State
import Kerghan.Text

/-!
This module contains what the clients make of the answers of GitHub.
-/

namespace Kerghan.Integrations

section Answers

def GITHUB_LOGIN_MAX_LENGTH : Nat := 255

/--
The login if `isUsableLogin` accepts it.
-/
def usableLogin (login : Option String) : Option String :=
  login.filter fun login => login ≠ "" ∧ utf16Length login ≤ GITHUB_LOGIN_MAX_LENGTH

def isRateLimited (response : GithubRateLimitFields) : Bool :=
  (response.status == 403 || response.status == 429)
    && (response.rateLimitRemaining == some 0 || response.retryAfter.isSome)

def retryAfterSecondsFor (response : GithubRateLimitFields) (now : Date) : Option Int :=
  match response.retryAfter, response.rateLimitReset with
  | some retryAfter, _ => some (max 0 retryAfter)
  | none, some rateLimitReset => some (max 0 (rateLimitReset - now / 1000))
  | none, none => none

inductive GithubUserAnswer where
  | ok (login : String) (response : GithubUserResponse)
  | unauthorized
  | rateLimited (retryAfterSeconds : Option Int)
  | unavailable
  deriving DecidableEq, Repr

def classifyGithubUser (response : GithubUserResponse) (now : Date) : GithubUserAnswer :=
  match response.status == 200, usableLogin response.login with
  | true, some login => .ok login response
  | _, _ =>
    if response.status = 401 then
      .unauthorized
    else if isRateLimited response.toGithubRateLimitFields then
      .rateLimited (retryAfterSecondsFor response.toGithubRateLimitFields now)
    else
      .unavailable

/--
The `validationErrorFor` of the strategies.
-/
def validationErrorFor : GithubUserAnswer → IntegrationCredentialError
  | .unauthorized => .credentialInvalid
  | .rateLimited retryAfterSeconds => .githubRateLimited retryAfterSeconds
  | _ => .githubUnavailable

end Answers

def fetchGithubUser (token : String) : Api GithubUserAnswer := do
  let now ← Api.now
  match ← Prog.perform (Effect.getUser token) with
  | .ok response => pure (classifyGithubUser response now)
  | .error (.githubClientError _) => pure .unavailable
  | .error .unexpected => throw .unexpected

/--
`GithubClientService.exchangeOauthCode`, with the `GithubClientError` that the callers turn into
`GithubUnavailableError`.
-/
def exchangeOauthCode (request : OauthCodeExchangeRequest) : Api OauthCodeExchangeResponse := do
  match ← Prog.perform (Effect.exchangeOauthCode request) with
  | .ok answer => pure { answer with accessToken := answer.accessToken.filter (· ≠ "") }
  | .error (.githubClientError _) => throw (.credential .githubUnavailable)
  | .error .unexpected => throw .unexpected

/--
GitHub's exchange error for an unknown, expired or already used code.
-/
def BAD_VERIFICATION_CODE : String :=
  "bad_verification_code"

/--
`errorFor` and `exchangeErrorFor` of the two code exchanges.
-/
def exchangeErrorFor (answer : OauthCodeExchangeResponse) : Api Thrown := do
  if isRateLimited answer.toGithubRateLimitFields then
    let now ← Api.now
    pure (.credential (.githubRateLimited (retryAfterSecondsFor answer.toGithubRateLimitFields now)))
  else if answer.status ≠ 200 then
    pure (.credential .githubUnavailable)
  else if answer.error = some BAD_VERIFICATION_CODE then
    pure (.credential .credentialInvalid)
  else
    pure (.credential .githubUnavailable)

/--
`parseInstallation` drops what is malformed.
-/
def isWellFormed (installation : GithubUserInstallation) : Bool :=
  isPositiveId installation.installationId && isPositiveId installation.appId
    && GITHUB_ACCOUNT_LOGIN_PATTERN installation.accountLogin

section Parse

/--
`raw.key`, `null` if there is none. The last one counts if a text of JSON has several.
-/
def Json.field (raw : Json) (key : String) : Json :=
  match raw with
  | .object fields => (fields.reverse.lookup key).getD .null
  | _ => .null

def stringOrNull : Json → Option String
  | .string value => some value
  | _ => none

def parseAccountType : Json → Option GithubAccountType
  | .string "User" => some .user
  | .string "Organization" => some .organization
  | _ => none

def parseRepositorySelection : Json → Option GithubRepositorySelection
  | .string "all" => some .all
  | .string "selected" => some .selected
  | _ => none

/--
Whether an installation is suspended. There is no result for a malformed `suspended_at`.
-/
def parseSuspended : Json → Option Bool
  | .null => some false
  | .string _ => some true
  | _ => none

def parseInstallation (raw : Json) : Option GithubUserInstallation :=
  let account := raw.field "account"
  match raw.field "id", raw.field "app_id", account.field "login", parseAccountType (account.field "type") with
  | .number installationId, .number appId, .string accountLogin, some accountType =>
    if isPositiveId installationId && isPositiveId appId && GITHUB_ACCOUNT_LOGIN_PATTERN accountLogin then
      some { installationId, appId, accountLogin, accountType }
    else
      none
  | _, _, _, _ => none

def parseAppInstallation (raw : Json) : Option GithubAppInstallation :=
  match parseInstallation raw, parseRepositorySelection (raw.field "repository_selection"),
    parseSuspended (raw.field "suspended_at") with
  | some base, some repositorySelection, some suspended =>
    let permissions := raw.field "permissions"
    some { base with
      repositorySelection
      permissions := {
        issues := stringOrNull (permissions.field "issues")
        metadata := stringOrNull (permissions.field "metadata")
      }
      suspended }
  | _, _, _ => none

theorem isWellFormed_of_parse {raw : Json} {installation : GithubUserInstallation}
    (h : parseInstallation raw = some installation)
    : isWellFormed installation = true := by
  unfold parseInstallation at h
  dsimp only at h
  split at h
  . rw [Option.ite_none_right_eq_some, Option.some.injEq] at h
    rw [← h.2]
    exact h.1
  . cases h

theorem isWellFormed_of_parseApp {raw : Json} {installation : GithubAppInstallation}
    (h : parseAppInstallation raw = some installation)
    : isWellFormed installation.toGithubUserInstallation = true := by
  unfold parseAppInstallation at h
  split at h
  . next base selection suspended hbase hselection hsuspended =>
    rw [Option.some.injEq] at h
    rw [← h]
    exact isWellFormed_of_parse hbase
  . cases h

end Parse

end Kerghan.Integrations
