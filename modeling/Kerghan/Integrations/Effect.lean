import Kerghan.Integrations.Entities
import Kerghan.Store.Client

/-!
This module contains what a call to the Integrations module can do besides computing: the atomic steps
that other calls may come in between. What GitHub answers is up to the environment.
-/

namespace Kerghan.Integrations

inductive ErrorCode where
  | validationFailed
  | integrationFlowUnsupported
  | integrationLabelTaken
  | integrationsLimitReached
  | integrationCredentialLocked
  | integrationTestCooldown
  | githubUnavailable
  | githubRateLimited
  | integrationCredentialInvalid
  | integrationInsufficientPermissions
  | integrationInstallationNotAccessible
  | integrationInstallationSuspended
  | integrationRedirectStateInvalid
  deriving DecidableEq, Repr

structure HttpException where
  status : Nat
  code : Option ErrorCode
  message : String
  retryAfterSeconds : Option Int := none
  deriving DecidableEq, Repr

inductive IntegrationCredentialError where
  | credentialInvalid
  | insufficientPermissions (message : String)
  | installationNotAccessible
  | installationSuspended
  | githubUnavailable
  | githubRateLimited (retryAfterSeconds : Option Int)
  deriving DecidableEq, Repr

def IntegrationCredentialError.countsTowardCoolOff : IntegrationCredentialError → Bool
  | .credentialInvalid | .insufficientPermissions _ | .installationNotAccessible
  | .installationSuspended => true
  | .githubUnavailable | .githubRateLimited _ => false

inductive Thrown where
  | http (e : HttpException)
  | credential (e : IntegrationCredentialError)
  | invalidMetadata (type : IntegrationType)
  | database (e : DbError)
  /-- An error of a client of GitHub that is no `GithubClientError`. -/
  | unexpected
  deriving DecidableEq

section Github

inductive GithubClientErrorReason where
  | timeout
  | networkError
  deriving DecidableEq, Repr

inductive ClientError where
  | githubClientError (reason : GithubClientErrorReason)
  | unexpected
  deriving DecidableEq, Repr

structure GithubRateLimitFields where
  status : Nat
  retryAfter : Option Int := none
  rateLimitRemaining : Option Int := none
  /-- Seconds since the epoch. -/
  rateLimitReset : Option Int := none
  deriving DecidableEq, Repr

structure GithubUserResponse extends GithubRateLimitFields where
  login : Option String
  oauthScopes : Option String
  tokenExpiration : Option String
  deriving DecidableEq, Repr

structure OauthCodeExchangeResponse extends GithubRateLimitFields where
  accessToken : Option String
  error : Option String
  deriving DecidableEq, Repr

structure GithubUserInstallation where
  installationId : Int
  appId : Int
  accountLogin : String
  accountType : GithubAccountType
  deriving DecidableEq, Repr

structure GithubInstallationsPage extends GithubRateLimitFields where
  installations : Option (List GithubUserInstallation)
  nextUrl : Option String
  deriving DecidableEq, Repr

structure GithubAppInstallation extends GithubUserInstallation where
  repositorySelection : GithubRepositorySelection
  permissions : GithubPermissions
  suspended : Bool
  deriving DecidableEq, Repr

structure GithubAppInstallationResponse extends GithubRateLimitFields where
  installation : Option GithubAppInstallation
  deriving DecidableEq, Repr

structure OauthCodeExchangeRequest where
  clientId : String
  code : String
  codeVerifier : Option String
  redirectUri : String
  deriving DecidableEq, Repr

structure OauthTokenRevocationRequest where
  clientId : String
  token : String
  deriving DecidableEq, Repr

end Github

inductive Effect where
  | db (s : Stmt Row)
  /-- `SELECT ... FOR UPDATE` of the owner's cool-off row. -/
  | lockOwner (userId : Nat)
  /-- The end of the transaction that has locked the owner. -/
  | unlockOwner (userId : Nat)
  | now
  | randomUUID
  /-- `randomBytes(32).toString('base64url')` -/
  | randomBytes
  | randomIv
  | getUser (token : String)
  | exchangeOauthCode (request : OauthCodeExchangeRequest)
  | revokeOauthToken (request : OauthTokenRevocationRequest)
  | listUserInstallations (userToken : String) (pageUrl : Option String)
  | getAppInstallation (installationId : Int)
  | createInstallationToken (installationId : Int)
  /-- Nothing happens in this step, it records that an attempt has ended as a counted failure. -/
  | countFailure (userId : Nat)

abbrev Answer : Effect → Type
  | .db s => Except DbError s.Answer
  | .lockOwner _ => Except DbError Unit
  | .unlockOwner _ | .countFailure _ => Unit
  | .now => Date
  | .randomUUID | .randomBytes => String
  | .randomIv => Buffer
  | .getUser _ => Except ClientError GithubUserResponse
  | .exchangeOauthCode _ => Except ClientError OauthCodeExchangeResponse
  | .revokeOauthToken _ => Except ClientError Nat
  | .listUserInstallations .. => Except ClientError GithubInstallationsPage
  | .getAppInstallation _ => Except ClientError GithubAppInstallationResponse
  | .createInstallationToken _ => Except ClientError GithubRateLimitFields

structure Env extends DbEnv where
  uuid : String
  bytes : String
  iv : Buffer
  user : Except ClientError GithubUserResponse
  exchange : Except ClientError OauthCodeExchangeResponse
  revocation : Except ClientError Nat
  page : Except ClientError GithubInstallationsPage
  installation : Except ClientError GithubAppInstallationResponse
  minted : Except ClientError GithubRateLimitFields

/--
The database, and whose cool-off row a transaction holds a lock on.
-/
structure World [Platform] where
  db : Db Row
  locked : Nat → Bool

/--
A lock that somebody else holds is waited for in vain if the step is taken nevertheless.
-/
def Effect.exec [Platform] (s : Effect) (e : Env) (w : World) : Answer s × World :=
  match s with
  | .db s =>
    let res := s.exec e.toDbEnv w.db
    (res.1, { w with db := res.2 })
  | .lockOwner userId =>
    if e.fault || w.locked userId then
      (.error .queryFailed, w)
    else
      (.ok (), { w with locked := Function.update w.locked userId true })
  | .unlockOwner userId => ((), { w with locked := Function.update w.locked userId false })
  | .now => (e.now, w)
  | .randomUUID => (e.uuid, w)
  | .randomBytes => (e.bytes, w)
  | .randomIv => (e.iv, w)
  | .getUser _ => (e.user, w)
  | .exchangeOauthCode _ => (e.exchange, w)
  | .revokeOauthToken _ => (e.revocation, w)
  | .listUserInstallations .. => (e.page, w)
  | .getAppInstallation _ => (e.installation, w)
  | .createInstallationToken _ => (e.minted, w)
  | .countFailure _ => ((), w)

abbrev IntegrationsHistory := History Effect Answer

abbrev IntegrationsEntry [Platform] := Entry Effect Answer World

/--
A call to the Integrations module that returns an `α`.
-/
abbrev Api (α : Type) := Prog Effect Answer Thrown α

/--
The event that `s` has been sent and answered with `a`.
-/
abbrev ran (s : Stmt Row) (a : s.Answer) : (s : Effect) × Answer s :=
  ⟨.db s, .ok a⟩

abbrev clock (now : Date) : (s : Effect) × Answer s :=
  ⟨.now, now⟩

instance [Platform] : Backed Row Effect.exec where
  db w := w.db
  ran := ran
  ran_inj h := by
    cases h
    rfl
  exec_ran {effect e w s a} hran := by
    cases effect with
    | db s' =>
      obtain ⟨heffect, hresp⟩ := Sigma.mk.inj hran
      cases heffect
      exact ⟨e.toDbEnv, Prod.ext (eq_of_heq hresp) rfl⟩
    | _ => simp at hran
  exec_cases effect e w := by
    cases effect with
    | db s =>
      cases hresp : (s.exec e.toDbEnv w.db).1 with
      | ok a => exact Or.inr ⟨s, a, congrArg (Sigma.mk (Effect.db s)) hresp⟩
      | error err => exact Or.inl (Stmt.exec_error (Prod.ext hresp rfl))
    | lockOwner userId =>
      left
      unfold Effect.exec
      dsimp only
      split <;> rfl
    | _ => exact Or.inl rfl

namespace Api

def query (s : Stmt Row) : Api s.Answer := do
  match ← Prog.perform (Effect.db s) with
  | .ok a => pure a
  | .error e => throw (.database e)

/--
`new Date()` and `Date.now()`.
-/
def now : Api Date :=
  Prog.perform Effect.now

def randomUUID : Api String :=
  Prog.perform Effect.randomUUID

def randomBytes : Api String :=
  Prog.perform Effect.randomBytes

def randomIv : Api Buffer :=
  Prog.perform Effect.randomIv

end Api

end Kerghan.Integrations
