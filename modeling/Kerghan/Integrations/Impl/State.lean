import Mathlib.Data.List.Sort
import Kerghan.Integrations.Impl.AbuseGuard

/-!
This module contains `OauthStateService` and `GithubAppStateService`, which issue the states of the redirect
flows and consume them.
-/

namespace Kerghan.Integrations

/--
What a flow has been started for: `OauthStateTarget` and `GithubAppStateTarget`.
-/
inductive StateTarget where
  | create (label : String)
  | replace (integrationUuid : String)
  deriving DecidableEq, Repr

namespace StateTarget

def purpose : StateTarget → StatePurpose
  | .create _ => .create
  | .replace _ => .replace

def label? : StateTarget → Option String
  | .create label => some label
  | .replace _ => none

def integrationUuid? : StateTarget → Option String
  | .create _ => none
  | .replace integrationUuid => some integrationUuid

end StateTarget

structure IssuedOauthState where
  state : String
  codeChallenge : String
  deriving DecidableEq, Repr

structure ConsumedOauthState where
  target : StateTarget
  codeVerifier : String
  deriving DecidableEq, Repr

structure ConsumedGithubAppState where
  target : StateTarget
  candidates : List Int
  verifiedBy : Option String
  deriving DecidableEq, Repr

section Pattern

def isUuidChar (c : Char) : Bool :=
  c.isDigit || ('a' ≤ c && c ≤ 'f') || c == '-'

def isBase64urlChar (c : Char) : Bool :=
  c.isDigit || ('a' ≤ c && c ≤ 'z') || ('A' ≤ c && c ≤ 'Z') || c == '_' || c == '-'

/--
`/^[0-9a-f-]{36}\.[A-Za-z0-9_-]{43}$/`
-/
def OAUTH_STATE_PATTERN (state : String) : Bool :=
  let chars := state.toList
  chars.length == 80
    && (chars.take 36).all isUuidChar
    && chars[36]? == some '.'
    && (chars.drop 37).all isBase64urlChar

def GITHUB_APP_STATE_PATTERN (state : String) : Bool :=
  OAUTH_STATE_PATTERN state

/--
The `uuid` and the `secret` of `state.split('.')`. The pattern allows a single dot only.
-/
def splitState (state : String) : String × String :=
  (String.ofList (state.toList.take 36), String.ofList (state.toList.drop 37))

/--
`/^[A-Za-z0-9-]{1,39}$/`
-/
def GITHUB_ACCOUNT_LOGIN_PATTERN (login : String) : Bool :=
  0 < login.toList.length && login.toList.length ≤ 39
    && login.toList.all fun c => c.isDigit || ('a' ≤ c && c ≤ 'z') || ('A' ≤ c && c ≤ 'Z') || c == '-'

def isGithubLogin (login : Option String) : Bool :=
  login.any GITHUB_ACCOUNT_LOGIN_PATTERN

end Pattern

variable [Platform]

def secretMatches (secret storedHash : String) : Bool :=
  Platform.sha256Hex secret == storedHash

namespace OauthStateService

def OAUTH_STATE_TTL_MS : Int := 10 * 60 * 1000

def OAUTH_STATE_MAX_PENDING : Nat := 5

def pkceChallenge [Crypto] (codeVerifier : String) : String :=
  Crypto.sha256Base64url codeVerifier

def prunePending (userId : Nat) : Api Unit := do
  let pending : List IntegrationOauthState ← Api.query (allOauthStates userId)
  let newestFirst := pending.insertionSort fun a b => b.id ≤ a.id
  let stale := (newestFirst.drop (OAUTH_STATE_MAX_PENDING - 1)).map IntegrationOauthState.id
  if stale.length > 0 then
    let _ ← Api.query (deleteOauthStates stale)
  else
    pure ()

def issue [Crypto] (userId : Nat) (target : StateTarget) : Api IssuedOauthState := do
  let now ← Api.now
  let _ ← Api.query (purgeOauthStates now)
  prunePending userId
  let uuid ← Api.randomUUID
  let secret ← Api.randomBytes
  let codeVerifier ← Api.randomBytes
  let _ ← Api.query (insertOauthState fun id =>
    {
      id
      uuid
      userId
      secretHash := Platform.sha256Hex secret
      purpose := target.purpose
      label := target.label?
      integrationUuid := target.integrationUuid?
      codeVerifier
      expiresAt := now + OAUTH_STATE_TTL_MS
    })
  pure { state := uuid ++ "." ++ secret, codeChallenge := pkceChallenge codeVerifier }

def toConsumed (row : IntegrationOauthState) : Option ConsumedOauthState :=
  match row.purpose, row.label, row.integrationUuid with
  | .create, some label, _ => some { target := .create label, codeVerifier := row.codeVerifier }
  | .replace, _, some integrationUuid =>
    some { target := .replace integrationUuid, codeVerifier := row.codeVerifier }
  | _, _, _ => none

def consume (userId : Nat) (state : String) : Api ConsumedOauthState := do
  let now ← Api.now
  if OAUTH_STATE_PATTERN state then
    let (uuid, secret) := splitState state
    match ← Api.query (findOauthState uuid userId) with
    | none => throw invalidRedirectState
    | some row =>
      let affected : Nat ← Api.query (deleteOauthState row.id)
      if affected ≠ 1 ∨ secretMatches secret row.secretHash = false ∨ row.expiresAt ≤ now then
        throw invalidRedirectState
      else
        match toConsumed row with
        | some consumed => pure consumed
        | none => throw invalidRedirectState
  else
    throw invalidRedirectState

end OauthStateService

namespace GithubAppStateService

def GITHUB_APP_STATE_TTL_MS : Int := 10 * 60 * 1000

def GITHUB_APP_STATE_MAX_PENDING : Nat := 5

def GITHUB_APP_MAX_CANDIDATES : Nat := 100

def prunePending (userId : Nat) : Api Unit := do
  let pending : List IntegrationGithubAppState ← Api.query (allGithubAppStates userId)
  let newestFirst := pending.insertionSort fun a b => b.id ≤ a.id
  let stale := (newestFirst.drop (GITHUB_APP_STATE_MAX_PENDING - 1)).map IntegrationGithubAppState.id
  if stale.length > 0 then
    let _ ← Api.query (deleteGithubAppStates stale)
  else
    pure ()

/--
What a flow has verified before the user selects an installation.
-/
structure SelectResult where
  candidates : Option (List Int)
  verifiedBy : Option String

def issue (userId : Nat) (stage : GithubAppStateStage) (target : StateTarget) (result : SelectResult)
    : Api String := do
  let now ← Api.now
  let _ ← Api.query (purgeGithubAppStates now)
  prunePending userId
  let uuid ← Api.randomUUID
  let secret ← Api.randomBytes
  let _ ← Api.query (insertGithubAppState fun id =>
    {
      id
      uuid
      userId
      secretHash := Platform.sha256Hex secret
      stage
      purpose := target.purpose
      label := target.label?
      integrationUuid := target.integrationUuid?
      candidateInstallationIds := result.candidates
      verifiedBy := result.verifiedBy
      expiresAt := now + GITHUB_APP_STATE_TTL_MS
    })
  pure (uuid ++ "." ++ secret)

def issueRedirect (userId : Nat) (target : StateTarget) : Api String :=
  issue userId .redirect target { candidates := none, verifiedBy := none }

def issueSelect (userId : Nat) (target : StateTarget) (candidates : List Int) (verifiedBy : String)
    : Api String :=
  issue userId .select target
    { candidates := some (candidates.take GITHUB_APP_MAX_CANDIDATES), verifiedBy := some verifiedBy }

def targetOf (row : IntegrationGithubAppState) : Option StateTarget :=
  match row.purpose, row.label, row.integrationUuid with
  | .create, some label, _ => some (.create label)
  | .replace, _, some integrationUuid => some (.replace integrationUuid)
  | _, _, _ => none

def isCandidateList (candidates : Option (List Int)) : Bool :=
  candidates.any fun ids => ids.all isPositiveId

def toConsumed (row : IntegrationGithubAppState) : Option ConsumedGithubAppState :=
  match targetOf row with
  | none => none
  | some target =>
    match row.stage with
    | .redirect => some { target, candidates := [], verifiedBy := none }
    | .select =>
      if isCandidateList row.candidateInstallationIds && isGithubLogin row.verifiedBy then
        some {
          target
          candidates := row.candidateInstallationIds.getD []
          verifiedBy := row.verifiedBy
        }
      else
        none

def consume (userId : Nat) (state : String) (stage : GithubAppStateStage) : Api ConsumedGithubAppState := do
  let now ← Api.now
  if GITHUB_APP_STATE_PATTERN state then
    let (uuid, secret) := splitState state
    match ← Api.query (findGithubAppState uuid userId) with
    | none => throw invalidRedirectState
    | some row =>
      let affected : Nat ← Api.query (deleteGithubAppState row.id)
      let valid := affected == 1 && secretMatches secret row.secretHash
        && decide (row.expiresAt > now) && row.stage == stage
      if valid then
        match toConsumed row with
        | some consumed => pure consumed
        | none => throw invalidRedirectState
      else
        throw invalidRedirectState
  else
    throw invalidRedirectState

end GithubAppStateService

end Kerghan.Integrations
