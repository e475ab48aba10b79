import Kerghan.Auth.Impl.Token

/-!
This module contains the login by authorization: `AuthorizationRequestService` and the limits of
`AuthorizationRequestAbuseGuardService`.
-/

namespace Kerghan

/--
`expiresAt` is absent if it is an invalid date.
-/
structure CreatedAuthorizationRequest where
  uuid : String
  pollToken : String
  expiresAt : Option Date
  deriving DecidableEq

/--
Only the poll that wins an approved request gets a session.
-/
inductive PollResult where
  | status (status : AuthorizationRequestStatus)
  | approved (authResult : AuthResult)
  deriving DecidableEq

variable [Platform]

namespace AuthorizationRequestAbuseGuardService

def createLimit (cfg : AuthConfig) : Int :=
  getNumberConfig cfg "KERGHAN_AUTHORIZATION_REQUEST_CREATE_LIMIT" 5

def createWindowMs (cfg : AuthConfig) : Int :=
  getNumberConfig cfg "KERGHAN_AUTHORIZATION_REQUEST_CREATE_WINDOW_MS" 60000

def maxOpenPerUser (cfg : AuthConfig) : Int :=
  getNumberConfig cfg "KERGHAN_AUTHORIZATION_REQUEST_MAX_OPEN_PER_USER" 5

def authorizeMaxAttempts (cfg : AuthConfig) : Int :=
  getNumberConfig cfg "KERGHAN_AUTHORIZATION_REQUEST_AUTHORIZE_MAX_ATTEMPTS" 5

def authorizeLockMs (cfg : AuthConfig) : Int :=
  getNumberConfig cfg "KERGHAN_AUTHORIZATION_REQUEST_AUTHORIZE_LOCK_MS" 300000

def isOverCreateLimit (cfg : AuthConfig) (ip username : String) : Api Bool := do
  let windowStart := (← Api.now) - createWindowMs cfg
  let ipCount : Nat ← Api.query (countRequestsByIp ip windowStart)
  let usernameCount : Nat ← Api.query (countRequestsByUsername username windowStart)
  pure (ipCount ≥ createLimit cfg || usernameCount ≥ createLimit cfg)

def enforceOpenCapFor (cfg : AuthConfig) (userId : Nat) : Api Unit := do
  let openCount : Nat ← Api.query (countOpenRequests userId)
  if openCount < maxOpenPerUser cfg then
    pure ()
  else
    match ← Api.query (findOldestOpenRequest userId) with
    | none => pure ()
    | some oldest =>
      let now ← Api.now
      let _ ← Api.query (resolveRequest oldest.id .expired now)

def isLockedOut (request : AuthorizationRequest) : Api Bool :=
  match request.authorizeLockedUntil with
  | none => pure false
  | some lockedUntil => do
    let now ← Api.now
    pure (lockedUntil > now)

def registerAuthorizeFailure (cfg : AuthConfig) (request : AuthorizationRequest) : Api Unit := do
  let state ← computeLockoutState request.authorizeFailedAttempts (authorizeMaxAttempts cfg)
    (authorizeLockMs cfg)
  let _ ← Api.query (countAuthorizeFailure request.id state.attempts state.lockedUntil)

end AuthorizationRequestAbuseGuardService

namespace AuthorizationRequestService

open AuthorizationRequestAbuseGuardService

def AUTHORIZE_FAILURE_MESSAGE : String := "Unable to authorize this request"

def DENY_FAILURE_MESSAGE : String := "Unable to deny this request"

def DEFAULT_AUTHORIZATION_REQUEST_TTL_MS : Int := 3600000

def ttlMs (cfg : AuthConfig) : Option Int :=
  match cfg.get "KERGHAN_AUTHORIZATION_REQUEST_TTL_MS" with
  | none => some DEFAULT_AUTHORIZATION_REQUEST_TTL_MS
  | some raw => Platform.number raw

/--
Make room for a request of a known user. Nothing is to be done for an unknown username.
-/
def enforceOpenCap (cfg : AuthConfig) (user : Option User) : Api Unit :=
  match user with
  | none => pure ()
  | some user => enforceOpenCapFor cfg user.id

/--
The `INSERT` of a request. The column is not nullable, so an invalid date is refused.
-/
def saveRequest (uuid username : String) (userId : Option Nat) (pollToken ip userAgent : String)
    (expiresAt : Option Date) (keepSignedIn : Bool)
    : Api Unit := do
  match expiresAt with
  | none => throw (.database .queryFailed)
  | some expiresAt =>
    let _ ← Api.query
      (insertRequest uuid username userId (hashToken pollToken) ip userAgent expiresAt keepSignedIn)

def create (cfg : AuthConfig) (username ip userAgent : String) (keepSignedIn : Bool)
    : Api CreatedAuthorizationRequest := do
  let user ← Api.query (findUserByUsername username)
  let overLimit ← isOverCreateLimit cfg ip username
  let pollToken ← Api.randomBytes
  let uuid ← Api.randomUUID
  let now ← Api.now
  let expiresAt := (ttlMs cfg).map (now + ·)
  if overLimit then
    pure { uuid, pollToken, expiresAt }
  else
    enforceOpenCap cfg user
    saveRequest uuid username (user.map User.id) pollToken ip userAgent expiresAt keepSignedIn
    Api.emit (.authorizationRequestCreated uuid username (user.map User.id))
    pure { uuid, pollToken, expiresAt }

def expire (request : AuthorizationRequest) : Api PollResult := do
  let now ← Api.now
  let _ ← Api.query (resolveRequest request.id .expired now)
  pure (.status .expired)

def findOwner (request : AuthorizationRequest) : Api (Option User) :=
  match request.userId with
  | none => pure none
  | some userId => Api.query (findUserById userId)

def issueSessionFor (cfg : AuthConfig) (request : AuthorizationRequest) : Api PollResult := do
  match ← findOwner request with
  | none => pure (.status .logged)
  | some user =>
    if user.status ≠ .approved then
      let now ← Api.now
      let _ ← Api.query (rejectClaim request.uuid now)
      pure (.status .denied)
    else
      let authResult ← TokenService.issueTokens cfg user request.keepSignedIn none
      Api.emit (.authorizationRequestLogged request.uuid user.id)
      pure (.approved authResult)

def claim (cfg : AuthConfig) (request : AuthorizationRequest) : Api PollResult := do
  let affected : Nat ← Api.query (claimRequest request.uuid)
  if affected = 1 then
    issueSessionFor cfg request
  else
    pure (.status .logged)

def poll (cfg : AuthConfig) (uuid pollToken : String) : Api PollResult := do
  match ← Api.query (findRequestForPoll uuid (hashToken pollToken)) with
  | none => throw (.notFound "Authorization request not found")
  | some request =>
    match request.status with
    | .opened =>
      let now ← Api.now
      if request.expiresAt < now then
        expire request
      else
        pure (.status .opened)
    | .approved => claim cfg request
    | status => pure (.status status)

def loadOwnedOpenRequest (uuid : String) (approverUserId : Nat) (failureMessage : String)
    : Api AuthorizationRequest := do
  match ← Api.query (findRequest uuid) with
  | none => throw (.badRequest failureMessage)
  | some request =>
    if request.userId ≠ some approverUserId || request.status ≠ .opened then
      throw (.badRequest failureMessage)
    else
      pure request

def approverPasswordValid (approverUserId : Nat) (password : String) : Api Bool := do
  let approver ← Api.query (findUserById approverUserId)
  pure (compareOrDummy password (approver.map User.passwordDigest))

def authorize (cfg : AuthConfig) (uuid : String) (approverUserId : Nat) (password : String)
    : Api Unit := do
  let request ← loadOwnedOpenRequest uuid approverUserId AUTHORIZE_FAILURE_MESSAGE
  let now ← Api.now
  if request.expiresAt < now then
    throw (.badRequest AUTHORIZE_FAILURE_MESSAGE)
  else
    let lockedOut ← isLockedOut request
    let passwordValid ← approverPasswordValid approverUserId password
    if lockedOut then
      throw (.badRequest AUTHORIZE_FAILURE_MESSAGE)
    else if !passwordValid then
      registerAuthorizeFailure cfg request
      throw (.badRequest AUTHORIZE_FAILURE_MESSAGE)
    else
      let resolvedAt ← Api.now
      let _ ← Api.query (approveRequest request.id approverUserId resolvedAt)
      Api.emit (.authorizationRequestApproved uuid approverUserId)

def deny (uuid : String) (approverUserId : Nat) : Api Unit := do
  let request ← loadOwnedOpenRequest uuid approverUserId DENY_FAILURE_MESSAGE
  let now ← Api.now
  let _ ← Api.query (resolveRequest request.id .denied now)
  Api.emit (.authorizationRequestDenied uuid approverUserId)

end AuthorizationRequestService

end Kerghan
