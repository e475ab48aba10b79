import Kerghan.Auth.Impl.Config

/-!
This module contains the services that mint and revoke sessions: `TokenService`, the part of
`DefaultUserService` that requests reach, and `SessionService`.
-/

namespace Kerghan

structure AuthResult where
  user : User
  accessToken : String
  refreshToken : String
  refreshTokenExpiresAt : Date
  deriving DecidableEq

structure ActiveSession where
  id : String
  startedAt : Date
  lastUsedAt : Date
  keepSignedIn : Bool
  current : Bool
  deriving DecidableEq

variable [Platform]

namespace TokenService

def DEFAULT_REFRESH_TOKEN_TTL_MS : Int := 7 * 24 * 60 * 60 * 1000

def DEFAULT_PERSISTENT_REFRESH_TOKEN_TTL_MS : Int := 30 * 24 * 60 * 60 * 1000

def resolveTtl (cfg : AuthConfig) (key : String) (fallback : Int) : Int :=
  let ttl := getNumberConfig cfg key fallback
  if ttl > 0 then ttl else fallback

def refreshTokenTtlMs (cfg : AuthConfig) (keepSignedIn : Bool) : Int :=
  if keepSignedIn then
    resolveTtl cfg "KERGHAN_PERSISTENT_REFRESH_TOKEN_TTL_MS" DEFAULT_PERSISTENT_REFRESH_TOKEN_TTL_MS
  else
    resolveTtl cfg "KERGHAN_REFRESH_TOKEN_TTL_MS" DEFAULT_REFRESH_TOKEN_TTL_MS

/--
The UUID of the session to continue, or that of a new one.
-/
def sessionUuidOf (session : Option SessionIdentity) : Api String :=
  match session with
  | some session => pure session.sessionUuid
  | none => Api.randomUUID

def startedAtOf (session : Option SessionIdentity) : Api Date :=
  match session with
  | some session => pure session.startedAt
  | none => Api.now

def issueTokens (cfg : AuthConfig) (user : User) (keepSignedIn : Bool)
    (session : Option SessionIdentity)
    : Api AuthResult := do
  Prog.perform (AuthEffect.issueTokens user keepSignedIn session)
  let sessionUuid ← sessionUuidOf session
  let issuedAt ← Api.now
  let accessToken := Platform.jwtSign {
    sub := user.id
    sid := sessionUuid
    username := user.username
    isAdmin := user.isAdmin
  } issuedAt
  let refreshToken ← Api.randomBytes
  let refreshTokenExpiresAt := (← Api.now) + refreshTokenTtlMs cfg keepSignedIn
  let pruneBefore ← Api.now
  let _ ← Api.query (pruneTokens user.id pruneBefore)
  let startedAt ← startedAtOf session
  let _ ← Api.query (insertToken (hashToken refreshToken) user.id refreshTokenExpiresAt keepSignedIn
    { sessionUuid, startedAt })
  pure { user, accessToken, refreshToken, refreshTokenExpiresAt }

def findActiveToken (refreshToken : Option String) : Api (Option RefreshToken) := do
  match truthy refreshToken with
  | none => pure none
  | some token =>
    match ← Api.query (findToken (hashToken token)) with
    | none => pure none
    | some tokenRow =>
      if tokenRow.revokedAt.isSome then
        pure none
      else
        let now ← Api.now
        pure (if tokenRow.expiresAt > now then some tokenRow else none)

/--
The refresh tokens of a user, apart from the one to keep.
-/
def userCriteria (userId : Nat) (keepRefreshToken : Option String) : TokenCriteria :=
  match truthy keepRefreshToken with
  | some token => { userId := some userId, notTokenHash := some (hashToken token) }
  | none => { userId := some userId }

def revokeUserTokens (userId : Nat) (reason : RevokedReason) (keepRefreshToken : Option String)
    : Api Unit := do
  let now ← Api.now
  let _ ← Api.query (revokeTokens (userCriteria userId keepRefreshToken) now reason)

def revokeToken (id : Nat) (reason : RevokedReason) : Api Unit := do
  let now ← Api.now
  let _ ← Api.query (revokeTokens { id := some id } now reason)

end TokenService

namespace DefaultUserService

def DEFAULT_USER_MANAGED_MESSAGE : String :=
  "This user is managed by environment configuration and cannot be edited"

def isDefaultUser (cfg : AuthConfig) (userId : Nat) : Bool :=
  DefaultUserConfig.isEnabled cfg && cfg.defaultUserId == some userId

def assertNotDefaultUser (cfg : AuthConfig) (userId : Nat) : Api Unit :=
  if isDefaultUser cfg userId then
    throw (.conflict .defaultUserManaged DEFAULT_USER_MANAGED_MESSAGE)
  else
    pure ()

/--
The default user, if a caller with this address is to be logged in automatically.
-/
def canAutoLogin (cfg : AuthConfig) (clientIp : String) : Option Nat :=
  if DefaultUserConfig.isAlwaysAuthenticated cfg && clientIp != "" && cfg.isIpAllowed clientIp then
    cfg.defaultUserId
  else
    none

def autoLogin (cfg : AuthConfig) (clientIp : String) : Api (Option AuthResult) := do
  match canAutoLogin cfg clientIp with
  | none => pure none
  | some defaultUserId =>
    match ← Api.query (findUserById defaultUserId) with
    | none => pure none
    | some user => some <$> TokenService.issueTokens cfg user false none

end DefaultUserService

namespace SessionService

def listActive (userId : Nat) (refreshToken : Option String) : Api (List ActiveSession) := do
  let now ← Api.now
  let rows ← Api.query (.all .refreshTokens fun r =>
    r.userId == userId && r.revokedAt.isNone && decide (r.expiresAt > now))
  let currentHash := (truthy refreshToken).map hashToken
  pure ((rows.mergeSort fun row row' => row'.issuedAt ≤ row.issuedAt).map fun row => {
    id := row.sessionUuid
    startedAt := row.startedAt
    lastUsedAt := row.issuedAt
    keepSignedIn := row.keepSignedIn
    current := some row.tokenHash == currentHash
  })

def revoke (userId : Nat) (sessionUuid : String) : Api Unit := do
  let now ← Api.now
  let affected ← Api.query
    (revokeTokens { userId := some userId, sessionUuid := some sessionUuid } now .userRevoked)
  if affected = 0 then
    throw (.notFound "Session not found")
  else
    pure ()

def isActiveOwnToken (row : RefreshToken) (userId : Nat) : Api Bool :=
  if row.userId ≠ userId || row.revokedAt.isSome then
    pure false
  else do
    let now ← Api.now
    pure (row.expiresAt > now)

def findPresented (refreshToken : Option String) : Api (Option RefreshToken) :=
  match truthy refreshToken with
  | none => pure none
  | some token => Api.query (findToken (hashToken token))

def revokeOthers (userId : Nat) (refreshToken : Option String) : Api Unit := do
  match ← findPresented refreshToken with
  | none => throw (.unauthorized "Invalid or expired refresh token")
  | some row =>
    if ← isActiveOwnToken row userId then
      let now ← Api.now
      let _ ← Api.query
        (revokeTokens { userId := some userId, notSessionUuid := some row.sessionUuid } now .userRevoked)
    else
      throw (.unauthorized "Invalid or expired refresh token")

end SessionService

end Kerghan
