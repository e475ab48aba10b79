import Kerghan.Auth.Impl.Config
import Kerghan.Core.Impl.ClientRequest
import Kerghan.Core.Impl.SecretKeys

/-!
This module contains the gate that every request with an access token passes: `core/jwt.guard` and the
lookup that `SessionService` provides for it.
-/

namespace Kerghan

structure SessionUser where
  id : Nat
  username : String
  isAdmin : Bool
  deriving DecidableEq

/--
The claims of a verified token, which are still to be validated.
-/
structure VerifiedPayload where
  sub : RawValue
  sid : RawValue

structure JwtGuard where
  /-- `JwtService.verify` with the secret of its module or with this one, without a result if it throws. -/
  tryVerify (token : String) (secret : Option String) : Option VerifiedPayload
  previousKeys : List String

/--
`JwtService`, as far as the gate depends on it.
-/
structure JwtService where
  /-- Whether the token is unexpired and signed with this key. -/
  accepts (token key : String) : Bool
  /-- A claim of the token by its name. -/
  claim (token name : String) : RawValue

namespace JwtService

/--
`JwtService.verify` throws if it does not accept the token.
-/
def verify (service : JwtService) (token key : String) : Option VerifiedPayload :=
  if service.accepts token key then
    some { sub := service.claim token "sub", sid := service.claim token "sid" }
  else
    none

/--
The gate of an instance that is configured by these variables. Its module signs with the current key.
-/
def guard (service : JwtService) (get : String → Option String) : JwtGuard :=
  let keys := SecretKeys.buildSecretKeys get
  { tryVerify token secret := service.verify token (secret.getD keys.current)
    previousKeys := keys.previous }

end JwtService

namespace SessionService

variable [Platform]

/--
The `JOIN` and the `WHERE` of the lookup, apart from the status of the user.
-/
def isActiveSession (sid : String) (now : Date) (user : User) (session : RefreshToken) : Bool :=
  session.userId == user.id && sameText session.sessionUuid sid && session.revokedAt.isNone
    && decide (session.expiresAt > now)

/--
The lookup is a single query, and `now` is the time it has been built.
-/
def findActiveSessionUser (sid : String) (now : Date) (e : DbEnv) (db : AuthDb)
    : Except HttpError (Option SessionUser) :=
  if e.fault then
    throw (.database .queryFailed)
  else
    let user := (db .users).first
      (fun user => (db .refreshTokens).rows.any (isActiveSession sid now user)
        && user.status == .approved)
      (fun _ => 0) e.choice
    pure (user.map fun user => { id := user.id, username := user.username, isAdmin := user.isAdmin })

end SessionService

namespace JwtGuard

def INVALID_TOKEN_MESSAGE : String := "Invalid or expired access token"

def invalidToken : HttpError :=
  .unauthorized INVALID_TOKEN_MESSAGE

def isHexDigit (c : Char) : Bool :=
  c.isDigit || ('a' ≤ c && c ≤ 'f') || ('A' ≤ c && c ≤ 'F')

/--
`UUID_PATTERN.test(text)`
-/
def isUuid (text : String) : Bool :=
  let groups := split '-' text
  groups.map String.length == [8, 4, 4, 4, 12] && groups.all fun group => group.toList.all isHexDigit

def extractToken (accessToken : Option String) : Except HttpError String :=
  match truthy accessToken with
  | none => throw (.unauthorized "Missing access token")
  | some token => pure token

def verifyWithPreviousKeys (guard : JwtGuard) (token : String) : Option VerifiedPayload :=
  guard.previousKeys.findSome? fun secret => guard.tryVerify token (some secret)

def verify (guard : JwtGuard) (token : String) : Except HttpError VerifiedPayload :=
  match (guard.tryVerify token none).or (guard.verifyWithPreviousKeys token) with
  | none => throw invalidToken
  | some payload => pure payload

def validateClaims (payload : VerifiedPayload) : Except HttpError (Int × String) :=
  match payload.sub, payload.sid with
  | .number (.integer sub), .string sid => if isUuid sid then pure (sub, sid) else throw invalidToken
  | _, _ => throw invalidToken

/--
The user of the request, if the guard lets it pass. A public route has none.
-/
def canActivate (guard : JwtGuard) (isPublic : Bool) (accessToken : Option String)
    (findActiveSessionUser : String → Except HttpError (Option SessionUser))
    : Except HttpError (Option AccessTokenPayload) :=
  if isPublic then
    pure none
  else do
    let (sub, sid) ← validateClaims (← guard.verify (← extractToken accessToken))
    match ← findActiveSessionUser sid with
    | none => throw invalidToken
    | some user =>
      if (user.id : Int) ≠ sub then
        throw invalidToken
      else
        pure (some { sub := user.id, sid, username := user.username, isAdmin := user.isAdmin })

end JwtGuard

end Kerghan
