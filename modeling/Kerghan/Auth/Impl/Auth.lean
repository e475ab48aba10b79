import Kerghan.Auth.Impl.Account
import Kerghan.Auth.Impl.PasswordReset

/-!
This module contains `AuthService`.
-/

namespace Kerghan

structure RegisterDto where
  username : String
  email : String
  password : String
  deriving DecidableEq

structure LoginDto where
  username : String
  password : String
  keepSignedIn : Option Bool := none
  deriving DecidableEq

structure StatusResult where
  loggedIn : Bool
  isAdmin : Bool
  session : Option AuthResult := none
  status : Option UserStatus := none
  deriving DecidableEq

variable [Platform]

namespace AuthService

def INVALID_REFRESH_TOKEN : HttpError :=
  .unauthorized "Invalid or expired refresh token"

def register (cfg : AuthConfig) (dto : RegisterDto) : Api AuthResult := do
  assertAvailable dto.username dto.email
  let passwordDigest ← Api.bcryptHash dto.password
  let user : User ← Api.query (insertUser dto.username dto.email passwordDigest false
    (UserApprovalConfig.registrationStatus cfg))
  Api.emit (.userRegistered user.id user.username user.email)
  TokenService.issueTokens cfg user false none

def validateCredentials (username password : String) : Api User := do
  let user ← Api.query (findUserByUsername username)
  match user, compareOrDummy password (user.map User.passwordDigest) with
  | some user, true => pure user
  | _, _ => throw (.unauthorized "Invalid username or password")

def login (cfg : AuthConfig) (dto : LoginDto) : Api AuthResult := do
  let user ← validateCredentials dto.username dto.password
  if user.status = .denied then
    throw (.forbidden .userDenied "This account has been denied access")
  else
    TokenService.issueTokens cfg user (dto.keepSignedIn.getD false) none

/--
Presenting a rotated token again revokes every session of its user.
-/
def detectReplay (tokenRow : RefreshToken) : Api Unit :=
  if tokenRow.revokedReason = some .rotated then
    TokenService.revokeUserTokens tokenRow.userId .replayDetected none
  else
    pure ()

def findActiveRefreshToken (refreshToken : String) : Api RefreshToken := do
  match ← Api.query (findToken (hashToken refreshToken)) with
  | none => throw INVALID_REFRESH_TOKEN
  | some tokenRow =>
    let now ← Api.now
    if tokenRow.expiresAt < now then
      throw INVALID_REFRESH_TOKEN
    else if tokenRow.revokedAt.isSome then
      detectReplay tokenRow
      throw INVALID_REFRESH_TOKEN
    else
      pure tokenRow

def refresh (cfg : AuthConfig) (refreshToken : String) : Api AuthResult := do
  let tokenRow ← findActiveRefreshToken refreshToken
  match ← Api.query (findUserById tokenRow.userId) with
  | none => throw (.unauthorized "Invalid refresh token")
  | some user =>
    if user.status = .denied then
      TokenService.revokeToken tokenRow.id .adminDenied
      throw INVALID_REFRESH_TOKEN
    else
      let now ← Api.now
      let affected : Nat ← Api.query (revokeTokens { id := some tokenRow.id } now .rotated)
      if affected ≠ 1 then
        throw INVALID_REFRESH_TOKEN
      else
        TokenService.issueTokens cfg user tokenRow.keepSignedIn
          (some { sessionUuid := tokenRow.sessionUuid, startedAt := tokenRow.startedAt })

def logout (refreshToken : String) : Api Unit := do
  let now ← Api.now
  let _ ← Api.query (revokeTokens { tokenHash := some (hashToken refreshToken) } now .logout)

def resetPassword (cfg : AuthConfig) (dto : ResetPasswordDto) : Api Unit := do
  let userId ← PasswordResetService.resetPassword cfg dto
  TokenService.revokeUserTokens userId .passwordReset none

def automaticLogin (cfg : AuthConfig) (clientIp : String) : Api StatusResult := do
  match ← DefaultUserService.autoLogin cfg clientIp with
  | some session =>
    pure { loggedIn := true, isAdmin := session.user.isAdmin, session := some session }
  | none => pure { loggedIn := false, isAdmin := false }

def status (cfg : AuthConfig) (refreshToken : Option String) (clientIp : String)
    : Api StatusResult := do
  match ← TokenService.findActiveToken refreshToken with
  | none => automaticLogin cfg clientIp
  | some tokenRow =>
    match ← Api.query (findUserById tokenRow.userId) with
    | none => pure { loggedIn := true, isAdmin := false }
    | some user =>
      match user.status with
      | .denied =>
        TokenService.revokeToken tokenRow.id .adminDenied
        automaticLogin cfg clientIp
      | .pending => pure { loggedIn := false, isAdmin := false, status := some .pending }
      | .approved => pure { loggedIn := true, isAdmin := user.isAdmin }

end AuthService

end Kerghan
