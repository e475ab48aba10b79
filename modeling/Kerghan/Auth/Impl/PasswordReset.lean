import Kerghan.Auth.Impl.Token

/-!
This module contains `PasswordResetService`.
-/

namespace Kerghan

structure ResetPasswordDto where
  token : String
  password : String
  deriving DecidableEq

variable [Platform]

namespace PasswordResetService

def DEFAULT_PASSWORD_RESET_TOKEN_TTL_MS : Int := 30 * 60 * 1000

/--
`new Date(Date.now() + ttlMs)`. A configured lifetime is a string, so that `+` concatenates.
-/
def expiresAtFrom (cfg : AuthConfig) (now : Date) : Option Date :=
  match cfg.get "KERGHAN_PASSWORD_RESET_TOKEN_TTL_MS" with
  | none => some (now + DEFAULT_PASSWORD_RESET_TOKEN_TTL_MS)
  | some ttlMs => Platform.dateOf (toString now ++ ttlMs)

def resetUrlOf (cfg : AuthConfig) (token : String) : String :=
  (cfg.get "FRONTEND_BASE_URL").getD "undefined" ++ "/#/recover-password?token=" ++ token

structure IssuedToken where
  token : String
  resetUrl : String

def pruneSpentTokens (userId : Nat) : Api Unit := do
  let now ← Api.now
  let _ ← Api.query (pruneExpiredResetTokens userId now)
  let _ ← Api.query (pruneUsedResetTokens userId)

/--
The `INSERT` of a token. The column is not nullable, so an invalid date is refused.
-/
def saveToken (userId : Nat) (token : String) (expiresAt : Option Date) : Api Unit := do
  match expiresAt with
  | none => throw (.database .queryFailed)
  | some expiresAt =>
    let _ ← Api.query (insertResetToken userId (hashToken token) expiresAt)

def issueToken (cfg : AuthConfig) (user : User) : Api IssuedToken := do
  let token ← Api.randomBytes
  pruneSpentTokens user.id
  let now ← Api.now
  saveToken user.id token (expiresAtFrom cfg now)
  pure { token, resetUrl := resetUrlOf cfg token }

def recover (cfg : AuthConfig) (email : String) : Api Unit := do
  match ← Api.query (findUserByEmail email) with
  | none => pure ()
  | some user =>
    if user.status = .denied || DefaultUserService.isDefaultUser cfg user.id then
      pure ()
    else
      let issued ← issueToken cfg user
      Api.emit (.passwordRecoveryRequested user.id issued.token issued.resetUrl user.email)

/--
`new Date()` is only read for a token that is there and unused.
-/
def findActiveToken (token : String) : Api PasswordResetToken := do
  match ← Api.query (findResetToken (hashToken token)) with
  | none => throw (.badRequest "Invalid or expired token")
  | some tokenRow =>
    if tokenRow.usedAt.isSome then
      throw (.badRequest "Invalid or expired token")
    else
      let now ← Api.now
      if tokenRow.expiresAt < now then
        throw (.badRequest "Invalid or expired token")
      else
        pure tokenRow

def assertNotDenied (user : Option User) : Api Unit :=
  if user.any (·.status == .denied) then
    throw (.badRequest "Invalid or expired token")
  else
    pure ()

def resetPassword (cfg : AuthConfig) (dto : ResetPasswordDto) : Api Nat := do
  let tokenRow ← findActiveToken dto.token
  DefaultUserService.assertNotDefaultUser cfg tokenRow.userId
  let user ← Api.query (findUserById tokenRow.userId)
  assertNotDenied user
  let passwordDigest ← Api.bcryptHash dto.password
  let _ ← Api.query (setPassword tokenRow.userId passwordDigest)
  let usedAt ← Api.now
  let _ ← Api.query (markResetTokenUsed tokenRow.id usedAt)
  pure tokenRow.userId

end PasswordResetService

end Kerghan
