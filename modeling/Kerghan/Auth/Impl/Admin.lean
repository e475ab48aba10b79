import Kerghan.Auth.Impl.Auth

/-!
This module contains `AdminService`.
-/

namespace Kerghan

variable [Platform]

namespace AdminService

def USER_NOT_PENDING_MESSAGE : String := "Only pending users can be approved"

def CANNOT_DENY_SELF_MESSAGE : String := "You cannot deny your own account"

def findUserOrThrow (id : Nat) : Api User := do
  match ← Api.query (findUserById id) with
  | none => throw (.notFound "User not found")
  | some user => pure user

def issueRecoveryToken (cfg : AuthConfig) (user : User) : Api PasswordResetService.IssuedToken := do
  DefaultUserService.assertNotDefaultUser cfg user.id
  PasswordResetService.issueToken cfg user

def generateRecoveryLink (cfg : AuthConfig) (userId : Nat) : Api String := do
  let user ← findUserOrThrow userId
  let issued ← issueRecoveryToken cfg user
  pure issued.resetUrl

def sendRecoveryEmail (cfg : AuthConfig) (userId : Nat) : Api Bool := do
  let user ← findUserOrThrow userId
  let issued ← issueRecoveryToken cfg user
  let outcome ← Prog.perform (AuthEffect.sendEmailTemplate user.email issued.resetUrl)
  pure (outcome == .sent)

def editUser (cfg : AuthConfig) (userId : Nat) (dto : UserFieldChangesDto) : Api User := do
  assertAnyFieldPresent dto
  let user ← findUserOrThrow userId
  assertNotManaged cfg user.id dto
  assertNewValuesAvailable user dto
  let _ ← UserUpdateService.applyUserUpdate user dto
  AccountService.revokeAfterEdit user.id dto.newPassword .adminPasswordChange none
  findUserOrThrow userId

def approveUser (userId : Nat) : Api User := do
  let user ← findUserOrThrow userId
  let affected : Nat ← Api.query (approvePending user.id)
  if affected = 0 then
    throw (.unprocessableEntity .userNotPending USER_NOT_PENDING_MESSAGE)
  else
    findUserOrThrow userId

def denyUser (cfg : AuthConfig) (userId callerId : Nat) : Api User := do
  let user ← findUserOrThrow userId
  DefaultUserService.assertNotDefaultUser cfg user.id
  if user.id = callerId then
    throw (.unprocessableEntity .cannotDenySelf CANNOT_DENY_SELF_MESSAGE)
  else
    let _ ← Api.query (setDenied user.id)
    TokenService.revokeUserTokens user.id .adminDenied none
    findUserOrThrow userId

end AdminService

end Kerghan
