import Kerghan.Auth.Impl.Token

/-!
This module contains the edits of an account: the checks of the new values, `UserUpdateService`, the
lockout of `AccountEditAbuseGuardService` and `AccountService`.
-/

namespace Kerghan

structure UserFieldChangesDto where
  username : Option String := none
  email : Option String := none
  newPassword : Option String := none
  deriving DecidableEq

structure UpdateAccountDto extends UserFieldChangesDto where
  currentPassword : String
  deriving DecidableEq

structure AccountSummary where
  username : String
  email : String
  deriving DecidableEq

variable [Platform]

def assertAnyFieldPresent (dto : UserFieldChangesDto) : Api Unit :=
  if (truthy dto.username).isNone && (truthy dto.email).isNone && (truthy dto.newPassword).isNone then
    throw (.badRequest "At least one of username, email, or newPassword is required")
  else
    pure ()

def hasManagedField (dto : UserFieldChangesDto) : Bool :=
  dto.username.isSome || dto.email.isSome || dto.newPassword.isSome

def assertNotManaged (cfg : AuthConfig) (userId : Nat) (dto : UserFieldChangesDto) : Api Unit :=
  if hasManagedField dto then
    DefaultUserService.assertNotDefaultUser cfg userId
  else
    pure ()

def assertAvailable (username email : String) : Api Unit := do
  match ← Api.query (findUserByUsernameOrEmail username email) with
  | none => pure ()
  | some existing =>
    if existing.username = username then
      throw (.conflict .usernameTaken "username is not available")
    else
      throw (.conflict .emailTaken "email is not available")

def assertFieldAvailable (field : UserField) (value : String) (excludeUserId : Nat)
    : Api Unit := do
  match ← Api.query (findOtherUserWith field value excludeUserId) with
  | none => pure ()
  | some _ =>
    match field with
    | .username => throw (.conflict .usernameTaken "Username already in use")
    | .email => throw (.conflict .emailTaken "Email already in use")

def assertFieldAvailableIfGiven (field : UserField) (value : Option String) (excludeUserId : Nat)
    : Api Unit :=
  match truthy value with
  | none => pure ()
  | some value => assertFieldAvailable field value excludeUserId

/--
`AuthService.assertAvailableForUpdate`
-/
def assertAvailableForUpdate (excludeUserId : Nat) (username email : Option String)
    : Api Unit := do
  assertFieldAvailableIfGiven .username username excludeUserId
  assertFieldAvailableIfGiven .email email excludeUserId

/--
The fields of `dto` that are given and differ from the loaded user are checked.
-/
def assertNewValuesAvailable (user : User) (dto : UserFieldChangesDto) : Api Unit :=
  assertAvailableForUpdate user.id
    ((truthy dto.username).filter (· ≠ user.username))
    ((truthy dto.email).filter (· ≠ user.email))

namespace UserUpdateService

def hashNewPassword (user : User) (newPassword : Option String) : Api String :=
  match truthy newPassword with
  | none => pure user.passwordDigest
  | some newPassword => Api.bcryptHash newPassword

def applyUserUpdate (user : User) (changes : UserFieldChangesDto) : Api AccountSummary := do
  let username := (truthy changes.username).getD user.username
  let email := (truthy changes.email).getD user.email
  let passwordDigest ← hashNewPassword user changes.newPassword
  let _ ← Api.query (saveUser { user with username, email, passwordDigest })
  pure { username, email }

end UserUpdateService

namespace AccountEditAbuseGuardService

def maxAttempts (cfg : AuthConfig) : Int :=
  getNumberConfig cfg "KERGHAN_ACCOUNT_EDIT_MAX_ATTEMPTS" 5

def lockMs (cfg : AuthConfig) : Int :=
  getNumberConfig cfg "KERGHAN_ACCOUNT_EDIT_LOCK_MS" 300000

def isLockedOut (userId : Nat) : Api Bool := do
  match ← Api.query (findLockout userId) with
  | none => pure false
  | some lockout =>
    match lockout.lockedUntil with
    | none => pure false
    | some lockedUntil =>
      let now ← Api.now
      pure (lockedUntil > now)

def nextAttemptState (cfg : AuthConfig) (currentAttempts : Int) : Api LockoutState :=
  computeLockoutState currentAttempts (maxAttempts cfg) (lockMs cfg)

def applyFailure (cfg : AuthConfig) (lockout : AccountEditLockout) : Api Unit := do
  let state ← nextAttemptState cfg lockout.failedAttempts
  let _ ← Api.query (updateLockout lockout.id state.attempts state.lockedUntil)

def recoverFromInsertRace (cfg : AuthConfig) (userId : Nat) (error : HttpError) : Api Unit := do
  if error ≠ .database .duplicateEntry then
    throw error
  else
    match ← Api.query (findLockout userId) with
    | none => pure ()
    | some lockout => applyFailure cfg lockout

def insertFirstFailure (cfg : AuthConfig) (userId : Nat) : Api Unit := do
  let state ← nextAttemptState cfg 0
  tryCatch
    (do
      let _ ← Api.query (insertLockout userId state.attempts state.lockedUntil))
    (recoverFromInsertRace cfg userId)

def registerFailure (cfg : AuthConfig) (userId : Nat) : Api Unit := do
  match ← Api.query (findLockout userId) with
  | some lockout => applyFailure cfg lockout
  | none => insertFirstFailure cfg userId

def reset (userId : Nat) : Api Unit := do
  match ← Api.query (findLockout userId) with
  | none => pure ()
  | some lockout =>
    let _ ← Api.query (updateLockout lockout.id 0 none)

end AccountEditAbuseGuardService

namespace AccountService

def assertNotLockedOut (userId : Nat) : Api Unit := do
  if ← AccountEditAbuseGuardService.isLockedOut userId then
    throw (.locked "Account temporarily locked due to too many failed attempts")
  else
    pure ()

def loadUser (userId : Nat) : Api User := do
  match ← Api.query (findUserById userId) with
  | none => throw (.unauthorized "Invalid session")
  | some user => pure user

def verifyCurrentPassword (user : User) (currentPassword : String) : Api Unit :=
  if Platform.bcryptCompare currentPassword user.passwordDigest then
    pure ()
  else
    throw (.badRequest "Invalid current password")

def applyGuardedChecks (cfg : AuthConfig) (user : User) (dto : UpdateAccountDto) : Api Unit :=
  tryCatch
    (do
      verifyCurrentPassword user dto.currentPassword
      assertNewValuesAvailable user dto.toUserFieldChangesDto)
    fun error => do
      AccountEditAbuseGuardService.registerFailure cfg user.id
      throw error

def revokeAfterEdit (userId : Nat) (newPassword : Option String) (reason : RevokedReason)
    (keepRefreshToken : Option String)
    : Api Unit :=
  match truthy newPassword with
  | none => pure ()
  | some _ => TokenService.revokeUserTokens userId reason keepRefreshToken

def updateAccount (cfg : AuthConfig) (userId : Nat) (dto : UpdateAccountDto)
    (currentRefreshToken : Option String)
    : Api AccountSummary := do
  assertAnyFieldPresent dto.toUserFieldChangesDto
  assertNotManaged cfg userId dto.toUserFieldChangesDto
  assertNotLockedOut userId
  let user ← loadUser userId
  applyGuardedChecks cfg user dto
  let result ← UserUpdateService.applyUserUpdate user dto.toUserFieldChangesDto
  AccountEditAbuseGuardService.reset userId
  revokeAfterEdit userId dto.newPassword .passwordChange currentRefreshToken
  pure result

end AccountService

end Kerghan
