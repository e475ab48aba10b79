import Kerghan.Auth.Effect

/-!
This module contains the statements that the repositories of the Auth module send to the database.
`Repository.update(id, changes)` is an `UPDATE` of the changed columns, `Repository.save(entity)` of
a loaded entity writes every column back to the value it has in memory.
-/

namespace Kerghan

abbrev AuthStmt := Stmt AuthRow

section Users

variable [Platform]

abbrev findUserById (id : Nat) : AuthStmt :=
  .find .users (fun u => u.id == id) fun _ => 0

abbrev findUserByUsername (username : String) : AuthStmt :=
  .find .users (fun u => sameText u.username username) fun _ => 0

abbrev findUserByEmail (email : String) : AuthStmt :=
  .find .users (fun u => sameText u.email email) fun _ => 0

abbrev findUserByUsernameOrEmail (username email : String) : AuthStmt :=
  .find .users (fun u => sameText u.username username || sameText u.email email) fun _ => 0

/--
The columns that an edit checks for availability.
-/
inductive UserField where
  | username
  | email
  deriving DecidableEq

def UserField.of (field : UserField) (user : User) : String :=
  match field with
  | .username => user.username
  | .email => user.email

abbrev findOtherUserWith (field : UserField) (value : String) (excludeUserId : Nat) : AuthStmt :=
  .find .users (fun u => sameText (field.of u) value && u.id != excludeUserId) fun _ => 0

abbrev insertUser (username email passwordDigest : String) (isAdmin : Bool) (status : UserStatus)
    : AuthStmt :=
  .insert .users fun id _ => { id, username, email, passwordDigest, isAdmin, status }

/--
`userRepository.save(user)` of a loaded user.
-/
abbrev saveUser (user : User) : AuthStmt :=
  .update .users (fun u => u.id == user.id) fun _ _ => user

abbrev setPassword (id : Nat) (passwordDigest : String) : AuthStmt :=
  .update .users (fun u => u.id == id) fun _ u => { u with passwordDigest }

abbrev approvePending (id : Nat) : AuthStmt :=
  .update .users (fun u => u.id == id && u.status == .pending) fun _ u =>
    { u with status := .approved }

abbrev setDenied (id : Nat) : AuthStmt :=
  .update .users (fun u => u.id == id) fun _ u => { u with status := .denied }

end Users

section RefreshTokens

/--
The `WHERE` of a statement that revokes refresh tokens, apart from `revoked_at IS NULL`. Absent
columns are not compared.
-/
structure TokenCriteria where
  id : Option Nat := none
  tokenHash : Option String := none
  notTokenHash : Option String := none
  userId : Option Nat := none
  sessionUuid : Option String := none
  notSessionUuid : Option String := none

def TokenCriteria.covers [Platform] (c : TokenCriteria) (r : RefreshToken) : Bool :=
  c.id.all (r.id == ·) && c.tokenHash.all (r.tokenHash == ·)
    && c.notTokenHash.all (r.tokenHash != ·) && c.userId.all (r.userId == ·)
    && c.sessionUuid.all (sameText r.sessionUuid ·)
    && c.notSessionUuid.all (!sameText r.sessionUuid ·)

abbrev findToken (tokenHash : String) : AuthStmt :=
  .find .refreshTokens (fun r => r.tokenHash == tokenHash) fun _ => 0

/--
Every revocation: `revokedAt` and `revokedReason` are set on the unrevoked rows that the criteria
cover.
-/
abbrev revokeTokens [Platform] (c : TokenCriteria) (now : Date) (reason : RevokedReason) : AuthStmt :=
  .update .refreshTokens (fun r => r.revokedAt.isNone && c.covers r) fun _ r =>
    { r with revokedAt := some now, revokedReason := some reason }

abbrev pruneTokens (userId : Nat) (now : Date) : AuthStmt :=
  .delete .refreshTokens fun r => r.userId == userId && decide (r.expiresAt < now)

abbrev insertToken (tokenHash : String) (userId : Nat) (expiresAt : Date) (keepSignedIn : Bool)
    (session : SessionIdentity)
    : AuthStmt :=
  .insert .refreshTokens fun id issuedAt => {
    id, tokenHash, userId, expiresAt, issuedAt
    revokedAt := none
    revokedReason := none
    keepSignedIn
    sessionUuid := session.sessionUuid
    startedAt := session.startedAt
  }

end RefreshTokens

section PasswordResetTokens

abbrev findResetToken (tokenHash : String) : AuthStmt :=
  .find .passwordResetTokens (fun r => r.tokenHash == tokenHash) fun _ => 0

abbrev insertResetToken (userId : Nat) (tokenHash : String) (expiresAt : Date) : AuthStmt :=
  .insert .passwordResetTokens fun id createdAt =>
    { id, tokenHash, userId, expiresAt, createdAt, usedAt := none }

abbrev pruneExpiredResetTokens (userId : Nat) (now : Date) : AuthStmt :=
  .delete .passwordResetTokens fun r => r.userId == userId && decide (r.expiresAt < now)

abbrev pruneUsedResetTokens (userId : Nat) : AuthStmt :=
  .delete .passwordResetTokens fun r => r.userId == userId && r.usedAt.isSome

abbrev markResetTokenUsed (id : Nat) (now : Date) : AuthStmt :=
  .update .passwordResetTokens (fun r => r.id == id) fun _ r => { r with usedAt := some now }

end PasswordResetTokens

section AuthorizationRequests

variable [Platform]

abbrev findRequest (uuid : String) : AuthStmt :=
  .find .authorizationRequests (fun r => sameText r.uuid uuid) fun _ => 0

abbrev findRequestForPoll (uuid pollTokenHash : String) : AuthStmt :=
  .find .authorizationRequests (fun r => sameText r.uuid uuid && r.pollTokenHash == pollTokenHash)
    fun _ => 0

abbrev countRequestsByIp (ip : String) (windowStart : Date) : AuthStmt :=
  .count .authorizationRequests fun r => sameText r.requestIp ip && decide (r.createdAt > windowStart)

abbrev countRequestsByUsername (username : String) (windowStart : Date) : AuthStmt :=
  .count .authorizationRequests fun r =>
    sameText r.username username && decide (r.createdAt > windowStart)

def isOpenOf (userId : Nat) (r : AuthorizationRequest) : Bool :=
  r.userId == some userId && r.status == .opened

abbrev countOpenRequests (userId : Nat) : AuthStmt :=
  .count .authorizationRequests (isOpenOf userId)

abbrev findOldestOpenRequest (userId : Nat) : AuthStmt :=
  .find .authorizationRequests (isOpenOf userId) fun r => r.createdAt

abbrev insertRequest (uuid username : String) (userId : Option Nat) (pollTokenHash ip userAgent : String)
    (expiresAt : Date) (keepSignedIn : Bool)
    : AuthStmt :=
  .insert .authorizationRequests fun id createdAt => {
    id, uuid, username, userId, pollTokenHash, createdAt, expiresAt, keepSignedIn
    status := .opened
    requestIp := ip
    requestUserAgent := userAgent
    approvedByUserId := none
    resolvedAt := none
    loggedAt := none
    authorizeFailedAttempts := 0
    authorizeLockedUntil := none
  }

abbrev approveRequest (id approverUserId : Nat) (now : Date) : AuthStmt :=
  .update .authorizationRequests (fun r => r.id == id) fun _ r => { r with
    status := .approved
    approvedByUserId := some approverUserId
    resolvedAt := some now
    authorizeFailedAttempts := 0
    authorizeLockedUntil := none
  }

/--
The unguarded way to end a request: `deny`, lazy expiry and the eviction all send this statement.
-/
abbrev resolveRequest (id : Nat) (status : AuthorizationRequestStatus) (now : Date) : AuthStmt :=
  .update .authorizationRequests (fun r => r.id == id) fun _ r =>
    { r with status, resolvedAt := some now }

abbrev countAuthorizeFailure (id : Nat) (attempts : Int) (lockedUntil : Option Date) : AuthStmt :=
  .update .authorizationRequests (fun r => r.id == id) fun _ r =>
    { r with authorizeFailedAttempts := attempts, authorizeLockedUntil := lockedUntil.map toDatetime }

/--
The statement of `guardedTransition`.
-/
abbrev transitionRequest (uuid : String) (status : AuthorizationRequestStatus)
    (changes : Date → AuthorizationRequest → AuthorizationRequest)
    : AuthStmt :=
  .update .authorizationRequests (fun r => sameText r.uuid uuid && r.status == status) changes

/--
`approved → logged`: a poll claims the request.
-/
abbrev claimRequest (uuid : String) : AuthStmt :=
  transitionRequest uuid .approved fun currentTimestamp r =>
    { r with status := .logged, loggedAt := some currentTimestamp }

/--
`logged → denied`: the user of a claimed request is not `approved` any more.
-/
abbrev rejectClaim (uuid : String) (now : Date) : AuthStmt :=
  transitionRequest uuid .logged fun _ r => { r with status := .denied, resolvedAt := some now }

end AuthorizationRequests

section AccountEditLockouts

abbrev findLockout (userId : Nat) : AuthStmt :=
  .find .accountEditLockouts (fun r => r.userId == userId) fun _ => 0

abbrev insertLockout (userId : Nat) (failedAttempts : Int) (lockedUntil : Option Date) : AuthStmt :=
  .insert .accountEditLockouts fun id _ =>
    { id, userId, failedAttempts, lockedUntil := lockedUntil.map toDatetime }

abbrev updateLockout (id : Nat) (failedAttempts : Int) (lockedUntil : Option Date) : AuthStmt :=
  .update .accountEditLockouts (fun r => r.id == id) fun _ r =>
    { r with failedAttempts, lockedUntil := lockedUntil.map toDatetime }

end AccountEditLockouts

end Kerghan
