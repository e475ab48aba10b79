import Kerghan.Store.Datetime
import Kerghan.Store.Statement

/-!
This module contains the tables of the Auth module and the functions of its platform: the hash
functions, the token signer and the database's collation. They are not part of the repository, so
everything that follows holds for every choice of them.
-/

namespace Kerghan

/--
Milliseconds since the epoch.
-/
abbrev Date := Int

structure AccessTokenPayload where
  sub : Nat
  sid : String
  username : String
  isAdmin : Bool
  deriving DecidableEq

class Platform where
  sha256Hex : String → String
  /-- `bcrypt.hash` with the salt it draws. -/
  bcryptHash (salt password : String) : String
  bcryptCompare (password digest : String) : Bool
  /-- `JwtService.sign` at the given time. -/
  jwtSign : AccessTokenPayload → Date → String
  /-- The weight that the collation of the text columns compares by. -/
  collation : String → String
  /-- `Number(text)`, without a result for `NaN`. -/
  number : String → Option Int
  /-- `new Date(text)`, without a result for an invalid date. -/
  dateOf : String → Option Date

/--
Equality of text columns, as the database's collation decides it.
-/
def sameText [Platform] (a b : String) : Bool :=
  Platform.collation a == Platform.collation b

section SameText

variable [Platform] {a b c : String}

@[simp]
theorem sameText_refl : sameText a a = true := by
  simp [sameText]

theorem sameText_comm : sameText a b = sameText b a := by
  simp [sameText, Bool.beq_comm]

theorem sameText_trans (hab : sameText a b = true) (hbc : sameText b c = true)
    : sameText a c = true := by
  simp_all [sameText]

end SameText

def hashToken [Platform] (token : String) : String :=
  Platform.sha256Hex token

inductive UserStatus where
  | pending
  | approved
  | denied
  deriving DecidableEq, Repr

structure User where
  id : Nat
  username : String
  email : String
  passwordDigest : String
  isAdmin : Bool
  status : UserStatus
  deriving DecidableEq, Repr

structure HashedTokenBase where
  id : Nat
  tokenHash : String
  userId : Nat
  expiresAt : Date
  deriving DecidableEq, Repr

inductive RevokedReason where
  | rotated
  | logout
  | userRevoked
  | passwordChange
  | passwordReset
  | adminPasswordChange
  | replayDetected
  | adminDenied
  deriving DecidableEq, Repr

structure RefreshToken extends HashedTokenBase where
  issuedAt : Date
  revokedAt : Option Date
  revokedReason : Option RevokedReason
  keepSignedIn : Bool
  sessionUuid : String
  startedAt : Date
  deriving DecidableEq, Repr

structure PasswordResetToken extends HashedTokenBase where
  createdAt : Date
  usedAt : Option Date
  deriving DecidableEq, Repr

inductive AuthorizationRequestStatus where
  | opened
  | approved
  | denied
  | logged
  | expired
  deriving DecidableEq, Repr

structure AuthorizationRequest where
  id : Nat
  uuid : String
  username : String
  userId : Option Nat
  status : AuthorizationRequestStatus
  pollTokenHash : String
  requestIp : String
  requestUserAgent : String
  approvedByUserId : Option Nat
  createdAt : Date
  expiresAt : Date
  resolvedAt : Option Date
  loggedAt : Option Date
  authorizeFailedAttempts : Int
  authorizeLockedUntil : Option Date
  keepSignedIn : Bool
  deriving DecidableEq, Repr

structure AccountEditLockout where
  id : Nat
  userId : Nat
  failedAttempts : Int
  lockedUntil : Option Date
  deriving DecidableEq, Repr

inductive AuthTable where
  | users
  | refreshTokens
  | passwordResetTokens
  | authorizationRequests
  | accountEditLockouts
  deriving DecidableEq

abbrev AuthRow : AuthTable → Type
  | .users => User
  | .refreshTokens => RefreshToken
  | .passwordResetTokens => PasswordResetToken
  | .authorizationRequests => AuthorizationRequest
  | .accountEditLockouts => AccountEditLockout

section Entities

variable [Platform]

instance : Entity User where
  id := User.id
  clash a b := sameText a.username b.username || sameText a.email b.email
  clash_comm a b := by rw [@sameText_comm _ a.username, @sameText_comm _ a.email]

instance : Entity RefreshToken where
  id r := r.id
  clash a b := a.tokenHash == b.tokenHash
  clash_comm _ _ := Bool.beq_comm

instance : Entity PasswordResetToken where
  id r := r.id
  clash a b := a.tokenHash == b.tokenHash
  clash_comm _ _ := Bool.beq_comm

instance : Entity AuthorizationRequest where
  id := AuthorizationRequest.id
  clash a b := sameText a.uuid b.uuid || a.pollTokenHash == b.pollTokenHash
  clash_comm a b := by rw [@sameText_comm _ a.uuid, Bool.beq_comm]

instance : Entity AccountEditLockout where
  id := AccountEditLockout.id
  clash a b := a.userId == b.userId
  clash_comm _ _ := Bool.beq_comm

instance : (t : AuthTable) → Entity (AuthRow t)
  | .users => inferInstanceAs (Entity User)
  | .refreshTokens => inferInstanceAs (Entity RefreshToken)
  | .passwordResetTokens => inferInstanceAs (Entity PasswordResetToken)
  | .authorizationRequests => inferInstanceAs (Entity AuthorizationRequest)
  | .accountEditLockouts => inferInstanceAs (Entity AccountEditLockout)

abbrev AuthDb := Db AuthRow

end Entities

end Kerghan
