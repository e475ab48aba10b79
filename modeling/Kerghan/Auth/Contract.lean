import Kerghan.Auth.Call

/-!
This module contains the contract of the Auth module's calls: which statements a call sends, and what
it has read from the database before it sends them.
-/

namespace Kerghan

variable [Platform]

/--
What every answer guarantees: a row that a lookup returns satisfies its `WHERE`.
-/
def Answers : (s : AuthEffect) → AuthAnswer s → Prop
  | .db (.find _ p _), .ok (some row) => p row = true
  | _, _ => True

theorem answers_exec (s : AuthEffect) (e : AuthEnv) (db : AuthDb) : Answers s (s.exec e db).1 := by
  unfold Answers
  split
  . next t p rank row heq =>
    obtain ⟨choice, hchoice⟩ := Stmt.exec_find
      (show (Stmt.find t p rank).exec e.toDbEnv db = (.ok (some row), (_ : AuthDb)) from
        Prod.ext (by assumption) rfl)
    exact (Table.first_eq_some hchoice.symm).2
  . trivial

/--
The event that `s` has been sent and answered with `a`.
-/
abbrev ran (s : AuthStmt) (a : s.Answer) : (s : AuthEffect) × AuthAnswer s :=
  ⟨.db s, .ok a⟩

abbrev failed (s : AuthStmt) (e : DbError) : (s : AuthEffect) × AuthAnswer s :=
  ⟨.db s, .error e⟩

@[simp]
def isFailed (ev : (s : AuthEffect) × AuthAnswer s) : Bool :=
  match ev with
  | ⟨.db _, .error _⟩ => true
  | _ => false

def Unfinished (h : AuthHistory) : Prop :=
  ∀ ev ∈ h, ev.1.insertsInto .refreshTokens = false ∧ isFailed ev = false

/--
Since `older`, nothing has been done but reading, and no statement has failed.
-/
def OnlyRead (older h : AuthHistory) : Prop :=
  ∃ newer, h = newer ++ older ∧ ∀ ev ∈ newer, ev.1.writes = false ∧ isFailed ev = false

abbrev clock (now : Date) : (s : AuthEffect) × AuthAnswer s :=
  ⟨.now, now⟩

/--
`row` has been read.
-/
def Found (h : AuthHistory) (t : AuthTable) (row : AuthRow t) : Prop :=
  ∃ p rank, ran (.find t p rank) (some row) ∈ h

def Call.edits : Call → Option (Nat × UserFieldChangesDto)
  | .updateAccount userId dto _ => some (userId, dto.toUserFieldChangesDto)
  | .editUser userId dto => some (userId, dto)
  | _ => none

def Call.recovers : Call → Bool
  | .recover _ | .generateRecoveryLink _ | .sendRecoveryEmail _ => true
  | _ => false

def UserFieldChangesDto.applyTo (dto : UserFieldChangesDto) (passwordDigest : String) (user : User)
    : User :=
  { user with
    username := (truthy dto.username).getD user.username
    email := (truthy dto.email).getD user.email
    passwordDigest }

def HasRevoked (h : AuthHistory) : Prop :=
  ∃ criteria now reason, ∃ (affected : Nat), ran (revokeTokens criteria now reason) affected ∈ h

/--
The refresh token has been presented and found as `tokenRow`, which had not expired then.
-/
def Presented (refreshToken : String) (tokenRow : RefreshToken) (h : AuthHistory) : Prop :=
  ∃ now,
    [clock now, ran (findToken (hashToken refreshToken)) (some tokenRow)] <:+ h
      ∧
    ¬tokenRow.expiresAt < now

/--
What has been done before a new password is stored: its reset token has been found unused, as
`tokenRow`.
-/
inductive ResetReady (dto : ResetPasswordDto) (tokenRow : PasswordResetToken) (salt : String)
    : AuthHistory → Prop where
  | ready {user : Option User} {now : Date} (hunused : tokenRow.usedAt = none)
    : ResetReady dto tokenRow salt [⟨.genSalt, salt⟩, ran (findUserById tokenRow.userId) user,
        clock now, ran (findResetToken (hashToken dto.token)) (some tokenRow)]

inductive PasswordSet (dto : ResetPasswordDto) (tokenRow : PasswordResetToken)
    : AuthHistory → Prop where
  | set {salt : String} {h : AuthHistory} {affected : Nat} (hready : ResetReady dto tokenRow salt h)
    : PasswordSet dto tokenRow
        (ran (setPassword tokenRow.userId (Platform.bcryptHash salt dto.password)) affected :: h)

inductive ResetMarked (dto : ResetPasswordDto) (tokenRow : PasswordResetToken)
    : AuthHistory → Prop where
  | marked {h : AuthHistory} {usedAt : Date} {affected : Nat} (hset : PasswordSet dto tokenRow h)
    : ResetMarked dto tokenRow (ran (markResetTokenUsed tokenRow.id usedAt) affected :: clock usedAt :: h)

variable (call : Call) (h : AuthHistory)

/--
Why a call reaches `issueTokens`.
-/
inductive Mints : User → Bool → Option SessionIdentity → Prop where
  | register {dto : RegisterDto} {user : User} (hcall : call = .register dto)
    : Mints user false none
  | login {dto : LoginDto} {user : User} (hcall : call = .login dto)
    (hfound : ran (findUserByUsername dto.username) (some user) ∈ h)
    (hpassword : Platform.bcryptCompare dto.password user.passwordDigest = true)
    : Mints user (dto.keepSignedIn.getD false) none
  | automatic {refreshToken : Option String} {clientIp : String} {user : User}
    (hcall : call = .status refreshToken clientIp)
    : Mints user false none
  | poll {uuid pollToken : String} {request : AuthorizationRequest} {userId : Nat} {user : User}
    (hcall : call = .poll uuid pollToken) (howner : request.userId = some userId)
    (hhistory : h = [ran (findUserById userId) (some user),
      ran (claimRequest request.uuid) (1 : Nat),
      ran (findRequestForPoll uuid (hashToken pollToken)) (some request)])
    (hstatus : user.status = .approved)
    : Mints user request.keepSignedIn none
  | refresh {refreshToken : String} {tokenRow : RefreshToken} {user : User} {now : Date}
    {older : AuthHistory} (hcall : call = .refresh refreshToken)
    (hhistory : h = ran (revokeTokens { id := some tokenRow.id } now .rotated) (1 : Nat) :: older)
    (hpresented : Presented refreshToken tokenRow older) (hactive : tokenRow.revokedAt = none)
    (huser : ran (findUserById tokenRow.userId) (some user) ∈ older) (hid : user.id = tokenRow.userId)
    : Mints user tokenRow.keepSignedIn
        (some { sessionUuid := tokenRow.sessionUuid, startedAt := tokenRow.startedAt })

inductive Revokes : TokenCriteria → RevokedReason → Prop where
  | logout {refreshToken : String} (hcall : call = .logout refreshToken)
    : Revokes { tokenHash := some (hashToken refreshToken) } .logout
  | userRevoked {userId : Nat} {sessionUuid : String} (hcall : call = .revoke userId sessionUuid)
    : Revokes { userId := some userId, sessionUuid := some sessionUuid } .userRevoked
  | others {userId : Nat} {refreshToken : Option String} {tokenRow : RefreshToken}
    (hcall : call = .revokeOthers userId refreshToken) (hfound : Found h .refreshTokens tokenRow)
    : Revokes { userId := some userId, notSessionUuid := some tokenRow.sessionUuid } .userRevoked
  | passwordChange {userId : Nat} {dto : UpdateAccountDto} {refreshToken : Option String}
    {user : User} {affected : Nat} (hcall : call = .updateAccount userId dto refreshToken)
    (hid : user.id = userId) (hsaved : ran (saveUser user) affected ∈ h)
    : Revokes (TokenService.userCriteria userId refreshToken) .passwordChange
  | passwordReset {dto : ResetPasswordDto} {tokenRow : PasswordResetToken} {older : AuthHistory}
    (hcall : call = .resetPassword dto) (hmarked : ResetMarked dto tokenRow older)
    (hsuffix : older <:+ h)
    : Revokes { userId := some tokenRow.userId } .passwordReset
  | adminPasswordChange {userId : Nat} {dto : UserFieldChangesDto} {user : User} {affected : Nat}
    (hcall : call = .editUser userId dto) (hid : user.id = userId)
    (hsaved : ran (saveUser user) affected ∈ h)
    : Revokes { userId := some userId } .adminPasswordChange
  | replayDetected {refreshToken : String} {tokenRow : RefreshToken}
    (hcall : call = .refresh refreshToken) (hpresented : Presented refreshToken tokenRow h)
    (hrotated : tokenRow.revokedReason = some .rotated)
    : Revokes { userId := some tokenRow.userId } .replayDetected
  | deniedRefresh {refreshToken : String} {tokenRow : RefreshToken} {user : User}
    (hcall : call = .refresh refreshToken) (hpresented : Presented refreshToken tokenRow h)
    (hactive : tokenRow.revokedAt = none)
    (huser : ran (findUserById tokenRow.userId) (some user) ∈ h) (hdenied : user.status = .denied)
    : Revokes { id := some tokenRow.id } .adminDenied
  | deniedStatus {refreshToken : Option String} {clientIp : String} {tokenRow : RefreshToken}
    {user : User} (hcall : call = .status refreshToken clientIp)
    (hfound : Found h .refreshTokens tokenRow)
    (huser : ran (findUserById tokenRow.userId) (some user) ∈ h) (hdenied : user.status = .denied)
    : Revokes { id := some tokenRow.id } .adminDenied
  | deniedUser {userId callerId : Nat} (hcall : call = .denyUser userId callerId)
    : Revokes { userId := some userId } .adminDenied

inductive TokenWrite : AuthStmt → Prop where
  | prune {user : User} {keepSignedIn : Bool} {session : Option SessionIdentity} {now : Date}
    {newer older : AuthHistory}
    (hhistory : h = newer ++ ⟨.issueTokens user keepSignedIn session, ()⟩ :: older)
    (hmints : Mints call older user keepSignedIn session) (hnow : clock now ∈ h)
    : TokenWrite (pruneTokens user.id now)
  | insert {user : User} {keepSignedIn : Bool} {session : Option SessionIdentity}
    {identity : SessionIdentity} {refreshToken : String} {expiresAt : Date} {newer older : AuthHistory}
    (hhistory : h = newer ++ ⟨.issueTokens user keepSignedIn session, ()⟩ :: older)
    (hmints : Mints call older user keepSignedIn session) (hunfinished : Unfinished h)
    (hexpires : ∃ now, clock now ∈ newer ∧ now < expiresAt)
    (hbytes : ⟨.randomBytes, refreshToken⟩ ∈ newer)
    (hnew : session = none → ⟨.randomUUID, identity.sessionUuid⟩ ∈ newer)
    (hcontinued : ∀ s, session = some s → identity = s)
    : TokenWrite (insertToken (hashToken refreshToken) user.id expiresAt keepSignedIn identity)
  | rotate {refreshToken : String} {tokenRow : RefreshToken} {now : Date}
    (hcall : call = .refresh refreshToken) (hpresented : Presented refreshToken tokenRow h)
    (hactive : tokenRow.revokedAt = none)
    : TokenWrite (revokeTokens { id := some tokenRow.id } now .rotated)
  | revoke {criteria : TokenCriteria} {now : Date} {reason : RevokedReason}
    (hrevokes : Revokes call h criteria reason)
    : TokenWrite (revokeTokens criteria now reason)

/--
An approver's checks, as far as they concern what has been read: the request was open, unexpired and
not locked, and then the password was right.
-/
structure Approves (request : AuthorizationRequest) (approverUserId : Nat) (password : String)
    : Prop where
  owner : request.userId = some approverUserId
  opened : request.status = .opened
  unexpired : ∃ now, clock now ∈ h ∧ ¬request.expiresAt < now
  unlocked : request.authorizeLockedUntil = none ∨
    ∃ lockedUntil now, request.authorizeLockedUntil = some lockedUntil ∧ clock now ∈ h ∧
      ¬lockedUntil > now
  password : ∃ (approver : Option User) (newer older : AuthHistory),
    h = newer ++ ran (findUserById approverUserId) approver :: older ∧
      Found older .authorizationRequests request ∧
      compareOrDummy password (approver.map User.passwordDigest) = true

inductive RequestWrite : AuthStmt → Prop where
  | insert {username ip userAgent : String} {keepSignedIn : Bool} {user : Option User}
    {uuid pollToken : String} {expiresAt : Date}
    (hcall : call = .create username ip userAgent keepSignedIn)
    (huser : ran (findUserByUsername username) user ∈ h) (huuid : ⟨.randomUUID, uuid⟩ ∈ h)
    (hbytes : ⟨.randomBytes, pollToken⟩ ∈ h)
    : RequestWrite (insertRequest uuid username (user.map User.id) (hashToken pollToken) ip userAgent
        expiresAt keepSignedIn)
  | evict {username ip userAgent : String} {keepSignedIn : Bool} {oldest : AuthorizationRequest}
    {now : Date} (hcall : call = .create username ip userAgent keepSignedIn)
    (hfound : Found h .authorizationRequests oldest) (hopened : oldest.status = .opened)
    : RequestWrite (resolveRequest oldest.id .expired now)
  | expire {uuid pollToken : String} {request : AuthorizationRequest} {now : Date}
    (hcall : call = .poll uuid pollToken) (hfound : Found h .authorizationRequests request)
    (hopened : request.status = .opened)
    : RequestWrite (resolveRequest request.id .expired now)
  | fail {uuid : String} {approverUserId : Nat} {password : String} {request : AuthorizationRequest}
    {attempts : Int} {lockedUntil : Option Date}
    (hcall : call = .authorize uuid approverUserId password)
    (hfound : Found h .authorizationRequests request)
    : RequestWrite (countAuthorizeFailure request.id attempts lockedUntil)
  | approve {uuid : String} {approverUserId : Nat} {password : String}
    {request : AuthorizationRequest} {now : Date}
    (hcall : call = .authorize uuid approverUserId password)
    (hfound : ran (findRequest uuid) (some request) ∈ h)
    (happroves : Approves h request approverUserId password)
    : RequestWrite (approveRequest request.id approverUserId now)
  | deny {uuid : String} {approverUserId : Nat} {request : AuthorizationRequest} {now : Date}
    (hcall : call = .deny uuid approverUserId) (hfound : ran (findRequest uuid) (some request) ∈ h)
    (hopened : request.status = .opened)
    : RequestWrite (resolveRequest request.id .denied now)
  | claim {uuid pollToken : String} {request : AuthorizationRequest}
    (hcall : call = .poll uuid pollToken)
    (hhistory : h = [ran (findRequestForPoll uuid (hashToken pollToken)) (some request)])
    : RequestWrite (claimRequest request.uuid)
  | reject {uuid pollToken : String} {request : AuthorizationRequest} {userId : Nat} {user : User}
    {now : Date} (hcall : call = .poll uuid pollToken) (howner : request.userId = some userId)
    (hhistory : h = [clock now, ran (findUserById userId) (some user),
      ran (claimRequest request.uuid) (1 : Nat),
      ran (findRequestForPoll uuid (hashToken pollToken)) (some request)])
    (hstatus : user.status ≠ .approved)
    : RequestWrite (rejectClaim request.uuid now)

inductive UserWrite : AuthStmt → Prop where
  | insert {dto : RegisterDto} {passwordDigest : String} {status : UserStatus}
    (hcall : call = .register dto)
    : UserWrite (insertUser dto.username dto.email passwordDigest false status)
  | save {userId : Nat} {dto : UserFieldChangesDto} {user : User} {passwordDigest : String}
    (hcall : call.edits = some (userId, dto))
    (hfound : ran (findUserById userId) (some user) ∈ h) (hid : user.id = userId)
    (hkept : truthy dto.newPassword = none → passwordDigest = user.passwordDigest)
    (hhashed : ∀ newPassword, truthy dto.newPassword = some newPassword →
      ∃ salt, ⟨.genSalt, salt⟩ ∈ h ∧ passwordDigest = Platform.bcryptHash salt newPassword)
    : UserWrite (saveUser (dto.applyTo passwordDigest user))
  | setPassword {dto : ResetPasswordDto} {tokenRow : PasswordResetToken} {salt : String}
    (hcall : call = .resetPassword dto) (hready : ResetReady dto tokenRow salt h)
    : UserWrite (setPassword tokenRow.userId (Platform.bcryptHash salt dto.password))
  | approve {userId : Nat} (hcall : call = .approveUser userId)
    : UserWrite (approvePending userId)
  | deny {userId callerId : Nat} (hcall : call = .denyUser userId callerId)
    : UserWrite (setDenied userId)

inductive ResetWrite : AuthStmt → Prop where
  | pruneExpired {userId : Nat} {now : Date} (hcall : call.recovers = true) (hnow : clock now ∈ h)
    : ResetWrite (pruneExpiredResetTokens userId now)
  | pruneUsed {userId : Nat} (hcall : call.recovers = true)
    : ResetWrite (pruneUsedResetTokens userId)
  | insert {userId : Nat} {token : String} {expiresAt : Date} (hcall : call.recovers = true)
    (hbytes : ⟨.randomBytes, token⟩ ∈ h)
    (hfirst : ∀ ev ∈ h, ev.1.insertsInto .passwordResetTokens = false)
    : ResetWrite (insertResetToken userId (hashToken token) expiresAt)
  | markUsed {dto : ResetPasswordDto} {tokenRow : PasswordResetToken} {now : Date}
    {older : AuthHistory} (hcall : call = .resetPassword dto) (hhistory : h = clock now :: older)
    (hset : PasswordSet dto tokenRow older)
    : ResetWrite (markResetTokenUsed tokenRow.id now)

/--
What `call` may do next if `h` is what it has done so far.
-/
inductive Issues : AuthEffect → Prop where
  | read {s : AuthStmt} (hread : s.isRead = true) : Issues (.db s)
  | token {s : AuthStmt} (hwrite : TokenWrite call h s) : Issues (.db s)
  | request {s : AuthStmt} (hwrite : RequestWrite call h s) : Issues (.db s)
  | user {s : AuthStmt} (hwrite : UserWrite call h s) (hfirst : OnlyRead [] h) : Issues (.db s)
  | reset {s : AuthStmt} (hwrite : ResetWrite call h s) : Issues (.db s)
  | lockout {userId : Nat} {dto : UpdateAccountDto} {refreshToken : Option String} {s : AuthStmt}
    (hcall : call = .updateAccount userId dto refreshToken) (htable : s.table = .accountEditLockouts)
    : Issues (.db s)
  | mint {user : User} {keepSignedIn : Bool} {session : Option SessionIdentity}
    (hmints : Mints call h user keepSignedIn session)
    : Issues (.issueTokens user keepSignedIn session)
  | now : Issues .now
  | randomUUID : Issues .randomUUID
  | randomBytes : Issues .randomBytes
  | genSalt : Issues .genSalt
  | emit (event : AuthEvent) : Issues (.emit event)
  | sendEmailTemplate (recipient resetUrl : String) : Issues (.sendEmailTemplate recipient resetUrl)

end Kerghan
