import Kerghan.Auth.Impl.Admin
import Kerghan.Auth.Impl.AuthorizationRequest

/-!
This module contains the calls that the controllers make to the services of the Auth module, and the
runs of any number of them on one database.
-/

namespace Kerghan

inductive Call where
  | register (dto : RegisterDto)
  | login (dto : LoginDto)
  | refresh (refreshToken : String)
  | logout (refreshToken : String)
  | status (refreshToken : Option String) (clientIp : String)
  | recover (email : String)
  | resetPassword (dto : ResetPasswordDto)
  | revoke (userId : Nat) (sessionUuid : String)
  | revokeOthers (userId : Nat) (refreshToken : Option String)
  | create (username ip userAgent : String) (keepSignedIn : Bool)
  | poll (uuid pollToken : String)
  | authorize (uuid : String) (approverUserId : Nat) (password : String)
  | deny (uuid : String) (approverUserId : Nat)
  | updateAccount (userId : Nat) (dto : UpdateAccountDto) (currentRefreshToken : Option String)
  | generateRecoveryLink (userId : Nat)
  | sendRecoveryEmail (userId : Nat)
  | editUser (userId : Nat) (dto : UserFieldChangesDto)
  | approveUser (userId : Nat)
  | denyUser (userId callerId : Nat)
  deriving DecidableEq

inductive Reply where
  | session (authResult : AuthResult)
  | status (result : StatusResult)
  | created (request : CreatedAuthorizationRequest)
  | polled (result : PollResult)
  | account (summary : AccountSummary)
  | user (user : User)
  | recoveryLink (resetUrl : String)
  | sent (sent : Bool)
  | done
  deriving DecidableEq

variable [Platform]

def Call.prog (cfg : AuthConfig) : Call → Api Reply
  | .register dto => .session <$> AuthService.register cfg dto
  | .login dto => .session <$> AuthService.login cfg dto
  | .refresh refreshToken => .session <$> AuthService.refresh cfg refreshToken
  | .logout refreshToken => (fun _ => .done) <$> AuthService.logout refreshToken
  | .status refreshToken clientIp => .status <$> AuthService.status cfg refreshToken clientIp
  | .recover email => (fun _ => .done) <$> PasswordResetService.recover cfg email
  | .resetPassword dto => (fun _ => .done) <$> AuthService.resetPassword cfg dto
  | .revoke userId sessionUuid => (fun _ => .done) <$> SessionService.revoke userId sessionUuid
  | .revokeOthers userId refreshToken =>
    (fun _ => .done) <$> SessionService.revokeOthers userId refreshToken
  | .create username ip userAgent keepSignedIn =>
    .created <$> AuthorizationRequestService.create cfg username ip userAgent keepSignedIn
  | .poll uuid pollToken => .polled <$> AuthorizationRequestService.poll cfg uuid pollToken
  | .authorize uuid approverUserId password =>
    (fun _ => .done) <$> AuthorizationRequestService.authorize cfg uuid approverUserId password
  | .deny uuid approverUserId =>
    (fun _ => .done) <$> AuthorizationRequestService.deny uuid approverUserId
  | .updateAccount userId dto currentRefreshToken =>
    .account <$> AccountService.updateAccount cfg userId dto currentRefreshToken
  | .generateRecoveryLink userId => .recoveryLink <$> AdminService.generateRecoveryLink cfg userId
  | .sendRecoveryEmail userId => .sent <$> AdminService.sendRecoveryEmail cfg userId
  | .editUser userId dto => .user <$> AdminService.editUser cfg userId dto
  | .approveUser userId => .user <$> AdminService.approveUser userId
  | .denyUser userId callerId => .user <$> AdminService.denyUser cfg userId callerId

abbrev Auth := Config AuthEffect AuthAnswer AuthDb HttpError Reply

def Auth.start (cfg : AuthConfig) (db : AuthDb) (calls : List Call) : Auth where
  world := db
  trace := []
  pool i := ((calls[i]?).map (Call.prog cfg)).getD (pure .done)

abbrev Schedule := List (Nat × AuthEnv)

/--
The calls after the steps that `schedule` picks.
-/
def Auth.after (cfg : AuthConfig) (db : AuthDb) (calls : List Call) (schedule : Schedule) : Auth :=
  (Auth.start cfg db calls).run AuthEffect.exec schedule

end Kerghan
