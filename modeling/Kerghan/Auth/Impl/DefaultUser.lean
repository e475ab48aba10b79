import Kerghan.Async.Sequential
import Kerghan.Auth.Impl.Token
import Kerghan.Text

/-!
This module contains the boot synchronization of `DefaultUserService`.
-/

namespace Kerghan

namespace DefaultUserConfig

def read (cfg : AuthConfig) (name : String) : String :=
  (cfg.get name).getD ""

def username (cfg : AuthConfig) : String :=
  trim (read cfg "KERGHAN_DEFAULT_USER_USERNAME")

def email (cfg : AuthConfig) : String :=
  trim (read cfg "KERGHAN_DEFAULT_USER_EMAIL")

def password (cfg : AuthConfig) : String :=
  read cfg "KERGHAN_DEFAULT_USER_PASSWORD"

def isAdmin (cfg : AuthConfig) : Bool :=
  flag cfg "KERGHAN_DEFAULT_USER_ADMIN"

end DefaultUserConfig

/--
What aborts a boot: an error of a service that requests use as well, or an error of the boot itself.
-/
inductive BootError where
  | api (e : HttpError)
  | error (message : String)
  deriving DecidableEq

abbrev Boot (α : Type) := Prog AuthEffect AuthAnswer BootError α

def Api.boot {α : Type} (prog : Api α) : Boot α :=
  prog.mapError .api

variable [Platform]

namespace DefaultUserService

def assertEmailAvailable (cfg : AuthConfig) (matched : Option User) : Boot Unit := do
  match ← (Api.query (findUserByEmail (DefaultUserConfig.email cfg))).boot with
  | none => pure ()
  | some owner =>
    if some owner.id ≠ matched.map User.id then
      throw (.error
        ("default-user: the default user email already belongs to another user "
          ++ s!"(configured username \"{DefaultUserConfig.username cfg}\", owner id {owner.id})"))
    else
      pure ()

/--
The digest that boot sync stores: the old one if it belongs to the configured password.
-/
def syncedDigest (cfg : AuthConfig) (user : User) (passwordChanged : Bool) : Api String :=
  if passwordChanged then
    Api.bcryptHash (DefaultUserConfig.password cfg)
  else
    pure user.passwordDigest

def revokeIfChanged (userId : Nat) (passwordChanged : Bool) : Api Unit :=
  if passwordChanged then
    TokenService.revokeUserTokens userId .adminPasswordChange none
  else
    pure ()

def update (cfg : AuthConfig) (user : User) : Api User := do
  let passwordChanged := !Platform.bcryptCompare (DefaultUserConfig.password cfg) user.passwordDigest
  let passwordDigest ← syncedDigest cfg user passwordChanged
  let synced : User := { user with
    email := DefaultUserConfig.email cfg
    isAdmin := DefaultUserConfig.isAdmin cfg
    status := .approved
    passwordDigest }
  let _ ← Api.query (saveUser synced)
  revokeIfChanged user.id passwordChanged
  pure synced

/--
`update(existing)`, unless the email belongs to somebody else.
-/
def recoverFromInsertRace (cfg : AuthConfig) (error : BootError) : Boot User := do
  if error ≠ .api (.database .duplicateEntry) then
    throw error
  else
    match ← (Api.query (findUserByUsername (DefaultUserConfig.username cfg))).boot with
    | none => throw error
    | some existing =>
      assertEmailAvailable cfg (some existing)
      (update cfg existing).boot

def createOrUpdate (cfg : AuthConfig) : Boot User :=
  tryCatch
    (Api.boot do
      let passwordDigest ← Api.bcryptHash (DefaultUserConfig.password cfg)
      Api.query (insertUser (DefaultUserConfig.username cfg) (DefaultUserConfig.email cfg) passwordDigest
        (DefaultUserConfig.isAdmin cfg) .approved))
    (recoverFromInsertRace cfg)

def sync (cfg : AuthConfig) : Boot User := do
  let existing ← (Api.query (findUserByUsername (DefaultUserConfig.username cfg))).boot
  assertEmailAvailable cfg existing
  match existing with
  | some existing => (update cfg existing).boot
  | none => createOrUpdate cfg

/--
The id of the default user that boot sync records, if it records one.
-/
def onApplicationBootstrap (cfg : AuthConfig) : Boot (Option Nat) := do
  if DefaultUserConfig.isEnabled cfg then
    let user ← sync cfg
    pure (some user.id)
  else
    pure none

end DefaultUserService

end Kerghan
