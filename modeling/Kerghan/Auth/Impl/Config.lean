import Kerghan.Auth.Statements

/-!
This module contains the configuration of the Auth module and the small helpers of `core/` that its
services share.
-/

namespace Kerghan

structure AuthConfig where
  /-- `ConfigService.get` -/
  get : String → Option String
  /-- The allowlist of the automatic login. -/
  isIpAllowed : String → Bool
  /-- The id that the boot synchronization of the default user has recorded. -/
  defaultUserId : Option Nat

variable [Platform]

def getNumberConfig (cfg : AuthConfig) (key : String) (fallback : Int) : Int :=
  match cfg.get key with
  | none => fallback
  | some raw => (Platform.number raw).getD fallback

/--
The value of an optional field if it counts as present in a condition: an empty string does not.
-/
def truthy (value : Option String) : Option String :=
  value.filter (· ≠ "")

def DUMMY_DIGEST : String :=
  "$2a$10$CwTycUXWue0Thq9StjUM0uJ8Q1eLXfPJvXQF4RUOgtnJhmiQq6Zsy"

def compareOrDummy (password : String) (digest : Option String) : Bool :=
  Platform.bcryptCompare password (digest.getD DUMMY_DIGEST)

structure LockoutState where
  attempts : Int
  lockedUntil : Option Date

def computeLockoutState (currentAttempts maxAttempts lockMs : Int) : Api LockoutState :=
  let attempts := currentAttempts + 1
  if attempts ≥ maxAttempts then do
    let now ← Api.now
    pure { attempts, lockedUntil := some (now + lockMs) }
  else
    pure { attempts, lockedUntil := none }

namespace UserApprovalConfig

def registrationStatus (cfg : AuthConfig) : UserStatus :=
  if cfg.get "KERGHAN_USER_APPROVAL_REQUIRED" = some "true" then .pending else .approved

end UserApprovalConfig

namespace DefaultUserConfig

def flag (cfg : AuthConfig) (name : String) : Bool :=
  cfg.get name = some "true"

def isAlwaysAuthenticated (cfg : AuthConfig) : Bool :=
  flag cfg "KERGHAN_DEFAULT_USER_ALWAYS_AUTHENTICATED"

def isEnabled (cfg : AuthConfig) : Bool :=
  flag cfg "KERGHAN_DEFAULT_USER_ENABLED" || isAlwaysAuthenticated cfg

end DefaultUserConfig

end Kerghan
