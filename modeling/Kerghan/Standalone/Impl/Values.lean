import Kerghan.Shell.Text

/-!
This module contains the keys that the standalone client knows and the validators of their values.
-/

namespace Kerghan.Standalone

open Shell

/--
`CONFIG_KEYS`
-/
inductive ConfigKey where
  | port
  | variant
  | runtime
  | stopTimeout
  | imageTag
  | autoLogin
  | bind
  | restartOnUpdate
  deriving DecidableEq

namespace ConfigKey

def name : ConfigKey → Text
  | .port => "port".toList
  | .variant => "variant".toList
  | .runtime => "runtime".toList
  | .stopTimeout => "stop-timeout".toList
  | .imageTag => "image-tag".toList
  | .autoLogin => "auto-login".toList
  | .bind => "bind".toList
  | .restartOnUpdate => "restart-on-update".toList

end ConfigKey

def CONFIG_KEYS : List ConfigKey :=
  [.port, .variant, .runtime, .stopTimeout, .imageTag, .autoLogin, .bind, .restartOnUpdate]

def configKeyIndex (key : Text) : Option ConfigKey :=
  CONFIG_KEYS.find? fun k => k.name = key

def KERGHAN_SECRET_KEY : Text := "KERGHAN_SECRET_KEY".toList

def KERGHAN_INTEGRATIONS_KEY : Text := "KERGHAN_INTEGRATIONS_KEY".toList

def KERGHAN_DEFAULT_USER_ENABLED : Text := "KERGHAN_DEFAULT_USER_ENABLED".toList

def KERGHAN_DEFAULT_USER_USERNAME : Text := "KERGHAN_DEFAULT_USER_USERNAME".toList

def KERGHAN_DEFAULT_USER_EMAIL : Text := "KERGHAN_DEFAULT_USER_EMAIL".toList

def KERGHAN_DEFAULT_USER_PASSWORD : Text := "KERGHAN_DEFAULT_USER_PASSWORD".toList

def KERGHAN_DEFAULT_USER_ADMIN : Text := "KERGHAN_DEFAULT_USER_ADMIN".toList

def DEFAULT_ENV_KEYS : List Text :=
  [KERGHAN_SECRET_KEY, KERGHAN_INTEGRATIONS_KEY, KERGHAN_DEFAULT_USER_ENABLED,
    KERGHAN_DEFAULT_USER_USERNAME, KERGHAN_DEFAULT_USER_EMAIL, KERGHAN_DEFAULT_USER_PASSWORD,
    KERGHAN_DEFAULT_USER_ADMIN]

def FRONTEND_BASE_URL_KEY : Text := "FRONTEND_BASE_URL".toList

/--
Only written with `--force`.
-/
def FORCE_KEYS : List Text :=
  [KERGHAN_SECRET_KEY, KERGHAN_INTEGRATIONS_KEY]

/--
Passed by the client on every `up`, never written.
-/
def CLIENT_MANAGED_KEYS : List Text :=
  ["KERGHAN_DEFAULT_USER_ALWAYS_AUTHENTICATED".toList, "KERGHAN_DEFAULT_USER_ALLOWED_IPS".toList]

def PASSWORD_MIN_LENGTH : Nat := 8

section Validators

/--
The number that the shell reads in a text of digits, in base ten.
-/
def decimal (digits : Text) : Nat :=
  digits.foldl (fun n c => n * 10 + (c.toNat - '0'.toNat)) 0

def isDigits (value : Text) : Bool :=
  value ≠ [] && value.all Char.isDigit

def validPort (value : Text) : Bool :=
  isDigits value && value.length ≤ 5 && 1 ≤ decimal value && decimal value ≤ 65535

def VARIANT_VALUES : List Text := ["online".toList, "offline".toList]

def RUNTIME_VALUES : List Text := ["auto".toList, "sysbox".toList, "privileged".toList]

def AUTO_LOGIN_VALUES : List Text := ["true".toList, "false".toList]

def RESTART_ON_UPDATE_VALUES : List Text := ["ask".toList, "always".toList, "never".toList]

/--
The words of these lists hold no white space, so no value that holds some is among them.
-/
def inValues (value : Text) (values : List Text) : Bool :=
  value ∈ values

def validVariant (value : Text) : Bool :=
  inValues value VARIANT_VALUES

def validRuntime (value : Text) : Bool :=
  inValues value RUNTIME_VALUES

def validStopTimeout (value : Text) : Bool :=
  isDigits value && value.length ≤ 9 && 1 ≤ decimal value

def isTagChar (c : Char) : Bool :=
  c.isAlphanum || c == '_' || c == '.' || c == '-'

def validImageTag (value : Text) : Bool :=
  value ≠ [] && value.head? ≠ some '.' && value.head? ≠ some '-' && value.all isTagChar
    && !"-offline".toList.isSuffixOf value && value.length ≤ 128

def validBool (value : Text) : Bool :=
  inValues value AUTO_LOGIN_VALUES

def validOctet (octet : Text) : Bool :=
  isDigits octet && octet.length ≤ 3 && decimal octet ≤ 255

/--
Four octets with a dot between them. That no dot starts or ends the address, and no two follow each
other, is that no octet is empty.
-/
def validBind (value : Text) : Bool :=
  match value.splitOn '.' with
  | [a, b, c, d] => validOctet a && validOctet b && validOctet c && validOctet d
  | _ => false

def validRestartOnUpdate (value : Text) : Bool :=
  inValues value RESTART_ON_UPDATE_VALUES

def validConfigValue (key : ConfigKey) (value : Text) : Bool :=
  match key with
  | .port => validPort value
  | .variant => validVariant value
  | .runtime => validRuntime value
  | .stopTimeout => validStopTimeout value
  | .imageTag => validImageTag value
  | .autoLogin => validBool value
  | .bind => validBind value
  | .restartOnUpdate => validRestartOnUpdate value

def isLoopback (address : Text) : Bool :=
  "127.".toList.isPrefixOf address

end Validators

section Keys

variable [Ctype]

/--
`[A-Z_][A-Z0-9_]*`: routed to `kerghan.env`.
-/
def isEnvKey (key : Text) : Bool :=
  match key with
  | [] => false
  | c :: rest =>
    (Ctype.upper c || c == '_') && rest.all fun c => Ctype.upper c || c.isDigit || c == '_'

/--
`[a-z][a-z0-9-]*`: routed to `config`, known or not.
-/
def isConfigKeyName (key : Text) : Bool :=
  match key with
  | [] => false
  | c :: rest => Ctype.lower c && rest.all fun c => Ctype.lower c || c.isDigit || c == '-'

end Keys

section Defaults

def KERGHAN_VERSION : Text := "0.8.4".toList

def DEFAULT_PORT : Text := "3000".toList

def DEFAULT_VARIANT : Text := "online".toList

def DEFAULT_RUNTIME : Text := "auto".toList

def DEFAULT_STOP_TIMEOUT : Text := "60".toList

def DEFAULT_AUTO_LOGIN : Text := "true".toList

def DEFAULT_RESTART_ON_UPDATE : Text := "ask".toList

def DEFAULT_BIND_AUTO_LOGIN : Text := "127.0.0.1".toList

def DEFAULT_BIND_NO_AUTO_LOGIN : Text := "0.0.0.0".toList

/--
`bind` has no default of its own: it is derived from `auto-login`.
-/
def configDefault (key : ConfigKey) : Text :=
  match key with
  | .port => DEFAULT_PORT
  | .variant => DEFAULT_VARIANT
  | .runtime => DEFAULT_RUNTIME
  | .stopTimeout => DEFAULT_STOP_TIMEOUT
  | .imageTag => KERGHAN_VERSION
  | .autoLogin => DEFAULT_AUTO_LOGIN
  | .bind => []
  | .restartOnUpdate => DEFAULT_RESTART_ON_UPDATE

end Defaults

end Kerghan.Standalone
