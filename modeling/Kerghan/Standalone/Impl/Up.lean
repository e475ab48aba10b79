import Mathlib.Algebra.Group.Nat.Defs
import Kerghan.Standalone.Impl.Env

/-!
This module contains the command `up`: the settings it starts the container with, and how it compares
them with a container that runs already.
-/

namespace Kerghan.Standalone

open Shell

section Compare

def IMAGE_REPO : Text := "darthjee/kerghan-standalone".toList

/--
The tag with the version is `tag`, and the variant adds `-offline`.
-/
def imageRef (offline : Bool) (tag : Text) : Text :=
  let ref := IMAGE_REPO ++ ':' :: tag
  if offline then ref ++ "-offline".toList else ref

/--
Three numbers with a dot between them. That no dot starts or ends the version, and no two follow each
other, is that no number is empty.
-/
def isSemver (version : Text) : Bool :=
  match version.splitOn '.' with
  | [a, b, c] => isDigits a && isDigits b && isDigits c
  | _ => false

/--
`$((10#digits))`: the shell calculates with 64 bits.
-/
def arith (digits : Text) : Int :=
  Int.bmod (decimal digits) (2 ^ 64)

def compareNumber (a b : Text) : Ordering :=
  compare (arith a) (arith b)

/--
Only called with versions `x.y.z`.
-/
def versionCompare (a b : Text) : Ordering :=
  match a.splitOn '.', b.splitOn '.' with
  | [a1, a2, a3], [b1, b2, b3] => ((compareNumber a1 b1).then (compareNumber a2 b2)).then (compareNumber a3 b3)
  | _, _ => .eq

inductive Reason where
  | moving (port : Text)
  | replacing (current wanted : Text)
  | upgrading (current wanted : Text)
  | switching (offline : Bool)
  | autoLogin (on : Bool)
  | publishing (bind : Text)
  deriving DecidableEq

inductive Comparison where
  | downgrade
  | differs (reason : Reason)
  | matching
  deriving DecidableEq

def OFFLINE : Text := "-offline".toList

def recreateReason.moved (currentPort port : Text) : Comparison :=
  if currentPort ≠ port then .differs (.moving port) else .matching

def recreateReason (current wanted currentPort port : Text) : Comparison :=
  let currentRepo := beforeLast ':' current
  let currentTag := if currentRepo = current then "latest".toList else afterLast ':' current
  let currentVersion := dropEnding OFFLINE currentTag
  let currentOffline := decide (currentVersion ≠ currentTag)
  let wantedTag := afterLast ':' wanted
  let wantedVersion := dropEnding OFFLINE wantedTag
  let wantedOffline := OFFLINE.isSuffixOf wanted
  if current = wanted then
    recreateReason.moved currentPort port
  else if currentRepo ≠ IMAGE_REPO || !isSemver currentVersion then
    .differs (.replacing current wanted)
  else if !isSemver wantedVersion then
    .differs (.replacing current wanted)
  else
    match versionCompare currentVersion wantedVersion with
    | .gt => .downgrade
    | .lt => .differs (.upgrading current wanted)
    | .eq =>
      if currentOffline ≠ wantedOffline then
        .differs (.switching wantedOffline)
      else
        recreateReason.moved currentPort port

def settingsReason (currentAutoLogin autoLogin currentBind bind : Text) : Comparison :=
  if currentAutoLogin ≠ autoLogin then
    .differs (.autoLogin (autoLogin = "true".toList))
  else if currentBind ≠ bind then
    .differs (.publishing bind)
  else
    .matching

end Compare

section Inspect

/--
`${value:-default}`
-/
def orDefault (value default : Text) : Text :=
  if value = [] then default else value

/--
The image of the container, empty if it is not running.
-/
def runningImage : Script Text := do
  if (← Script.inspect .running) = some "true".toList then
    pure ((← Script.inspect .image).getD [])
  else
    pure []

def runningPort : Script Text := do
  pure ((← Script.inspect .hostPort).getD [])

def runningBind : Script Text := do
  pure (orDefault ((← Script.inspect .hostIp).getD []) "0.0.0.0".toList)

def KERGHAN_DEFAULT_USER_ALWAYS_AUTHENTICATED : Text := "KERGHAN_DEFAULT_USER_ALWAYS_AUTHENTICATED".toList

/--
The last value in the environment of the container, empty for none.
-/
def runningAutoLogin.value (env : Text) : Text :=
  (readLines env).foldl
    (fun value line =>
      if (KERGHAN_DEFAULT_USER_ALWAYS_AUTHENTICATED ++ ['=']).isPrefixOf line then
        after '=' line
      else
        value)
    []

def runningAutoLogin : Script Text := do
  match ← Script.inspect .env with
  | none => pure "unknown".toList
  | some env => pure (orDefault (runningAutoLogin.value env) "false".toList)

end Inspect

section Command

variable [Ctype]

structure Wanted where
  image : Text
  port : Text
  bind : Text
  autoLogin : Text

/--
Compare with the container that runs with the image `current`.
-/
def cmdUp.compare (current : Text) (wanted : Wanted) : Script Comparison := do
  let currentPort ← runningPort
  match recreateReason current wanted.image currentPort wanted.port with
  | .downgrade => pure .downgrade
  | .differs reason => pure (.differs reason)
  | .matching =>
    let currentAutoLogin ← runningAutoLogin
    let currentBind ← runningBind
    pure (settingsReason currentAutoLogin wanted.autoLogin currentBind wanted.bind)

structure UpFlags where
  offline : Bool
  port : Option Text
  autoLogin : Option Text
  bind : Option Text
  foreground : Bool

def UpFlags.valid (flags : UpFlags) : Bool :=
  flags.port.all validPort && flags.bind.all validBind && flags.autoLogin.all (· ∈ AUTO_LOGIN_VALUES)

def DEFAULT_USER_ALLOWED_IPS : Text := "127.0.0.1,::1,10.0.0.0/8,172.16.0.0/12,192.168.0.0/16".toList

/--
Automatic login needs the default user: without one it is off, unless it is asked for.
-/
def cmdUp.autoLogin (explicitAutoLogin : Text) : Script Text := do
  let autoLogin := orDefault explicitAutoLogin DEFAULT_AUTO_LOGIN
  if autoLogin = "true".toList then
    if ← hasDefaultUserCredentials then
      pure autoLogin
    else if explicitAutoLogin ≠ [] then
      throw .noDefaultUser
    else
      pure "false".toList
  else
    pure autoLogin

/--
Refuse to start without the secrets of the data, and with keys that the client manages itself.
-/
def cmdUp.requireEnv : Script Unit := do
  if !(← Script.exist .env) then
    if ← Script.volumeExists then
      throw .envLost
  if !(← ensureEnvFile) then
    throw .notWritten
  refuseClientManagedKeys

def cmdUp.effective (cfg : Loaded) (autoLogin : Text) (key : ConfigKey) : Text :=
  match key with
  | .autoLogin => autoLogin
  | .bind =>
    let defaultBind :=
      if autoLogin = "true".toList then DEFAULT_BIND_AUTO_LOGIN else DEFAULT_BIND_NO_AUTO_LOGIN
    orDefault (cfg.value .bind) defaultBind
  | key => orDefault (cfg.value key) (configDefault key)

/--
The settings of the container: flag, then config, then default.
-/
def cmdUp.wanted (flags : UpFlags) (cfg : Loaded) (autoLogin : Text) : Wanted where
  image :=
    imageRef (flags.offline || cmdUp.effective cfg autoLogin .variant = "offline".toList)
      (cmdUp.effective cfg autoLogin .imageTag)
  port := flags.port.getD (cmdUp.effective cfg autoLogin .port)
  bind := flags.bind.getD (cmdUp.effective cfg autoLogin .bind)
  autoLogin := autoLogin

def upInstance (wanted : Wanted) (cfg : Loaded) (foreground : Bool) : Script Unit := do
  let extra ← frontendBaseUrlArgs wanted.port
  let args :=
    ["--image".toList, wanted.image, "--env-file".toList, "~/.kerghan/kerghan.env".toList, "-p".toList,
      wanted.bind ++ ':' :: wanted.port ++ ":80".toList]
      ++ extra
      ++ ["-e".toList, KERGHAN_DEFAULT_USER_ALWAYS_AUTHENTICATED ++ '=' :: wanted.autoLogin,
        "-e".toList, "KERGHAN_DEFAULT_USER_ALLOWED_IPS=".toList ++ DEFAULT_USER_ALLOWED_IPS,
        "--runtime".toList, cmdUp.effective cfg wanted.autoLogin .runtime,
        "--stop-timeout".toList, cmdUp.effective cfg wanted.autoLogin .stopTimeout]
      ++ if foreground then ["-f".toList] else []
  if ← Script.vaultUp args then
    pure ()
  else
    throw .vault

/--
What `up` has done, if it has not failed.
-/
inductive Upped where
  /-- `Kerghan is already running` -/
  | already
  | started
  | recreated (reason : Reason)

def cmdUp (flags : UpFlags) : Script Upped := do
  if !flags.valid then
    throw .usage
  let cfg ← loadConfig
  cmdUp.requireEnv
  let autoLogin ← cmdUp.autoLogin (flags.autoLogin.getD (cfg.value .autoLogin))
  let wanted := cmdUp.wanted flags cfg autoLogin
  let current ← runningImage
  if current = [] then
    upInstance wanted cfg flags.foreground
    pure .started
  else
    match ← cmdUp.compare current wanted with
    | .downgrade => throw .downgrade
    | .matching => pure .already
    | .differs reason =>
      if !(← Script.vaultDown (cmdUp.effective cfg autoLogin .stopTimeout)) then
        throw .vault
      upInstance wanted cfg flags.foreground
      pure (.recreated reason)

end Command

end Kerghan.Standalone
