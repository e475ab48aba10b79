import Kerghan.Shell.Pattern
import Kerghan.Standalone.Effect

/-!
This module contains the two readers of `~/.kerghan/config`, the reader of `kerghan.env`, and the
effective value of a setting.
-/

namespace Kerghan.Standalone

open Shell

variable [Ctype]

section Config

/--
What `load_config` has read: the `CFG_*` variables, where an empty value stands for the default, and
the unknown keys it has warned of.
-/
structure Loaded where
  value : ConfigKey → Text
  unknown : List (Nat × Text)

def Loaded.none : Loaded where
  value _ := []
  unknown := []

/--
The check that `load_config` makes of the value of a key.
-/
def loadConfig.valid (key : ConfigKey) (value : Text) : Bool :=
  match key with
  | .port => validPort value
  | .variant => validVariant value
  | .runtime => validRuntime value
  | .stopTimeout => validStopTimeout value
  | .imageTag => validImageTag value
  | .autoLogin => validBool value
  | .bind => validBind value
  | .restartOnUpdate => validRestartOnUpdate value

def loadConfig.line (loaded : Loaded) (raw : Text) (n : Nat) : Except Failure Loaded :=
  let line := trim (before '#' raw)
  if line = [] then
    .ok loaded
  else if '=' ∉ line then
    .error (.expectedKeyValue n)
  else
    let key := trim (before '=' line)
    let value := trim (after '=' line)
    match configKeyIndex key with
    | some k =>
      if value = [] || loadConfig.valid k value then
        .ok { loaded with value := Function.update loaded.value k value }
      else
        .error (.configInvalid n k value)
    | none => .ok { loaded with unknown := loaded.unknown ++ [(n, key)] }

def loadConfig.text (text : Text) : Except Failure Loaded :=
  ((readLines text).zipIdx 1).foldlM (fun loaded (raw, n) => loadConfig.line loaded raw n) Loaded.none

def loadConfig : Script Loaded := do
  if ← Script.exist .config then
    match ← Script.read .config with
    | some text => .ofExcept (loadConfig.text text)
    | none => throw (.unreadable .config)
  else
    pure Loaded.none

/--
What `read_config_file` records of a key.
-/
structure ConfigEntry where
  /-- The number of active lines. -/
  count : Nat
  /-- The value of the last one, empty for the default. -/
  value : Text
  /-- The numbers of the active lines. -/
  lines : List Nat
  /-- The first line with an invalid value. -/
  badLine : Option Nat
  badValue : Text
  /-- The first commented-out `#key=` line. -/
  template : Option Nat

structure UnknownEntry where
  key : Text
  value : Text
  line : Nat

structure ConfigSettings where
  exist : Bool
  entry : ConfigKey → ConfigEntry
  noEqLines : List Nat
  unknown : List UnknownEntry

def ConfigSettings.empty : ConfigSettings where
  exist := false
  entry _ := ⟨0, [], [], none, [], none⟩
  noEqLines := []
  unknown := []

/--
What `read_config_file` sees in a line.
-/
inductive ConfigLine where
  | blank
  /-- A commented-out `#key=...` line of a known key. -/
  | template (key : ConfigKey)
  | noEq
  | active (key : ConfigKey) (value : Text)
  | unknown (key value : Text)

def configLine (raw : Text) : ConfigLine :=
  let line := trim (before '#' raw)
  if line = [] then
    match trim raw with
    | '#' :: rest =>
      if '=' ∈ rest then
        match configKeyIndex (trim (before '=' (trim rest))) with
        | some k => .template k
        | none => .blank
      else
        .blank
    | _ => .blank
  else if '=' ∉ line then
    .noEq
  else
    let key := trim (before '=' line)
    let value := trim (after '=' line)
    match configKeyIndex key with
    | some k => .active k value
    | none => .unknown key value

def ConfigEntry.record (entry : ConfigEntry) (key : ConfigKey) (value : Text) (n : Nat) : ConfigEntry :=
  let bad := value ≠ [] && !validConfigValue key value && entry.badLine.isNone
  {
    entry with
      count := entry.count + 1
      value := value
      lines := entry.lines ++ [n]
      badLine := if bad then some n else entry.badLine
      badValue := if bad then value else entry.badValue
  }

/--
Replace the value of the first entry with this key, or add one at the end.
-/
def recordUnknown (key value : Text) (n : Nat) (entries : List UnknownEntry) : List UnknownEntry :=
  match entries with
  | [] => [⟨key, value, n⟩]
  | entry :: entries =>
    if entry.key = key then
      { entry with value := value } :: entries
    else
      entry :: recordUnknown key value n entries

def readConfigFile.line (config : ConfigSettings) (raw : Text) (n : Nat) : ConfigSettings :=
  match configLine raw with
  | .blank => config
  | .template k =>
    let entry := config.entry k
    if entry.template.isNone then
      { config with entry := Function.update config.entry k { entry with template := some n } }
    else
      config
  | .noEq => { config with noEqLines := config.noEqLines ++ [n] }
  | .active k value =>
    { config with entry := Function.update config.entry k ((config.entry k).record k value n) }
  | .unknown key value => { config with unknown := recordUnknown key value n config.unknown }

def readConfigFile.text (text : Text) : ConfigSettings :=
  ((readLines text).zipIdx 1).foldl (fun config (raw, n) => readConfigFile.line config raw n)
    { ConfigSettings.empty with exist := true }

def readConfigFile : Script ConfigSettings := do
  if ← Script.exist .config then
    match ← Script.read .config with
    | some text => pure (readConfigFile.text text)
    | none => throw (.unreadable .config)
  else
    pure ConfigSettings.empty

end Config

section Env

inductive EnvKind where
  /-- `KEY=value` -/
  | value
  /-- `KEY`: from the environment of the host. -/
  | bare
  deriving DecidableEq

structure EnvEntry where
  key : Text
  value : Text
  kind : EnvKind
  lines : List Nat

structure EnvSettings where
  exist : Bool
  entries : List EnvEntry

def EnvSettings.empty : EnvSettings where
  exist := false
  entries := []

/--
`env_key_index`
-/
def EnvSettings.index (env : EnvSettings) (key : Text) : Option EnvEntry :=
  env.entries.find? fun entry => entry.key = key

structure EnvLine where
  key : Text
  value : Text
  kind : EnvKind

/--
What `read_env_file` sees in a line, if it is not blank and no comment.
-/
def envLine (raw : Text) : Option EnvLine :=
  match trimStart (dropEnd '\r' raw) with
  | [] => none
  | c :: rest =>
    if c = '#' then
      none
    else if '=' ∈ c :: rest then
      some ⟨before '=' (c :: rest), after '=' (c :: rest), .value⟩
    else
      some ⟨trim (c :: rest), [], .bare⟩

/--
Record a line with the first entry that has its key, or as a new entry at the end.
-/
def recordEnv (line : EnvLine) (n : Nat) (entries : List EnvEntry) : List EnvEntry :=
  match entries with
  | [] => [⟨line.key, line.value, line.kind, [n]⟩]
  | entry :: entries =>
    if entry.key = line.key then
      { entry with value := line.value, kind := line.kind, lines := entry.lines ++ [n] } :: entries
    else
      entry :: recordEnv line n entries

def readEnvFile.line (env : EnvSettings) (raw : Text) (n : Nat) : EnvSettings :=
  match envLine raw with
  | none => env
  | some line => { env with entries := recordEnv line n env.entries }

def readEnvFile.text (text : Text) : EnvSettings :=
  ((readLines text).zipIdx 1).foldl (fun env (raw, n) => readEnvFile.line env raw n)
    { EnvSettings.empty with exist := true }

def readEnvFile : Script EnvSettings := do
  if ← Script.exist .env then
    match ← Script.read .env with
    | some text => pure (readEnvFile.text text)
    | none => throw (.unreadable .env)
  else
    pure EnvSettings.empty

/--
The key has a line with a non-blank value, as `env_file_sets` checks.
-/
def EnvSettings.valueSet (env : EnvSettings) (key : Text) : Bool :=
  match env.index key with
  | none => false
  | some entry => entry.kind = .value && hasText entry.value

def EnvSettings.hasDefaultUser (env : EnvSettings) : Bool :=
  env.valueSet KERGHAN_DEFAULT_USER_USERNAME && env.valueSet KERGHAN_DEFAULT_USER_EMAIL
    && env.valueSet KERGHAN_DEFAULT_USER_PASSWORD

end Env

structure Settings where
  config : ConfigSettings
  env : EnvSettings

def readSettings : Script Settings := do
  let config ← readConfigFile
  let env ← readEnvFile
  pure { config, env }

section Lookup

inductive Source where
  | file
  | fileInvalid
  | fileFromEnvironment
  | default
  /-- Derived from another setting. -/
  | derived
  | notSet
  | unknown
  deriving DecidableEq

/--
What `setting_lookup` reports of a key.
-/
structure Setting where
  /-- The effective value, the default when the file sets none. -/
  value : Text
  /-- The value written in the file. -/
  raw : Text
  source : Source
  /-- `kerghan.env` sets a key that the client manages itself. -/
  refused : Bool
  isSet : Bool

/--
What the last lines of a key say of it, if they say anything.
-/
def configLookup.file (entry : ConfigEntry) : Option Setting :=
  if entry.value ≠ [] then
    some {
      value := entry.value
      raw := entry.value
      source := if entry.badLine.isSome then .fileInvalid else .file
      refused := false
      isSet := true
    }
  else if entry.badLine.isSome then
    some { value := entry.badValue, raw := [], source := .fileInvalid, refused := false, isSet := false }
  else
    none

def configLookup.default (value : Text) (source : Source) : Setting :=
  { value, raw := [], source, refused := false, isSet := false }

def Settings.autoLogin (settings : Settings) : Setting :=
  match configLookup.file (settings.config.entry .autoLogin) with
  | some setting => setting
  | none =>
    if settings.env.exist && !settings.env.hasDefaultUser then
      configLookup.default "false".toList .derived
    else
      configLookup.default DEFAULT_AUTO_LOGIN .default

/--
`setting_lookup` of a key in `CONFIG_KEYS`.
-/
def Settings.configLookup (settings : Settings) (key : ConfigKey) : Setting :=
  match key with
  | .autoLogin => settings.autoLogin
  | .bind =>
    match configLookup.file (settings.config.entry .bind) with
    | some setting => setting
    | none =>
      if settings.autoLogin.value = "true".toList then
        configLookup.default DEFAULT_BIND_AUTO_LOGIN .derived
      else
        configLookup.default DEFAULT_BIND_NO_AUTO_LOGIN .derived
  | key =>
    match configLookup.file (settings.config.entry key) with
    | some setting => setting
    | none => configLookup.default (configDefault key) .default

def Settings.envLookup (settings : Settings) (key : Text) : Setting :=
  match settings.env.index key with
  | none => { value := [], raw := [], source := .notSet, refused := false, isSet := false }
  | some entry =>
    let refused := decide (key ∈ CLIENT_MANAGED_KEYS)
    match entry.kind with
    | .bare => { value := [], raw := [], source := .fileFromEnvironment, refused, isSet := false }
    | .value => { value := entry.value, raw := entry.value, source := .file, refused, isSet := true }

/--
`setting_lookup`. An unknown config key is only one that the file has.
-/
def Settings.lookup (settings : Settings) (key : Text) : Option Setting :=
  if isEnvKey key then
    some (settings.envLookup key)
  else
    match configKeyIndex key with
    | some k => some (settings.configLookup k)
    | none =>
      (settings.config.unknown.find? fun entry => entry.key = key).map fun entry =>
        { value := entry.value, raw := entry.value, source := .unknown, refused := false, isSet := true }

/--
The warnings of `cross_key_warnings`.
-/
structure Warnings where
  /-- Automatic login is on and the port is published on this address. -/
  exposed : Option Text
  /-- `auto-login=true` needs the default user: `kerghan up` will fail. -/
  noDefaultUser : Bool

def crossKeyWarnings (settings : Settings) : Warnings :=
  let autoLogin := settings.configLookup .autoLogin
  let bind := (settings.configLookup .bind).value
  {
    exposed := if autoLogin.value = "true".toList && !isLoopback bind then some bind else none
    noDefaultUser :=
      autoLogin.value = "true".toList && autoLogin.source = .file && settings.env.exist
        && !settings.env.hasDefaultUser
  }

end Lookup

end Kerghan.Standalone
