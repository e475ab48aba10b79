import Kerghan.Standalone.Impl.Settings
import Kerghan.Standalone.Impl.Writer

/-!
This module contains the checks of `kerghan.env` that do not go through its parser but through `grep`,
and the command `update-env`.
-/

namespace Kerghan.Standalone

open Shell

variable [Ctype]

section Presence

/--
`grep -q` on `kerghan.env`, which finds nothing in a file that it cannot read.
-/
def grepEnv (pattern : Pattern) : Script Bool := do
  match ← Script.read .env with
  | some text => pure (grep pattern text)
  | none => pure false

/--
`^[[:space:]]*$1(=|[[:space:]]*$)`
-/
def envFileHasKey.pattern (key : Text) : Pattern :=
  .andThen (.many Ctype.space) (.andThen (.literal key)
    (.or (.literal ['=']) (.andThen (.many Ctype.space) .lineEnd)))

def envFileHasKey (key : Text) : Script Bool :=
  grepEnv (envFileHasKey.pattern key)

/--
`^[[:space:]]*$1=.*[^[:space:]]`
-/
def envFileSets.pattern (key : Text) : Pattern :=
  .andThen (.many Ctype.space) (.andThen (.literal (key ++ ['=']))
    (.andThen (.many fun _ => true) (.one fun c => !Ctype.space c)))

def envFileSets (key : Text) : Script Bool :=
  grepEnv (envFileSets.pattern key)

def hasDefaultUserCredentials : Script Bool := do
  if ← envFileSets KERGHAN_DEFAULT_USER_USERNAME then
    if ← envFileSets KERGHAN_DEFAULT_USER_EMAIL then
      envFileSets KERGHAN_DEFAULT_USER_PASSWORD
    else
      pure false
  else
    pure false

def refuseClientManagedKeys.find (found : List Text) (key : Text) : Script (List Text) := do
  if ← envFileHasKey key then
    pure (found ++ [key])
  else
    pure found

def refuseClientManagedKeys : Script Unit := do
  let found ← CLIENT_MANAGED_KEYS.foldlM refuseClientManagedKeys.find []
  if found = [] then
    pure ()
  else
    throw (.clientManaged found)

/--
`^FRONTEND_BASE_URL=`
-/
def frontendBaseUrlArgs.pattern : Pattern :=
  .literal (FRONTEND_BASE_URL_KEY ++ ['='])

def frontendBaseUrlArgs.own (port : Text) : List Text :=
  ["-e".toList, FRONTEND_BASE_URL_KEY ++ "=http://localhost:".toList ++ port]

def frontendBaseUrlArgs (port : Text) : Script (List Text) := do
  if !(← grepEnv frontendBaseUrlArgs.pattern) then
    pure (frontendBaseUrlArgs.own port)
  else
    pure []

end Presence

section Update

/--
What `add_missing_env_keys` has found out about the keys of a new installation.
-/
structure EnvKeys where
  /-- The keys without a line, which it adds. -/
  missing : List Text
  /-- The keys with a line but no value, which it warns of. -/
  blank : List Text

def addMissingEnvKeys.check (keys : EnvKeys) (key : Text) : Script EnvKeys := do
  if !(← envFileHasKey key) then
    pure { keys with missing := keys.missing ++ [key] }
  else if !(← envFileSets key) then
    pure { keys with blank := keys.blank ++ [key] }
  else
    pure keys

/--
A newline behind the last line, unless there is one or there is no line.
-/
def addMissingEnvKeys.terminated (old : Text) : Text :=
  if old ≠ [] ∧ old.getLast? ≠ some '\n' then old ++ ['\n'] else old

/--
`none` if a value or the write fails.
-/
def addMissingEnvKeys : Script (Option EnvKeys) := do
  let keys ← DEFAULT_ENV_KEYS.foldlM addMissingEnvKeys.check ⟨[], []⟩
  if keys.missing = [] then
    pure (some keys)
  else
    match ← defaultEnvLines keys.missing [] with
    | none => pure none
    | some lines =>
      let content := substitution lines
      match ← Script.read .env with
      | none => pure none
      | some old =>
        let new := addMissingEnvKeys.terminated old ++ (content ++ ['\n'])
        if ← writeFileAtomic .env new (.octal "600".toList) then
          pure (some keys)
        else
          pure none

def cmdUpdateEnv : Script (List Text) := do
  let _ ← loadConfig
  if !(← Script.exist .env) then
    let _ ← Script.volumeExists
    throw .envMissing
  else
    match ← addMissingEnvKeys with
    | none => throw .notWritten
    | some keys => pure keys.missing

end Update

end Kerghan.Standalone
