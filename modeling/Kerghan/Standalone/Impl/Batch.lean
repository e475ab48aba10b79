import Kerghan.Shell.Draft
import Kerghan.Standalone.Impl.Settings
import Kerghan.Standalone.Impl.Writer

/-!
This module contains the writer of `kerghan configure` and of the wizard: batches of changes to `config` and to
`kerghan.env`, their checks, and how they are applied. A value that is read from a hidden prompt stands in the
batch as it has been read.
-/

namespace Kerghan.Standalone

open Shell

variable [Ctype]

section Batch

inductive Action where
  | set (value : Text)
  | unset
  deriving DecidableEq

structure Change where
  key : Text
  action : Action
  deriving DecidableEq

/--
`batch_sets_env`
-/
def batchSetsEnv (batch : List Change) : Bool :=
  batch.any fun change =>
    match change.action with
    | .set _ => isEnvKey change.key
    | .unset => false

end Batch

section Arguments

/--
What `cmd_configure` has read of its arguments.
-/
structure ConfigureArgs where
  showSecrets : Bool
  force : Bool
  batch : List Change
  /-- A key that is to be read. -/
  bare : List Text
  /-- Some `KEY=-` has been given. -/
  stdin : Bool

/--
`configure_check_key`
-/
def ConfigureArgs.accepts (args : ConfigureArgs) (key : Text) : Bool :=
  (isEnvKey key || isConfigKeyName key) && !(args.batch.any fun change => change.key == key)
    && args.bare.getLast? != some key

def cmdConfigure.args (args : ConfigureArgs) : List Text → Except Failure ConfigureArgs
  | [] => .ok args
  | arg :: rest =>
    if arg = "--show-secrets".toList then
      cmdConfigure.args { args with showSecrets := true } rest
    else if arg = "--force".toList then
      cmdConfigure.args { args with force := true } rest
    else if arg = "--unset".toList then
      match rest with
      | [] => .error .usage
      | key :: rest =>
        if '=' ∈ key || !args.accepts key then
          .error .usage
        else
          cmdConfigure.args { args with batch := args.batch ++ [⟨key, .unset⟩] } rest
    else if arg.head? = some '-' then
      .error .usage
    else if '=' ∈ arg then
      let key := before '=' arg
      let value := after '=' arg
      if !args.accepts key || (value = "-".toList && args.stdin) then
        .error .usage
      else
        cmdConfigure.args {
          args with
            batch := args.batch ++ [⟨key, .set value⟩]
            stdin := args.stdin || value = "-".toList
        } rest
    else if args.accepts arg then
      cmdConfigure.args { args with bare := args.bare ++ [arg] } rest
    else
      .error .usage

inductive Configure where
  | list (showSecrets : Bool)
  | read (key : Text) (showSecrets : Bool)
  | write (batch : List Change) (force : Bool)

def cmdConfigure.parse (args : List Text) : Except Failure Configure :=
  match cmdConfigure.args ⟨false, false, [], [], false⟩ args with
  | .error failure => .error failure
  | .ok args =>
    match args.batch, args.bare, args.force, args.showSecrets with
    | [], [], false, showSecrets => .ok (.list showSecrets)
    | [], [key], false, showSecrets => .ok (.read key showSecrets)
    | _ :: _, [], force, false => .ok (.write args.batch force)
    | _, _, _, _ => .error .usage

/--
The batch with the `value` that has been read for `KEY=-`.
-/
def readHidden (value : Text) (batch : List Change) : List Change :=
  batch.map fun change =>
    if change.action = .set "-".toList then { change with action := .set value } else change

end Arguments

section Validate

/--
What an error of `batch_validate` is about.
-/
inductive Problem where
  | lineBreak (key : Text)
  | empty (key : Text)
  | unknownKey (key : Text)
  /-- A config value cannot contain `#`. -/
  | hash (key value : Text)
  | invalid (key value : Text)
  | invalidBool (key value : Text)
  /-- Without the value, which is a secret. -/
  | shortPassword
  | invalidUrl (value : Text)
  /-- `up` and `update-env` would generate it again. -/
  | cannotUnset (key : Text)
  | clientManaged (key : Text)
  | needsForce (key : Text)
  | expectedKeyValue (n : Nat)
  | configInvalid (n : Nat) (key : ConfigKey) (value : Text)
  | envLost
  deriving DecidableEq

def validateValue (key value : Text) : Option Problem :=
  if '\n' ∈ value ∨ '\r' ∈ value then
    some (.lineBreak key)
  else if value = [] then
    some (.empty key)
  else if !isEnvKey key then
    match configKeyIndex key with
    | none => some (.unknownKey key)
    | some k =>
      if '#' ∈ value then
        some (.hash key value)
      else if !validConfigValue k value then
        some (.invalid key value)
      else
        none
  else if key = KERGHAN_DEFAULT_USER_ENABLED ∨ key = KERGHAN_DEFAULT_USER_ADMIN then
    if !validBool value then some (.invalidBool key value) else none
  else if key = KERGHAN_DEFAULT_USER_PASSWORD then
    if value.length < PASSWORD_MIN_LENGTH then some .shortPassword else none
  else if key = FRONTEND_BASE_URL_KEY then
    if "http://".toList.isPrefixOf value || "https://".toList.isPrefixOf value then
      none
    else
      some (.invalidUrl value)
  else
    none

def batchValidate.change (force : Bool) (change : Change) : Option Problem :=
  match change.action with
  | .unset =>
    if isEnvKey change.key then
      if change.key ∈ DEFAULT_ENV_KEYS then some (.cannotUnset change.key) else none
    else if (configKeyIndex change.key).isNone then
      some (.unknownKey change.key)
    else
      none
  | .set value =>
    if change.key ∈ CLIENT_MANAGED_KEYS then
      some (.clientManaged change.key)
    else if change.key ∈ FORCE_KEYS ∧ force = false then
      some (.needsForce change.key)
    else
      validateValue change.key value

/--
An invalid value that `config` has, unless the batch replaces or removes it.
-/
def batchValidate.config (settings : Settings) (batch : List Change) (key : ConfigKey) : Option Problem :=
  match (settings.config.entry key).badLine with
  | none => none
  | some n =>
    if batch.any fun change => change.key == key.name then
      none
    else
      some (.configInvalid n key (settings.config.entry key).badValue)

def batchValidate (settings : Settings) (batch : List Change) (force : Bool) : Script (List Problem) := do
  let problems := batch.filterMap (batchValidate.change force)
    ++ settings.config.noEqLines.map Problem.expectedKeyValue
    ++ CONFIG_KEYS.filterMap (batchValidate.config settings batch)
  if !settings.env.exist && batchSetsEnv batch then
    if ← Script.volumeExists then
      pure (problems ++ [.envLost])
    else
      pure problems
  else
    pure problems

end Validate

section Content

def keyChanges (settings : Settings) (change : Change) : Bool :=
  if isEnvKey change.key then
    match settings.env.index change.key, change.action with
    | none, .set _ => true
    | none, .unset => false
    | some _, .unset => true
    | some entry, .set value => !(entry.lines.length = 1 && entry.kind = .value && entry.value = value)
  else
    match configKeyIndex change.key with
    | none => false
    | some k =>
      let entry := settings.config.entry k
      match change.action with
      | .unset => 0 < entry.count
      | .set value => !(entry.count = 1 && entry.badLine.isNone && entry.value = value)

/--
The lines of a key in its file, and for `config` the template line.
-/
structure KeyLines where
  nums : List Nat
  template : Option Nat

/--
`none` if the key belongs to the other file.
-/
def keyLines (which : File) (settings : Settings) (key : Text) : Option KeyLines :=
  match which, isEnvKey key with
  | .env, true => some ⟨((settings.env.index key).map EnvEntry.lines).getD [], none⟩
  | .config, false =>
    match configKeyIndex key with
    | some k => some ⟨(settings.config.entry k).lines, (settings.config.entry k).template⟩
    | none => none
  | _, _ => none

/--
`NEW_CONTENT` in the making, and `FILE_EDITED`.
-/
structure Content where
  draft : Draft
  edited : Bool

def Content.unset (content : Content) (nums : List Nat) : Content where
  draft := content.draft.unset nums
  edited := content.edited || !nums.isEmpty

def Content.set (content : Content) (line : Text) (lines : KeyLines) : Content where
  draft := content.draft.set lines.nums lines.template line
  edited := true

def Content.change (which : File) (settings : Settings) (content : Content) (change : Change) : Content :=
  match keyLines which settings change.key with
  | none => content
  | some lines =>
    match change.action with
    | .unset => content.unset lines.nums
    | .set value => content.set (change.key ++ '=' :: value) lines

def buildContent (which : File) (settings : Settings) (lines : List Text) (changes : List Change) : Content :=
  changes.foldl (Content.change which settings) ⟨.ofLines lines, false⟩

/--
The new content, if the file is edited. An element of an array that is not set ends the script.
-/
def Content.print (content : Content) : Script (Option Text) :=
  match content.draft.print with
  | none => throw .aborted
  | some lines => pure (if content.edited then some (printLines lines) else none)

/--
`build_file_content`
-/
def buildFileContent (which : File) (settings : Settings) (changes : List Change) : Script (Option Text) := do
  let lines ←
    if ← Script.exist which then
      match ← Script.read which with
      | some text => pure (readLines text)
      -- The loop over the lines is skipped if the file cannot be opened, as `set -e` is off here.
      | none => pure []
    else
      pure []
  (buildContent which settings lines changes).print

end Content

section Apply

/--
Build the new content of a file and write it, if it is edited. Whether nothing has failed.
-/
def batchApply.file (which : File) (mode : Mode) (settings : Settings) (changes : List Change) : Script Bool := do
  match ← buildFileContent which settings changes with
  | none => pure true
  | some content => writeFileAtomic which content mode

/--
The settings that a batch is applied to: `kerghan.env` is made first if the batch needs it.
-/
def batchApply.settings (settings : Settings) (batch : List Change) : Script (Option Settings) := do
  if !settings.env.exist && batchSetsEnv batch then
    if ← ensureEnvFile then
      let env ← readEnvFile
      pure (some { settings with env })
    else
      pure none
  else
    pure (some settings)

/--
The changes that have been made, `none` if a write fails.
-/
def batchApply (settings : Settings) (batch : List Change) : Script (Option (List Change)) := do
  match ← batchApply.settings settings batch with
  | none => pure none
  | some settings =>
    let changes := batch.filter (keyChanges settings)
    if changes = [] then
      pure (some [])
    else if !(← batchApply.file .env (.octal "600".toList) settings changes) then
      pure none
    else if !(← batchApply.file .config .keep settings changes) then
      pure none
    else
      let _ ← readSettings
      pure (some changes)

/--
`confirm_force`
-/
def confirmForce (batch : List Change) : Script Unit := do
  if batch.any fun change => change.action ≠ .unset && change.key ∈ FORCE_KEYS then
    if ← Script.isTty then
      let (answer, _) ← Script.readLine
      let lower := answer.map Char.toLower
      if lower = "y".toList ∨ lower = "yes".toList then
        pure ()
      else
        throw .aborted
    else
      pure ()
  else
    pure ()

inductive Configured where
  | refused (problems : List Problem)
  | failed
  | applied (changes : List Change)

def cmdConfigure.write (batch : List Change) (force : Bool) : Script Configured := do
  let settings ← readSettings
  match ← batchValidate settings batch force with
  | [] =>
    confirmForce batch
    match ← batchApply settings batch with
    | none => pure .failed
    | some changes => pure (.applied changes)
  | problems => pure (.refused problems)

end Apply

end Kerghan.Standalone
