import Kerghan.Standalone.Impl.Up

/-!
This module contains the command `update`: how it compares the release it has downloaded with the client
that runs, and what it does then. The version of that client is a parameter.
-/

namespace Kerghan.Standalone

open Shell

def FIRST_UPDATE_VERSION : Text := "0.8.3".toList

/--
`--restart`, `--no-restart` or neither.
-/
inductive RestartOption where
  | always
  | never
  | unset
  deriving DecidableEq

def RestartOption.text : RestartOption → Text
  | .always => "always".toList
  | .never => "never".toList
  | .unset => []

/--
What `update_parse_args` has accepted.
-/
structure UpdateArgs where
  /-- Empty for the latest release. -/
  version : Text
  force : Bool
  yes : Bool
  restart : RestartOption

section Stamp

/--
`KERGHAN_VERSION="[0-9]+\.[0-9]+\.[0-9]+"`
-/
def updateStampVersion.line (line : Text) : Option Text :=
  let start := "KERGHAN_VERSION=\"".toList
  let stamp := (line.drop start.length).dropLast
  if line = start ++ stamp ++ ['"'] && isSemver stamp then
    some stamp
  else
    none

/--
The version of the installer, unless it is not the requested one.
-/
def updateStampVersion (version installer : Text) : Option Text :=
  match (readLines installer).findSome? updateStampVersion.line with
  | none => none
  | some stamp => if version ≠ [] && stamp ≠ version then none else some stamp

end Stamp

section Compare

inductive UpdateAction where
  | upgrade
  | reinstall
  | downgrade
  deriving DecidableEq

inductive UpdateDecision where
  | act (action : UpdateAction)
  /-- `is already up to date` -/
  | upToDate
  /-- The latest release is older. -/
  | nothingToDo
  deriving DecidableEq

/--
What the client `current` makes of the release `target`.
-/
def cmdUpdate.decide (args : UpdateArgs) (current target : Text) : UpdateDecision :=
  if !isSemver current then
    .act .upgrade
  else
    match versionCompare target current with
    | .eq => if args.force then .act .reinstall else .upToDate
    | .gt => .act .upgrade
    | .lt => if args.version = [] then .nothingToDo else .act .downgrade

/--
The client `current` has been started by one of the release `version` that is newer.
-/
def updateIsDowngrade (version current : Text) : Bool :=
  isSemver version && isSemver current && versionCompare version current == .gt

/--
The release that has handed off, if `KERGHAN_UPDATE_FROM` can be printed: only `[A-Za-z0-9._-]{1,64}` is.
-/
def updateFinishFrom (updateFrom : Text) : Text :=
  if updateFrom.any fun c => !(c.isAlphanum || c == '.' || c == '_' || c == '-') then
    []
  else if updateFrom.length ≤ 64 then
    updateFrom
  else
    []

example : updateFinishFrom "0.9.0".toList = "0.9.0".toList := by decide

inductive FinishDecision where
  | untouched
  | notRunning
  | sameImage
  | restart
  deriving DecidableEq

/--
The restart decision of `update --finish`, where `previous` is the image of the running instance.
-/
def cmdUpdateFinish.decide (updateFrom current : Text) (envLost : Bool) (previous image : Text) : FinishDecision :=
  let version := updateFinishFrom updateFrom
  let downgrade := version ≠ [] && updateIsDowngrade version current
  if downgrade || envLost then
    .untouched
  else if previous = [] then
    .notRunning
  else if previous = image then
    .sameImage
  else
    .restart

end Compare

section Command

/--
The white space that `read` drops at the ends of a line.
-/
def ifsTrim (line : Text) : Text :=
  let isBlank (c : Char) : Bool := c = ' ' || c = '\t'
  (line.dropWhile isBlank).rdropWhile isBlank

/--
`y` or `yes`, in any case.
-/
def confirms (answer : Text) : Bool :=
  let lower := (ifsTrim answer).map Char.toLower
  lower = "y".toList || lower = "yes".toList

def updateConfirmDowngrade (args : UpdateArgs) : Script Unit := do
  if args.yes then
    pure ()
  else if !(← Script.isTty) then
    throw .noTerminal
  else
    let (answer, _) ← Script.readLine
    if confirms answer then
      pure ()
    else
      throw .aborted

/--
What `update` has done, if it has not failed.
-/
inductive UpdateResult where
  | upToDate
  | nothingToDo
  /-- The new client has no `update --finish`. -/
  | replaced (action : UpdateAction)
  | handedOff (action : UpdateAction)

def cmdUpdate.install (args : UpdateArgs) (current target : Text) (action : UpdateAction) : Script UpdateResult := do
  if !(← Script.install target) then
    throw .installer
  else if versionCompare target FIRST_UPDATE_VERSION = .lt then
    let _ ← runningImage
    pure (.replaced action)
  else
    -- `--restart` never reaches a downgrade.
    let restart := if action = .downgrade && args.restart = .always then .unset else args.restart
    if ← Script.handoff current restart.text then
      pure (.handedOff action)
    else
      throw .handoff

def cmdUpdate.proceed (args : UpdateArgs) (current target : Text) : Script UpdateResult :=
  match cmdUpdate.decide args current target with
  | .upToDate => pure .upToDate
  | .nothingToDo => pure .nothingToDo
  | .act .downgrade => do
    updateConfirmDowngrade args
    cmdUpdate.install args current target .downgrade
  | .act action => cmdUpdate.install args current target action

variable [Ctype]

def cmdUpdate (args : UpdateArgs) (current : Text) : Script UpdateResult := do
  let _ ← loadConfig
  if !(← Script.clientDir) then
    throw .clientDir
  else
    match ← Script.download args.version with
    | none => throw .download
    | some installer =>
      match updateStampVersion args.version installer with
      | none => throw .stamp
      | some target => cmdUpdate.proceed args current target

end Command

end Kerghan.Standalone
