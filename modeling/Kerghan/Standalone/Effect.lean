import Kerghan.Async.Run
import Kerghan.Standalone.Impl.Values

/-!
This module contains what a command of the standalone client asks of the host: the two files it
shares with the other commands, the temporary files it replaces them through, `openssl`, Docker and
the terminal. Each step happens at once. Between two steps other commands may run.
-/

namespace Kerghan.Standalone

open Shell

inductive File where
  | config
  | env
  deriving DecidableEq

/--
The secrets `openssl` is asked for.
-/
inductive Secret where
  /-- `openssl rand -base64 32` -/
  | base64
  /-- `openssl rand -hex 24` -/
  | hex

/--
What `openssl` documents to print, less the newline that `$(...)` drops.
-/
def Secret.prints (secret : Secret) (text : Text) : Bool :=
  match secret with
  | .base64 => text.length = 44 && text.all fun c => c.isAlphanum || c == '+' || c == '/' || c == '='
  | .hex => text.length = 48 && text.all fun c => c.isDigit || ('a' ≤ c && c ≤ 'f')

/--
What `docker inspect` is asked about the container.
-/
inductive Inspect where
  /-- `{{.State.Running}}` -/
  | running
  /-- `{{.Config.Image}}` -/
  | image
  /-- `{{range .Config.Env}}{{println .}}{{end}}` -/
  | env
  /-- The host port published for port 80. -/
  | hostPort
  /-- The host address it is published on. -/
  | hostIp

inductive Step where
  /-- `[ -e file ]` -/
  | exist (file : File)
  /-- The content of a file when it is opened. -/
  | read (file : File)
  | openssl (secret : Secret)
  /-- `docker volume inspect` -/
  | volumeExists
  /-- `docker inspect -f` -/
  | inspect (what : Inspect)
  /-- `vault down` -/
  | vaultDown (stopTimeout : Text)
  /-- `vault up` -/
  | vaultUp (args : List Text)
  /-- `resolve_symlink` -/
  | resolveSymlink (file : File)
  /-- `stat` -/
  | fileMode (file : File)
  | umask
  /-- `mktemp` in the directory of a file. -/
  | mktemp (file : File)
  | write (temp : Nat) (content : Text)
  | chmod (mode : Text) (temp : Nat)
  /-- `mv -f temp file` -/
  | rename (temp : Nat) (file : File)
  /-- `rm -f` -/
  | remove (temp : Nat)
  /-- `[ -t 0 ]` -/
  | isTty
  /-- `read -r`: what is read of a line, and whether the line has ended. -/
  | readLine
  /-- `update_client_dir`, with the temporary folder. -/
  | clientDir
  /-- The `install.sh` of a release, of the latest one if the version is empty. -/
  | download (version : Text)
  /-- Run the installer for this version. -/
  | install (version : Text)
  /-- `exec` the new client with `update --finish`. -/
  | handoff (version restart : Text)
  /-- `docker pull` -/
  | pull (image : Text)

/--
A step that can fail answers with `none` or `false` when it does.
-/
def Reply : Step → Type
  | .exist _ => Bool
  | .read _ => Option Text
  | .openssl _ => Option Text
  | .volumeExists => Bool
  | .inspect _ => Option Text
  | .vaultDown _ => Bool
  | .vaultUp _ => Bool
  | .resolveSymlink _ => Bool
  | .fileMode _ => Option Text
  | .umask => Text
  | .mktemp _ => Option Nat
  | .write _ _ => Bool
  | .chmod _ _ => Bool
  | .rename _ _ => Bool
  | .remove _ => Unit
  | .isTty => Bool
  | .readLine => Text × Bool
  | .clientDir => Bool
  | .download _ => Option Text
  | .install _ => Bool
  | .handoff _ _ => Bool
  | .pull _ => Bool

inductive Failure where
  /-- A malformed argument. -/
  | usage
  | unreadable (file : File)
  /-- A line of `config` without `=`. -/
  | expectedKeyValue (n : Nat)
  /-- An invalid value in `config`. -/
  | configInvalid (n : Nat) (key : ConfigKey) (value : Text)
  /-- `kerghan.env` is missing but the data volume exists. -/
  | envLost
  /-- `kerghan.env` does not exist. -/
  | envMissing
  /-- A secret or a write has failed. -/
  | notWritten
  | clientManaged (keys : List Text)
  /-- Automatic login needs the default user. -/
  | noDefaultUser
  /-- The running instance is newer than the wanted image. -/
  | downgrade
  | vault
  | aborted
  | noTerminal
  /-- The client cannot replace its own file. -/
  | clientDir
  | download
  /-- The installer is for another version or names none. -/
  | stamp
  | installer
  | handoff
  | pull

abbrev Script := Prog Step Reply Failure

namespace Script

def exist (file : File) : Script Bool := .perform (Step.exist file)

def read (file : File) : Script (Option Text) := .perform (Step.read file)

def openssl (secret : Secret) : Script (Option Text) := .perform (Step.openssl secret)

def volumeExists : Script Bool := .perform Step.volumeExists

def inspect (what : Inspect) : Script (Option Text) := .perform (Step.inspect what)

def vaultDown (stopTimeout : Text) : Script Bool := .perform (Step.vaultDown stopTimeout)

def vaultUp (args : List Text) : Script Bool := .perform (Step.vaultUp args)

def resolveSymlink (file : File) : Script Bool := .perform (Step.resolveSymlink file)

def fileMode (file : File) : Script (Option Text) := .perform (Step.fileMode file)

def umask : Script Text := .perform Step.umask

def mktemp (file : File) : Script (Option Nat) := .perform (Step.mktemp file)

def write (temp : Nat) (content : Text) : Script Bool := .perform (Step.write temp content)

def chmod (mode : Text) (temp : Nat) : Script Bool := .perform (Step.chmod mode temp)

def rename (temp : Nat) (file : File) : Script Bool := .perform (Step.rename temp file)

def remove (temp : Nat) : Script Unit := .perform (Step.remove temp)

def isTty : Script Bool := .perform Step.isTty

def readLine : Script (Text × Bool) := .perform Step.readLine

def clientDir : Script Bool := .perform Step.clientDir

def download (version : Text) : Script (Option Text) := .perform (Step.download version)

def install (version : Text) : Script Bool := .perform (Step.install version)

def handoff (version restart : Text) : Script Bool := .perform (Step.handoff version restart)

def pull (image : Text) : Script Bool := .perform (Step.pull image)

end Script

/--
The files under `~/.kerghan` and the temporary files next to them.
-/
structure Disk where
  files : File → Option Text
  temps : Nat → Option Text
  nextTemp : Nat
  /-- The files without a text here that are there all the same, but cannot be read. -/
  unreadable : File → Bool := fun _ => false

/--
What the host contributes to a step: whether it succeeds, and the text that somebody else provides.
-/
structure Chance where
  succeeds : Bool
  text : Text

def exec (step : Step) (chance : Chance) (disk : Disk) : Reply step × Disk :=
  match step with
  | .exist file => ((disk.files file).isSome || disk.unreadable file, disk)
  | .read file => (disk.files file, disk)
  | .openssl secret =>
    (if chance.succeeds && secret.prints chance.text then some chance.text else none, disk)
  | .volumeExists => (chance.succeeds, disk)
  | .inspect _ => (if chance.succeeds then some chance.text else none, disk)
  | .vaultDown _ => (chance.succeeds, disk)
  | .vaultUp _ => (chance.succeeds, disk)
  | .resolveSymlink _ => (chance.succeeds, disk)
  | .fileMode _ => (if chance.succeeds then some chance.text else none, disk)
  | .umask => (chance.text, disk)
  | .mktemp _ =>
    if chance.succeeds then
      (some disk.nextTemp, {
        disk with
          temps := Function.update disk.temps disk.nextTemp (some [])
          nextTemp := disk.nextTemp + 1
      })
    else
      (none, disk)
  | .write temp content =>
    -- A write that fails may have written a part.
    let written := if chance.succeeds then content else chance.text
    (chance.succeeds, { disk with temps := Function.update disk.temps temp (some written) })
  | .chmod _ _ => (chance.succeeds, disk)
  | .rename temp file =>
    match chance.succeeds, disk.temps temp with
    | true, some content => (true, {
        disk with
          files := Function.update disk.files file (some content)
          temps := Function.update disk.temps temp none
      })
    | _, _ => (false, disk)
  | .remove temp => ((), { disk with temps := Function.update disk.temps temp none })
  | .isTty => (chance.succeeds, disk)
  | .readLine => ((chance.text.takeWhile (· ≠ '\n'), chance.succeeds), disk)
  | .clientDir => (chance.succeeds, disk)
  | .download _ => (if chance.succeeds then some chance.text else none, disk)
  | .install _ => (chance.succeeds, disk)
  | .handoff _ _ => (chance.succeeds, disk)
  | .pull _ => (chance.succeeds, disk)

end Kerghan.Standalone
