import Kerghan.Standalone.Effect

/-!
This module contains the generator of the values in a new `kerghan.env`, and the writer that replaces a
file as a whole.
-/

namespace Kerghan.Standalone

open Shell

section Defaults

/--
`none` if the key has no default or `openssl` fails.
-/
def defaultEnvValue (key : Text) : Script (Option Text) :=
  if key = KERGHAN_SECRET_KEY ∨ key = KERGHAN_INTEGRATIONS_KEY then
    Script.openssl .base64
  else if key = KERGHAN_DEFAULT_USER_PASSWORD then
    Script.openssl .hex
  else if key = KERGHAN_DEFAULT_USER_ENABLED ∨ key = KERGHAN_DEFAULT_USER_ADMIN then
    pure (some "true".toList)
  else if key = KERGHAN_DEFAULT_USER_USERNAME then
    pure (some "admin".toList)
  else if key = KERGHAN_DEFAULT_USER_EMAIL then
    pure (some "admin@kerghan.local".toList)
  else
    pure none

/--
A line for each key, after the `lines` that have been made. Nothing is printed if a value fails.
-/
def defaultEnvLines (keys : List Text) (lines : Text) : Script (Option Text) :=
  match keys with
  | [] => pure (some lines)
  | key :: keys => do
    match ← defaultEnvValue key with
    | none => pure none
    | some value => defaultEnvLines keys (lines ++ (key ++ '=' :: value ++ ['\n']))

end Defaults

section Write

inductive Mode where
  | octal (mode : Text)
  /-- The mode of the target, or what the umask leaves of a new file. -/
  | keep

/--
`printf '%o' "$((0666 & ~$(umask)))"`
-/
def umaskMode (umask : Text) : Text :=
  let mask := umask.foldl (fun n c => n * 8 + (c.toNat - '0'.toNat)) 0
  Nat.toDigits 8 (0o666 &&& (0o777 ^^^ (mask % 0o1000)))

/--
The mode that `chmod` is to set, empty for none.
-/
def writeFileAtomic.mode (file : File) (mode : Mode) : Script Text := do
  match mode with
  | .octal mode => pure mode
  | .keep =>
    if ← Script.exist file then
      pure ((← Script.fileMode file).getD [])
    else
      pure (umaskMode (← Script.umask))

def writeFileAtomic.replace (file : File) (content mode : Text) (temp : Nat) : Script Bool := do
  if !(← Script.write temp content) then
    pure false
  else if mode ≠ [] then
    if !(← Script.chmod mode temp) then
      pure false
    else
      Script.rename temp file
  else
    Script.rename temp file

/--
Whether `file` has got the new content. If not, it is as it was.
-/
def writeFileAtomic (file : File) (content : Text) (mode : Mode) : Script Bool := do
  if !(← Script.resolveSymlink file) then
    pure false
  else
    let mode ← writeFileAtomic.mode file mode
    match ← Script.mktemp file with
    | none => pure false
    | some temp =>
      if ← writeFileAtomic.replace file content mode temp then
        pure true
      else
        Script.remove temp
        pure false

/--
Whether there is a `kerghan.env`, an old one or a new one with every key of `DEFAULT_ENV_KEYS`.
-/
def ensureEnvFile : Script Bool := do
  if ← Script.exist .env then
    pure true
  else
    match ← defaultEnvLines DEFAULT_ENV_KEYS [] with
    | none => pure false
    | some lines => writeFileAtomic .env (substitution lines ++ ['\n']) (.octal "600".toList)

end Write

end Kerghan.Standalone
