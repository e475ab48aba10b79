import Kerghan.Async.Sequential
import Kerghan.Standalone.Impl.Writer

/-!
This module contains the proof that what the generator and the writer return tells whether one of their steps
has failed.
-/

namespace Kerghan.Standalone

open Shell

/--
Whether a step that generates a value or takes part in a write has failed.
-/
def Step.failed (step : Step) (reply : Reply step) : Bool :=
  match step, reply with
  | .openssl _, (value : Option Text) => value.isNone
  | .resolveSymlink _, (found : Bool) => !found
  | .mktemp _, (temp : Option Nat) => temp.isNone
  | .write _ _, (written : Bool) => !written
  | .chmod _ _, (set : Bool) => !set
  | .rename _ _, (moved : Bool) => !moved
  | _, _ => false

def somethingFailed (h : History Step Reply) : Bool :=
  h.any fun x => x.1.failed x.2

@[simp]
theorem somethingFailed_cons {h : History Step Reply} {step : Step} {reply : Reply step}
    : somethingFailed (⟨step, reply⟩ :: h) = (step.failed reply || somethingFailed h) := rfl

/--
A file that is there can be read.
-/
def EnvReads (step : Step) (reply : Reply step) : Prop :=
  match step, reply with
  | .read .env, (text : Option Text) => text.isSome = true
  | _, _ => True

namespace Script

variable {α β : Type} {before : Bool} {Q : α → Bool → Prop} {Q' : β → Bool → Prop} {script : Script α}

/--
A script that is begun when `before` tells whether something has failed returns a value that is related by `Q`
to whether something has failed then.
-/
def Tells (before : Bool) (Q : α → Bool → Prop) (script : Script α) : Prop :=
  ∀ h, somethingFailed h = before →
    Prog.Meets EnvReads (fun _ _ => True) (fun h' result => ∃ a, result = .ok a ∧ Q a (somethingFailed h')) script h

theorem tells_pure {a : α} (ha : Q a before) : Tells before Q (pure a : Script α) := by
  intro h hbefore
  exact ⟨a, rfl, hbefore.symm ▸ ha⟩

theorem Tells.step {step : Step} {f : Reply step → Script β}
    (hf : ∀ reply, EnvReads step reply → Tells (step.failed reply || before) Q' (f reply))
    : Tells before Q' (Prog.perform step >>= f) := by
  intro h hbefore
  refine ⟨trivial, fun reply hreply => hf reply hreply _ ?_⟩
  rw [somethingFailed_cons, hbefore]

theorem tells_perform (step : Step) {Q : Reply step → Bool → Prop}
    (hstep : ∀ reply, Q reply (step.failed reply || before))
    : Tells before Q (Prog.perform step : Script (Reply step)) := by
  intro h hbefore
  refine ⟨trivial, fun reply _ => ⟨reply, rfl, ?_⟩⟩
  rw [somethingFailed_cons, hbefore]
  exact hstep reply

theorem Tells.bind {f : α → Script β} (hscript : Tells before Q script)
    (hf : ∀ a failed, Q a failed → Tells failed Q' (f a))
    : Tells before Q' (script >>= f) := by
  intro h hbefore
  refine (hscript h hbefore).bind (fun h' a _ ha => ?_) (fun h' e _ he => ?_)
  . obtain ⟨a', ha', hQ⟩ := ha
    cases ha'
    exact hf a _ hQ h' rfl
  . obtain ⟨a', ha', _⟩ := he
    cases ha'

end Script

section Writer

open Script

variable {file : File} {content mode : Text}

theorem tells_defaultEnvValue {key : Text} (hkey : key ∈ DEFAULT_ENV_KEYS)
    : Tells false (fun value failed => failed = value.isNone) (defaultEnvValue key) := by
  have hsecret (secret : Secret) : Tells false (fun value failed => failed = value.isNone) (openssl secret) := by
    refine tells_perform (.openssl secret) fun value => ?_
    exact Bool.or_false _
  simp only [DEFAULT_ENV_KEYS, List.mem_cons, List.not_mem_nil, or_false] at hkey
  unfold defaultEnvValue
  split
  . exact hsecret .base64
  . split
    . exact hsecret .hex
    . split
      . exact tells_pure rfl
      . split
        . exact tells_pure rfl
        . split
          . exact tells_pure rfl
          . grind

/--
The induction is over the keys that are left: a key without a value is the last one.
-/
theorem tells_defaultEnvLines (keys : List Text) (hkeys : ∀ key ∈ keys, key ∈ DEFAULT_ENV_KEYS) (lines : Text)
    : Tells false (fun text failed => failed = text.isNone) (defaultEnvLines keys lines) := by
  induction keys generalizing lines with
  | nil => exact tells_pure rfl
  | cons key keys ih =>
    rw [defaultEnvLines]
    refine (tells_defaultEnvValue (hkeys key (List.mem_cons_self ..))).bind ?_
    rintro value _ rfl
    cases value with
    | none => exact tells_pure rfl
    | some value => exact ih (fun key' hkey' => hkeys key' (List.mem_cons_of_mem _ hkey')) _

theorem tells_mode {mode : Mode} : Tells false (fun _ failed => failed = false) (writeFileAtomic.mode file mode) := by
  cases mode with
  | octal mode => exact tells_pure rfl
  | keep =>
    refine .step fun exist _ => ?_
    cases exist with
    | true => exact .step fun _ _ => tells_pure rfl
    | false => exact .step fun _ _ => tells_pure rfl

theorem tells_rename {temp : Nat}
    : Tells false (fun moved failed => failed = !moved) (Script.rename temp file) := by
  refine tells_perform (.rename temp file) fun moved => ?_
  exact Bool.or_false _

theorem tells_replace {temp : Nat}
    : Tells false (fun replaced failed => failed = !replaced) (writeFileAtomic.replace file content mode temp) := by
  unfold writeFileAtomic.replace
  refine .step fun written _ => ?_
  cases written with
  | false => exact tells_pure rfl
  | true =>
    simp only [Bool.not_true, Bool.false_eq_true, if_false]
    split
    . refine .step fun set _ => ?_
      cases set with
      | false => exact tells_pure rfl
      | true => exact tells_rename
    . exact tells_rename

theorem tells_writeFileAtomic {mode : Mode}
    : Tells false (fun written failed => failed = !written) (writeFileAtomic file content mode) := by
  unfold writeFileAtomic
  refine .step fun found _ => ?_
  cases found with
  | false => exact tells_pure rfl
  | true =>
    refine tells_mode.bind ?_
    rintro mode _ rfl
    refine .step fun temp _ => ?_
    cases temp with
    | none => exact tells_pure rfl
    | some temp =>
      refine tells_replace.bind ?_
      rintro replaced _ rfl
      cases replaced with
      | true => exact tells_pure rfl
      | false => exact .step fun _ _ => tells_pure rfl

end Writer

end Kerghan.Standalone
