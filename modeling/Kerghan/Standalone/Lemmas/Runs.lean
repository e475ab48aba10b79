import Kerghan.Async.Sequential
import Kerghan.Standalone.Impl.Writer

/-!
This module contains what each step of a script does when the script has the files for itself.
-/

namespace Kerghan.Standalone

open Shell

/--
If the file is there, it can be read.
-/
def Disk.Readable (disk : Disk) (file : File) : Prop :=
  disk.unreadable file = true → (disk.files file).isSome = true

theorem not_readable_iff {disk : Disk} {file : File}
    : ¬disk.Readable file ↔ disk.unreadable file = true ∧ disk.files file = none := by
  unfold Disk.Readable
  rw [Classical.not_imp, Bool.not_eq_true, Option.isSome_eq_false_iff, Option.isNone_iff_eq_none]

theorem readable_of_both {disk : Disk} (hconfig : disk.Readable .config) (henv : disk.Readable .env) (file : File)
    : disk.Readable file := by
  cases file with
  | config => exact hconfig
  | env => exact henv

namespace Script

variable {α : Type} {disk disk' : Disk} {result : Except Failure α} {file : File}

theorem runs_exist {f : Bool → Script α}
    : Prog.Runs exec (exist file >>= f) disk result disk' ↔
        Prog.Runs exec (f ((disk.files file).isSome || disk.unreadable file)) disk result disk' :=
  Iff.trans Prog.runs_step ⟨fun ⟨_, hrest⟩ => hrest, fun hrest => ⟨⟨true, []⟩, hrest⟩⟩

theorem runs_exist_of_readable (hreadable : disk.Readable file) {f : Bool → Script α}
    : Prog.Runs exec (exist file >>= f) disk result disk' ↔
        Prog.Runs exec (f (disk.files file).isSome) disk result disk' := by
  rw [runs_exist, Bool.or_eq_left_iff_imp.mpr hreadable]

theorem runs_read {f : Option Text → Script α}
    : Prog.Runs exec (read file >>= f) disk result disk' ↔
        Prog.Runs exec (f (disk.files file)) disk result disk' :=
  Iff.trans Prog.runs_step ⟨fun ⟨_, hrest⟩ => hrest, fun hrest => ⟨⟨true, []⟩, hrest⟩⟩

/--
How all files are read: one that is not there is no error, one that cannot be read is.
-/
theorem runs_readFile (hreadable : disk.Readable file) {f : Script α} {g : Text → Script α}
    : Prog.Runs exec (do
        if ← exist file then
          match ← read file with
          | some text => g text
          | none => throw (.unreadable file)
        else
          f) disk result disk' ↔
        Prog.Runs exec ((disk.files file).elim f g) disk result disk' := by
  rw [runs_exist_of_readable hreadable]
  cases hfile : disk.files file with
  | none => exact Iff.rfl
  | some text =>
    rw [Option.isSome_some, if_pos rfl, runs_read, hfile]
    exact Iff.rfl

theorem runs_readFile_of_not_readable (hunreadable : ¬disk.Readable file) {f : Script α} {g : Text → Script α}
    : Prog.Runs exec (do
        if ← exist file then
          match ← read file with
          | some text => g text
          | none => throw (.unreadable file)
        else
          f) disk result disk' ↔
        result = .error (.unreadable file) ∧ disk' = disk := by
  have ⟨hthere, hnone⟩ := not_readable_iff.mp hunreadable
  rw [runs_exist, hthere, Bool.or_true, if_pos rfl, runs_read, hnone]
  exact Prog.runs_throw

/--
A script that has ended with `a` on this disk goes on with `f a`.
-/
theorem runs_bind_of_ok {β : Type} {script : Script β} {b : β} {f : β → Script α}
    (hscript : ∀ result disk', Prog.Runs exec script disk result disk' ↔ result = .ok b ∧ disk' = disk)
    : Prog.Runs exec (script >>= f) disk result disk' ↔ Prog.Runs exec (f b) disk result disk' := by
  rw [Prog.runs_bind]
  simp only [hscript]
  constructor
  . intro hruns
    rcases hruns with ⟨b', disk₁, ⟨hb, hdisk⟩, hrest⟩ | ⟨failure, ⟨hfailure, _⟩, _⟩
    . cases hb
      exact hdisk ▸ hrest
    . cases hfailure
  . intro hruns
    exact Or.inl ⟨b, disk, ⟨rfl, rfl⟩, hruns⟩

theorem runs_bind_of_error {β : Type} {script : Script β} {failure : Failure} {f : β → Script α}
    (hscript : ∀ result disk', Prog.Runs exec script disk result disk' ↔ result = .error failure ∧ disk' = disk)
    : Prog.Runs exec (script >>= f) disk result disk' ↔ result = .error failure ∧ disk' = disk := by
  rw [Prog.runs_bind]
  simp only [hscript]
  constructor
  . intro hruns
    rcases hruns with ⟨_, _, ⟨hfailure, _⟩, _⟩ | ⟨failure', ⟨hfailure, hdisk⟩, hresult⟩
    . cases hfailure
    . cases hfailure
      exact ⟨hresult, hdisk⟩
  . intro ⟨hresult, hdisk⟩
    exact Or.inr ⟨failure, ⟨rfl, hdisk⟩, hresult⟩

theorem runs_write {temp : Nat} {content : Text} {f : Bool → Script α}
    (hruns : Prog.Runs exec (write temp content >>= f) disk result disk')
    : ∃ written disk₁, disk₁.files = disk.files ∧
        (written = true → disk₁.temps temp = some content) ∧ Prog.Runs exec (f written) disk₁ result disk' := by
  have ⟨chance, hrest⟩ := Prog.runs_step.mp hruns
  refine ⟨chance.succeeds, (exec (.write temp content) chance disk).2, rfl, ?_, hrest⟩
  intro hsucceeds
  simp [exec, hsucceeds]

theorem runs_chmod {temp : Nat} {mode : Text} {f : Bool → Script α}
    : Prog.Runs exec (chmod mode temp >>= f) disk result disk' ↔
        ∃ set, Prog.Runs exec (f set) disk result disk' :=
  Iff.trans Prog.runs_step
    ⟨fun ⟨chance, hrest⟩ => ⟨chance.succeeds, hrest⟩, fun ⟨set, hrest⟩ => ⟨⟨set, []⟩, hrest⟩⟩

theorem runs_mktemp {f : Option Nat → Script α} (hruns : Prog.Runs exec (mktemp file >>= f) disk result disk')
    : ∃ temp disk₁, disk₁.files = disk.files ∧ Prog.Runs exec (f temp) disk₁ result disk' := by
  have ⟨chance, hrest⟩ := Prog.runs_step.mp hruns
  refine ⟨_, _, ?_, hrest⟩
  simp only [exec]
  split <;> rfl

theorem runs_remove {temp : Nat} {f : Unit → Script α}
    (hruns : Prog.Runs exec (remove temp >>= f) disk result disk')
    : ∃ disk₁, disk₁.files = disk.files ∧ Prog.Runs exec (f ()) disk₁ result disk' := by
  have ⟨chance, hrest⟩ := Prog.runs_step.mp hruns
  exact ⟨(exec (.remove temp) chance disk).2, rfl, hrest⟩

theorem runs_resolveSymlink {f : Bool → Script α}
    : Prog.Runs exec (resolveSymlink file >>= f) disk result disk' ↔
        ∃ found, Prog.Runs exec (f found) disk result disk' :=
  Iff.trans Prog.runs_step
    ⟨fun ⟨chance, hrest⟩ => ⟨chance.succeeds, hrest⟩, fun ⟨found, hrest⟩ => ⟨⟨found, []⟩, hrest⟩⟩

end Script

theorem exec_readable {file : File} (step : Step) (chance : Chance) (disk : Disk) (hreadable : disk.Readable file)
    : (exec step chance disk).2.Readable file := by
  cases step with
  | mktemp file =>
    simp only [exec]
    split
    . exact hreadable
    . exact hreadable
  | rename temp file' =>
    simp only [exec]
    split
    . intro hunreadable
      dsimp only
      by_cases hfile : file = file'
      . rw [hfile, Function.update_self]
        rfl
      . rw [Function.update_of_ne hfile]
        exact hreadable hunreadable
    . exact hreadable
  | _ => exact hreadable

theorem readable_of_runs {α : Type} {script : Script α} {result : Except Failure α} {disk disk' : Disk} {file : File}
    (hruns : Prog.Runs exec script disk result disk') (hreadable : disk.Readable file)
    : disk'.Readable file :=
  Prog.Runs.invariant (I := fun disk => disk.Readable file) exec_readable hruns hreadable

section Write

variable {file : File} {content mode : Text} {disk disk' : Disk}

theorem runs_mode {mode : Mode} {result : Except Failure Text}
    (hruns : Prog.Runs exec (writeFileAtomic.mode file mode) disk result disk')
    : (∃ mode, result = .ok mode) ∧ disk' = disk := by
  unfold writeFileAtomic.mode at hruns
  cases mode with
  | octal mode =>
    have ⟨hresult, hdisk⟩ := Prog.runs_pure.mp hruns
    exact ⟨⟨mode, hresult⟩, hdisk⟩
  | keep =>
    dsimp only at hruns
    rw [Script.runs_exist] at hruns
    split at hruns
    . have ⟨chance, hrest⟩ := Prog.runs_step.mp hruns
      have ⟨hresult, hdisk⟩ := Prog.runs_pure.mp hrest
      exact ⟨⟨_, hresult⟩, hdisk⟩
    . have ⟨chance, hrest⟩ := Prog.runs_step.mp hruns
      have ⟨hresult, hdisk⟩ := Prog.runs_pure.mp hrest
      exact ⟨⟨_, hresult⟩, hdisk⟩

theorem runs_rename {temp : Nat} {result : Except Failure Bool} (hcontent : disk.temps temp = some content)
    (hruns : Prog.Runs exec (Script.rename temp file) disk result disk')
    : (result = .ok true ∧ disk'.files = Function.update disk.files file (some content)) ∨
        result = .ok false ∧ disk'.files = disk.files := by
  have ⟨chance, hrest⟩ := Prog.runs_step.mp hruns
  have ⟨hresult, hdisk⟩ := Prog.runs_pure.mp hrest
  subst hresult
  subst hdisk
  simp only [exec, hcontent]
  cases chance.succeeds with
  | true => exact Or.inl ⟨rfl, rfl⟩
  | false => exact Or.inr ⟨rfl, rfl⟩

theorem runs_replace {temp : Nat} {result : Except Failure Bool}
    (hruns : Prog.Runs exec (writeFileAtomic.replace file content mode temp) disk result disk')
    : (result = .ok true ∧ disk'.files = Function.update disk.files file (some content)) ∨
        result = .ok false ∧ disk'.files = disk.files := by
  unfold writeFileAtomic.replace at hruns
  have ⟨written, disk₁, hfiles, hwritten, hrest⟩ := Script.runs_write hruns
  cases written with
  | false =>
    have ⟨hresult, hdisk⟩ := Prog.runs_pure.mp hrest
    exact Or.inr ⟨hresult, by rw [hdisk, hfiles]⟩
  | true =>
    rw [← hfiles]
    have hcontent := hwritten rfl
    simp only [Bool.not_true, Bool.false_eq_true, if_false] at hrest
    split at hrest
    . have ⟨set, hset⟩ := Script.runs_chmod.mp hrest
      cases set with
      | false =>
        have ⟨hresult, hdisk⟩ := Prog.runs_pure.mp hset
        exact Or.inr ⟨hresult, by rw [hdisk]⟩
      | true => exact runs_rename hcontent hset
    . exact runs_rename hcontent hrest

theorem runs_writeFileAtomic {mode : Mode} {result : Except Failure Bool}
    (hruns : Prog.Runs exec (writeFileAtomic file content mode) disk result disk')
    : (result = .ok true ∧ disk'.files = Function.update disk.files file (some content)) ∨
        result = .ok false ∧ disk'.files = disk.files := by
  unfold writeFileAtomic at hruns
  have ⟨found, hrest⟩ := Script.runs_resolveSymlink.mp hruns
  cases found with
  | false =>
    have ⟨hresult, hdisk⟩ := Prog.runs_pure.mp hrest
    exact Or.inr ⟨hresult, by rw [hdisk]⟩
  | true =>
    simp only [Bool.not_true, Bool.false_eq_true, if_false] at hrest
    rcases Prog.runs_bind.mp hrest with ⟨set, disk₁, hmode, htemp⟩ | ⟨failure, hfailure, _⟩
    . have ⟨temp, disk₂, hfiles, hrest'⟩ := Script.runs_mktemp htemp
      rw [← (runs_mode hmode).2, ← hfiles]
      cases temp with
      | none =>
        have ⟨hresult, hdisk⟩ := Prog.runs_pure.mp hrest'
        exact Or.inr ⟨hresult, by rw [hdisk]⟩
      | some temp =>
        rcases Prog.runs_bind.mp hrest' with ⟨replaced, disk₃, hreplace, hend⟩ | ⟨failure, hfailure, _⟩
        . rcases runs_replace hreplace with ⟨hreplaced, hfiles'⟩ | ⟨hreplaced, hfiles'⟩
          . cases hreplaced
            have ⟨hresult, hdisk⟩ := Prog.runs_pure.mp hend
            exact Or.inl ⟨hresult, by rw [hdisk, hfiles']⟩
          . cases hreplaced
            have ⟨disk₄, hfiles'', hpure⟩ := Script.runs_remove hend
            have ⟨hresult, hdisk⟩ := Prog.runs_pure.mp hpure
            exact Or.inr ⟨hresult, by rw [hdisk, hfiles'', hfiles']⟩
        . rcases runs_replace hfailure with ⟨hreplaced, _⟩ | ⟨hreplaced, _⟩
          . cases hreplaced
          . cases hreplaced
    . have ⟨⟨mode, hmode⟩, _⟩ := runs_mode hfailure
      cases hmode

end Write

end Kerghan.Standalone
