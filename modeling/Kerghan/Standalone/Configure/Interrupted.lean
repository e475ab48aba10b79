import Kerghan.Async.Passing
import Kerghan.Standalone.Configure.Writes

/-!
This module contains the proof that `configure` may be interrupted at any point: neither file is ever seen with a
part of its changes, and `config` is not written before `kerghan.env`.
-/

namespace Kerghan.Standalone

open Shell

variable [Ctype]

section

inductive Seen (batch : List Change) (disk disk' : Disk) : Prop where
  | untouched (hfiles : disk'.files = disk.files) : Seen batch disk disk'
  | prepared (base : Disk) (hprepared : Prepared batch disk base) (hfiles : disk'.files = base.files)
    : Seen batch disk disk'
  | env (base : Disk) (hprepared : Prepared batch disk base)
    (hfiles : disk'.files
      = Function.update base.files .env (base.rewritten .env (batch.filter (keyChanges base.settings))))
    : Seen batch disk disk'
  | both (base : Disk) (hprepared : Prepared batch disk base)
    (hfiles : ∀ which, disk'.files which = base.rewritten which (batch.filter (keyChanges base.settings)))
    : Seen batch disk disk'

/--
What is promised about `configure` with a batch that is not written, or not yet.
-/
structure LeavesFiles (batch : List Change) (force : Bool) : Prop where
  refused : ∀ disk disk' problems,
    Prog.Runs exec (cmdConfigure.write batch force) disk (.ok (.refused problems)) disk' →
      problems ≠ [] ∧ disk'.files = disk.files
  aborted : ∀ disk disk' failure,
    Prog.Runs exec (cmdConfigure.write batch force) disk (.error failure) disk' →
      disk'.files = disk.files
  failed : ∀ disk disk',
    Prog.Runs exec (cmdConfigure.write batch force) disk (.ok .failed) disk' →
      disk'.files .config = disk.files .config ∧
        (disk'.files .env = disk.files .env ∨
          ∃ base, Prepared batch disk base ∧ (disk'.files .env = base.files .env ∨
            disk'.files .env = base.rewritten .env (batch.filter (keyChanges base.settings))))
  interrupted : ∀ disk disk', Prog.Passes exec (cmdConfigure.write batch force) disk disk' → Seen batch disk disk'

/--
The only step that changes a file is a rename.
-/
def KeepsFiles (step : Step) : Prop :=
  ∀ temp file, step ≠ .rename temp file

end

section Only

variable {disk disk' : Disk} {batch changes : List Change} {settings : Settings} {force : Bool} {which : File}

omit [Ctype] in
theorem files_exec (step : Step) (chance : Chance) (disk : Disk) (h : KeepsFiles step)
    : (exec step chance disk).2.files = disk.files := by
  cases step with
  | rename temp file => exact absurd rfl (h temp file)
  | mktemp file =>
    simp only [exec]
    split <;> rfl
  | _ => rfl

omit [Ctype] in
theorem files_of_only {α : Type} {script : Script α} (honly : script.Only KeepsFiles)
    (hpasses : Prog.Passes exec script disk disk')
    : disk'.files = disk.files :=
  honly.passes files_exec hpasses

omit [Ctype] in
theorem files_of_pure {α : Type} {a : α} (hpasses : Prog.Passes exec (pure a : Script α) disk disk')
    : disk'.files = disk.files :=
  files_of_only Prog.only_pure hpasses

omit [Ctype] in
theorem files_of_perform (step : Step) (hstep : KeepsFiles step)
    (hpasses : Prog.Passes exec (Prog.perform step : Script (Reply step)) disk disk')
    : disk'.files = disk.files := by
  have honly : (Prog.perform step : Script (Reply step)).Only KeepsFiles := ⟨hstep, fun _ => trivial⟩
  exact files_of_only honly hpasses

theorem only_readConfigFile : readConfigFile.Only KeepsFiles := by
  apply Prog.Only.perform_bind (by simp [KeepsFiles])
  intro found
  split
  . apply Prog.Only.perform_bind (by simp [KeepsFiles])
    intro text
    cases text with
    | none => exact Prog.only_throw
    | some text => exact Prog.only_pure
  . exact Prog.only_pure

theorem only_readEnvFile : readEnvFile.Only KeepsFiles := by
  apply Prog.Only.perform_bind (by simp [KeepsFiles])
  intro found
  split
  . apply Prog.Only.perform_bind (by simp [KeepsFiles])
    intro text
    cases text with
    | none => exact Prog.only_throw
    | some text => exact Prog.only_pure
  . exact Prog.only_pure

theorem only_readSettings : readSettings.Only KeepsFiles :=
  only_readConfigFile.bind fun _ => only_readEnvFile.bind fun _ => Prog.only_pure

theorem only_batchValidate : (batchValidate settings batch force).Only KeepsFiles := by
  unfold batchValidate
  dsimp only
  split
  . apply Prog.Only.perform_bind (by simp [KeepsFiles])
    intro found
    split <;> exact Prog.only_pure
  . exact Prog.only_pure

omit [Ctype] in
theorem only_confirmForce : (confirmForce batch).Only KeepsFiles := by
  unfold confirmForce
  split
  . apply Prog.Only.perform_bind (by simp [KeepsFiles])
    intro tty
    split
    . apply Prog.Only.perform_bind (by simp [KeepsFiles])
      intro line
      dsimp only
      split
      . exact Prog.only_pure
      . exact Prog.only_throw
    . exact Prog.only_pure
  . exact Prog.only_pure

omit [Ctype] in
theorem only_defaultEnvValue (key : Text) : (defaultEnvValue key).Only KeepsFiles := by
  have hsecret (secret : Secret) : (Script.openssl secret).Only KeepsFiles := by
    exact ⟨by simp [KeepsFiles], fun _ => trivial⟩
  unfold defaultEnvValue
  split
  . exact hsecret _
  . split
    . exact hsecret _
    . split
      . exact Prog.only_pure
      . split
        . exact Prog.only_pure
        . split <;> exact Prog.only_pure

omit [Ctype] in
theorem only_defaultEnvLines (keys : List Text) (lines : Text) : (defaultEnvLines keys lines).Only KeepsFiles := by
  induction keys generalizing lines with
  | nil => exact Prog.only_pure
  | cons key keys ih =>
    apply (only_defaultEnvValue key).bind
    intro value
    cases value with
    | none => exact Prog.only_pure
    | some value => exact ih _

theorem only_buildFileContent : (buildFileContent which settings changes).Only KeepsFiles := by
  have hend (lines : List Text) : (buildContent which settings lines changes).print.Only KeepsFiles := by
    unfold Content.print
    split
    . exact Prog.only_throw
    . exact Prog.only_pure
  apply Prog.Only.perform_bind (by simp [KeepsFiles])
  intro found
  split
  . apply Prog.Only.perform_bind (by simp [KeepsFiles])
    intro text
    cases text with
    | none => exact hend []
    | some text => exact hend (readLines text)
  . exact hend []

end Only

section Atomic

variable {disk disk' : Disk} {file : File} {content mode : Text}

omit [Ctype] in
theorem only_mode (mode : Mode) : (writeFileAtomic.mode file mode).Only KeepsFiles := by
  unfold writeFileAtomic.mode
  cases mode with
  | octal mode => exact Prog.only_pure
  | keep =>
    apply Prog.Only.perform_bind (by simp [KeepsFiles])
    intro found
    split
    . exact Prog.Only.perform_bind (by simp [KeepsFiles]) fun _ => Prog.only_pure
    . exact Prog.Only.perform_bind (by simp [KeepsFiles]) fun _ => Prog.only_pure

omit [Ctype] in
theorem passes_rename {temp : Nat} (hcontent : disk.temps temp = some content)
    (hpasses : Prog.Passes exec (Script.rename temp file) disk disk')
    : disk'.files = disk.files ∨ disk'.files = Function.update disk.files file (some content) := by
  cases Prog.passes_step hpasses with
  | inl hhere => exact Or.inl (by rw [hhere])
  | inr hrest =>
    have ⟨chance, hrest⟩ := hrest
    cases hrest with
    | here =>
      simp only [exec, hcontent]
      cases chance.succeeds with
      | true => exact Or.inr rfl
      | false => exact Or.inl rfl

omit [Ctype] in
theorem passes_replace {temp : Nat}
    (hpasses : Prog.Passes exec (writeFileAtomic.replace file content mode temp) disk disk')
    : disk'.files = disk.files ∨ disk'.files = Function.update disk.files file (some content) := by
  have hrenamed (disk₁ : Disk) (hfiles : disk₁.files = disk.files) (hcontent : disk₁.temps temp = some content)
      (hpasses : Prog.Passes exec (Script.rename temp file) disk₁ disk')
      : disk'.files = disk.files ∨ disk'.files = Function.update disk.files file (some content) := by
    rw [← hfiles]
    exact passes_rename hcontent hpasses
  unfold writeFileAtomic.replace at hpasses
  rcases Prog.passes_bind hpasses with hwrite | ⟨written, disk₁, hwrite, hrest⟩
  . exact Or.inl (files_of_perform (.write temp content) (by simp [KeepsFiles]) hwrite)
  . obtain ⟨chance, hpure⟩ := Prog.runs_step.mp hwrite
    obtain ⟨hresult, hdisk₁⟩ := Prog.runs_pure.mp hpure
    cases hresult
    have hfiles : disk₁.files = disk.files := by rw [hdisk₁]; rfl
    cases hsucceeds : chance.succeeds with
    | false =>
      have hpure : Prog.Passes exec (pure false : Script Bool) disk₁ disk' := by
        simpa [exec, hsucceeds] using hrest
      exact Or.inl ((files_of_pure hpure).trans hfiles)
    | true =>
      have hcontent : disk₁.temps temp = some content := by
        rw [hdisk₁]
        simp [exec, hsucceeds]
      simp only [exec, hsucceeds, Bool.not_true, Bool.false_eq_true, if_false] at hrest
      split at hrest
      . rcases Prog.passes_bind hrest with hchmod | ⟨set, disk₂, hchmod, hrest'⟩
        . exact Or.inl ((files_of_perform (.chmod mode temp) (by simp [KeepsFiles]) hchmod).trans hfiles)
        . obtain ⟨chance', hpure'⟩ := Prog.runs_step.mp hchmod
          obtain ⟨_, hdisk₂⟩ := Prog.runs_pure.mp hpure'
          have hsame : disk₂ = disk₁ := hdisk₂
          rw [hsame] at hrest'
          split at hrest'
          . exact Or.inl ((files_of_pure hrest').trans hfiles)
          . exact hrenamed disk₁ hfiles hcontent hrest'
      . exact hrenamed disk₁ hfiles hcontent hrest

omit [Ctype] in
theorem passes_writeFileAtomic {mode : Mode}
    (hpasses : Prog.Passes exec (writeFileAtomic file content mode) disk disk')
    : disk'.files = disk.files ∨ disk'.files = Function.update disk.files file (some content) := by
  unfold writeFileAtomic at hpasses
  rcases Prog.passes_bind hpasses with hresolve | ⟨found, disk₁, hresolve, hrest⟩
  . exact Or.inl (files_of_perform (.resolveSymlink file) (by simp [KeepsFiles]) hresolve)
  . have hfiles := files_of_perform (.resolveSymlink file) (by simp [KeepsFiles]) hresolve.passes
    rw [← hfiles]
    split at hrest
    . exact Or.inl (files_of_pure hrest)
    . rcases Prog.passes_bind hrest with hmode | ⟨set, disk₂, hmode, hrest'⟩
      . exact Or.inl (files_of_only (only_mode _) hmode)
      . rw [← files_of_only (only_mode _) hmode.passes]
        rcases Prog.passes_bind hrest' with hmktemp | ⟨temp, disk₃, hmktemp, htemp⟩
        . exact Or.inl (files_of_perform (.mktemp file) (by simp [KeepsFiles]) hmktemp)
        . rw [← files_of_perform (.mktemp file) (by simp [KeepsFiles]) hmktemp.passes]
          cases temp with
          | none => exact Or.inl (files_of_pure htemp)
          | some temp =>
            rcases Prog.passes_bind htemp with hreplace | ⟨replaced, disk₄, hreplace, hend⟩
            . exact passes_replace hreplace
            . have hend' : disk'.files = disk₄.files := by
                cases replaced with
                | true => exact files_of_pure hend
                | false =>
                  have honly : (Script.remove temp >>= fun _ => (pure false : Script Bool)).Only KeepsFiles :=
                    Prog.Only.perform_bind (by simp [KeepsFiles]) fun _ => Prog.only_pure
                  exact files_of_only honly hend
              rw [hend']
              exact passes_replace hreplace.passes

end Atomic

section Batch

variable {disk disk' base : Disk} {batch changes : List Change} {which : File} {mode : Mode} {force : Bool}

omit [Ctype] in
theorem passes_exist {α : Type} {file : File} (hreadable : disk.Readable file) {f : Bool → Script α}
    (hpasses : Prog.Passes exec (Script.exist file >>= f) disk disk')
    : disk' = disk ∨ Prog.Passes exec (f (disk.files file).isSome) disk disk' := by
  cases Prog.passes_step hpasses with
  | inl hhere => exact Or.inl hhere
  | inr hrest =>
    obtain ⟨_, hrest⟩ := hrest
    simp only [exec, Bool.or_eq_left_iff_imp.mpr hreadable] at hrest
    exact Or.inr hrest

theorem passes_ensureEnvFile (hreadable : disk.Readable .env) (hnone : disk.files .env = none)
    (hpasses : Prog.Passes exec ensureEnvFile disk disk')
    : disk'.files = disk.files ∨ ∃ lines, List.Forall₂ IsLineOf DEFAULT_ENV_KEYS lines ∧
        disk'.files = Function.update disk.files .env (some (printLines lines)) := by
  unfold ensureEnvFile at hpasses
  rcases passes_exist hreadable hpasses with hhere | hrest
  . exact Or.inl (by rw [hhere])
  . rw [hnone] at hrest
    rcases Prog.passes_bind hrest with hgenerate | ⟨lines, disk₁, hgenerate, hwrite⟩
    . exact Or.inl (files_of_only (only_defaultEnvLines _ _) hgenerate)
    . have ⟨hdisk, hmade⟩ := runs_defaultEnvLines DEFAULT_ENV_KEYS [] hgenerate
      rw [hdisk] at hwrite
      cases hmade with
      | inl hfailed =>
        cases hfailed
        exact Or.inl (files_of_pure hwrite)
      | inr hmade =>
        have ⟨added, hadded, hkeys⟩ := hmade
        cases hadded
        have hpresent : added ≠ [] := by
          intro hempty
          subst hempty
          cases hkeys
        dsimp only at hwrite
        rw [List.nil_append, substitution_printLines hpresent (mem_added hkeys isEnvKey_default)] at hwrite
        cases passes_writeFileAtomic hwrite with
        | inl hsame => exact Or.inl hsame
        | inr hfiles => exact Or.inr ⟨added, hkeys, hfiles⟩

/--
What is seen while `kerghan.env` is made.
-/
theorem passes_settings (hreadable : disk.Readable .env)
    (hpasses : Prog.Passes exec (batchApply.settings disk.settings batch) disk disk')
    : disk'.files = disk.files ∨ Prepared batch disk disk' := by
  unfold batchApply.settings at hpasses
  rw [exist_settings] at hpasses
  split at hpasses
  . next hmissing =>
    simp only [Bool.and_eq_true, Bool.not_eq_true', Option.isSome_eq_false_iff, Option.isNone_iff_eq_none] at hmissing
    have ⟨hnone, hsets⟩ := hmissing
    have hensured (disk₁ : Disk) (hpasses : Prog.Passes exec ensureEnvFile disk disk₁)
        (hfiles : disk'.files = disk₁.files) : disk'.files = disk.files ∨ Prepared batch disk disk' := by
      rcases passes_ensureEnvFile hreadable hnone hpasses with hsame | ⟨lines, hlines, hmade⟩
      . exact Or.inl (hfiles.trans hsame)
      . exact Or.inr (.made hnone hsets lines hlines (hfiles.trans hmade))
    rcases Prog.passes_bind hpasses with hensure | ⟨made, disk₁, hensure, hrest⟩
    . exact hensured disk' hensure rfl
    . apply hensured disk₁ hensure.passes
      split at hrest
      . exact files_of_only (only_readEnvFile.bind fun _ => Prog.only_pure) hrest
      . exact files_of_pure hrest
  . exact Or.inl (files_of_pure hpasses)

theorem Buildable.passes_file (hbuildable : Buildable base changes) (hreadable : disk.Readable which)
    (hsame : disk.files which = base.files which)
    (hpasses : Prog.Passes exec (batchApply.file which mode base.settings changes) disk disk')
    : disk'.files = disk.files ∨ disk'.files = Function.update disk.files which (base.rewritten which changes) := by
  have hedited := hbuildable.edited_iff which
  unfold batchApply.file at hpasses
  rcases Prog.passes_bind hpasses with hbuild | ⟨content, disk₁, hbuild, hrest⟩
  . exact Or.inl (files_of_only only_buildFileContent hbuild)
  . obtain ⟨hdisk, hresult⟩ := runs_buildFileContent hreadable (hbuildable.builds which) hsame hbuild
    rw [hdisk] at hrest
    cases hresult
    unfold Disk.rewritten
    cases hany : (changes.any fun change => keyFile change.key = some which) with
    | true =>
      rw [if_pos (hedited.mpr hany)] at hrest
      rw [if_pos rfl]
      exact passes_writeFileAtomic hrest
    | false =>
      have hnot : ¬(buildContent which base.settings (base.lines which) changes).edited = true := by
        rw [hedited, hany]
        exact Bool.false_ne_true
      rw [if_neg hnot] at hrest
      exact Or.inl (files_of_pure hrest)

theorem passes_batchApply (hreadable : ∀ file, disk.Readable file) (hvalid : ∀ change ∈ batch, change.Valid)
    (hnodup : (batch.map Change.key).Nodup)
    (hpasses : Prog.Passes exec (batchApply disk.settings batch) disk disk')
    : Seen batch disk disk' := by
  unfold batchApply at hpasses
  rcases Prog.passes_bind hpasses with hsettings | ⟨settings, base, hsettings, hrest⟩
  . cases passes_settings (hreadable .env) hsettings with
    | inl hfiles => exact .untouched hfiles
    | inr hprepared => exact .prepared disk' hprepared rfl
  . rcases runs_settings (hreadable .env) hsettings with ⟨hresult, _, _, hfiles⟩ | ⟨hresult, hprepared⟩
    . cases hresult
      exact .untouched ((files_of_pure hrest).trans hfiles)
    . cases hresult
      dsimp only at hrest
      have hbuildable := buildable_changing base hvalid hnodup
      have hreadable' (file : File) : base.Readable file := readable_of_runs hsettings (hreadable file)
      split at hrest
      . exact .prepared base hprepared (files_of_pure hrest)
      -- the cut comes while `kerghan.env` is written, or later
      . rcases Prog.passes_bind hrest with henv | ⟨envWritten, disk₁, henv, hrest₁⟩
        . cases hbuildable.passes_file (hreadable' .env) rfl henv with
          | inl hfiles => exact .prepared base hprepared hfiles
          | inr hfiles => exact .env base hprepared hfiles
        . rcases hbuildable.runs_file (hreadable' .env) rfl henv with ⟨hresult, hfiles⟩ | ⟨hresult, hfiles⟩
          . cases hresult
            have hreadable₁ : disk₁.Readable .config := readable_of_runs henv (hreadable' .config)
            have hsame : disk₁.files .config = base.files .config := by
              rw [hfiles]
              rfl
            have hboth (hconfig : disk'.files
                = Function.update disk₁.files .config
                  (base.rewritten .config (batch.filter (keyChanges base.settings)))) : Seen batch disk disk' :=
              .both base hprepared (rewritten_both hfiles hconfig)
            rcases Prog.passes_bind hrest₁ with hconfig | ⟨configWritten, disk₂, hconfig, hrest₂⟩
            . cases hbuildable.passes_file hreadable₁ hsame hconfig with
              | inl hfiles' => exact .env base hprepared (hfiles'.trans hfiles)
              | inr hfiles' => exact hboth hfiles'
            . have hend : disk'.files = disk₂.files := by
                split at hrest₂
                . exact files_of_pure hrest₂
                . exact files_of_only (only_readSettings.bind fun _ => Prog.only_pure) hrest₂
              rcases hbuildable.runs_file hreadable₁ hsame hconfig with ⟨_, hfiles'⟩ | ⟨_, hfiles'⟩
              . exact hboth (hend.trans hfiles')
              . exact .env base hprepared (hend.trans (hfiles'.trans hfiles))
          . cases hresult
            exact .prepared base hprepared ((files_of_pure hrest₁).trans hfiles)

theorem passes_write (hnodup : (batch.map Change.key).Nodup)
    (hpasses : Prog.Passes exec (cmdConfigure.write batch force) disk disk')
    : Seen batch disk disk' := by
  unfold cmdConfigure.write at hpasses
  rcases Prog.passes_bind hpasses with hread | ⟨settings, disk₁, hread, hrest⟩
  . exact .untouched (files_of_only only_readSettings hread)
  . obtain ⟨hreadable, hresult, hdisk⟩ := settings_of_runs hread
    rw [hresult, hdisk] at hrest
    rcases Prog.passes_bind hrest with hvalidate | ⟨problems, disk₂, hvalidate, hrest₁⟩
    . exact .untouched (files_of_only only_batchValidate hvalidate)
    . have ⟨hdisk', problems', hresult, hnil, _⟩ := runs_batchValidate hvalidate
      cases hresult
      rw [hdisk'] at hrest₁
      cases problems with
      | cons problem problems => exact .untouched (files_of_pure hrest₁)
      | nil =>
        have hvalid : ∀ change ∈ batch, change.Valid :=
          fun change hchange => (valid_of_batchValidate ((hnil rfl).changes change hchange)).1
        rcases Prog.passes_bind hrest₁ with hconfirm | ⟨_, disk₃, hconfirm, hrest₂⟩
        . exact .untouched (files_of_only only_confirmForce hconfirm)
        . rw [(runs_confirmForce hconfirm).1] at hrest₂
          rcases Prog.passes_bind hrest₂ with happly | ⟨made, disk₄, happly, hrest₃⟩
          . exact passes_batchApply hreadable hvalid hnodup happly
          . have hend : disk'.files = disk₄.files := by
              cases made with
              | none => exact files_of_pure hrest₃
              | some changes => exact files_of_pure hrest₃
            cases passes_batchApply hreadable hvalid hnodup happly.passes with
            | untouched hfiles => exact .untouched (hend.trans hfiles)
            | prepared base hprepared hfiles => exact .prepared base hprepared (hend.trans hfiles)
            | env base hprepared hfiles => exact .env base hprepared (hend.trans hfiles)
            | both base hprepared hfiles => exact .both base hprepared fun which => by rw [hend, hfiles which]

end Batch

theorem leavesFiles {args : List Text} {parsed : List Change} {force : Bool}
    (hparse : cmdConfigure.parse args = .ok (.write parsed force)) (value : Text)
    : LeavesFiles (readHidden value parsed) force := by
  have hnodup : ((readHidden value parsed).map Change.key).Nodup := by
    rw [keys_readHidden]
    exact nodup_parse hparse
  exact {
    refused := by
      intro disk disk' problems hruns
      rcases readable_or_unreadable hruns with hreadable | ⟨⟨_, hresult⟩, _⟩
      . rcases runs_write hnodup hreadable hruns with
          ⟨_, hne, hresult, hdisk, _⟩ | ⟨_, ⟨hresult, _⟩ | ⟨made, _, hresult⟩⟩
        . cases hresult
          exact ⟨hne, by rw [hdisk]⟩
        . cases hresult
        . cases made <;> cases hresult
      . cases hresult
    aborted := by
      intro disk disk' failure hruns
      rcases readable_or_unreadable hruns with hreadable | ⟨_, hdisk⟩
      . rcases runs_write hnodup hreadable hruns with
          ⟨_, _, hresult, _⟩ | ⟨_, ⟨_, hdisk⟩ | ⟨made, _, hresult⟩⟩
        . cases hresult
        . rw [hdisk]
        . cases hresult
      . rw [hdisk]
    failed := by
      intro disk disk' hruns
      rcases readable_or_unreadable hruns with hreadable | ⟨⟨_, hresult⟩, _⟩
      . rcases runs_write hnodup hreadable hruns with
          ⟨_, _, hresult, _⟩ | ⟨_, ⟨hresult, _⟩ | ⟨made, happlied, hresult⟩⟩
        . cases hresult
        . cases hresult
        . cases happlied with
          | missing _ _ hfiles => exact ⟨by rw [hfiles], Or.inl (by rw [hfiles])⟩
          | env base hprepared _ hfiles =>
            exact ⟨by rw [hfiles, hprepared.config], Or.inr ⟨base, hprepared, Or.inl (by rw [hfiles])⟩⟩
          | config base hprepared _ hfiles =>
            refine ⟨?_, Or.inr ⟨base, hprepared, Or.inr (by rw [hfiles, Function.update_self])⟩⟩
            rw [hfiles, Function.update_of_ne (by simp), hprepared.config]
          | written => cases hresult
      . cases hresult
    interrupted := fun disk disk' => passes_write hnodup
  }

omit [Ctype] in
theorem leavesFiles_invalid
    : @LeavesFiles .posix [⟨"port".toList, .set "http".toList⟩] false :=
  @leavesFiles .posix ["port=-".toList] _ _ rfl "http".toList

end Kerghan.Standalone
