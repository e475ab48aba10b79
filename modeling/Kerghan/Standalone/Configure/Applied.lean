import Kerghan.Standalone.Configure.Validated

/-!
This module contains what `batch_apply` leaves of the files, whether it succeeds or fails.
-/

namespace Kerghan.Standalone

open Shell

variable [Ctype]

/--
The files that a batch is compared with: a `kerghan.env` with every key of `DEFAULT_ENV_KEYS` has been made first
if there was none and the batch sets one of its keys.
-/
inductive Prepared (batch : List Change) (disk base : Disk) : Prop where
  | kept (hfiles : base.files = disk.files)
    (hkept : (disk.files .env).isSome = true ∨ batchSetsEnv batch = false) : Prepared batch disk base
  | made (hnone : disk.files .env = none) (hsets : batchSetsEnv batch = true) (lines : List Text)
    (hlines : List.Forall₂ IsLineOf DEFAULT_ENV_KEYS lines)
    (hfiles : base.files = Function.update disk.files .env (some (printLines lines))) : Prepared batch disk base

section Apply

variable {disk disk' base : Disk} {settings : Settings} {batch changes : List Change} {which : File} {mode : Mode}

theorem runs_ensureEnvFile (hreadable : disk.Readable .env) (hnone : disk.files .env = none)
    {result : Except Failure Bool} (hruns : Prog.Runs exec ensureEnvFile disk result disk')
    : (result = .ok false ∧ disk'.files = disk.files) ∨
        result = .ok true ∧ ∃ lines, List.Forall₂ IsLineOf DEFAULT_ENV_KEYS lines ∧
          disk'.files = Function.update disk.files .env (some (printLines lines)) := by
  unfold ensureEnvFile at hruns
  rw [Script.runs_exist_of_readable hreadable, hnone] at hruns
  rcases Prog.runs_bind.mp hruns with ⟨lines, disk₁, hlines, hrest⟩ | ⟨failure, hfailure, _⟩
  . have ⟨hdisk, hmade⟩ := runs_defaultEnvLines DEFAULT_ENV_KEYS [] hlines
    rw [hdisk] at hrest
    cases hmade with
    | inl hfailed =>
      cases hfailed
      have ⟨hresult, hdisk'⟩ := Prog.runs_pure.mp hrest
      exact Or.inl ⟨hresult, by rw [hdisk']⟩
    | inr hmade =>
      have ⟨added, hadded, hkeys⟩ := hmade
      cases hadded
      have hpresent : added ≠ [] := by
        intro hempty
        subst hempty
        cases hkeys
      dsimp only at hrest
      rw [List.nil_append, substitution_printLines hpresent (mem_added hkeys isEnvKey_default)] at hrest
      rcases runs_writeFileAtomic hrest with ⟨hresult, hfiles⟩ | ⟨hresult, hfiles⟩
      . exact Or.inr ⟨hresult, added, hkeys, hfiles⟩
      . exact Or.inl ⟨hresult, hfiles⟩
  . have ⟨_, hmade⟩ := runs_defaultEnvLines DEFAULT_ENV_KEYS [] hfailure
    rcases hmade with hfailed | ⟨_, hadded, _⟩
    . cases hfailed
    . cases hadded

theorem exist_settings (disk : Disk) : disk.settings.env.exist = (disk.files .env).isSome := by
  have hfold (lines : List (Text × Nat)) (env : EnvSettings)
      : (lines.foldl (fun env line => readEnvFile.line env line.1 line.2) env).exist = env.exist := by
    induction lines generalizing env with
    | nil => rfl
    | cons first lines ih =>
      rw [List.foldl_cons, ih]
      unfold readEnvFile.line
      cases envLine first.1 with
      | none => rfl
      | some line => rfl
  unfold Disk.settings
  cases disk.files .env with
  | none => rfl
  | some text => exact hfold _ _

/--
What a batch is compared with: `kerghan.env` is as it was, or it has just been made.
-/
theorem runs_settings (hreadable : disk.Readable .env) {result : Except Failure (Option Settings)}
    (hruns : Prog.Runs exec (batchApply.settings disk.settings batch) disk result disk')
    : (result = .ok none ∧ disk.files .env = none ∧ batchSetsEnv batch = true ∧ disk'.files = disk.files) ∨
        result = .ok (some disk'.settings) ∧ Prepared batch disk disk' := by
  unfold batchApply.settings at hruns
  rw [exist_settings] at hruns
  split at hruns
  . next hmissing =>
    simp only [Bool.and_eq_true, Bool.not_eq_true', Option.isSome_eq_false_iff, Option.isNone_iff_eq_none] at hmissing
    have ⟨hnone, hsets⟩ := hmissing
    rcases Prog.runs_bind.mp hruns with ⟨made, disk₁, hmade, hrest⟩ | ⟨failure, hfailure, _⟩
    . rcases runs_ensureEnvFile hreadable hnone hmade with ⟨hresult, hfiles⟩ | ⟨hresult, lines, hlines, hfiles⟩
      . cases hresult
        have ⟨hresult, hdisk⟩ := Prog.runs_pure.mp hrest
        exact Or.inl ⟨hresult, hnone, hsets, by rw [hdisk, hfiles]⟩
      . cases hresult
        rw [if_pos rfl,
          Script.runs_bind_of_ok fun _ _ => runs_readEnvFile (readable_of_runs hmade hreadable)] at hrest
        have ⟨hresult, hdisk⟩ := Prog.runs_pure.mp hrest
        subst hdisk
        refine Or.inr ⟨?_, .made hnone hsets lines hlines hfiles⟩
        have hconfig : disk'.files .config = disk.files .config := by
          rw [hfiles]
          rfl
        rw [hresult, Disk.settings, Disk.settings, hconfig]
    . rcases runs_ensureEnvFile hreadable hnone hfailure with ⟨hresult, _⟩ | ⟨hresult, _⟩
      . cases hresult
      . cases hresult
  . next hpresent =>
    have ⟨hresult, hdisk⟩ := Prog.runs_pure.mp hruns
    subst hdisk
    refine Or.inr ⟨hresult, .kept rfl ?_⟩
    cases hsome : (disk'.files .env).isSome with
    | true => exact Or.inl rfl
    | false => exact Or.inr (by simpa [hsome] using hpresent)

theorem runs_buildFileContent (hreadable : disk.Readable which) (hbuilds : BuildsContent base which changes)
    (hsame : disk.files which = base.files which) {result : Except Failure (Option Text)}
    (hruns : Prog.Runs exec (buildFileContent which base.settings changes) disk result disk')
    : disk' = disk ∧ result = .ok (
        if (buildContent which base.settings (base.lines which) changes).edited then
          some (printLines (changes.foldl (Change.edit which) (base.lines which)))
        else
          none) := by
  have hend (lines : List Text) (hlines : base.lines which = lines)
      (hruns : Prog.Runs exec (buildContent which base.settings lines changes).print disk result disk')
      : disk' = disk ∧ result = .ok (
          if (buildContent which base.settings (base.lines which) changes).edited then
            some (printLines (changes.foldl (Change.edit which) (base.lines which)))
          else
            none) := by
    have hprint := hbuilds.print
    rw [hlines] at hprint ⊢
    unfold Content.print at hruns
    rw [hprint] at hruns
    exact (Prog.runs_pure.mp hruns).symm
  unfold buildFileContent at hruns
  rw [Script.runs_exist_of_readable hreadable, hsame] at hruns
  cases hfile : base.files which with
  | none =>
    rw [hfile] at hruns
    exact hend [] (by rw [Disk.lines, hfile]; rfl) hruns
  | some text =>
    rw [hfile, Option.isSome_some, if_pos rfl, Script.runs_read, hsame, hfile] at hruns
    exact hend (readLines text) (by rw [Disk.lines, hfile]; rfl) hruns

structure Buildable (base : Disk) (changes : List Change) : Prop where
  builds (which : File) : BuildsContent base which changes
  lines (which : File) : ∀ change ∈ changes, keyFile change.key = some which → change.action = .unset →
    ∃ raw ∈ base.lines which, keyLine change.key raw = true

theorem Buildable.edited_iff (hbuildable : Buildable base changes) (which : File)
    : (buildContent which base.settings (base.lines which) changes).edited = true ↔
        (changes.any fun change => keyFile change.key = some which) = true := by
  rw [(hbuildable.builds which).edited, List.any_eq_true]
  constructor
  . rintro ⟨change, hchange, hfile, _⟩
    exact ⟨change, hchange, decide_eq_true hfile⟩
  . rintro ⟨change, hchange, hfile⟩
    have hfile' := of_decide_eq_true hfile
    exact ⟨change, hchange, hfile', hbuildable.lines which change hchange hfile'⟩

theorem Buildable.runs_file (hbuildable : Buildable base changes) (hreadable : disk.Readable which)
    (hsame : disk.files which = base.files which) {result : Except Failure Bool}
    (hruns : Prog.Runs exec (batchApply.file which mode base.settings changes) disk result disk')
    : (result = .ok true ∧ disk'.files = Function.update disk.files which (base.rewritten which changes)) ∨
        result = .ok false ∧ disk'.files = disk.files := by
  have hbuilds := hbuildable.builds which
  have hedited := hbuildable.edited_iff which
  unfold batchApply.file at hruns
  rcases Prog.runs_bind.mp hruns with ⟨content, disk₁, hcontent, hrest⟩ | ⟨failure, hfailure, _⟩
  . obtain ⟨hdisk, hresult⟩ := runs_buildFileContent hreadable hbuilds hsame hcontent
    subst hdisk
    cases hresult
    unfold Disk.rewritten
    cases hany : (changes.any fun change => keyFile change.key = some which) with
    | true =>
      rw [if_pos (hedited.mpr hany)] at hrest
      rw [if_pos rfl]
      exact runs_writeFileAtomic hrest
    | false =>
      have hnot : ¬(buildContent which base.settings (base.lines which) changes).edited = true := by
        rw [hedited, hany]
        exact Bool.false_ne_true
      rw [if_neg hnot] at hrest
      obtain ⟨hresult, hdisk⟩ := Prog.runs_pure.mp hrest
      rw [if_neg Bool.false_ne_true, ← hsame, Function.update_eq_self]
      exact Or.inl ⟨hresult, by rw [hdisk]⟩
  . obtain ⟨_, hresult⟩ := runs_buildFileContent hreadable hbuilds hsame hfailure
    cases hresult

theorem Buildable.not_fails_file (hbuildable : Buildable base changes) (hreadable : disk.Readable which)
    (hsame : disk.files which = base.files which) {failure : Failure}
    : ¬Prog.Runs exec (batchApply.file which mode base.settings changes) disk (.error failure) disk' := by
  intro hruns
  rcases hbuildable.runs_file hreadable hsame hruns with ⟨hresult, _⟩ | ⟨hresult, _⟩
  . cases hresult
  . cases hresult

theorem rewritten_both {files : File → Option Text}
    (henv : disk.files = Function.update base.files .env (base.rewritten .env changes))
    (hconfig : files = Function.update disk.files .config (base.rewritten .config changes)) (which : File)
    : files which = base.rewritten which changes := by
  rw [hconfig, henv]
  cases which with
  | config => rfl
  | env => rfl

/--
How `batch_apply` ends: `kerghan.env` has not been made, nothing is to be done, one of the two writes has failed, or
both files have their new content.
-/
inductive Applied (batch : List Change) (disk disk' : Disk) : Except Failure (Option (List Change)) → Prop where
  | missing (hnone : disk.files .env = none) (hsets : batchSetsEnv batch = true) (hfiles : disk'.files = disk.files)
    : Applied batch disk disk' (.ok none)
  | env (base : Disk) (hprepared : Prepared batch disk base) (hsome : batch.filter (keyChanges base.settings) ≠ [])
    (hfiles : disk'.files = base.files) : Applied batch disk disk' (.ok none)
  | config (base : Disk) (hprepared : Prepared batch disk base)
    (hsome : batch.filter (keyChanges base.settings) ≠ [])
    (hfiles : disk'.files
      = Function.update base.files .env (base.rewritten .env (batch.filter (keyChanges base.settings))))
    : Applied batch disk disk' (.ok none)
  | written (base : Disk) (hprepared : Prepared batch disk base)
    (hfiles : ∀ which, disk'.files which = base.rewritten which (batch.filter (keyChanges base.settings)))
    : Applied batch disk disk' (.ok (some (batch.filter (keyChanges base.settings))))

theorem buildable_changing (base : Disk) {batch : List Change} (hvalid : ∀ change ∈ batch, change.Valid)
    (hnodup : (batch.map Change.key).Nodup)
    : Buildable base (batch.filter (keyChanges base.settings)) where
  builds which := {
    print := by
      apply makes_changes _ (Draft.Makes.ofLines (base.lines which) _)
      . exact fun change hchange => hvalid change (List.mem_of_mem_filter hchange)
      . exact hnodup.sublist (List.filter_sublist.map Change.key)
    edited := edited_buildContent base which _
  }
  lines which change hchange hfile := by
    have ⟨hmem, hchanges⟩ := List.mem_filter.mp hchange
    exact exists_line_of_keyChanges (hvalid change hmem) hfile hchanges

theorem runs_batchApply (hreadable : ∀ file, disk.Readable file) (hvalid : ∀ change ∈ batch, change.Valid)
    (hnodup : (batch.map Change.key).Nodup) {result : Except Failure (Option (List Change))}
    (hruns : Prog.Runs exec (batchApply disk.settings batch) disk result disk')
    : Applied batch disk disk' result := by
  unfold batchApply at hruns
  rcases Prog.runs_bind.mp hruns with ⟨settings, base, hsettings, hrest⟩ | ⟨failure, hfailure, _⟩
  . rcases runs_settings (hreadable .env) hsettings with ⟨hresult, hnone, hsets, hfiles⟩ | ⟨hresult, hprepared⟩
    . cases hresult
      obtain ⟨hresult, hdisk⟩ := Prog.runs_pure.mp hrest
      rw [hresult]
      exact .missing hnone hsets (by rw [hdisk, hfiles])
    . cases hresult
      dsimp only at hrest
      have hbuildable := buildable_changing base hvalid hnodup
      have hreadable' (file : File) : base.Readable file := readable_of_runs hsettings (hreadable file)
      split at hrest
      . next hnil =>
        obtain ⟨hresult, hdisk⟩ := Prog.runs_pure.mp hrest
        have happlied : Applied batch disk disk' (.ok (some (batch.filter (keyChanges base.settings)))) :=
          .written base hprepared (by rw [hnil, hdisk]; exact fun _ => rfl)
        rw [hnil] at happlied
        exact hresult ▸ happlied
      . next hsome =>
        rcases Prog.runs_bind.mp hrest with ⟨envWritten, disk₁, henv, hrest₁⟩ | ⟨failure, hfailure, _⟩
        . rcases hbuildable.runs_file (hreadable' .env) rfl henv with ⟨hresult, hfiles⟩ | ⟨hresult, hfiles⟩
          . cases hresult
            have hreadable₁ (file : File) : disk₁.Readable file := readable_of_runs henv (hreadable' file)
            have hsame : disk₁.files .config = base.files .config := by
              rw [hfiles]
              rfl
            rcases Prog.runs_bind.mp hrest₁ with ⟨configWritten, disk₂, hconfig, hrest₂⟩ | ⟨failure, hfailure, _⟩
            . rcases hbuildable.runs_file (hreadable₁ .config) hsame hconfig with
                ⟨hresult, hfiles'⟩ | ⟨hresult, hfiles'⟩
              . cases hresult
                simp only [Bool.not_true, Bool.false_eq_true, if_false] at hrest₂
                rw [Script.runs_bind_of_ok fun _ _ => runs_readSettings_of_readable fun file =>
                  readable_of_runs hconfig (hreadable₁ file)] at hrest₂
                obtain ⟨hresult, hdisk⟩ := Prog.runs_pure.mp hrest₂
                rw [hresult]
                exact .written base hprepared (rewritten_both hfiles (by rw [hdisk, hfiles']))
              . cases hresult
                obtain ⟨hresult, hdisk⟩ := Prog.runs_pure.mp hrest₂
                rw [hresult]
                exact .config base hprepared hsome (by rw [hdisk, hfiles', hfiles])
            . exact absurd hfailure (hbuildable.not_fails_file (hreadable₁ .config) hsame)
          . cases hresult
            obtain ⟨hresult, hdisk⟩ := Prog.runs_pure.mp hrest₁
            rw [hresult]
            exact .env base hprepared hsome (by rw [hdisk, hfiles])
        . exact absurd hfailure (hbuildable.not_fails_file (hreadable' .env) rfl)
  . rcases runs_settings (hreadable .env) hfailure with ⟨hresult, _⟩ | ⟨hresult, _⟩
    . cases hresult
    . cases hresult

end Apply

end Kerghan.Standalone
