import Kerghan.Standalone.Configure.Readings
import Kerghan.Standalone.Env.Update

/-!
This module contains what `configure` checks before it writes: no key twice, and nothing to complain about in the
batch or in the files as they are.
-/

namespace Kerghan.Standalone

open Shell

variable [Ctype]

section Parse

variable {batch : List Change} {force : Bool} {args : List Text} {known known' : ConfigureArgs}

theorem nodup_accepted {key : Text} (action : Action) (haccepts : known.accepts key = true)
    (hnodup : (known.batch.map Change.key).Nodup)
    : ((known.batch ++ [(⟨key, action⟩ : Change)]).map Change.key).Nodup := by
  simp only [ConfigureArgs.accepts, Bool.and_eq_true, Bool.not_eq_true', List.any_eq_false, beq_iff_eq] at haccepts
  rw [List.map_append, List.map_singleton, List.nodup_append]
  refine ⟨hnodup, by simp, ?_⟩
  intro key' hkey' other hother heq
  have ⟨change, hchange, hkey⟩ := List.mem_map.mp hkey'
  rw [List.mem_singleton.mp hother] at heq
  exact haccepts.1.2 change hchange (hkey.trans heq)

theorem nodup_args (hargs : cmdConfigure.args known args = .ok known') (hnodup : (known.batch.map Change.key).Nodup)
    : (known'.batch.map Change.key).Nodup := by
  fun_induction cmdConfigure.args known args with
  | case1 => cases hargs; exact hnodup
  | case2 _ _ ih => exact ih hargs hnodup
  | case3 _ _ _ ih => exact ih hargs hnodup
  | case4 => cases hargs
  | case5 => cases hargs
  | case6 known key rest haccepts _ _ ih =>
    simp only [Bool.or_eq_true, Bool.not_eq_true', not_or, Bool.not_eq_false] at haccepts
    exact ih hargs (nodup_accepted _ haccepts.2 hnodup)
  | case7 => cases hargs
  | case8 => cases hargs
  | case9 known arg rest _ _ _ _ _ key value haccepts ih =>
    simp only [Bool.or_eq_true, Bool.not_eq_true', not_or, Bool.not_eq_false] at haccepts
    exact ih hargs (nodup_accepted _ haccepts.1 hnodup)
  | case10 _ _ _ _ _ _ _ _ _ ih => exact ih hargs hnodup
  | case11 => cases hargs

theorem nodup_parse (hparse : cmdConfigure.parse args = .ok (.write batch force)) : (batch.map Change.key).Nodup := by
  unfold cmdConfigure.parse at hparse
  split at hparse
  . cases hparse
  . next known hargs =>
    have hnodup := nodup_args hargs List.nodup_nil
    split at hparse
    . cases hparse
    . cases hparse
    . cases hparse
      exact hnodup
    . cases hparse

end Parse

section Read

variable {disk disk' : Disk} {batch : List Change} {force : Bool}

theorem runs_readEnvFile (hreadable : disk.Readable .env) {result : Except Failure EnvSettings}
    : Prog.Runs exec readEnvFile disk result disk' ↔ result = .ok disk.settings.env ∧ disk' = disk := by
  refine (Script.runs_readFile hreadable).trans ?_
  unfold Disk.settings
  cases disk.files .env with
  | none => exact Prog.runs_pure
  | some text => exact Prog.runs_pure

theorem runs_readConfigFile (hreadable : disk.Readable .config) {result : Except Failure ConfigSettings}
    : Prog.Runs exec readConfigFile disk result disk' ↔ result = .ok disk.settings.config ∧ disk' = disk := by
  refine (Script.runs_readFile hreadable).trans ?_
  unfold Disk.settings
  cases disk.files .config with
  | none => exact Prog.runs_pure
  | some text => exact Prog.runs_pure

theorem runs_readSettings_of_readable (hreadable : ∀ file, disk.Readable file) {result : Except Failure Settings}
    : Prog.Runs exec readSettings disk result disk' ↔ result = .ok disk.settings ∧ disk' = disk := by
  unfold readSettings
  rw [Script.runs_bind_of_ok fun _ _ => runs_readConfigFile (hreadable .config),
    Script.runs_bind_of_ok fun _ _ => runs_readEnvFile (hreadable .env)]
  exact Prog.runs_pure

/--
The settings are read as they are, or a file stands in the way.
-/
theorem runs_readSettings {result : Except Failure Settings}
    (hruns : Prog.Runs exec readSettings disk result disk')
    : disk' = disk ∧ ((∀ file, disk.Readable file) ∧ result = .ok disk.settings ∨
        ∃ file, ¬disk.Readable file ∧ result = .error (.unreadable file)) := by
  by_cases hconfig : disk.Readable .config
  . by_cases henv : disk.Readable .env
    . have hreadable := readable_of_both hconfig henv
      have ⟨hresult, hdisk⟩ := (runs_readSettings_of_readable hreadable).mp hruns
      exact ⟨hdisk, Or.inl ⟨hreadable, hresult⟩⟩
    . unfold readSettings at hruns
      rw [Script.runs_bind_of_ok fun _ _ => runs_readConfigFile hconfig] at hruns
      have ⟨hresult, hdisk⟩ := (Script.runs_bind_of_error fun _ _ => Script.runs_readFile_of_not_readable henv).mp hruns
      exact ⟨hdisk, Or.inr ⟨.env, henv, hresult⟩⟩
  . have ⟨hresult, hdisk⟩ :=
      (Script.runs_bind_of_error fun _ _ => Script.runs_readFile_of_not_readable hconfig).mp hruns
    exact ⟨hdisk, Or.inr ⟨.config, hconfig, hresult⟩⟩

theorem settings_of_runs {settings : Settings} (hruns : Prog.Runs exec readSettings disk (.ok settings) disk')
    : (∀ file, disk.Readable file) ∧ settings = disk.settings ∧ disk' = disk := by
  have ⟨hdisk, hcases⟩ := runs_readSettings hruns
  rcases hcases with ⟨hreadable, hresult⟩ | ⟨_, _, hresult⟩
  . cases hresult
    exact ⟨hreadable, rfl, hdisk⟩
  . cases hresult

end Read

namespace Script

variable {α : Type} {disk disk' : Disk} {result : Except Failure α}

omit [Ctype] in
theorem runs_volumeExists {f : Bool → Script α}
    : Prog.Runs exec (volumeExists >>= f) disk result disk' ↔ ∃ found, Prog.Runs exec (f found) disk result disk' :=
  Iff.trans Prog.runs_step
    ⟨fun ⟨chance, hrest⟩ => ⟨chance.succeeds, hrest⟩, fun ⟨found, hrest⟩ => ⟨⟨found, []⟩, hrest⟩⟩

omit [Ctype] in
theorem runs_isTty {f : Bool → Script α}
    : Prog.Runs exec (isTty >>= f) disk result disk' ↔ ∃ tty, Prog.Runs exec (f tty) disk result disk' :=
  Iff.trans Prog.runs_step
    ⟨fun ⟨chance, hrest⟩ => ⟨chance.succeeds, hrest⟩, fun ⟨tty, hrest⟩ => ⟨⟨tty, []⟩, hrest⟩⟩

omit [Ctype] in
theorem runs_readLine {f : Text × Bool → Script α} (hruns : Prog.Runs exec (readLine >>= f) disk result disk')
    : ∃ line, Prog.Runs exec (f line) disk result disk' := by
  have ⟨chance, hrest⟩ := Prog.runs_step.mp hruns
  exact ⟨_, hrest⟩

end Script

section Validated

variable {disk disk' : Disk} {settings : Settings} {batch : List Change} {force : Bool}

/--
Nothing is wrong with the batch, and it leaves nothing wrong in `config`.
-/
structure Validated (settings : Settings) (batch : List Change) (force : Bool) : Prop where
  changes : ∀ change ∈ batch, batchValidate.change force change = none
  noEq : settings.config.noEqLines = []
  config : ∀ key : ConfigKey, key.name ∉ batch.map Change.key → (settings.config.entry key).badLine = none

omit [Ctype] in
theorem mem_CONFIG_KEYS (key : ConfigKey) : key ∈ CONFIG_KEYS := by
  cases key <;> decide

theorem problems_eq_nil_iff
    : batch.filterMap (batchValidate.change force) ++ settings.config.noEqLines.map Problem.expectedKeyValue
      ++ CONFIG_KEYS.filterMap (batchValidate.config settings batch) = [] ↔
        Validated settings batch force := by
  have hkeys (key : ConfigKey) : (batch.any fun change => change.key == key.name) = true ↔
      key.name ∈ batch.map Change.key := by
    rw [List.any_eq_true, List.mem_map]
    simp only [beq_iff_eq]
  have hconfig (key : ConfigKey) : batchValidate.config settings batch key = none ↔
      (key.name ∉ batch.map Change.key → (settings.config.entry key).badLine = none) := by
    unfold batchValidate.config
    rw [← hkeys]
    cases (settings.config.entry key).badLine with
    | none => simp
    | some n => simp
  rw [List.append_eq_nil_iff, List.append_eq_nil_iff, List.map_eq_nil_iff, List.filterMap_eq_nil_iff,
    List.filterMap_eq_nil_iff]
  constructor
  . intro ⟨⟨hchanges, hnoEq⟩, hnone⟩
    exact ⟨hchanges, hnoEq, fun key => (hconfig key).mp (hnone key (mem_CONFIG_KEYS key))⟩
  . intro hvalidated
    exact ⟨⟨hvalidated.changes, hvalidated.noEq⟩, fun key _ => (hconfig key).mpr (hvalidated.config key)⟩

theorem runs_batchValidate {result : Except Failure (List Problem)}
    (hruns : Prog.Runs exec (batchValidate settings batch force) disk result disk')
    : disk' = disk ∧ ∃ problems, result = .ok problems ∧ (problems = [] → Validated settings batch force) ∧
        (Validated settings batch force → settings.env.exist = true ∨ batchSetsEnv batch = false → problems = []) := by
  unfold batchValidate at hruns
  dsimp only at hruns
  split at hruns
  . next hlost =>
    have ⟨found, hrest⟩ := Script.runs_volumeExists.mp hruns
    split at hrest
    . have ⟨hresult, hdisk⟩ := Prog.runs_pure.mp hrest
      refine ⟨hdisk, _, hresult, fun hnil => absurd hnil (by simp), fun _ hkept => ?_⟩
      simp only [Bool.and_eq_true, Bool.not_eq_true'] at hlost
      cases hkept with
      | inl hexist => simp [hlost.1] at hexist
      | inr hsets => simp [hlost.2] at hsets
    . have ⟨hresult, hdisk⟩ := Prog.runs_pure.mp hrest
      exact ⟨hdisk, _, hresult, problems_eq_nil_iff.mp, fun hvalidated _ => problems_eq_nil_iff.mpr hvalidated⟩
  . have ⟨hresult, hdisk⟩ := Prog.runs_pure.mp hruns
    exact ⟨hdisk, _, hresult, problems_eq_nil_iff.mp, fun hvalidated _ => problems_eq_nil_iff.mpr hvalidated⟩

theorem valid_of_batchValidate {change : Change} (h : batchValidate.change force change = none)
    : change.Valid ∧ (keyFile change.key).isSome = true := by
  unfold batchValidate.change at h
  unfold Change.Valid keyFile
  cases haction : change.action with
  | unset =>
    rw [haction] at h
    refine ⟨by simp, ?_⟩
    dsimp only at h
    cases hkey : isEnvKey change.key with
    | true => rfl
    | false =>
      rw [if_neg (by simp [hkey])] at h
      rw [if_neg Bool.false_ne_true, Option.isSome_map]
      cases hindex : configKeyIndex change.key with
      | some k => rfl
      | none => simp [hindex] at h
  | set value =>
    rw [haction] at h
    dsimp only at h
    split at h
    . cases h
    . split at h
      . cases h
      . refine ⟨fun value' hvalue' => ?_, ?_⟩
        . cases hvalue'
          exact h
        . cases hkey : isEnvKey change.key with
          | true => rfl
          | false =>
            have ⟨k, hindex, _⟩ := validateValue_config hkey h
            rw [if_neg Bool.false_ne_true, hindex]
            rfl

omit [Ctype] in
theorem runs_confirmForce {result : Except Failure Unit}
    (hruns : Prog.Runs exec (confirmForce batch) disk result disk')
    : disk' = disk ∧ (result = .ok () ∨ result = .error .aborted) := by
  unfold confirmForce at hruns
  split at hruns
  . have ⟨tty, hrest⟩ := Script.runs_isTty.mp hruns
    split at hrest
    . have ⟨line, hrest'⟩ := Script.runs_readLine hrest
      dsimp only at hrest'
      split at hrest'
      . have ⟨hresult, hdisk⟩ := Prog.runs_pure.mp hrest'
        exact ⟨hdisk, Or.inl hresult⟩
      . have ⟨hresult, hdisk⟩ := Prog.runs_throw.mp hrest'
        exact ⟨hdisk, Or.inr hresult⟩
    . have ⟨hresult, hdisk⟩ := Prog.runs_pure.mp hrest
      exact ⟨hdisk, Or.inl hresult⟩
  . have ⟨hresult, hdisk⟩ := Prog.runs_pure.mp hruns
    exact ⟨hdisk, Or.inl hresult⟩

end Validated

end Kerghan.Standalone
