import Kerghan.Standalone.Configure.Applied

/-!
This module contains the proof that `configure` writes a batch as a whole or not at all, that afterwards both
files read as the batch wants, and that `up` accepts the `config` it leaves.
-/

namespace Kerghan.Standalone

open Shell

variable [Ctype]

section

/--
What `up` reads of a key of `config`: the value that the batch sets, the default for one that it unsets, and else
what `config` has said before.
-/
def ReadByUp (batch : List Change) (old : ConfigSettings) (loaded : Loaded) (key : ConfigKey) : Prop :=
  (∀ value, ⟨key.name, .set value⟩ ∈ batch → loaded.value key = value) ∧
    (⟨key.name, .unset⟩ ∈ batch → loaded.value key = []) ∧
      (key.name ∉ batch.map Change.key → loaded.value key = (old.entry key).value)

/--
What is promised about `configure` with a batch.
-/
structure WritesBatch (batch : List Change) (force : Bool) : Prop where
  applied : ∀ disk disk' changes,
    Prog.Runs exec (cmdConfigure.write batch force) disk (.ok (.applied changes)) disk' →
      ∃ base, Prepared batch disk base ∧ Rewritten batch base disk'
  accepted : ∀ disk disk' changes,
    Prog.Runs exec (cmdConfigure.write batch force) disk (.ok (.applied changes)) disk' →
      ∀ result disk'', Prog.Runs exec loadConfig disk' result disk'' →
        ∃ loaded, result = .ok loaded ∧ ∀ key, ReadByUp batch disk.settings.config loaded key
  repeats : ∀ disk disk' changes,
    Prog.Runs exec (cmdConfigure.write batch force) disk (.ok (.applied changes)) disk' →
      ∀ result disk'', Prog.Runs exec (cmdConfigure.write batch force) disk' result disk'' →
        disk''.files = disk'.files ∧ (result = .ok (.applied []) ∨ result = .error .aborted)

end

section Write

variable {disk disk' base : Disk} {batch : List Change} {force : Bool}

/--
How the command ends after its checks.
-/
def outcome (made : Option (List Change)) : Configured :=
  match made with
  | none => .failed
  | some changes => .applied changes

/--
What `configure` cannot read it leaves alone.
-/
theorem readable_or_unreadable {result : Except Failure Configured}
    (hruns : Prog.Runs exec (cmdConfigure.write batch force) disk result disk')
    : (∀ file, disk.Readable file) ∨ (∃ file, result = .error (.unreadable file)) ∧ disk' = disk := by
  unfold cmdConfigure.write at hruns
  rcases Prog.runs_bind.mp hruns with ⟨settings, disk₁, hsettings, _⟩ | ⟨failure, hfailure, hresult⟩
  . exact Or.inl (settings_of_runs hsettings).1
  . have ⟨hdisk, hcases⟩ := runs_readSettings hfailure
    rcases hcases with ⟨hreadable, _⟩ | ⟨file, _, hunread⟩
    . exact Or.inl hreadable
    . cases hunread
      exact Or.inr ⟨⟨file, hresult⟩, hdisk⟩

theorem runs_write (hnodup : (batch.map Change.key).Nodup) (hreadable : ∀ file, disk.Readable file)
    {result : Except Failure Configured}
    (hruns : Prog.Runs exec (cmdConfigure.write batch force) disk result disk')
    : (∃ problems, problems ≠ [] ∧ result = .ok (.refused problems) ∧ disk' = disk ∧
        ¬(Validated disk.settings batch force ∧ (disk.settings.env.exist = true ∨ batchSetsEnv batch = false))) ∨
        Validated disk.settings batch force ∧ (
          (result = .error .aborted ∧ disk' = disk) ∨
            ∃ made, Applied batch disk disk' (.ok made) ∧ result = .ok (outcome made)) := by
  unfold cmdConfigure.write at hruns
  rw [Script.runs_bind_of_ok fun _ _ => runs_readSettings_of_readable hreadable] at hruns
  rcases Prog.runs_bind.mp hruns with ⟨problems, disk₁, hproblems, hrest⟩ | ⟨failure, hfailure, _⟩
  . have ⟨hdisk, problems', hresult, hnil, hvalidated⟩ := runs_batchValidate hproblems
    cases hresult
    rw [hdisk] at hrest
    cases problems with
    | cons problem problems =>
      have ⟨hresult, hdisk'⟩ := Prog.runs_pure.mp hrest
      left
      refine ⟨problem :: problems, by simp, hresult, hdisk', fun ⟨hvalid, hkept⟩ => ?_⟩
      exact absurd (hvalidated hvalid hkept) (by simp)
    | nil =>
      have hvalidated := hnil rfl
      have hvalid : ∀ change ∈ batch, change.Valid :=
        fun change hchange => (valid_of_batchValidate (hvalidated.changes change hchange)).1
      refine Or.inr ⟨hvalidated, ?_⟩
      rcases Prog.runs_bind.mp hrest with ⟨_, disk₂, hconfirm, happly⟩ | ⟨failure, hfailure, hresult⟩
      . rw [(runs_confirmForce hconfirm).1] at happly
        rcases Prog.runs_bind.mp happly with ⟨made, disk₃, hmade, hend⟩ | ⟨failure, hfailure, _⟩
        . have happlied := runs_batchApply hreadable hvalid hnodup hmade
          cases made with
          | none =>
            have ⟨hresult, hdisk'⟩ := Prog.runs_pure.mp hend
            exact Or.inr ⟨none, hdisk' ▸ happlied, hresult⟩
          | some changes =>
            have ⟨hresult, hdisk'⟩ := Prog.runs_pure.mp hend
            exact Or.inr ⟨some changes, hdisk' ▸ happlied, hresult⟩
        . cases runs_batchApply hreadable hvalid hnodup hfailure
      . have ⟨hdisk', hconfirmed⟩ := runs_confirmForce hfailure
        cases hconfirmed with
        | inl hok => cases hok
        | inr haborted =>
          cases haborted
          exact Or.inl ⟨hresult, hdisk'⟩
  . have ⟨_, _, hresult, _⟩ := runs_batchValidate hfailure
    cases hresult

theorem Prepared.config (h : Prepared batch disk base) : base.files .config = disk.files .config := by
  cases h with
  | kept hfiles => rw [hfiles]
  | made _ _ _ _ hfiles =>
    rw [hfiles]
    rfl

theorem config_settings_eq (h : base.files .config = disk.files .config)
    : base.settings.config = disk.settings.config ∧ base.lines .config = disk.lines .config := by
  unfold Disk.settings Disk.lines
  rw [h]
  exact ⟨rfl, rfl⟩

theorem isEnvKey_name (key : ConfigKey) : isEnvKey key.name = false := by
  have hfirst (c : Char) (rest : Text) (hname : key.name = c :: rest)
      (hc : c.toNat < 128 ∧ c.isUpper = false ∧ c ≠ '_') : isEnvKey key.name = false := by
    rw [hname, isEnvKey, Ctype.upper_ascii c hc.1, hc.2.1]
    simp [hc.2.2]
  cases key with
  | port => exact hfirst 'p' _ rfl (by decide)
  | variant => exact hfirst 'v' _ rfl (by decide)
  | runtime => exact hfirst 'r' _ rfl (by decide)
  | stopTimeout => exact hfirst 's' _ rfl (by decide)
  | imageTag => exact hfirst 'i' _ rfl (by decide)
  | autoLogin => exact hfirst 'a' _ rfl (by decide)
  | bind => exact hfirst 'b' _ rfl (by decide)
  | restartOnUpdate => exact hfirst 'r' _ rfl (by decide)

/--
What `config` says of a key, as values.
-/
theorem readings_name (disk : Disk) (key : ConfigKey)
    : (disk.readings key.name).map EnvLine.value = (disk.lines .config).filterMap (activeValue key) := by
  rw [readings_config (isEnvKey_name key) (configKeyIndex_name key), List.map_map]
  exact List.map_id _

theorem entry_after (hvalidated : Validated disk.settings batch force) (hprepared : Prepared batch disk base)
    (hrewritten : Rewritten batch base disk') (key : ConfigKey)
    : (disk'.settings.config.entry key).badLine = none ∧
        (∀ value, ⟨key.name, .set value⟩ ∈ batch → (disk'.settings.config.entry key).value = value) ∧
          (⟨key.name, .unset⟩ ∈ batch → (disk'.settings.config.entry key).value = []) ∧
            (key.name ∉ batch.map Change.key →
              (disk'.settings.config.entry key).value = (disk.settings.config.entry key).value) := by
  have hrecords := config_settings disk' key
  have hreadings := readings_name disk' key
  have hwanted (change : Change) (hchange : change ∈ batch) (hkey : change.key = key.name)
      : (disk'.lines .config).filterMap (activeValue key) = change.wanted.map EnvLine.value := by
    rw [← hreadings, ← hkey, hrewritten.changed change hchange]
  have hvalue (value : Text) (hchange : ⟨key.name, .set value⟩ ∈ batch) : validConfigValue key value = true := by
    have hvalid := (valid_of_batchValidate (hvalidated.changes _ hchange)).1
    have ⟨k, hindex, _, _, hvalue⟩ := validateValue_config (isEnvKey_name key) (hvalid value rfl)
    rw [configKeyIndex_name] at hindex
    cases hindex
    exact hvalue
  have hother (hkey : key.name ∉ batch.map Change.key)
      : (disk'.lines .config).filterMap (activeValue key) = (disk.lines .config).filterMap (activeValue key) := by
    rw [← hreadings, hrewritten.others key.name hkey, readings_name,
      (config_settings_eq hprepared.config).2]
  refine ⟨hrecords.badLine.mpr ?_, ?_, ?_, ?_⟩
  . by_cases hkey : key.name ∈ batch.map Change.key
    . have ⟨change, hchange, heq⟩ := List.mem_map.mp hkey
      rw [hwanted change hchange heq]
      cases change with
      | mk key' action =>
        cases heq
        cases action with
        | unset => simp [Change.wanted]
        | set value => simp [Change.wanted, hvalue value hchange]
    . rw [hother hkey]
      exact (config_settings disk key).badLine.mp (hvalidated.config key hkey)
  . intro value hchange
    rw [hrecords.value, hwanted _ hchange rfl]
    rfl
  . intro hchange
    rw [hrecords.value, hwanted _ hchange rfl]
    rfl
  . intro hkey
    rw [hrecords.value, hother hkey, (config_settings disk key).value]

/--
A line without `=` would have been there before.
-/
theorem noEq_after (hvalidated : Validated disk.settings batch force) (hprepared : Prepared batch disk base)
    (hrewritten : Rewritten batch base disk')
    : disk'.settings.config.noEqLines = [] := by
  rw [noEq_settings]
  intro raw hraw hnoEq
  have hother : isOther .config (batch.map Change.key) raw = true := by
    rw [isOther, lineKey, hnoEq]
  have hmem : raw ∈ (disk'.lines .config).filter (isOther .config (batch.map Change.key)) :=
    List.mem_filter.mpr ⟨hraw, hother⟩
  rw [hrewritten.kept .config, (config_settings_eq hprepared.config).2] at hmem
  exact (noEq_settings disk).mp hvalidated.noEq raw (List.mem_of_mem_filter hmem) hnoEq

theorem validated_after (hvalidated : Validated disk.settings batch force) (hprepared : Prepared batch disk base)
    (hrewritten : Rewritten batch base disk')
    : Validated disk'.settings batch force where
  changes := hvalidated.changes
  noEq := noEq_after hvalidated hprepared hrewritten
  config key _ := (entry_after hvalidated hprepared hrewritten key).1

theorem rewritten_of_applied (hvalidated : Validated disk.settings batch force)
    (hnodup : (batch.map Change.key).Nodup)
    (hfiles : ∀ which, disk'.files which = base.rewritten which (batch.filter (keyChanges base.settings)))
    : Rewritten batch base disk' :=
  rewritten_of_files (fun change hchange => (valid_of_batchValidate (hvalidated.changes change hchange)).1)
    (fun change hchange => (valid_of_batchValidate (hvalidated.changes change hchange)).2) hnodup hfiles

theorem runs_loadConfig (hreadable : disk.Readable .config) {result : Except Failure Loaded}
    (hruns : Prog.Runs exec loadConfig disk result disk')
    : result = (disk.files .config).elim (.ok Loaded.none) loadConfig.text := by
  have hread := (Script.runs_readFile hreadable).mp hruns
  cases hfile : disk.files .config with
  | none =>
    rw [hfile] at hread
    exact (Prog.runs_pure.mp hread).1
  | some text =>
    rw [hfile, Option.elim_some] at hread
    rw [Option.elim_some]
    cases hload : loadConfig.text text with
    | ok loaded =>
      rw [hload] at hread
      exact (Prog.runs_pure.mp hread).1
    | error failure =>
      rw [hload] at hread
      exact (Prog.runs_throw.mp hread).1

/--
`up` reads what `configure` reads, if nothing is wrong with it.
-/
theorem loaded_of_settings (hnoEq : disk.settings.config.noEqLines = [])
    (hbad : ∀ key, (disk.settings.config.entry key).badLine = none)
    : ∃ loaded, (disk.files .config).elim (.ok Loaded.none) loadConfig.text = .ok loaded ∧
        ∀ key, loaded.value key = (disk.settings.config.entry key).value := by
  unfold Disk.settings at hnoEq hbad ⊢
  cases hfile : disk.files .config with
  | none => exact ⟨Loaded.none, rfl, fun _ => rfl⟩
  | some text =>
    rw [hfile] at hnoEq hbad
    cases hload : loadConfig.text text with
    | ok loaded => exact ⟨loaded, hload, (agree_of_loadConfig hload).value⟩
    | error failure =>
      cases flawed_of_loadConfig hload with
      | inl hlines => exact absurd hnoEq hlines
      | inr hbad' =>
        have ⟨key, hkey⟩ := hbad'
        have hnone : ((readConfigFile.text text).entry key).badLine = none := hbad key
        rw [hnone] at hkey
        cases hkey

theorem settings_eq {disk₁ : Disk} (h : disk₁.files = disk.files) : disk₁.settings = disk.settings := by
  unfold Disk.settings
  rw [h]

/--
A batch that sets a key of `kerghan.env` leaves one.
-/
theorem env_after (hrewritten : Rewritten batch base disk') (hsets : batchSetsEnv batch = true)
    : (disk'.files .env).isSome = true := by
  have ⟨change, hchange, hset⟩ := List.any_eq_true.mp hsets
  have hreadings := hrewritten.changed change hchange
  cases haction : change.action with
  | unset => simp [haction] at hset
  | set value =>
    simp only [haction] at hset
    rw [readings_env hset, Change.wanted, haction, Disk.lines] at hreadings
    cases hfile : disk'.files .env with
    | some text => rfl
    | none => simp [hfile] at hreadings

theorem filter_after (hvalidated : Validated disk.settings batch force) (hrewritten : Rewritten batch base disk')
    : batch.filter (keyChanges disk'.settings) = [] := by
  apply List.filter_eq_nil_iff.mpr
  intro change hchange hchanges
  have ⟨hvalid, hfile⟩ := valid_of_batchValidate (hvalidated.changes change hchange)
  exact (keyChanges_iff hvalid hfile).mp hchanges (hrewritten.changed change hchange)

theorem runs_again (hnodup : (batch.map Change.key).Nodup) (hvalidated : Validated disk.settings batch force)
    (hprepared : Prepared batch disk base) (hrewritten : Rewritten batch base disk')
    (hreadable : ∀ file, disk'.Readable file) {disk'' : Disk} {result : Except Failure Configured}
    (hruns : Prog.Runs exec (cmdConfigure.write batch force) disk' result disk'')
    : disk''.files = disk'.files ∧ (result = .ok (.applied []) ∨ result = .error .aborted) := by
  have hkept : disk'.settings.env.exist = true ∨ batchSetsEnv batch = false := by
    rw [exist_settings]
    cases hsets : batchSetsEnv batch with
    | true => exact Or.inl (env_after hrewritten hsets)
    | false => exact Or.inr rfl
  have hagain (base' : Disk) (hprepared' : Prepared batch disk' base')
      : base'.files = disk'.files ∧ batch.filter (keyChanges base'.settings) = [] := by
    cases hprepared' with
    | kept hfiles =>
      rw [settings_eq hfiles]
      exact ⟨hfiles, filter_after hvalidated hrewritten⟩
    | made hnone hsets =>
      have hsome := env_after hrewritten hsets
      rw [hnone] at hsome
      cases hsome
  rcases runs_write hnodup hreadable hruns with ⟨_, _, _, _, hnot⟩ | ⟨_, ⟨hresult, hdisk⟩ | ⟨made, happlied, hresult⟩⟩
  . exact absurd ⟨validated_after hvalidated hprepared hrewritten, hkept⟩ hnot
  . exact ⟨by rw [hdisk], Or.inr hresult⟩
  . cases happlied with
    | missing hnone hsets =>
      have hsome := env_after hrewritten hsets
      rw [hnone] at hsome
      cases hsome
    | env base' hprepared' hsome => exact absurd (hagain base' hprepared').2 hsome
    | config base' hprepared' hsome => exact absurd (hagain base' hprepared').2 hsome
    | written base' hprepared' hfiles =>
      have ⟨hbase, hnil⟩ := hagain base' hprepared'
      rw [hnil] at hresult hfiles
      refine ⟨?_, Or.inl hresult⟩
      funext which
      rw [hfiles which, ← hbase]
      rfl

end Write

section Main

variable {args : List Text} {parsed : List Change} {force : Bool}

omit [Ctype] in
theorem keys_readHidden (value : Text) (batch : List Change)
    : (readHidden value batch).map Change.key = batch.map Change.key := by
  rw [readHidden, List.map_map]
  apply List.map_congr_left
  intro change _
  dsimp only [Function.comp]
  split <;> rfl

theorem writesBatch (hparse : cmdConfigure.parse args = .ok (.write parsed force)) (value : Text)
    : WritesBatch (readHidden value parsed) force := by
  have hnodup : ((readHidden value parsed).map Change.key).Nodup := by
    rw [keys_readHidden]
    exact nodup_parse hparse
  have happlied (disk disk' : Disk) (changes : List Change)
      (hruns : Prog.Runs exec (cmdConfigure.write (readHidden value parsed) force) disk (.ok (.applied changes)) disk')
      : Validated disk.settings (readHidden value parsed) force ∧ (∀ file, disk'.Readable file) ∧
          ∃ base, Prepared (readHidden value parsed) disk base ∧ Rewritten (readHidden value parsed) base disk' := by
    rcases readable_or_unreadable hruns with hreadable | ⟨⟨_, hresult⟩, _⟩
    . have hreadable' (file : File) : disk'.Readable file := readable_of_runs hruns (hreadable file)
      rcases runs_write hnodup hreadable hruns with
        ⟨_, _, hresult, _⟩ | ⟨hvalidated, ⟨hresult, _⟩ | ⟨made, happlied, hresult⟩⟩
      . cases hresult
      . cases hresult
      . cases happlied with
        | missing => cases hresult
        | env => cases hresult
        | config => cases hresult
        | written base hprepared hfiles =>
          exact ⟨hvalidated, hreadable', base, hprepared, rewritten_of_applied hvalidated hnodup hfiles⟩
    . cases hresult
  exact {
    applied := fun disk disk' changes hruns => (happlied disk disk' changes hruns).2.2
    accepted := by
      intro disk disk' changes hruns result disk'' hload
      have ⟨hvalidated, hreadable, base, hprepared, hrewritten⟩ := happlied disk disk' changes hruns
      have hentry := entry_after hvalidated hprepared hrewritten
      have ⟨loaded, hloaded, hvalue⟩ := loaded_of_settings (noEq_after hvalidated hprepared hrewritten)
        fun key => (hentry key).1
      refine ⟨loaded, (runs_loadConfig (hreadable .config) hload).trans hloaded, fun key => ?_⟩
      unfold ReadByUp
      rw [hvalue key]
      exact (hentry key).2
    repeats := by
      intro disk disk' changes hruns result disk'' hagain
      have ⟨hvalidated, hreadable, base, hprepared, hrewritten⟩ := happlied disk disk' changes hruns
      exact runs_again hnodup hvalidated hprepared hrewritten hreadable hagain
  }

omit [Ctype] in
/--
A value is replaced, a commented-out line is used, and the lines of a key of the other file are deleted.
-/
theorem writesBatch_replaced
    : @WritesBatch .posix [⟨"port".toList, .set "8080".toList⟩, ⟨"variant".toList, .set "offline".toList⟩,
        ⟨"A".toList, .unset⟩] false :=
  @writesBatch .posix ["port=8080".toList, "variant=offline".toList, "--unset".toList, "A".toList] _ _ rfl []

example : ((@cmdConfigure.write .posix [⟨"port".toList, .set "8080".toList⟩, ⟨"A".toList, .unset⟩] false).eval exec
    ⟨true, []⟩ ⟨fun | .config => some "port=80\n\nport = 81 # old\n".toList | .env => some "A=1\nB".toList,
      fun _ => none, 0, fun _ => false⟩).2.files .config
    = some "\nport=8080\n".toList := by decide +kernel

end Main

end Kerghan.Standalone
