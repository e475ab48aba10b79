import Kerghan.Standalone.Impl.Settings

/-!
This module contains the proof that the two parsers of `~/.kerghan/config` agree: the one of `up`, which
exits at the first error, and the one of `configure`, which records all of them and goes on.
-/

namespace Kerghan.Standalone

open Shell

variable [Ctype]

section

variable (text : Text)

def activeValue (key : ConfigKey) (raw : Text) : Option Text :=
  match configLine raw with
  | .active k value => if k = key then some value else none
  | _ => none

/--
`read_config_file` has recorded a line without `=`, or an invalid value.
-/
def ConfigSettings.Flawed (config : ConfigSettings) : Prop :=
  config.noEqLines ≠ [] ∨ ∃ key, (config.entry key).badLine.isSome = true

structure ParsersAgree : Prop where
  refuses_iff :
    (∃ failure, loadConfig.text text = .error failure) ↔ (readConfigFile.text text).Flawed
  value_eq : ∀ loaded, loadConfig.text text = .ok loaded →
    ∀ key, loaded.value key = ((readConfigFile.text text).entry key).value
  last_value : ∀ key,
    ((readConfigFile.text text).entry key).value
      =
    ((readLines text).filterMap (activeValue key)).getLastD []
  unknown_iff : ∀ loaded, loadConfig.text text = .ok loaded →
    ∀ key, (∃ n, (n, key) ∈ loaded.unknown) ↔ ∃ entry ∈ (readConfigFile.text text).unknown, entry.key = key

end

section

variable {loaded loaded' : Loaded} {config : ConfigSettings} {raw : Text} {n : Nat}

omit [Ctype] in
theorem loadConfig_valid (key : ConfigKey) (value : Text)
    : loadConfig.valid key value = validConfigValue key value := by
  cases key <;> rfl

theorem configLine_of_blank (hblank : trim (before '#' raw) = [])
    : configLine raw = .blank ∨ ∃ k, configLine raw = .template k := by
  unfold configLine
  dsimp only
  rw [if_pos hblank]
  split
  . split
    . split
      . next k _ => exact Or.inr ⟨k, rfl⟩
      . exact Or.inl rfl
    . exact Or.inl rfl
  . exact Or.inl rfl

theorem loadConfig_line (loaded : Loaded) (raw : Text) (n : Nat)
    : loadConfig.line loaded raw n
        =
      match configLine raw with
      | .blank => .ok loaded
      | .template _ => .ok loaded
      | .noEq => .error (.expectedKeyValue n)
      | .active k value =>
        if value = [] || validConfigValue k value then
          .ok { loaded with value := Function.update loaded.value k value }
        else
          .error (.configInvalid n k value)
      | .unknown key _ => .ok { loaded with unknown := loaded.unknown ++ [(n, key)] } := by
  by_cases hblank : trim (before '#' raw) = []
  . have hload : loadConfig.line loaded raw n = .ok loaded := by
      unfold loadConfig.line
      dsimp only
      rw [if_pos hblank]
    rw [hload]
    cases configLine_of_blank hblank with
    | inl hline => rw [hline]
    | inr hline =>
      have ⟨k, hline⟩ := hline
      rw [hline]
  . unfold loadConfig.line configLine
    dsimp only
    rw [if_neg hblank, if_neg hblank]
    split
    . rfl
    . cases configKeyIndex (trim (before '=' (trim (before '#' raw)))) with
      | none => rfl
      | some k => simp only [loadConfig_valid]

omit [Ctype] in
theorem mem_recordUnknown {key key' value : Text} {entries : List UnknownEntry}
    : (∃ entry ∈ recordUnknown key value n entries, entry.key = key') ↔
        (∃ entry ∈ entries, entry.key = key') ∨ key = key' := by
  induction entries with
  | nil => simp [recordUnknown]
  | cons first entries ih =>
    rw [recordUnknown]
    split
    . next hkey =>
      simp only [List.mem_cons, exists_eq_or_imp]
      rw [← hkey, or_right_comm, or_self]
    . simp only [List.mem_cons, exists_eq_or_imp, ih]
      rw [or_assoc]

structure Agree (loaded : Loaded) (config : ConfigSettings) : Prop where
  noEqLines : config.noEqLines = []
  badLine : ∀ key, (config.entry key).badLine = none
  value : ∀ key, loaded.value key = (config.entry key).value
  unknown : ∀ key, (∃ n, (n, key) ∈ loaded.unknown) ↔ ∃ entry ∈ config.unknown, entry.key = key

omit [Ctype] in
theorem Agree.not_flawed (hagree : Agree loaded config) : ¬config.Flawed := by
  intro hflawed
  cases hflawed with
  | inl hnoEq => exact hnoEq hagree.noEqLines
  | inr hbad =>
    have ⟨key, hkey⟩ := hbad
    simp [hagree.badLine key] at hkey

theorem ConfigSettings.Flawed.line (hflawed : config.Flawed) (raw : Text) (n : Nat)
    : (readConfigFile.line config raw n).Flawed := by
  have hentry (k : ConfigKey) (entry : ConfigEntry)
      (hkept : (config.entry k).badLine.isSome = true → entry.badLine.isSome = true)
      : ({ config with entry := Function.update config.entry k entry } : ConfigSettings).Flawed := by
    cases hflawed with
    | inl hnoEq => exact Or.inl hnoEq
    | inr hbad =>
      have ⟨key, hkey⟩ := hbad
      refine Or.inr ⟨key, ?_⟩
      by_cases heq : key = k
      . subst heq
        simpa using hkept hkey
      . simpa [heq] using hkey
  unfold readConfigFile.line
  cases configLine raw with
  | blank => exact hflawed
  | template k =>
    dsimp only
    split
    . exact hentry k _ id
    . exact hflawed
  | noEq => exact Or.inl (by simp)
  | active k value =>
    apply hentry
    intro hbad
    unfold ConfigEntry.record
    dsimp only
    split
    . rfl
    . exact hbad
  | unknown key value => exact hflawed

theorem Agree.line (hagree : Agree loaded config) (raw : Text) (n : Nat)
    : match loadConfig.line loaded raw n with
      | .ok loaded' => Agree loaded' (readConfigFile.line config raw n)
      | .error _ => (readConfigFile.line config raw n).Flawed := by
  rw [loadConfig_line]
  unfold readConfigFile.line
  cases configLine raw with
  | blank => exact hagree
  | template k =>
    dsimp only
    split
    . exact {
        noEqLines := hagree.noEqLines
        badLine := by
          rw [Function.forall_update_iff config.entry fun _ entry => entry.badLine = none]
          exact ⟨hagree.badLine k, fun key _ => hagree.badLine key⟩
        value := by
          rw [Function.forall_update_iff config.entry fun key entry => loaded.value key = entry.value]
          exact ⟨hagree.value k, fun key _ => hagree.value key⟩
        unknown := hagree.unknown
      }
    . exact hagree
  | noEq => exact Or.inl (by simp)
  | active k value =>
    simp only [Bool.or_eq_true, decide_eq_true_eq]
    -- `up` stops at the value that `configure` records as a bad line
    by_cases hvalid : value = [] ∨ validConfigValue k value = true
    . rw [if_pos hvalid]
      exact {
        noEqLines := hagree.noEqLines
        badLine := by
          rw [Function.forall_update_iff config.entry fun _ entry => entry.badLine = none]
          refine ⟨?_, fun key _ => hagree.badLine key⟩
          have hold := hagree.badLine k
          cases hvalid with
          | inl hempty => simp [ConfigEntry.record, hempty, hold]
          | inr hvalid => simp [ConfigEntry.record, hvalid, hold]
        value := by
          intro key
          by_cases heq : key = k
          . subst heq
            simp [ConfigEntry.record]
          . simpa [heq] using hagree.value key
        unknown := hagree.unknown
      }
    . rw [if_neg hvalid]
      simp only [not_or, Bool.not_eq_true] at hvalid
      refine Or.inr ⟨k, ?_⟩
      simp [ConfigEntry.record, hvalid.1, hvalid.2, hagree.badLine k]
  | unknown key value =>
    exact {
      noEqLines := hagree.noEqLines
      badLine := hagree.badLine
      value := hagree.value
      unknown := by
        intro key'
        dsimp only
        rw [mem_recordUnknown, ← hagree.unknown key']
        simp only [List.mem_append, List.mem_singleton, Prod.mk.injEq]
        constructor
        . intro ⟨m, hm⟩
          cases hm with
          | inl hm => exact Or.inl ⟨m, hm⟩
          | inr hm => exact Or.inr hm.2.symm
        . intro h
          cases h with
          | inl h =>
            have ⟨m, hm⟩ := h
            exact ⟨m, Or.inl hm⟩
          | inr h => exact ⟨n, Or.inr ⟨rfl, h.symm⟩⟩
    }

theorem ConfigSettings.Flawed.lines (hflawed : config.Flawed) (lines : List (Text × Nat))
    : (lines.foldl (fun config (raw, n) => readConfigFile.line config raw n) config).Flawed := by
  induction lines generalizing config with
  | nil => exact hflawed
  | cons first lines ih => exact ih (hflawed.line first.1 first.2)

/--
The same of all lines: the induction is over what is left of the file.
-/
theorem Agree.lines (hagree : Agree loaded config) (lines : List (Text × Nat))
    : match lines.foldlM (fun loaded (raw, n) => loadConfig.line loaded raw n) loaded with
      | .ok loaded' =>
        Agree loaded' (lines.foldl (fun config (raw, n) => readConfigFile.line config raw n) config)
      | .error _ => (lines.foldl (fun config (raw, n) => readConfigFile.line config raw n) config).Flawed := by
  induction lines generalizing loaded config with
  | nil => exact hagree
  | cons first lines ih =>
    have ⟨raw, n⟩ := first
    have hfirst := hagree.line raw n
    rw [List.foldlM_cons, List.foldl_cons]
    dsimp only
    cases hline : loadConfig.line loaded raw n with
    | error failure =>
      rw [hline] at hfirst
      exact ConfigSettings.Flawed.lines hfirst lines
    | ok loaded' =>
      rw [hline] at hfirst
      exact ih hfirst

omit [Ctype] in
theorem agree_empty : Agree Loaded.none { ConfigSettings.empty with exist := true } where
  noEqLines := rfl
  badLine _ := rfl
  value _ := rfl
  unknown _ := by simp [Loaded.none, ConfigSettings.empty]

theorem readConfigFile_line_value (config : ConfigSettings) (raw : Text) (n : Nat) (key : ConfigKey)
    : ((readConfigFile.line config raw n).entry key).value
        =
      (activeValue key raw).getD (config.entry key).value := by
  unfold readConfigFile.line activeValue
  cases configLine raw with
  | blank => rfl
  | template k =>
    dsimp only
    split
    . by_cases heq : key = k
      . subst heq
        simp
      . simp [heq]
    . rfl
  | noEq => rfl
  | active k value =>
    by_cases heq : key = k
    . subst heq
      simp [ConfigEntry.record]
    . simp [heq, Ne.symm heq]
  | unknown _ _ => rfl

theorem readConfigFile_lines_value (config : ConfigSettings) (key : ConfigKey) (lines : List Text) (n : Nat)
    : (((lines.zipIdx n).foldl (fun config (raw, n) => readConfigFile.line config raw n) config).entry
        key).value
        =
      (lines.filterMap (activeValue key)).getLastD (config.entry key).value := by
  induction lines generalizing config n with
  | nil => rfl
  | cons first lines ih =>
    rw [List.zipIdx_cons, List.foldl_cons, ih, readConfigFile_line_value, List.filterMap_cons]
    cases activeValue key first with
    | none => rfl
    | some value =>
      dsimp only
      rw [List.getLastD_cons]
      rfl

end

/--
`configure` finds nothing wrong with what `up` loads, and something with what it does not.
-/
theorem agree_of_loadConfig {text : Text} (hload : loadConfig.text text = .ok loaded)
    : Agree loaded (readConfigFile.text text) := by
  have hagree := agree_empty.lines ((readLines text).zipIdx 1)
  unfold loadConfig.text at hload
  rw [hload] at hagree
  exact hagree

theorem flawed_of_loadConfig {text : Text} {failure : Failure} (hload : loadConfig.text text = .error failure)
    : (readConfigFile.text text).Flawed := by
  have hagree := agree_empty.lines ((readLines text).zipIdx 1)
  unfold loadConfig.text at hload
  rw [hload] at hagree
  exact hagree

theorem parsersAgree (text : Text) : ParsersAgree text := by
  have hagree := agree_empty.lines ((readLines text).zipIdx 1)
  have hvalue := fun key =>
    readConfigFile_lines_value { ConfigSettings.empty with exist := true } key (readLines text) 1
  cases hload : loadConfig.text text with
  | error failure =>
    unfold loadConfig.text at hload
    rw [hload] at hagree
    exact {
      refuses_iff := ⟨fun _ => hagree, fun _ => ⟨failure, hload⟩⟩
      value_eq := by
        intro loaded hloaded
        rw [loadConfig.text, hload] at hloaded
        cases hloaded
      last_value := hvalue
      unknown_iff := by
        intro loaded hloaded
        rw [loadConfig.text, hload] at hloaded
        cases hloaded
    }
  | ok loaded =>
    unfold loadConfig.text at hload
    rw [hload] at hagree
    exact {
      refuses_iff := by
        constructor
        . intro ⟨failure, hfailure⟩
          rw [loadConfig.text, hload] at hfailure
          cases hfailure
        . intro hflawed
          exact absurd hflawed hagree.not_flawed
      value_eq := by
        intro loaded' hloaded
        rw [loadConfig.text, hload] at hloaded
        cases hloaded
        exact hagree.value
      last_value := hvalue
      unknown_iff := by
        intro loaded' hloaded
        rw [loadConfig.text, hload] at hloaded
        cases hloaded
        exact hagree.unknown
    }

end Kerghan.Standalone
