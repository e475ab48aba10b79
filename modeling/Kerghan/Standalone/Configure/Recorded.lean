import Kerghan.Shell.Editing
import Kerghan.Standalone.Config.Parsers
import Kerghan.Standalone.Env.Presence
import Kerghan.Standalone.Impl.Batch

/-!
This module contains what the readers of `configure` record of the lines of a key: their numbers, and what the
last of them says.
-/

namespace Kerghan.Standalone

open Shell

variable [Ctype]

section

/--
What a line of `kerghan.env` says of a key.
-/
def envOf (key raw : Text) : Option EnvLine :=
  match envLine raw with
  | some line => if line.key = key then some line else none
  | none => none

/--
A commented-out line of a key.
-/
def isTemplate (key : ConfigKey) (raw : Text) : Bool :=
  match configLine raw with
  | .template k => k = key
  | _ => false

/--
The file that the lines of the key stand in, if the key has a file.
-/
def keyFile (key : Text) : Option File :=
  if isEnvKey key then
    some .env
  else
    (configKeyIndex key).map fun _ => .config

def readingOf (key raw : Text) : Option EnvLine :=
  if isEnvKey key then
    envOf key raw
  else
    match configKeyIndex key with
    | some k => (activeValue k raw).map fun value => ⟨key, value, .value⟩
    | none => none

def keyLine (key raw : Text) : Bool :=
  (readingOf key raw).isSome

def templateLine (key raw : Text) : Bool :=
  !isEnvKey key && (configKeyIndex key).any fun k => isTemplate k raw

def Disk.lines (disk : Disk) (file : File) : List Text :=
  (disk.files file).elim [] readLines

/--
What `read_settings` reads.
-/
def Disk.settings (disk : Disk) : Settings where
  config := (disk.files .config).elim ConfigSettings.empty readConfigFile.text
  env := (disk.files .env).elim EnvSettings.empty readEnvFile.text

end

section Names

variable {key : Text} {k : ConfigKey}

omit [Ctype] in
@[simp]
theorem configKeyIndex_name (k : ConfigKey) : configKeyIndex k.name = some k := by
  cases k <;> rfl

omit [Ctype] in
theorem name_of_configKeyIndex (h : configKeyIndex key = some k) : k.name = key := by
  simpa using List.find?_some h

end Names

section Env

variable {env : EnvSettings} {key raw : Text}

theorem index_readEnvFile_line (env : EnvSettings) (raw : Text) (n : Nat) (key : Text)
    : (readEnvFile.line env raw n).index key
        =
      match envOf key raw with
      | some line => some ⟨key, line.value, line.kind, (env.index key).elim [] EnvEntry.lines ++ [n]⟩
      | none => env.index key := by
  unfold readEnvFile.line envOf EnvSettings.index
  cases envLine raw with
  | none => rfl
  | some line =>
    dsimp only
    rw [find_recordEnv]
    by_cases hkey : line.key = key
    . rw [if_pos hkey, if_pos hkey, EnvEntry.extended, hkey]
    . rw [if_neg hkey, if_neg hkey]

theorem index_readEnvFile_lines (env : EnvSettings) (lines : List Text) (n : Nat) (key : Text)
    : ((lines.zipIdx n).foldl (fun env (raw, n) => readEnvFile.line env raw n) env).index key
        =
      match (lines.filterMap (envOf key)).getLast? with
      | some line =>
        some ⟨key, line.value, line.kind,
          (env.index key).elim [] EnvEntry.lines ++ numbersFrom (fun raw => (envOf key raw).isSome) lines n⟩
      | none => env.index key := by
  induction lines generalizing env n with
  | nil => rfl
  | cons first lines ih =>
    rw [List.zipIdx_cons, List.foldl_cons, ih, index_readEnvFile_line, numbersFrom_cons]
    cases hfirst : envOf key first with
    | none =>
      rw [List.filterMap_cons_none hfirst]
      rfl
    | some line =>
      rw [List.filterMap_cons_some hfirst, List.getLast?_cons]
      cases hrest : (lines.filterMap (envOf key)).getLast? with
      | some last => simp
      | none =>
        have hnone : ∀ raw ∈ lines, (envOf key raw).isSome = false := by
          intro raw hraw
          have hnil := List.getLast?_eq_none_iff.mp hrest
          rw [List.filterMap_eq_nil_iff.mp hnil raw hraw]
          rfl
        rw [numbersFrom_eq_nil hnone]
        simp

theorem index_readEnvFile_text (text key : Text)
    : (readEnvFile.text text).index key
        =
      ((readLines text).filterMap (envOf key)).getLast?.map fun line =>
        ⟨key, line.value, line.kind, numbers (fun raw => (envOf key raw).isSome) (readLines text)⟩ := by
  rw [readEnvFile.text, index_readEnvFile_lines]
  cases ((readLines text).filterMap (envOf key)).getLast? with
  | none => rfl
  | some line => rfl

end Env

section Config

variable {config : ConfigSettings} {raw : Text}

theorem entry_readConfigFile_line (config : ConfigSettings) (raw : Text) (n : Nat) (key : ConfigKey)
    : (readConfigFile.line config raw n).entry key
        =
      match activeValue key raw with
      | some value => (config.entry key).record key value n
      | none =>
        if isTemplate key raw && (config.entry key).template.isNone then
          { config.entry key with template := some n }
        else
          config.entry key := by
  unfold readConfigFile.line activeValue isTemplate
  cases configLine raw with
  | blank => rfl
  | template k =>
    dsimp only
    by_cases heq : k = key
    . subst heq
      cases htemplate : (config.entry k).template.isNone with
      | true => simp
      | false => simp
    . have heq' : key ≠ k := Ne.symm heq
      cases htemplate : (config.entry k).template.isNone with
      | true => simp [heq, heq']
      | false => simp [heq]
  | noEq => rfl
  | active k value =>
    dsimp only
    by_cases heq : k = key
    . subst heq
      simp
    . have heq' : key ≠ k := Ne.symm heq
      simp [heq, heq']
  | unknown _ _ => rfl

theorem not_isTemplate_of_active {key : ConfigKey} {value : Text} (h : activeValue key raw = some value)
    (k : ConfigKey)
    : isTemplate k raw = false := by
  unfold activeValue at h
  unfold isTemplate
  split
  . next hline =>
    rw [hline] at h
    cases h
  . rfl

theorem lines_readConfigFile_lines (config : ConfigSettings) (lines : List Text) (n : Nat) (key : ConfigKey)
    : (((lines.zipIdx n).foldl (fun config (raw, n) => readConfigFile.line config raw n) config).entry key).lines
        =
      (config.entry key).lines ++ numbersFrom (fun raw => (activeValue key raw).isSome) lines n := by
  induction lines generalizing config n with
  | nil => exact (List.append_nil _).symm
  | cons first lines ih =>
    rw [List.zipIdx_cons, List.foldl_cons, ih, entry_readConfigFile_line, numbersFrom_cons]
    cases activeValue key first with
    | some value => exact List.append_assoc ..
    | none =>
      dsimp only
      split <;> rfl

theorem template_readConfigFile_lines (config : ConfigSettings) (lines : List Text) (n : Nat) (key : ConfigKey)
    : (((lines.zipIdx n).foldl (fun config (raw, n) => readConfigFile.line config raw n) config).entry
        key).template
        =
      (config.entry key).template.or (numbersFrom (isTemplate key) lines n).head? := by
  induction lines generalizing config n with
  | nil => exact (Option.or_none).symm
  | cons first lines ih =>
    rw [List.zipIdx_cons, List.foldl_cons, ih, entry_readConfigFile_line, numbersFrom_cons]
    cases hactive : activeValue key first with
    | some value =>
      rw [not_isTemplate_of_active hactive]
      rfl
    | none =>
      cases isTemplate key first with
      | false => rfl
      | true =>
        cases htemplate : (config.entry key).template with
        | none => rfl
        | some m => simp [htemplate]

theorem count_readConfigFile_lines (config : ConfigSettings) (lines : List Text) (n : Nat) (key : ConfigKey)
    : (((lines.zipIdx n).foldl (fun config (raw, n) => readConfigFile.line config raw n) config).entry key).count
        =
      (config.entry key).count + (lines.filterMap (activeValue key)).length := by
  induction lines generalizing config n with
  | nil => rfl
  | cons first lines ih =>
    rw [List.zipIdx_cons, List.foldl_cons, ih, entry_readConfigFile_line]
    cases hactive : activeValue key first with
    | some value =>
      rw [List.filterMap_cons_some hactive, List.length_cons]
      dsimp only [ConfigEntry.record]
      omega
    | none =>
      rw [List.filterMap_cons_none hactive]
      dsimp only
      split <;> rfl

/--
An invalid value is recorded if and only if some line of the key has one.
-/
theorem badLine_readConfigFile_lines (config : ConfigSettings) (lines : List Text) (n : Nat) (key : ConfigKey)
    : (((lines.zipIdx n).foldl (fun config (raw, n) => readConfigFile.line config raw n) config).entry
        key).badLine = none ↔
        (config.entry key).badLine = none ∧
          ∀ value ∈ lines.filterMap (activeValue key), value = [] ∨ validConfigValue key value = true := by
  induction lines generalizing config n with
  | nil => simp
  | cons first lines ih =>
    rw [List.zipIdx_cons, List.foldl_cons, ih, entry_readConfigFile_line]
    cases hactive : activeValue key first with
    | none =>
      rw [List.filterMap_cons_none hactive]
      dsimp only
      split <;> rfl
    | some value =>
      rw [List.filterMap_cons_some hactive, List.forall_mem_cons, ← and_assoc]
      apply and_congr_left
      intro _
      dsimp only [ConfigEntry.record]
      by_cases hempty : value = []
      . simp [hempty]
      . cases hvalid : validConfigValue key value with
        | true => simp [hempty]
        | false =>
          cases hbad : (config.entry key).badLine with
          | none => simp [hempty]
          | some m => simp [hempty]

theorem noEqLines_readConfigFile_line (config : ConfigSettings) (raw : Text) (n : Nat)
    : (readConfigFile.line config raw n).noEqLines = [] ↔ config.noEqLines = [] ∧ configLine raw ≠ .noEq := by
  unfold readConfigFile.line
  cases hline : configLine raw with
  | blank => simp
  | template k =>
    dsimp only
    split <;> simp
  | noEq => simp
  | active k value => simp
  | unknown key value => simp

theorem noEqLines_readConfigFile_lines (config : ConfigSettings) (lines : List Text) (n : Nat)
    : ((lines.zipIdx n).foldl (fun config (raw, n) => readConfigFile.line config raw n) config).noEqLines = [] ↔
        config.noEqLines = [] ∧ ∀ raw ∈ lines, configLine raw ≠ .noEq := by
  induction lines generalizing config n with
  | nil => simp
  | cons first lines ih =>
    rw [List.zipIdx_cons, List.foldl_cons, ih, List.forall_mem_cons, ← and_assoc, noEqLines_readConfigFile_line]

end Config

section Lines

variable {which : File} {key : Text}

theorem env_settings (disk : Disk) (key : Text)
    : disk.settings.env.index key
        =
      ((disk.lines .env).filterMap (envOf key)).getLast?.map fun line =>
        ⟨key, line.value, line.kind, numbers (fun raw => (envOf key raw).isSome) (disk.lines .env)⟩ := by
  unfold Disk.settings Disk.lines
  cases disk.files .env with
  | none => rfl
  | some text => exact index_readEnvFile_text text key

/--
What is recorded of a key of `config`.
-/
structure RecordsEntry (entry : ConfigEntry) (key : ConfigKey) (lines : List Text) : Prop where
  count : entry.count = (lines.filterMap (activeValue key)).length
  value : entry.value = (lines.filterMap (activeValue key)).getLastD []
  nums : entry.lines = numbers (fun raw => (activeValue key raw).isSome) lines
  badLine : entry.badLine = none ↔
    ∀ value ∈ lines.filterMap (activeValue key), value = [] ∨ validConfigValue key value = true
  template : entry.template = (numbers (isTemplate key) lines).head?

theorem config_settings (disk : Disk) (key : ConfigKey)
    : RecordsEntry (disk.settings.config.entry key) key (disk.lines .config) := by
  unfold Disk.settings Disk.lines
  cases disk.files .config with
  | none => exact ⟨rfl, rfl, rfl, by simp [ConfigSettings.empty], rfl⟩
  | some text => exact {
      count := (count_readConfigFile_lines _ _ _ key).trans (Nat.zero_add _)
      value := readConfigFile_lines_value _ key (readLines text) 1
      nums := lines_readConfigFile_lines _ _ _ key
      badLine := (badLine_readConfigFile_lines _ _ _ key).trans (and_iff_right rfl)
      template := template_readConfigFile_lines _ _ _ key
    }

theorem noEq_settings (disk : Disk)
    : disk.settings.config.noEqLines = [] ↔ ∀ raw ∈ disk.lines .config, configLine raw ≠ .noEq := by
  unfold Disk.settings Disk.lines
  cases disk.files .config with
  | none => exact ⟨fun _ => by simp, fun _ => rfl⟩
  | some text => exact (noEqLines_readConfigFile_lines _ _ _).trans (and_iff_right rfl)

theorem keyLines_settings (which : File) (disk : Disk) (key : Text)
    : keyLines which disk.settings key
        =
      if keyFile key = some which then
        some ⟨numbers (keyLine key) (disk.lines which), (numbers (templateLine key) (disk.lines which)).head?⟩
      else
        none := by
  have hnone (lines : List Text) : numbers (fun _ => false) lines = [] := numbersFrom_eq_nil fun _ _ => rfl
  unfold keyLines keyFile
  cases which with
  | env =>
    -- a key is recorded in one of the two files at most
    cases henv : isEnvKey key with
    | false =>
      cases configKeyIndex key with
      | none => rfl
      | some k => rfl
    | true =>
      have hkey : keyLine key = fun raw => (envOf key raw).isSome := by
        funext raw
        rw [keyLine, readingOf, if_pos henv]
      have htemplate : templateLine key = fun _ => false := by
        funext raw
        rw [templateLine, henv]
        rfl
      dsimp only
      rw [env_settings, hkey, htemplate, hnone]
      cases hlast : ((disk.lines .env).filterMap (envOf key)).getLast? with
      | some line => rfl
      | none =>
        have hnums : numbers (fun raw => (envOf key raw).isSome) (disk.lines .env) = [] := by
          apply numbersFrom_eq_nil
          intro raw hraw
          have hnil := List.getLast?_eq_none_iff.mp hlast
          rw [List.filterMap_eq_nil_iff.mp hnil raw hraw]
          rfl
        rw [hnums]
        rfl
  | config =>
    cases henv : isEnvKey key with
    | true => rfl
    | false =>
      cases hindex : configKeyIndex key with
      | none => rfl
      | some k =>
        have hrecords := config_settings disk k
        have hkey : keyLine key = fun raw => (activeValue k raw).isSome := by
          funext raw
          rw [keyLine, readingOf, if_neg (by simp [henv]), hindex]
          exact Option.isSome_map ..
        have htemplate : templateLine key = isTemplate k := by
          funext raw
          rw [templateLine, henv, hindex]
          rfl
        dsimp only
        rw [hrecords.nums, hrecords.template, hkey, htemplate]
        rfl

end Lines

end Kerghan.Standalone
