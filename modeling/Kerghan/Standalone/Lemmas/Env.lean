import Kerghan.Standalone.Impl.Settings

/-!
This module contains what the entries of `kerghan.env` say about its lines, one key at a time.
-/

namespace Kerghan.Standalone

open Shell

section Record

variable {entries : List EnvEntry} {line : EnvLine} {n : Nat} {key : Text}

def EnvEntry.extended (entry : Option EnvEntry) (line : EnvLine) (n : Nat) : EnvEntry where
  key := line.key
  value := line.value
  kind := line.kind
  lines := (entry.elim [] EnvEntry.lines) ++ [n]

theorem find_recordEnv (line : EnvLine) (n : Nat) (entries : List EnvEntry) (key : Text)
    : (recordEnv line n entries).find? (fun entry => entry.key = key)
        =
      if line.key = key then
        some (EnvEntry.extended (entries.find? fun entry => entry.key = key) line n)
      else
        entries.find? fun entry => entry.key = key := by
  induction entries with
  | nil =>
    rw [recordEnv]
    by_cases hkey : line.key = key
    . simp [hkey, EnvEntry.extended]
    . simp [hkey]
  | cons first entries ih =>
    rw [recordEnv]
    by_cases hfirst : first.key = line.key
    . rw [if_pos hfirst]
      by_cases hkey : line.key = key
      . simp [hfirst, hkey, EnvEntry.extended]
      . simp [hfirst, hkey]
    . rw [if_neg hfirst]
      by_cases hkey : first.key = key
      . have hother : ¬line.key = key := fun heq => hfirst (hkey.trans heq.symm)
        simp [hkey, hother]
      . rw [List.find?_cons_of_neg (by simpa using hkey), ih, List.find?_cons_of_neg (by simpa using hkey)]

theorem recordEnv_of_new (hnew : ∀ entry ∈ entries, entry.key ≠ line.key)
    : recordEnv line n entries = entries ++ [⟨line.key, line.value, line.kind, [n]⟩] := by
  induction entries with
  | nil => rfl
  | cons first entries ih =>
    rw [recordEnv, if_neg (hnew first (List.mem_cons_self ..)),
      ih fun entry hentry => hnew entry (List.mem_cons_of_mem _ hentry)]
    rfl

end Record

section Index

variable [Ctype] {env : EnvSettings} {raw text key : Text} {n : Nat}

def RecordsKey (key raw : Text) : Prop :=
  ∃ line, envLine raw = some line ∧ line.key = key

theorem index_line (env : EnvSettings) (raw : Text) (n : Nat) (key : Text)
    : ((readEnvFile.line env raw n).index key).isSome = true ↔
        (env.index key).isSome = true ∨ RecordsKey key raw := by
  unfold readEnvFile.line RecordsKey
  cases envLine raw with
  | none => simp
  | some line =>
    unfold EnvSettings.index
    dsimp only
    rw [find_recordEnv]
    by_cases hkey : line.key = key
    . simp [hkey]
    . simp [hkey]

theorem index_lines (env : EnvSettings) (lines : List Text) (n : Nat) (key : Text)
    : (((lines.zipIdx n).foldl (fun env (raw, n) => readEnvFile.line env raw n) env).index key).isSome
          = true ↔
        (env.index key).isSome = true ∨ ∃ raw ∈ lines, RecordsKey key raw := by
  induction lines generalizing env n with
  | nil => simp
  | cons first lines ih =>
    rw [List.zipIdx_cons, List.foldl_cons, ih, index_line]
    simp only [List.mem_cons, exists_eq_or_imp]
    rw [or_assoc]

/--
A key has an entry if and only if a line is recorded for it.
-/
theorem index_text (text key : Text)
    : ((readEnvFile.text text).index key).isSome = true ↔ ∃ raw ∈ readLines text, RecordsKey key raw := by
  unfold readEnvFile.text
  rw [index_lines]
  simp [EnvSettings.empty, EnvSettings.index]

end Index

end Kerghan.Standalone
