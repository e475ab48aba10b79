import Mathlib.Data.List.Nodup
import Kerghan.Standalone.Configure.Edited

/-!
This module contains what the files say of each key after the changes of a batch: the keys of the batch read as
the batch wants it, and every other key and every other line is as it was.
-/

namespace Kerghan.Standalone

open Shell

variable [Ctype]

section

def Disk.readings (disk : Disk) (key : Text) : List EnvLine :=
  match keyFile key with
  | some which => (disk.lines which).filterMap (readingOf key)
  | none => []

def Change.wanted (change : Change) : List EnvLine :=
  match change.action with
  | .set value => [⟨change.key, value, .value⟩]
  | .unset => []

def isOther (which : File) (keys : List Text) (raw : Text) : Bool :=
  match lineKey which raw with
  | some key => key ∉ keys
  | none => true

/--
What has become of the files of `base`.
-/
structure Rewritten (batch : List Change) (base disk : Disk) : Prop where
  changed : ∀ change ∈ batch, disk.readings change.key = change.wanted
  others : ∀ key, key ∉ batch.map Change.key → disk.readings key = base.readings key
  kept : ∀ which, (disk.lines which).filter (isOther which (batch.map Change.key))
    = (base.lines which).filter (isOther which (batch.map Change.key))
  untouched : ∀ which, (∀ change ∈ batch, keyFile change.key ≠ some which) → disk.files which = base.files which

end

section Edit

variable {which : File} {change : Change} {changes : List Change} {key : Text} {lines : List Text}

theorem readingOf_eq_none {raw : Text} (hfile : keyFile key = some which) (h : lineKey which raw ≠ some key)
    : readingOf key raw = none := by
  have hkey := (not_about_of_lineKey hfile h).1
  rwa [keyLine, Option.isSome_eq_false_iff, Option.isNone_iff_eq_none] at hkey

theorem filterMap_edit {β : Type} {f : Text → Option β} (hvalid : change.Valid)
    (hf : keyFile change.key = some which → ∀ raw, lineKey which raw = some change.key → f raw = none)
    : (change.edit which lines).filterMap f = lines.filterMap f := by
  unfold Change.edit
  by_cases hfile : keyFile change.key = some which
  . rw [if_pos hfile]
    have hkey := fun raw hraw => hf hfile raw (lineKey_of_keyLine hfile hraw)
    cases haction : change.action with
    | unset => exact filterMap_unsetLines hkey
    | set value =>
      apply filterMap_setLine _ hkey
      . intro raw hraw
        exact hf hfile raw (lineKey_of_templateLine hfile hraw)
      . exact hf hfile _ (lineKey_line hfile (hvalid value haction))
  . rw [if_neg hfile]

theorem filterMap_edit_self (hvalid : change.Valid) (hfile : keyFile change.key = some which)
    : (change.edit which lines).filterMap (readingOf change.key) = change.wanted := by
  have hother : ∀ raw, keyLine change.key raw = false → readingOf change.key raw = none := by
    intro raw hraw
    rwa [keyLine, Option.isSome_eq_false_iff, Option.isNone_iff_eq_none] at hraw
  unfold Change.edit Change.wanted
  rw [if_pos hfile]
  cases haction : change.action with
  | unset => exact filterMap_unsetLines_self hother
  | set value => exact filterMap_setLine_self (readingOf_line (hvalid value haction)) hother

theorem filterMap_edits {β : Type} {f : Text → Option β} (hvalid : ∀ change ∈ changes, change.Valid)
    (hf : ∀ change ∈ changes, keyFile change.key = some which →
      ∀ raw, lineKey which raw = some change.key → f raw = none)
    : (changes.foldl (Change.edit which) lines).filterMap f = lines.filterMap f := by
  induction changes generalizing lines with
  | nil => rfl
  | cons change changes ih =>
    rw [List.foldl_cons,
      ih (fun other hother => hvalid other (List.mem_cons_of_mem _ hother))
        (fun other hother => hf other (List.mem_cons_of_mem _ hother)),
      filterMap_edit (hvalid change (List.mem_cons_self ..)) (hf change (List.mem_cons_self ..))]

theorem readings_other (hvalid : ∀ change ∈ changes, change.Valid) (hfile : keyFile key = some which)
    (hkey : key ∉ changes.map Change.key)
    : (changes.foldl (Change.edit which) lines).filterMap (readingOf key) = lines.filterMap (readingOf key) := by
  apply filterMap_edits hvalid
  intro change hchange _ raw hraw
  apply readingOf_eq_none hfile
  rw [hraw]
  intro heq
  exact hkey (Option.some.inj heq ▸ List.mem_map_of_mem hchange)

theorem readings_self (hvalid : ∀ change ∈ changes, change.Valid) (hnodup : (changes.map Change.key).Nodup)
    (hchange : change ∈ changes) (hfile : keyFile change.key = some which)
    : (changes.foldl (Change.edit which) lines).filterMap (readingOf change.key) = change.wanted := by
  induction changes generalizing lines with
  | nil => cases hchange
  | cons first changes ih =>
    rw [List.map_cons, List.nodup_cons] at hnodup
    have hvalid' := fun other hother => hvalid other (List.mem_cons_of_mem first hother)
    cases List.mem_cons.mp hchange with
    | inl heq =>
      subst heq
      rw [List.foldl_cons, readings_other hvalid' hfile hnodup.1,
        filterMap_edit_self (hvalid change (List.mem_cons_self ..)) hfile]
    | inr hmem => exact ih hvalid' hnodup.2 hmem

theorem filter_isOther_edits (hvalid : ∀ change ∈ changes, change.Valid) {keys : List Text}
    (hkeys : ∀ change ∈ changes, change.key ∈ keys)
    : (changes.foldl (Change.edit which) lines).filter (isOther which keys) = lines.filter (isOther which keys) := by
  rw [← List.filterMap_eq_filter]
  apply filterMap_edits hvalid
  intro change hchange _ raw hraw
  have hother : isOther which keys raw = false := by
    rw [isOther, hraw]
    simpa using hkeys change hchange
  rw [Option.guard, hother]
  rfl

theorem edits_eq_self (hother : ∀ change ∈ changes, keyFile change.key ≠ some which)
    : changes.foldl (Change.edit which) lines = lines := by
  induction changes generalizing lines with
  | nil => rfl
  | cons change changes ih =>
    rw [List.foldl_cons, Change.edit, if_neg (hother change (List.mem_cons_self ..))]
    exact ih fun other hmem => hother other (List.mem_cons_of_mem _ hmem)

end Edit

section Changes

variable {disk : Disk} {change : Change}

omit [Ctype] in
theorem length_numbersFrom {α β : Type} {f : α → Option β} (lines : List α) (n : Nat)
    : (numbersFrom (fun raw => (f raw).isSome) lines n).length = (lines.filterMap f).length := by
  induction lines generalizing n with
  | nil => rfl
  | cons first lines ih =>
    rw [numbersFrom_cons, List.length_append, ih]
    cases hfirst : f first with
    | none => rw [List.filterMap_cons_none hfirst]; exact Nat.zero_add _
    | some b => rw [List.filterMap_cons_some hfirst]; exact Nat.add_comm ..

theorem readings_env {key : Text} (hkey : isEnvKey key = true)
    : disk.readings key = (disk.lines .env).filterMap (envOf key) := by
  have hreading : readingOf key = envOf key := by
    funext raw
    rw [readingOf, if_pos hkey]
  rw [Disk.readings, keyFile, if_pos hkey, hreading]

theorem readings_config {key : Text} {k : ConfigKey} (hkey : isEnvKey key = false)
    (hindex : configKeyIndex key = some k)
    : disk.readings key
        =
      ((disk.lines .config).filterMap (activeValue k)).map fun value => ⟨key, value, .value⟩ := by
  have hreading : readingOf key = fun raw => (activeValue k raw).map fun value => ⟨key, value, .value⟩ := by
    funext raw
    rw [readingOf, if_neg (by simp [hkey]), hindex]
  rw [Disk.readings, keyFile, if_neg (by simp [hkey]), hindex, hreading, List.map_filterMap]
  rfl

theorem key_of_envOf {key raw : Text} {line : EnvLine} (h : envOf key raw = some line) : line.key = key := by
  unfold envOf at h
  split at h
  . split at h
    . next heq =>
      cases h
      exact heq
    . cases h
  . cases h

theorem keyChanges_env (hkey : isEnvKey change.key = true)
    : keyChanges disk.settings change = true ↔ disk.readings change.key ≠ change.wanted := by
  unfold keyChanges Change.wanted
  rw [if_pos hkey, env_settings, readings_env hkey]
  have hlength := length_numbersFrom (f := envOf change.key) (disk.lines .env) 1
  have hkeys : ∀ line ∈ (disk.lines .env).filterMap (envOf change.key), line.key = change.key := by
    intro line hline
    have ⟨raw, _, hraw⟩ := List.mem_filterMap.mp hline
    exact key_of_envOf hraw
  revert hlength hkeys
  generalize (disk.lines .env).filterMap (envOf change.key) = readings
  intro hlength hkeys
  cases List.eq_nil_or_concat readings with
  | inl hempty =>
    subst hempty
    cases change.action with
    | set value => simp
    | unset => simp
  | inr hconcat =>
    have ⟨front, last, hlast⟩ := hconcat
    rw [List.concat_eq_append] at hlast
    subst hlast
    cases change.action with
    | unset => simp
    | set value =>
      rw [List.getLast?_concat, Option.map_some]
      dsimp only
      rw [hlength, List.length_append, List.length_singleton]
      have hlast := hkeys last (by simp)
      cases front with
      | nil =>
        cases last with
        | mk key value' kind =>
          cases hlast
          cases kind with
          | value => simp
          | bare => simp
      | cons first front => simp

theorem keyChanges_config {k : ConfigKey} (hkey : isEnvKey change.key = false)
    (hindex : configKeyIndex change.key = some k) (hvalid : change.Valid)
    : keyChanges disk.settings change = true ↔ disk.readings change.key ≠ change.wanted := by
  have hrecords := config_settings disk k
  have hbad := hrecords.badLine
  unfold keyChanges Change.wanted
  rw [if_neg (by simp [hkey]), hindex, readings_config hkey hindex]
  dsimp only
  rw [hrecords.count, hrecords.value]
  revert hbad
  generalize (disk.lines .config).filterMap (activeValue k) = values
  intro hbad
  cases haction : change.action with
  | unset => simp [List.length_pos_iff]
  | set value =>
    have ⟨k', hindex', hne, _, hvalue⟩ := validateValue_config hkey (hvalid value haction)
    rw [hindex] at hindex'
    cases hindex'
    match values with
    | [] => simp
    | [single] =>
      by_cases heq : single = value
      . subst heq
        have hnone := hbad.mpr (by simp [hvalue])
        simp [hnone]
      . simp [heq]
    | _ :: _ :: _ => simp

theorem keyChanges_iff (hvalid : change.Valid) (hfile : (keyFile change.key).isSome = true)
    : keyChanges disk.settings change = true ↔ disk.readings change.key ≠ change.wanted := by
  cases hkey : isEnvKey change.key with
  | true => exact keyChanges_env hkey
  | false =>
    rw [keyFile, if_neg (by simp [hkey]), Option.isSome_map] at hfile
    have ⟨k, hindex⟩ := Option.isSome_iff_exists.mp hfile
    exact keyChanges_config hkey hindex hvalid

theorem readings_of_not_keyChanges (hvalid : change.Valid) (hfile : (keyFile change.key).isSome = true)
    (hchanges : keyChanges disk.settings change = false)
    : disk.readings change.key = change.wanted := by
  by_contra hne
  rw [(keyChanges_iff hvalid hfile).mpr hne] at hchanges
  cases hchanges

theorem exists_line_of_keyChanges {which : File} (hvalid : change.Valid) (hfile : keyFile change.key = some which)
    (hchanges : keyChanges disk.settings change = true) (hunset : change.action = .unset)
    : ∃ raw ∈ disk.lines which, keyLine change.key raw = true := by
  have hne := (keyChanges_iff hvalid (by rw [hfile]; rfl)).mp hchanges
  rw [Change.wanted, hunset, Disk.readings, hfile] at hne
  have ⟨line, hline⟩ := List.exists_mem_of_ne_nil _ hne
  have ⟨raw, hraw, hreading⟩ := List.mem_filterMap.mp hline
  exact ⟨raw, hraw, by rw [keyLine, hreading]; rfl⟩

end Changes

section Batch

variable {base disk : Disk} {batch : List Change}

def Disk.rewritten (base : Disk) (which : File) (changes : List Change) : Option Text :=
  if changes.any fun change => keyFile change.key = some which then
    some (printLines (changes.foldl (Change.edit which) (base.lines which)))
  else
    base.files which

omit [Ctype] in
theorem not_mem_lines (which : File) : ∀ line ∈ base.lines which, '\n' ∉ line := by
  unfold Disk.lines
  cases base.files which with
  | none => simp
  | some text => exact fun line hline => not_mem_of_mem_readLines hline

theorem not_mem_keyFile {key : Text} {which : File} (hfile : keyFile key = some which) : '\n' ∉ key := by
  unfold keyFile at hfile
  cases hkey : isEnvKey key with
  | true => exact isEnvKey_not_mem hkey (by decide) (by decide) (by decide) (by decide)
  | false =>
    rw [if_neg (by simp [hkey])] at hfile
    cases hindex : configKeyIndex key with
    | none =>
      rw [hindex] at hfile
      cases hfile
    | some k =>
      intro hmem
      rw [← name_of_configKeyIndex hindex] at hmem
      exact absurd (name_chars k _ hmem).1.1 (by decide)

omit [Ctype] in
theorem mem_setLine {α : Type} {p t : α → Bool} {line a : α} {lines : List α} (h : a ∈ setLine p t line lines)
    : a = line ∨ a ∈ lines := by
  revert h
  apply setLine_cases (motive := fun old new => a ∈ new → a = line ∨ a ∈ old)
  . intro front old back _ _ h
    simp only [unsetLines, List.mem_append, List.mem_filter, List.mem_cons] at h ⊢
    rcases h with h | h | h
    . exact Or.inr (Or.inl h.1)
    . exact Or.inl h
    . exact Or.inr (Or.inr (Or.inr h))
  . intro front old back _ _ _ h
    simp only [List.mem_append, List.mem_cons] at h ⊢
    rcases h with h | h | h
    . exact Or.inr (Or.inl h)
    . exact Or.inl h
    . exact Or.inr (Or.inr (Or.inr h))
  . intro lines _ _ h
    simp only [List.mem_append, List.mem_singleton] at h
    exact h.symm

theorem validateValue_newline {key value : Text} (hvalid : validateValue key value = none) : '\n' ∉ value := by
  unfold validateValue at hvalid
  split at hvalid
  . cases hvalid
  . next hbreak =>
    rw [not_or] at hbreak
    exact hbreak.1

theorem mem_edits {which : File} {changes : List Change} {lines : List Text} {line : Text}
    (h : line ∈ changes.foldl (Change.edit which) lines)
    : line ∈ lines ∨ ∃ change ∈ changes, keyFile change.key = some which ∧
        ∃ value, change.action = .set value ∧ line = change.key ++ '=' :: value := by
  induction changes generalizing lines with
  | nil => exact Or.inl h
  | cons change changes ih =>
    rw [List.foldl_cons] at h
    rcases ih h with hold | ⟨other, hother, hline⟩
    . unfold Change.edit at hold
      split at hold
      . next hfile =>
        split at hold
        . next value haction =>
          cases mem_setLine hold with
          | inl hline => exact Or.inr ⟨change, List.mem_cons_self .., hfile, value, haction, hline⟩
          | inr hold => exact Or.inl hold
        . exact Or.inl (List.mem_of_mem_filter hold)
      . exact Or.inl hold
    . exact Or.inr ⟨other, List.mem_cons_of_mem _ hother, hline⟩

theorem lines_rewritten {changes : List Change} {which : File} (hvalid : ∀ change ∈ changes, change.Valid)
    (hfiles : disk.files which = base.rewritten which changes)
    : disk.lines which = changes.foldl (Change.edit which) (base.lines which) := by
  unfold Disk.rewritten at hfiles
  rw [Disk.lines, hfiles]
  split
  . apply readLines_printLines
    intro line hline
    rcases mem_edits hline with hold | ⟨change, hchange, hfile, value, haction, hline⟩
    . exact not_mem_lines which line hold
    . rw [hline]
      simp only [List.mem_append, List.mem_cons, not_or]
      exact ⟨not_mem_keyFile hfile, by decide, validateValue_newline (hvalid change hchange value haction)⟩
  . next hnone =>
    have hother : ∀ change ∈ changes, keyFile change.key ≠ some which := by simpa using hnone
    exact (edits_eq_self hother).symm

section Files

variable {changes : List Change} (hvalid : ∀ change ∈ changes, change.Valid)
  (hfiles : ∀ which, disk.files which = base.rewritten which changes)

include hvalid hfiles

theorem readings_rewritten_other {key : Text} (hkey : key ∉ changes.map Change.key)
    : disk.readings key = base.readings key := by
  unfold Disk.readings
  cases hkeyFile : keyFile key with
  | none => rfl
  | some which =>
    dsimp only
    rw [lines_rewritten hvalid (hfiles which)]
    exact readings_other hvalid hkeyFile hkey

theorem readings_rewritten_self {change : Change} (hnodup : (changes.map Change.key).Nodup)
    (hchange : change ∈ changes) (hfile : (keyFile change.key).isSome = true)
    : disk.readings change.key = change.wanted := by
  obtain ⟨which, hkeyFile⟩ := Option.isSome_iff_exists.mp hfile
  rw [Disk.readings, hkeyFile]
  dsimp only
  rw [lines_rewritten hvalid (hfiles which)]
  exact readings_self hvalid hnodup hchange hkeyFile

end Files

theorem rewritten_of_files (hvalid : ∀ change ∈ batch, change.Valid)
    (hfile : ∀ change ∈ batch, (keyFile change.key).isSome = true) (hnodup : (batch.map Change.key).Nodup)
    (hfiles : ∀ which, disk.files which = base.rewritten which (batch.filter (keyChanges base.settings)))
    : Rewritten batch base disk := by
  have hvalid' : ∀ change ∈ batch.filter (keyChanges base.settings), change.Valid :=
    fun change hchange => hvalid change (List.mem_of_mem_filter hchange)
  have hnodup' : ((batch.filter (keyChanges base.settings)).map Change.key).Nodup :=
    hnodup.sublist (List.filter_sublist.map Change.key)
  have hother (key : Text) (hkey : key ∉ (batch.filter (keyChanges base.settings)).map Change.key)
      : disk.readings key = base.readings key :=
    readings_rewritten_other hvalid' hfiles hkey
  exact {
    changed := by
      intro change hchange
      cases hchanges : keyChanges base.settings change with
      | true =>
        have hmem : change ∈ batch.filter (keyChanges base.settings) := List.mem_filter.mpr ⟨hchange, hchanges⟩
        exact readings_rewritten_self hvalid' hfiles hnodup' hmem (hfile change hchange)
      | false =>
        -- the change has been left out, because its key is read as wanted already
        rw [← readings_of_not_keyChanges (hvalid change hchange) (hfile change hchange) hchanges]
        apply hother
        intro hmem
        obtain ⟨other, hother', hkey⟩ := List.mem_map.mp hmem
        obtain ⟨hother'', hchanges'⟩ := List.mem_filter.mp hother'
        rw [List.inj_on_of_nodup_map hnodup hother'' hchange hkey, hchanges] at hchanges'
        cases hchanges'
    others := by
      intro key hkey
      apply hother
      intro hmem
      obtain ⟨change, hchange, heq⟩ := List.mem_map.mp hmem
      exact hkey (heq ▸ List.mem_map_of_mem (List.mem_of_mem_filter hchange))
    kept := by
      intro which
      rw [lines_rewritten hvalid' (hfiles which)]
      apply filter_isOther_edits hvalid'
      intro change hchange
      exact List.mem_map_of_mem (List.mem_of_mem_filter hchange)
    untouched := by
      intro which hwhich
      rw [hfiles which, Disk.rewritten, if_neg]
      rw [List.any_eq_true]
      rintro ⟨change, hchange, hkeyFile⟩
      exact hwhich change (List.mem_of_mem_filter hchange) (of_decide_eq_true hkeyFile)
  }

end Batch

end Kerghan.Standalone
