import Kerghan.Standalone.Configure.Recorded

/-!
This module contains the proof that the writer of `configure`, which edits an array of lines at the numbers that
its readers have recorded, gives each key of a batch its line, or takes it away, one key after the other.
-/

namespace Kerghan.Standalone

open Shell

variable [Ctype]

section

def Change.Valid (change : Change) : Prop :=
  ∀ value, change.action = .set value → validateValue change.key value = none

def Change.edit (which : File) (lines : List Text) (change : Change) : List Text :=
  if keyFile change.key = some which then
    match change.action with
    | .set value => setLine (keyLine change.key) (templateLine change.key) (change.key ++ '=' :: value) lines
    | .unset => unsetLines (keyLine change.key) lines
  else
    lines

structure BuildsContent (disk : Disk) (which : File) (changes : List Change) : Prop where
  print : (buildContent which disk.settings (disk.lines which) changes).draft.print
    = some (changes.foldl (Change.edit which) (disk.lines which))
  edited : (buildContent which disk.settings (disk.lines which) changes).edited = true ↔
    ∃ change ∈ changes, keyFile change.key = some which ∧
      (change.action = .unset → ∃ raw ∈ disk.lines which, keyLine change.key raw = true)

end

section Chars

variable {c : Char} {value : Text} {key : ConfigKey}

def IsGraph (c : Char) : Prop :=
  33 ≤ c.toNat ∧ c.toNat ≤ 126

theorem space_of_isGraph (h : IsGraph c) : Ctype.space c = false := by
  have hlow := h.1
  have hhigh := h.2
  rw [Ctype.space_ascii c (by omega)]
  simp only [Bool.or_eq_false_iff, beq_eq_false_iff_ne, Bool.and_eq_false_iff, decide_eq_false_iff_not]
  omega

omit [Ctype] in
theorem isGraph_of_isAlphanum (h : c.isAlphanum = true) : IsGraph c := by
  have hclasses : (decide (65 ≤ c.val ∧ c.val ≤ 90) || (97 ≤ c.val && c.val ≤ 122) ||
    (48 ≤ c.val && c.val ≤ 57)) = true := h
  simp only [Bool.or_eq_true, Bool.and_eq_true, decide_eq_true_eq, UInt32.le_iff_toNat_le] at hclasses
  change 33 ≤ c.val.toNat ∧ c.val.toNat ≤ 126
  rcases hclasses with (⟨hlow, hhigh⟩ | ⟨hlow, hhigh⟩) | ⟨hlow, hhigh⟩
  . have hupper : 65 ≤ c.val.toNat ∧ c.val.toNat ≤ 90 := ⟨hlow, hhigh⟩
    omega
  . have hlower : 97 ≤ c.val.toNat ∧ c.val.toNat ≤ 122 := ⟨hlow, hhigh⟩
    omega
  . have hdigit : 48 ≤ c.val.toNat ∧ c.val.toNat ≤ 57 := ⟨hlow, hhigh⟩
    omega

omit [Ctype] in
theorem isGraph_of_isDigits (h : isDigits value = true) : ∀ c ∈ value, IsGraph c := by
  simp only [isDigits, Bool.and_eq_true, List.all_eq_true] at h
  intro c hc
  exact isGraph_of_isAlphanum (by simp [Char.isAlphanum, h.2 c hc])

omit [Ctype] in
theorem isGraph_of_inValues {words : List Text}
    (hwords : (words.all fun word => word.all fun c => 33 ≤ c.toNat && c.toNat ≤ 126) = true)
    (h : inValues value words = true)
    : ∀ c ∈ value, IsGraph c := by
  intro c hc
  have hword := List.all_eq_true.mp (List.all_eq_true.mp hwords value (of_decide_eq_true h)) c hc
  simpa [IsGraph] using hword

omit [Ctype] in
theorem isGraph_of_validBind (h : validBind value = true) : ∀ c ∈ value, IsGraph c := by
  unfold validBind at h
  split at h
  . next first second third fourth hsplit =>
    have hjoin : ['.'].intercalate (value.splitOn '.') = value := List.intercalate_splitOn '.'
    simp only [Bool.and_eq_true, validOctet] at h
    intro c hc
    rw [← hjoin, hsplit] at hc
    have hchars : c ∈ first ∨ c = '.' ∨ c ∈ second ∨ c = '.' ∨ c ∈ third ∨ c = '.' ∨ c ∈ fourth := by
      simpa [List.intercalate, List.intersperse] using hc
    have hdot : c = '.' → IsGraph c := by
      intro hc
      subst hc
      exact ⟨by decide, by decide⟩
    rcases hchars with hc | hc | hc | hc | hc | hc | hc
    . exact isGraph_of_isDigits h.1.1.1.1.1 c hc
    . exact hdot hc
    . exact isGraph_of_isDigits h.1.1.2.1.1 c hc
    . exact hdot hc
    . exact isGraph_of_isDigits h.1.2.1.1 c hc
    . exact hdot hc
    . exact isGraph_of_isDigits h.2.1.1 c hc
  . cases h

omit [Ctype] in
theorem isGraph_of_validImageTag (h : validImageTag value = true) : ∀ c ∈ value, IsGraph c := by
  simp only [validImageTag, Bool.and_eq_true, List.all_eq_true, isTagChar, Bool.or_eq_true, beq_iff_eq] at h
  intro c hc
  rcases h.1.1.2 c hc with ((hchar | hchar) | hchar) | hchar
  . exact isGraph_of_isAlphanum hchar
  . exact hchar ▸ ⟨by decide, by decide⟩
  . exact hchar ▸ ⟨by decide, by decide⟩
  . exact hchar ▸ ⟨by decide, by decide⟩

omit [Ctype] in
theorem isGraph_of_valid (h : validConfigValue key value = true) : ∀ c ∈ value, IsGraph c := by
  unfold validConfigValue at h
  cases key with
  | port =>
    simp only [validPort, Bool.and_eq_true] at h
    exact isGraph_of_isDigits h.1.1.1
  | variant => exact isGraph_of_inValues (by decide) h
  | runtime => exact isGraph_of_inValues (by decide) h
  | stopTimeout =>
    simp only [validStopTimeout, Bool.and_eq_true] at h
    exact isGraph_of_isDigits h.1.1
  | imageTag => exact isGraph_of_validImageTag h
  | autoLogin => exact isGraph_of_inValues (by decide) h
  | bind => exact isGraph_of_validBind h
  | restartOnUpdate => exact isGraph_of_inValues (by decide) h

omit [Ctype] in
theorem name_chars (key : ConfigKey) : ∀ c ∈ key.name, IsGraph c ∧ c ≠ '#' ∧ c ≠ '=' := by
  have hall : (key.name.all fun c => 33 ≤ c.toNat && c.toNat ≤ 126 && c != '#' && c != '=') = true := by
    cases key <;> decide
  intro c hc
  have hchar := List.all_eq_true.mp hall c hc
  simp only [Bool.and_eq_true, decide_eq_true_eq, bne_iff_ne] at hchar
  exact ⟨⟨hchar.1.1.1, hchar.1.1.2⟩, hchar.1.2, hchar.2⟩

end Chars

section Reading

variable {key key' value raw : Text} {k : ConfigKey} {which : File}

theorem configLine_of_valid (hvalid : validConfigValue k value = true) (hhash : '#' ∉ value)
    : configLine (k.name ++ '=' :: value) = .active k value := by
  have hname := name_chars k
  have hvalue : ∀ c ∈ value, Ctype.space c = false := fun c hc => space_of_isGraph (isGraph_of_valid hvalid c hc)
  have hspaces : ∀ c ∈ k.name ++ '=' :: value, Ctype.space c = false := by
    intro c hc
    simp only [List.mem_append, List.mem_cons] at hc
    rcases hc with hc | hc | hc
    . exact space_of_isGraph (hname c hc).1
    . exact hc ▸ space_equals
    . exact hvalue c hc
  have hplain : '#' ∉ k.name ++ '=' :: value := by
    simp only [List.mem_append, List.mem_cons, not_or]
    exact ⟨fun hmem => (hname _ hmem).2.1 rfl, by decide, hhash⟩
  have hequals : '=' ∉ k.name := fun hmem => (hname _ hmem).2.2 rfl
  have hne : ¬k.name ++ '=' :: value = [] := by simp
  unfold configLine
  rw [before_eq_self hplain, trim_eq_self hspaces]
  dsimp only
  rw [if_neg hne, if_neg (by simp), before_append hequals, after_append hequals, trim_eq_self hvalue,
    trim_eq_self fun c hc => space_of_isGraph (hname c hc).1, configKeyIndex_name]

theorem validateValue_env (hvalid : validateValue key value = none)
    : '\r' ∉ value ∧ value ≠ [] := by
  unfold validateValue at hvalid
  split at hvalid
  . cases hvalid
  . next hbreak =>
    split at hvalid
    . cases hvalid
    . next hempty =>
      rw [not_or] at hbreak
      exact ⟨hbreak.2, hempty⟩

theorem validateValue_config (hkey : isEnvKey key = false) (hvalid : validateValue key value = none)
    : ∃ k, configKeyIndex key = some k ∧ value ≠ [] ∧ '#' ∉ value ∧ validConfigValue k value = true := by
  unfold validateValue at hvalid
  rw [hkey] at hvalid
  split at hvalid
  . cases hvalid
  . split at hvalid
    . cases hvalid
    . next hempty =>
      rw [if_pos (by rfl)] at hvalid
      cases hindex : configKeyIndex key with
      | none =>
        rw [hindex] at hvalid
        cases hvalid
      | some k =>
        rw [hindex] at hvalid
        dsimp only at hvalid
        split at hvalid
        . cases hvalid
        . next hhash =>
          refine ⟨k, rfl, hempty, hhash, ?_⟩
          cases hconfig : validConfigValue k value with
          | true => rfl
          | false => simp [hconfig] at hvalid

theorem readingOf_line (hvalid : validateValue key value = none)
    : readingOf key (key ++ '=' :: value) = some ⟨key, value, .value⟩ := by
  unfold readingOf
  cases hkey : isEnvKey key with
  | true =>
    rw [if_pos rfl, envOf, envLine_value hkey, dropEnd_eq_self (validateValue_env hvalid).1]
    exact if_pos rfl
  | false =>
    have ⟨k, hindex, _, hhash, hconfig⟩ := validateValue_config hkey hvalid
    have hname := name_of_configKeyIndex hindex
    rw [if_neg Bool.false_ne_true, hindex, ← hname]
    simp [activeValue, configLine_of_valid hconfig hhash]

def lineKey (which : File) (raw : Text) : Option Text :=
  match which with
  | .env => (envLine raw).map EnvLine.key
  | .config =>
    match configLine raw with
    | .active k _ => some k.name
    | .template k => some k.name
    | _ => none

theorem lineKey_of_keyLine (hfile : keyFile key = some which) (h : keyLine key raw = true)
    : lineKey which raw = some key := by
  unfold keyFile at hfile
  unfold keyLine readingOf at h
  cases hkey : isEnvKey key with
  | true =>
    rw [if_pos hkey] at hfile h
    cases hfile
    unfold envOf at h
    unfold lineKey
    split at h
    . next line hline =>
      split at h
      . next heq => rw [hline, Option.map_some, heq]
      . cases h
    . cases h
  | false =>
    rw [if_neg (by simp [hkey])] at hfile h
    cases hindex : configKeyIndex key with
    | none =>
      rw [hindex] at hfile
      cases hfile
    | some k =>
      rw [hindex] at hfile h
      cases hfile
      rw [Option.isSome_map, activeValue] at h
      unfold lineKey
      split at h
      . next k' value hline =>
        split at h
        . next heq =>
          rw [hline, heq]
          exact congrArg some (name_of_configKeyIndex hindex)
        . cases h
      . cases h

theorem lineKey_of_templateLine (hfile : keyFile key = some which) (h : templateLine key raw = true)
    : lineKey which raw = some key := by
  unfold keyFile at hfile
  unfold templateLine at h
  cases hkey : isEnvKey key with
  | true =>
    rw [hkey] at h
    cases h
  | false =>
    rw [if_neg (by simp [hkey])] at hfile
    cases hindex : configKeyIndex key with
    | none =>
      rw [hindex] at hfile
      cases hfile
    | some k =>
      rw [hindex] at hfile h
      cases hfile
      have htemplate : isTemplate k raw = true := by simpa [hkey] using h
      unfold isTemplate at htemplate
      unfold lineKey
      split at htemplate
      . next k' hline =>
        have heq : k' = k := of_decide_eq_true htemplate
        rw [hline, heq]
        exact congrArg some (name_of_configKeyIndex hindex)
      . cases htemplate

theorem lineKey_line (hfile : keyFile key = some which) (hvalid : validateValue key value = none)
    : lineKey which (key ++ '=' :: value) = some key := by
  apply lineKey_of_keyLine hfile
  rw [keyLine, readingOf_line hvalid]
  rfl

theorem not_about_of_lineKey (hfile : keyFile key = some which) (h : lineKey which raw ≠ some key)
    : keyLine key raw = false ∧ templateLine key raw = false := by
  constructor
  . cases hkey : keyLine key raw with
    | true => exact absurd (lineKey_of_keyLine hfile hkey) h
    | false => rfl
  . cases htemplate : templateLine key raw with
    | true => exact absurd (lineKey_of_templateLine hfile htemplate) h
    | false => rfl

end Reading

section Build

variable {disk : Disk} {which : File} {change : Change} {changes rest : List Change} {content : Content}
variable {result : List Text} {edits : Edits}

def Free (which : File) (changes : List Change) (raw : Text) : Prop :=
  ∃ change ∈ changes, lineKey which raw = some change.key

theorem free_of_about {raw : Text} (hfile : keyFile change.key = some which)
    (h : keyLine change.key raw = true ∨ templateLine change.key raw = true)
    : Free which (change :: rest) raw := by
  refine ⟨change, List.mem_cons_self .., ?_⟩
  cases h with
  | inl hkey => exact lineKey_of_keyLine hfile hkey
  | inr htemplate => exact lineKey_of_templateLine hfile htemplate

omit [Ctype] in
theorem key_ne_of_nodup (hnodup : ((change :: rest).map Change.key).Nodup) {other : Change} (hother : other ∈ rest)
    : other.key ≠ change.key := by
  intro heq
  rw [List.map_cons, List.nodup_cons] at hnodup
  exact hnodup.1 (heq ▸ List.mem_map_of_mem hother)

theorem free_rest {raw : Text} (hfile : keyFile change.key = some which)
    (hnodup : ((change :: rest).map Change.key).Nodup) (h : Free which rest raw)
    : Free which (change :: rest) raw ∧ keyLine change.key raw = false ∧ templateLine change.key raw = false := by
  have ⟨other, hother, hline⟩ := h
  refine ⟨⟨other, List.mem_cons_of_mem _ hother, hline⟩, not_about_of_lineKey hfile ?_⟩
  rw [hline]
  exact fun heq => key_ne_of_nodup hnodup hother (Option.some.inj heq)

theorem makes_change
    (h : content.draft.Makes (disk.lines which) result (Free which (change :: rest)) edits)
    (hvalid : change.Valid) (hnodup : ((change :: rest).map Change.key).Nodup)
    : ∃ edits', (content.change which disk.settings change).draft.Makes (disk.lines which)
        (change.edit which result) (Free which rest) edits' := by
  unfold Content.change Change.edit
  rw [keyLines_settings]
  by_cases hfile : keyFile change.key = some which
  . rw [if_pos hfile, if_pos hfile]
    have hkey : ∀ raw, keyLine change.key raw = true → Free which (change :: rest) raw :=
      fun raw hraw => free_of_about hfile (Or.inl hraw)
    have htemplate : ∀ raw, templateLine change.key raw = true → Free which (change :: rest) raw :=
      fun raw hraw => free_of_about hfile (Or.inr hraw)
    have hfree := fun raw (hraw : Free which rest raw) => free_rest hfile hnodup hraw
    dsimp only
    cases haction : change.action with
    | unset => exact h.unset hkey fun raw hraw => ⟨(hfree raw hraw).1, (hfree raw hraw).2.1⟩
    | set value =>
      apply h.set hkey htemplate hfree
      intro ⟨other, hother, hline⟩
      rw [lineKey_line hfile (hvalid value haction)] at hline
      exact key_ne_of_nodup hnodup hother (Option.some.inj hline).symm
  . rw [if_neg hfile, if_neg hfile]
    exact ⟨edits, h.weaken fun raw ⟨other, hother, hline⟩ => ⟨other, List.mem_cons_of_mem _ hother, hline⟩⟩

/--
The induction is over the changes that are left. Their lines are as they were.
-/
theorem makes_changes (changes : List Change)
    (h : content.draft.Makes (disk.lines which) result (Free which changes) edits)
    (hvalid : ∀ change ∈ changes, change.Valid) (hnodup : (changes.map Change.key).Nodup)
    : (changes.foldl (Content.change which disk.settings) content).draft.print
        = some (changes.foldl (Change.edit which) result) := by
  induction changes generalizing content result edits with
  | nil => exact h.print
  | cons change changes ih =>
    have ⟨edits', hchange⟩ := makes_change h (hvalid change (List.mem_cons_self ..)) hnodup
    rw [List.map_cons, List.nodup_cons] at hnodup
    exact ih hchange (fun other hother => hvalid other (List.mem_cons_of_mem _ hother)) hnodup.2

omit [Ctype] in
theorem numbers_isEmpty {p : Text → Bool} {lines : List Text}
    : (numbers p lines).isEmpty = false ↔ ∃ raw ∈ lines, p raw = true := by
  rw [← Bool.not_eq_true, List.isEmpty_iff]
  constructor
  . intro hne
    have ⟨n, hn⟩ := List.exists_mem_of_ne_nil _ hne
    have ⟨_, raw, hget, hraw⟩ := mem_numbersFrom.mp hn
    exact ⟨raw, List.mem_of_getElem? hget, hraw⟩
  . intro ⟨raw, hmem, hraw⟩ hnil
    have ⟨i, hget⟩ := List.getElem?_of_mem hmem
    have hn : i + 1 ∈ numbers p lines := mem_numbersFrom.mpr ⟨by omega, raw, hget, hraw⟩
    rw [hnil] at hn
    cases hn

theorem edited_changes (disk : Disk) (which : File) (changes : List Change) (content : Content)
    : (changes.foldl (Content.change which disk.settings) content).edited = true ↔
        content.edited = true ∨ ∃ change ∈ changes, keyFile change.key = some which ∧
          (change.action = .unset → ∃ raw ∈ disk.lines which, keyLine change.key raw = true) := by
  induction changes generalizing content with
  | nil => simp
  | cons change changes ih =>
    have hfirst : (content.change which disk.settings change).edited = true ↔
        content.edited = true ∨ keyFile change.key = some which ∧
          (change.action = .unset → ∃ raw ∈ disk.lines which, keyLine change.key raw = true) := by
      unfold Content.change
      rw [keyLines_settings]
      by_cases hfile : keyFile change.key = some which
      . rw [if_pos hfile]
        dsimp only
        cases haction : change.action with
        | set value => simp [Content.set, hfile]
        | unset => simp [Content.unset, hfile, ← numbers_isEmpty]
      . rw [if_neg hfile]
        simp [hfile]
    rw [List.foldl_cons, ih, hfirst, or_assoc]
    simp only [List.mem_cons, exists_eq_or_imp]

end Build

theorem edited_buildContent (disk : Disk) (which : File) (changes : List Change)
    : (buildContent which disk.settings (disk.lines which) changes).edited = true ↔
        ∃ change ∈ changes, keyFile change.key = some which ∧
          (change.action = .unset → ∃ raw ∈ disk.lines which, keyLine change.key raw = true) := by
  rw [buildContent, edited_changes]
  simp

theorem buildsContent (disk : Disk) (which : File) (changes : List Change)
    (hvalid : ∀ change ∈ changes, change.Valid) (hnodup : (changes.map Change.key).Nodup)
    : BuildsContent disk which changes where
  print := makes_changes changes (Draft.Makes.ofLines (disk.lines which) _) hvalid hnodup
  edited := edited_buildContent disk which changes

omit [Ctype] in
theorem buildsContent_replaced
    : @BuildsContent .posix
        ⟨fun _ => some "port=80\n#variant=online\nport = 81\n".toList, fun _ => none, 0, fun _ => false⟩ .config
        [⟨"port".toList, .set "8080".toList⟩, ⟨"variant".toList, .set "offline".toList⟩, ⟨"bind".toList, .unset⟩] := by
  apply @buildsContent .posix
  . intro change hchange value haction
    simp only [List.mem_cons, List.not_mem_nil, or_false] at hchange
    rcases hchange with heq | heq | heq
    . rw [heq] at haction ⊢
      cases haction
      decide +kernel
    . rw [heq] at haction ⊢
      cases haction
      decide +kernel
    . rw [heq] at haction
      cases haction
  . decide +kernel

end Kerghan.Standalone
