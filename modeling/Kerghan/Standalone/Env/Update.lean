import Mathlib.Data.List.Forall2
import Mathlib.Data.List.Nodup
import Kerghan.Standalone.Env.Presence
import Kerghan.Standalone.Lemmas.Failing

/-!
This module contains the proof that `update-env` only adds: what `kerghan.env` said before it still says,
and every key of a new installation that had no line has got one.
-/

namespace Kerghan.Standalone

open Shell

variable [Ctype]

section

/--
What the content `new` adds to the content `old`.
-/
structure OnlyAdds (old new : Text) (added : List Text) : Prop where
  /-- The old lines as they were, the last one with a newline, and then a line for each key. -/
  content : new = old ∨ ∃ lines, new = addMissingEnvKeys.terminated old ++ printLines lines
  kept : old <+: new
  readings : ∀ key entry, (readEnvFile.text old).index key = some entry →
    (readEnvFile.text new).index key = some entry
  complete : ∀ key ∈ DEFAULT_ENV_KEYS, ((readEnvFile.text new).index key).isSome = true
  added_eq : added = DEFAULT_ENV_KEYS.filter fun key => ((readEnvFile.text old).index key).isNone
  entries : ∃ entries, (readEnvFile.text new).entries = (readEnvFile.text old).entries ++ entries ∧
    entries.map EnvEntry.key = added ∧
    ∀ entry ∈ entries, entry.kind = .value ∧ ∃ n, entry.lines = [n]

/--
What is promised about `update-env` on a file with the content `old`.
-/
structure UpdatesEnv (old : Text) : Prop where
  returns : ∀ disk, Holds old disk → ∀ result disk', Prog.Runs exec addMissingEnvKeys disk result disk' →
    ∃ keys, result = .ok keys
  adds : ∀ disk, Holds old disk → ∀ keys disk',
    Prog.Runs exec addMissingEnvKeys disk (.ok (some keys)) disk' →
      ∃ new, Holds new disk' ∧ OnlyAdds old new keys.missing ∧ disk'.files .config = disk.files .config
  repeats : ∀ disk, Holds old disk → ∀ keys disk',
    Prog.Runs exec addMissingEnvKeys disk (.ok (some keys)) disk' →
      ∀ result disk'', Prog.Runs exec addMissingEnvKeys disk' result disk'' →
        (∃ keys', result = .ok (some keys') ∧ keys'.missing = []) ∧ disk''.files = disk'.files
  unchanged : ∀ disk, Holds old disk → ∀ disk', Prog.Runs exec addMissingEnvKeys disk (.ok none) disk' →
    disk'.files = disk.files
  /-- A step that generates a value or takes part in the write fails. -/
  fails : ∀ disk, Holds old disk → ∀ result disk' events,
    Prog.Runs (Prog.logged exec) addMissingEnvKeys (disk, []) result (disk', events) →
      somethingFailed events = true → result = .ok none ∧ disk'.files = disk.files
  succeeds : ∀ disk, Holds old disk → ∀ result disk' events,
    Prog.Runs (Prog.logged exec) addMissingEnvKeys (disk, []) result (disk', events) →
      somethingFailed events = false → ∃ keys, result = .ok (some keys)

end

section Generate

variable {disk disk' : Disk} {key value : Text}

def IsPlain (value : Text) : Prop :=
  value ≠ [] ∧ ∀ c ∈ value, 33 ≤ c.toNat ∧ c.toNat ≤ 126

omit [Ctype] in
theorem IsPlain.not_mem (h : IsPlain value) : '\n' ∉ value := by
  intro hmem
  have hchar := (h.2 _ hmem).1
  exact absurd hchar (by decide)

omit [Ctype] in
theorem isPlain_of_prints {secret : Secret} (h : secret.prints value = true) : IsPlain value := by
  have hrange (c : Char) (hc : c.isAlphanum = true) : 33 ≤ c.toNat ∧ c.toNat ≤ 126 := by
    have hclasses : (decide (65 ≤ c.val ∧ c.val ≤ 90) || (97 ≤ c.val && c.val ≤ 122) ||
      (48 ≤ c.val && c.val ≤ 57)) = true := hc
    simp only [Bool.or_eq_true, Bool.and_eq_true, decide_eq_true_eq, UInt32.le_iff_toNat_le] at hclasses
    change 33 ≤ c.val.toNat ∧ c.val.toNat ≤ 126
    rcases hclasses with (⟨hlow, hhigh⟩ | ⟨hlow, hhigh⟩) | ⟨hlow, hhigh⟩
    . have hupper : 65 ≤ c.val.toNat ∧ c.val.toNat ≤ 90 := ⟨hlow, hhigh⟩
      omega
    . have hlower : 97 ≤ c.val.toNat ∧ c.val.toNat ≤ 122 := ⟨hlow, hhigh⟩
      omega
    . have hdigit : 48 ≤ c.val.toNat ∧ c.val.toNat ≤ 57 := ⟨hlow, hhigh⟩
      omega
  cases secret with
  | base64 =>
    simp only [Secret.prints, Bool.and_eq_true, List.all_eq_true, decide_eq_true_eq, Bool.or_eq_true,
      beq_iff_eq] at h
    refine ⟨by intro hempty; simp [hempty] at h, fun c hc => ?_⟩
    rcases h.2 c hc with ((hchar | hchar) | hchar) | hchar
    . exact hrange c hchar
    . exact hchar ▸ by decide
    . exact hchar ▸ by decide
    . exact hchar ▸ by decide
  | hex =>
    simp only [Secret.prints, Bool.and_eq_true, List.all_eq_true, decide_eq_true_eq, Bool.or_eq_true] at h
    refine ⟨by intro hempty; simp [hempty] at h, fun c hc => ?_⟩
    cases h.2 c hc with
    | inl hdigit => exact hrange c (by simp [Char.isAlphanum, hdigit])
    | inr hletter =>
      have hlow : 97 ≤ c.toNat := hletter.1
      have hhigh : c.toNat ≤ 102 := hletter.2
      omega

omit [Ctype] in
theorem runs_secret {secret : Secret} {result : Except Failure (Option Text)}
    (hruns : Prog.Runs exec (Script.openssl secret) disk result disk')
    : disk' = disk ∧ ∃ value, result = .ok value ∧ ∀ text, value = some text → IsPlain text := by
  have ⟨chance, hrest⟩ := Prog.runs_step.mp hruns
  have ⟨hresult, hdisk⟩ := Prog.runs_pure.mp hrest
  refine ⟨hdisk, _, hresult, ?_⟩
  intro text htext
  have hprints : (if chance.succeeds && secret.prints chance.text then some chance.text else none) = some text :=
    htext
  rw [Option.ite_none_right_eq_some, Bool.and_eq_true, Option.some.injEq] at hprints
  exact hprints.2 ▸ isPlain_of_prints hprints.1.2

omit [Ctype] in
theorem runs_defaultEnvValue {result : Except Failure (Option Text)}
    (hruns : Prog.Runs exec (defaultEnvValue key) disk result disk')
    : disk' = disk ∧ ∃ value, result = .ok value ∧ ∀ text, value = some text → IsPlain text := by
  have hconstant (value : Option Text) (hvalue : ∀ text, value = some text → IsPlain text)
      (hruns : Prog.Runs exec (pure value : Script (Option Text)) disk result disk')
      : disk' = disk ∧ ∃ value, result = .ok value ∧ ∀ text, value = some text → IsPlain text := by
    have ⟨hresult, hdisk⟩ := Prog.runs_pure.mp hruns
    exact ⟨hdisk, value, hresult, hvalue⟩
  have hsome (text : Text) (hplain : IsPlain text) : ∀ text', some text = some text' → IsPlain text' := by
    intro text' htext'
    cases htext'
    exact hplain
  unfold defaultEnvValue at hruns
  split at hruns
  . exact runs_secret hruns
  . split at hruns
    . exact runs_secret hruns
    . split at hruns
      . exact hconstant _ (hsome _ (by simp [IsPlain])) hruns
      . split at hruns
        . exact hconstant _ (hsome _ (by simp [IsPlain])) hruns
        . split at hruns
          . exact hconstant _ (hsome _ (by simp [IsPlain])) hruns
          . exact hconstant _ (by simp) hruns

def IsLineOf (key line : Text) : Prop :=
  ∃ value, line = key ++ '=' :: value ∧ IsPlain value

omit [Ctype] in
/--
The induction is over the keys that are left, with the lines that have been made in `lines`.
-/
theorem runs_defaultEnvLines (keys lines : List Text) {result : Except Failure (Option Text)}
    (hruns : Prog.Runs exec (defaultEnvLines keys (printLines lines)) disk result disk')
    : disk' = disk ∧
        (result = .ok none ∨
          ∃ added, result = .ok (some (printLines (lines ++ added))) ∧ List.Forall₂ IsLineOf keys added) := by
  induction keys generalizing lines with
  | nil =>
    obtain ⟨hresult, hdisk⟩ := Prog.runs_pure.mp hruns
    exact ⟨hdisk, Or.inr ⟨[], by rw [List.append_nil]; exact hresult, .nil⟩⟩
  | cons key keys ih =>
    rw [defaultEnvLines] at hruns
    rcases Prog.runs_bind.mp hruns with ⟨value, disk₁, hvalue, hrest⟩ | ⟨failure, hfailure, _⟩
    . obtain ⟨hdisk₁, value', hvalue', hplain⟩ := runs_defaultEnvValue hvalue
      cases hvalue'
      rw [hdisk₁] at hrest
      cases value with
      | none =>
        obtain ⟨hresult, hdisk⟩ := Prog.runs_pure.mp hrest
        exact ⟨hdisk, Or.inl hresult⟩
      | some value =>
        have hlines : printLines lines ++ (key ++ '=' :: value ++ ['\n'])
            = printLines (lines ++ [key ++ '=' :: value]) := by
          simp [printLines]
        dsimp only at hrest
        rw [hlines] at hrest
        obtain ⟨hdisk, hresult⟩ := ih _ hrest
        refine ⟨hdisk, ?_⟩
        cases hresult with
        | inl hnone => exact Or.inl hnone
        | inr hsome =>
          obtain ⟨added, hadded, hkeys⟩ := hsome
          refine Or.inr ⟨(key ++ '=' :: value) :: added, ?_, .cons ⟨value, rfl, hplain value rfl⟩ hkeys⟩
          rw [hadded, List.append_assoc, List.singleton_append]
    . obtain ⟨_, value, hvalue, _⟩ := runs_defaultEnvValue hfailure
      cases hvalue

end Generate

section Check

variable {old new key : Text} {keys : List Text} {disk disk' : Disk} {env : EnvSettings}

theorem isEnvKey_default : ∀ key ∈ DEFAULT_ENV_KEYS, isEnvKey key = true := by
  intro key hkey
  simp only [DEFAULT_ENV_KEYS, List.mem_cons, List.not_mem_nil, or_false] at hkey
  rcases hkey with hkey | hkey | hkey | hkey | hkey | hkey | hkey
  all_goals exact isEnvKey_of_ascii hkey (by decide) (by decide)

theorem runs_check (hholds : Holds old disk) (keys : List Text) (found : EnvKeys)
    {result : Except Failure EnvKeys}
    (hruns : Prog.Runs exec (keys.foldlM addMissingEnvKeys.check found) disk result disk')
    : disk' = disk ∧ ∃ blank, result = .ok {
        missing := found.missing ++ keys.filter fun key => !grep (envFileHasKey.pattern key) old
        blank := blank
      } := by
  induction keys generalizing found with
  | nil =>
    have ⟨hresult, hdisk⟩ := Prog.runs_pure.mp hruns
    exact ⟨hdisk, found.blank, by rw [List.filter_nil, List.append_nil]; exact hresult⟩
  | cons key keys ih =>
    rw [List.foldlM_cons] at hruns
    have hcheck : ∃ blank, ∀ (result : Except Failure EnvKeys) disk',
        Prog.Runs exec (addMissingEnvKeys.check found key) disk result disk' ↔
          result = .ok {
            missing := found.missing ++ if grep (envFileHasKey.pattern key) old then [] else [key]
            blank := blank
          } ∧ disk' = disk := by
      unfold addMissingEnvKeys.check envFileHasKey envFileSets
      cases hfound : grep (envFileHasKey.pattern key) old with
      | false =>
        refine ⟨found.blank, fun result disk' => ?_⟩
        rw [Script.runs_bind_of_ok fun _ _ => runs_grepEnv hholds, hfound]
        exact Prog.runs_pure
      | true =>
        cases hsets : grep (envFileSets.pattern key) old with
        | false =>
          refine ⟨found.blank ++ [key], fun result disk' => ?_⟩
          rw [Script.runs_bind_of_ok fun _ _ => runs_grepEnv hholds, hfound]
          simp only [Bool.not_true, Bool.false_eq_true, if_false, if_true, List.append_nil]
          rw [Script.runs_bind_of_ok fun _ _ => runs_grepEnv hholds, hsets]
          exact Prog.runs_pure
        | true =>
          refine ⟨found.blank, fun result disk' => ?_⟩
          rw [Script.runs_bind_of_ok fun _ _ => runs_grepEnv hholds, hfound]
          simp only [Bool.not_true, Bool.false_eq_true, if_false, if_true, List.append_nil]
          rw [Script.runs_bind_of_ok fun _ _ => runs_grepEnv hholds, hsets]
          exact Prog.runs_pure
    have ⟨blank, hcheck⟩ := hcheck
    rw [Script.runs_bind_of_ok hcheck] at hruns
    have ⟨hdisk, blank', hresult⟩ := ih _ hruns
    refine ⟨hdisk, blank', ?_⟩
    rw [hresult, List.append_assoc]
    cases hfound : grep (envFileHasKey.pattern key) old with
    | false => rw [List.filter_cons_of_pos (by rw [hfound]; rfl)]; rfl
    | true => rw [List.filter_cons_of_neg (by rw [hfound]; simp)]; rfl

/--
`grep` and the parser miss the same keys.
-/
theorem filter_missing (old : Text)
    : (DEFAULT_ENV_KEYS.filter fun key => !grep (envFileHasKey.pattern key) old)
        =
      DEFAULT_ENV_KEYS.filter fun key => ((readEnvFile.text old).index key).isNone := by
  apply List.filter_congr
  intro key hkey
  have hfound := grep_envFileHasKey (isEnvKey_default key hkey) old
  rw [Bool.eq_iff_iff, Bool.not_eq_true', ← Bool.not_eq_true, hfound]
  simp

end Check

section Added

variable {old key : Text} {keys : List Text} {env : EnvSettings}

/--
New lines of new keys add entries at the end: the induction is over the new lines.
-/
theorem entries_added (added : List Text) (hlines : List.Forall₂ IsLineOf keys added) (n : Nat)
    (hkeys : ∀ key ∈ keys, isEnvKey key = true) (hnodup : keys.Nodup)
    (hnew : ∀ key ∈ keys, ∀ entry ∈ env.entries, entry.key ≠ key)
    : ∃ entries,
        ((added.zipIdx n).foldl (fun env (raw, n) => readEnvFile.line env raw n) env).entries
          =
        env.entries ++ entries ∧
          entries.map EnvEntry.key = keys ∧
          ∀ entry ∈ entries, entry.kind = .value ∧ ∃ n, entry.lines = [n] := by
  induction hlines generalizing env n with
  | nil => exact ⟨[], (List.append_nil _).symm, rfl, by simp⟩
  | @cons key line keys added hline hlines ih =>
    have ⟨value, hvalue, _⟩ := hline
    have ⟨hfresh, hnodup'⟩ := List.nodup_cons.mp hnodup
    have hfirst : (readEnvFile.line env line n).entries
        = env.entries ++ [⟨key, dropEnd '\r' value, .value, [n]⟩] := by
      rw [readEnvFile.line, hvalue, envLine_value (hkeys key (List.mem_cons_self ..))]
      exact recordEnv_of_new (hnew key (List.mem_cons_self ..))
    have ⟨entries, hentries, hmap, hkinds⟩ := @ih (readEnvFile.line env line n) (n + 1)
      (fun key' hkey' => hkeys key' (List.mem_cons_of_mem _ hkey')) hnodup' (by
        intro key' hkey' entry hentry
        rw [hfirst] at hentry
        cases List.mem_append.mp hentry with
        | inl hentry => exact hnew key' (List.mem_cons_of_mem _ hkey') entry hentry
        | inr hentry =>
          intro heq
          rw [List.mem_singleton.mp hentry] at heq
          have hsame : key = key' := heq
          exact hfresh (hsame ▸ hkey'))
    refine ⟨⟨key, dropEnd '\r' value, .value, [n]⟩ :: entries, ?_, by rw [List.map_cons, hmap], ?_⟩
    . rw [List.zipIdx_cons, List.foldl_cons, hentries, hfirst, List.append_assoc, List.singleton_append]
    . intro entry hentry
      cases List.mem_cons.mp hentry with
      | inl hfirst => exact hfirst ▸ ⟨rfl, n, rfl⟩
      | inr hrest => exact hkinds entry hrest

omit [Ctype] in
theorem readLines_added (old : Text) {added : List Text} (hadded : ∀ line ∈ added, '\n' ∉ line)
    : readLines (addMissingEnvKeys.terminated old ++ printLines added) = readLines old ++ added := by
  unfold addMissingEnvKeys.terminated
  split
  . next hopen =>
    have hend : (old ++ ['\n']).getLast? = some '\n' := List.getLast?_concat ..
    rw [readLines_append_text (Or.inr hend), readLines_printLines hadded, readLines_concat hopen.1 hopen.2]
  . next hclosed =>
    have hend : old = [] ∨ old.getLast? = some '\n' := by
      by_cases hempty : old = []
      . exact Or.inl hempty
      . exact Or.inr (Decidable.not_not.mp fun hlast => hclosed ⟨hempty, hlast⟩)
    rw [readLines_append_text hend, readLines_printLines hadded]

theorem mem_added {added : List Text} (hlines : List.Forall₂ IsLineOf keys added)
    (hkeys : ∀ key ∈ keys, isEnvKey key = true)
    : ∀ line ∈ added, line ≠ [] ∧ '\n' ∉ line := by
  induction hlines with
  | nil => simp
  | @cons key line keys added hline hlines ih =>
    intro line' hline'
    cases List.mem_cons.mp hline' with
    | inl hfirst =>
      have ⟨value, hvalue, hplain⟩ := hline
      have hkey := hkeys key (List.mem_cons_self ..)
      have hkey' : '\n' ∉ key := isEnvKey_not_mem hkey (by decide) (by decide) (by decide) (by decide)
      rw [hfirst, hvalue]
      simp [hkey', hplain.not_mem]
    | inr hrest => exact ih (fun key' hkey' => hkeys key' (List.mem_cons_of_mem _ hkey')) line' hrest

end Added

section Run

variable {old : Text} {disk disk' : Disk}

/--
The keys of a new installation that have no line in a file with the content `old`.
-/
def missingKeys (old : Text) : List Text :=
  DEFAULT_ENV_KEYS.filter fun key => ((readEnvFile.text old).index key).isNone

theorem isEnvKey_missing : ∀ key ∈ missingKeys old, isEnvKey key = true :=
  fun key hkey => isEnvKey_default key (List.mem_of_mem_filter hkey)

/--
How `add_missing_env_keys` ends: there was nothing to do, something failed, or the file has new lines.
-/
inductive Updated (old : Text) (disk disk' : Disk) : Except Failure (Option EnvKeys) → Prop where
  | complete (keys : EnvKeys) (hmissing : keys.missing = missingKeys old) (hnone : missingKeys old = [])
    (hdisk : disk' = disk) : Updated old disk disk' (.ok (some keys))
  | failed (hsome : missingKeys old ≠ []) (hfiles : disk'.files = disk.files) : Updated old disk disk' (.ok none)
  | added (keys : EnvKeys) (hmissing : keys.missing = missingKeys old) (hsome : missingKeys old ≠ [])
    (added : List Text)
    (hlines : List.Forall₂ IsLineOf (missingKeys old) added)
    (hfiles : disk'.files
        =
      Function.update disk.files .env (some (addMissingEnvKeys.terminated old ++ printLines added)))
    : Updated old disk disk' (.ok (some keys))

theorem runs_addMissingEnvKeys (hholds : Holds old disk) {result : Except Failure (Option EnvKeys)}
    (hruns : Prog.Runs exec addMissingEnvKeys disk result disk')
    : Updated old disk disk' result := by
  unfold addMissingEnvKeys at hruns
  rcases Prog.runs_bind.mp hruns with ⟨keys, disk₁, hcheck, hrest⟩ | ⟨failure, hfailure, _⟩
  . have ⟨hdisk₁, blank, hkeys⟩ := runs_check hholds _ _ hcheck
    cases hkeys
    rw [hdisk₁] at hrest
    rw [List.nil_append, filter_missing] at hrest
    change Prog.Runs exec (if missingKeys old = [] then _ else _) disk result disk' at hrest
    split at hrest
    . next hnone =>
      have ⟨hresult, hdisk⟩ := Prog.runs_pure.mp hrest
      rw [hresult]
      exact .complete _ rfl hnone hdisk
    -- the file is written once, after all values have been generated
    . next hsome =>
      rcases Prog.runs_bind.mp hrest with ⟨lines, disk₂, hgenerate, hrest'⟩ | ⟨failure, hfailure, _⟩
      . have ⟨hdisk₂, hlines⟩ := runs_defaultEnvLines (missingKeys old) [] hgenerate
        rw [hdisk₂] at hrest'
        cases hlines with
        | inl hnone =>
          cases hnone
          have ⟨hresult, hdisk⟩ := Prog.runs_pure.mp hrest'
          rw [hresult]
          exact .failed hsome (by rw [hdisk])
        | inr hsome' =>
          have ⟨added, hadded, hlines⟩ := hsome'
          cases hadded
          have hread : disk.files .env = some old := hholds
          dsimp only at hrest'
          rw [Script.runs_read, hread, List.nil_append] at hrest'
          have hpresent : added ≠ [] := by
            intro hempty
            subst hempty
            exact hsome (List.forall₂_nil_right_iff.mp hlines)
          dsimp only at hrest'
          rw [substitution_printLines hpresent (mem_added hlines isEnvKey_missing)] at hrest'
          rcases Prog.runs_bind.mp hrest' with ⟨written, disk₃, hwrite, hend⟩ | ⟨failure, hfailure, _⟩
          . rcases runs_writeFileAtomic hwrite with ⟨hwritten, hfiles⟩ | ⟨hwritten, hfiles⟩
            . cases hwritten
              have ⟨hresult, hdisk⟩ := Prog.runs_pure.mp hend
              rw [hresult]
              exact .added _ rfl hsome added hlines (by rw [hdisk, hfiles])
            . cases hwritten
              have ⟨hresult, hdisk⟩ := Prog.runs_pure.mp hend
              rw [hresult]
              exact .failed hsome (by rw [hdisk, hfiles])
          . rcases runs_writeFileAtomic hfailure with ⟨hwritten, _⟩ | ⟨hwritten, _⟩
            . cases hwritten
            . cases hwritten
      . have ⟨_, hlines⟩ := runs_defaultEnvLines (missingKeys old) [] hfailure
        rcases hlines with hnone | ⟨_, hsome', _⟩
        . cases hnone
        . cases hsome'
  . have ⟨_, _, hkeys⟩ := runs_check hholds _ _ hfailure
    cases hkeys

theorem onlyAdds_refl (hnone : missingKeys old = []) : OnlyAdds old old (missingKeys old) where
  content := Or.inl rfl
  kept := List.prefix_refl old
  readings _ _ hentry := hentry
  complete := by
    intro key hkey
    have hpresent := List.filter_eq_nil_iff.mp hnone key hkey
    rwa [Option.isNone_iff_eq_none, ← ne_eq, Option.ne_none_iff_isSome] at hpresent
  added_eq := rfl
  entries := ⟨[], (List.append_nil _).symm, by rw [hnone]; rfl, by simp⟩

theorem onlyAdds_added {added : List Text} (hlines : List.Forall₂ IsLineOf (missingKeys old) added)
    : OnlyAdds old (addMissingEnvKeys.terminated old ++ printLines added) (missingKeys old) := by
  have hread := readLines_added old fun line hline => (mem_added hlines isEnvKey_missing line hline).2
  have hnodup : (missingKeys old).Nodup := (by decide : DEFAULT_ENV_KEYS.Nodup).filter _
  have hnew : ∀ key ∈ missingKeys old, ∀ entry ∈ (readEnvFile.text old).entries, entry.key ≠ key := by
    intro key hkey entry hentry heq
    have hmissing := (List.mem_filter.mp hkey).2
    unfold EnvSettings.index at hmissing
    rw [Option.isNone_iff_eq_none, List.find?_eq_none] at hmissing
    exact hmissing entry hentry (by simpa using heq)
  have ⟨entries, hentries, hmap, hkinds⟩ := entries_added added hlines
    (1 + (readLines old).length) isEnvKey_missing hnodup hnew
  have htext : (readEnvFile.text (addMissingEnvKeys.terminated old ++ printLines added)).entries
      = (readEnvFile.text old).entries ++ entries := by
    rw [← hentries, readEnvFile.text, readEnvFile.text, hread, List.zipIdx_append, List.foldl_append]
  have hreadings : ∀ key entry, (readEnvFile.text old).index key = some entry →
      (readEnvFile.text (addMissingEnvKeys.terminated old ++ printLines added)).index key = some entry := by
    intro key entry hentry
    unfold EnvSettings.index at hentry ⊢
    rw [htext, List.find?_append, hentry]
    rfl
  exact {
    content := Or.inr ⟨added, rfl⟩
    kept := by
      unfold addMissingEnvKeys.terminated
      split
      . rw [List.append_assoc]
        exact List.prefix_append ..
      . exact List.prefix_append ..
    readings := hreadings
    complete := by
      intro key hkey
      cases hold : (readEnvFile.text old).index key with
      | some entry => rw [hreadings key entry hold]; rfl
      | none =>
        have hmem : key ∈ entries.map EnvEntry.key := by
          rw [hmap]
          exact List.mem_filter.mpr ⟨hkey, by rw [hold]; rfl⟩
        have ⟨entry, hentry, hkey'⟩ := List.mem_map.mp hmem
        unfold EnvSettings.index
        rw [htext, List.find?_isSome]
        exact ⟨entry, List.mem_append_right _ hentry, by simpa using hkey'⟩
    added_eq := rfl
    entries := ⟨entries, htext, hmap, hkinds⟩
  }

end Run

section Failing

open Script

variable {disk disk' : Disk} {result : Except Failure (Option EnvKeys)} {events : History Step Reply}

omit [Ctype] in
theorem tells_grepEnv {pattern : Pattern} : Tells false (fun _ failed => failed = false) (grepEnv pattern) := by
  refine .step fun text _ => ?_
  cases text with
  | none => exact tells_pure rfl
  | some text => exact tells_pure rfl

/--
Looking for a key cannot fail.
-/
theorem tells_check {keys : EnvKeys} {key : Text} (hkeys : ∀ key ∈ keys.missing, key ∈ DEFAULT_ENV_KEYS)
    (hkey : key ∈ DEFAULT_ENV_KEYS)
    : Tells false (fun keys' failed => failed = false ∧ ∀ key ∈ keys'.missing, key ∈ DEFAULT_ENV_KEYS)
        (addMissingEnvKeys.check keys key) := by
  unfold addMissingEnvKeys.check envFileHasKey envFileSets
  refine tells_grepEnv.bind ?_
  rintro hasKey _ rfl
  cases hasKey with
  | false =>
    refine tells_pure ⟨rfl, fun key' hkey' => ?_⟩
    cases List.mem_append.mp hkey' with
    | inl hold => exact hkeys key' hold
    | inr hnew => exact List.mem_singleton.mp hnew ▸ hkey
  | true =>
    refine tells_grepEnv.bind ?_
    rintro sets _ rfl
    cases sets with
    | false => exact tells_pure ⟨rfl, hkeys⟩
    | true => exact tells_pure ⟨rfl, hkeys⟩

theorem tells_checks (keys : List Text) (hdefault : ∀ key ∈ keys, key ∈ DEFAULT_ENV_KEYS) (found : EnvKeys)
    (hfound : ∀ key ∈ found.missing, key ∈ DEFAULT_ENV_KEYS)
    : Tells false (fun keys' failed => failed = false ∧ ∀ key ∈ keys'.missing, key ∈ DEFAULT_ENV_KEYS)
        (keys.foldlM addMissingEnvKeys.check found) := by
  induction keys generalizing found with
  | nil => exact tells_pure ⟨rfl, hfound⟩
  | cons key keys ih =>
    rw [List.foldlM_cons]
    refine (tells_check hfound (hdefault key (List.mem_cons_self ..))).bind ?_
    rintro found' _ ⟨rfl, hfound'⟩
    exact ih (fun key' hkey' => hdefault key' (List.mem_cons_of_mem _ hkey')) found' hfound'

theorem tells_addMissingEnvKeys : Tells false (fun keys failed => failed = keys.isNone) addMissingEnvKeys := by
  unfold addMissingEnvKeys
  refine (tells_checks DEFAULT_ENV_KEYS (fun _ hkey => hkey) ⟨[], []⟩ (by simp)).bind ?_
  rintro keys _ ⟨rfl, hkeys⟩
  split
  . exact tells_pure rfl
  . refine (tells_defaultEnvLines _ hkeys []).bind ?_
    rintro lines _ rfl
    cases lines with
    | none => exact tells_pure rfl
    | some lines =>
      refine .step fun old hread => ?_
      cases old with
      | none => cases hread
      | some old =>
        refine tells_writeFileAtomic.bind ?_
        rintro written _ rfl
        cases written with
        | false => exact tells_pure rfl
        | true => exact tells_pure rfl

omit [Ctype] in
/--
A step never removes `kerghan.env`.
-/
theorem exec_reads (step : Step) (chance : Chance) (disk : Disk) (hpresent : (disk.files .env).isSome = true)
    : EnvReads step (exec step chance disk).1 ∧ ((exec step chance disk).2.files .env).isSome = true := by
  cases step with
  | read file =>
    cases file with
    | config => exact ⟨trivial, hpresent⟩
    | env => exact ⟨hpresent, hpresent⟩
  | mktemp file =>
    simp only [exec]
    split
    . exact ⟨trivial, hpresent⟩
    . exact ⟨trivial, hpresent⟩
  | rename temp file =>
    simp only [exec]
    split
    . refine ⟨trivial, ?_⟩
      cases file with
      | config => exact hpresent
      | env => exact rfl
    . exact ⟨trivial, hpresent⟩
  | _ => exact ⟨trivial, hpresent⟩

theorem runs_logged_addMissingEnvKeys (hpresent : (disk.files .env).isSome = true)
    (hruns : Prog.Runs (Prog.logged exec) addMissingEnvKeys (disk, []) result (disk', events))
    : ∃ keys, result = .ok keys ∧ somethingFailed events = keys.isNone :=
  Prog.Meets.runs_logged_of_invariant exec_reads hpresent (tells_addMissingEnvKeys [] rfl) hruns

end Failing

theorem updatesEnv (old : Text) : UpdatesEnv old where
  returns := by
    intro disk hholds result disk' hruns
    cases runs_addMissingEnvKeys hholds hruns with
    | complete keys => exact ⟨_, rfl⟩
    | failed => exact ⟨_, rfl⟩
    | added keys => exact ⟨_, rfl⟩
  adds := by
    intro disk hholds keys disk' hruns
    cases runs_addMissingEnvKeys hholds hruns with
    | complete keys hmissing hnone hdisk =>
      exact ⟨old, hdisk ▸ hholds, hmissing ▸ onlyAdds_refl hnone, by rw [hdisk]⟩
    | added keys hmissing _ added hlines hfiles =>
      exact ⟨_, by rw [Holds, hfiles, Function.update_self], hmissing ▸ onlyAdds_added hlines, by rw [hfiles]; rfl⟩
  repeats := by
    intro disk hholds keys disk' hruns result disk'' hruns'
    -- a file to which the missing keys have been added misses none
    have hnone (new : Text) (hadds : OnlyAdds old new (missingKeys old)) : missingKeys new = [] := by
      apply List.filter_eq_nil_iff.mpr
      intro key hkey
      have hpresent := hadds.complete key hkey
      rw [Option.isNone_eq_false_iff.mpr hpresent]
      exact Bool.false_ne_true
    have hagain (new : Text) (hholds' : Holds new disk') (hnone : missingKeys new = [])
        : (∃ keys', result = .ok (some keys') ∧ keys'.missing = []) ∧ disk''.files = disk'.files := by
      cases runs_addMissingEnvKeys hholds' hruns' with
      | complete keys' hmissing' _ hdisk' => exact ⟨⟨keys', rfl, hmissing'.trans hnone⟩, by rw [hdisk']⟩
      | failed hsome => exact absurd hnone hsome
      | added _ _ hsome => exact absurd hnone hsome
    cases runs_addMissingEnvKeys hholds hruns with
    | complete keys hmissing hmissing' hdisk =>
      exact hagain old (hdisk ▸ hholds) hmissing'
    | added keys hmissing _ added hlines hfiles =>
      exact hagain _ (by rw [Holds, hfiles, Function.update_self]) (hnone _ (onlyAdds_added hlines))
  unchanged := by
    intro disk hholds disk' hruns
    generalize hresult : (.ok none : Except Failure (Option EnvKeys)) = result at hruns
    cases runs_addMissingEnvKeys hholds hruns with
    | complete keys => cases hresult
    | failed _ hfiles => exact hfiles
    | added keys => cases hresult
  fails := by
    intro disk hholds result disk' events hruns hfailed
    have ⟨keys, hkeys, hnone⟩ := runs_logged_addMissingEnvKeys (Option.isSome_of_mem hholds) hruns
    rw [hfailed] at hnone
    cases keys with
    | none =>
      refine ⟨hkeys, ?_⟩
      have hruns' := hruns.of_logged
      rw [hkeys] at hruns'
      cases runs_addMissingEnvKeys hholds hruns' with
      | failed _ hfiles => exact hfiles
    | some keys => cases hnone
  succeeds := by
    intro disk hholds result disk' events hruns hfailed
    have ⟨keys, hkeys, hnone⟩ := runs_logged_addMissingEnvKeys (Option.isSome_of_mem hholds) hruns
    cases keys with
    | none => exact absurd (hfailed.symm.trans hnone) Bool.false_ne_true
    | some keys => exact ⟨keys, hkeys⟩

section Keys

/--
A `kerghan.env` of a user who has only set the password.
-/
def passwordOnly : Text :=
  "KERGHAN_DEFAULT_USER_PASSWORD=secret".toList

def passwordOnlyDisk : Disk where
  files
    | .config => none
    | .env => some passwordOnly
  temps _ := none
  nextTemp := 0

/--
`update-env` on that file where every step that can fail does as `chance` says.
-/
def passwordOnlyRun (chance : Chance) : Except Failure (Option EnvKeys) × Disk × History Step Reply :=
  (@addMissingEnvKeys .posix).eval (Prog.logged exec) chance (passwordOnlyDisk, [])

omit [Ctype] in
theorem passwordOnlyRun_ends
    : ((passwordOnlyRun ⟨false, []⟩).1 = .ok none ∧
        (passwordOnlyRun ⟨false, []⟩).2.1.files = passwordOnlyDisk.files) ∧
          ∃ keys, (passwordOnlyRun ⟨true, List.replicate 44 'A'⟩).1 = .ok (some keys) := by
  let _ := Ctype.posix
  have hfailed : somethingFailed (passwordOnlyRun ⟨false, []⟩).2.2 = true := by decide
  have hcalm : somethingFailed (passwordOnlyRun ⟨true, List.replicate 44 'A'⟩).2.2 = false := by decide
  exact ⟨(updatesEnv passwordOnly).fails passwordOnlyDisk rfl _ _ _ Prog.eval_runs hfailed,
    (updatesEnv passwordOnly).succeeds passwordOnlyDisk rfl _ _ _ Prog.eval_runs hcalm⟩

end Keys

end Kerghan.Standalone
