import Kerghan.Standalone.Configure.Writes
import Kerghan.Standalone.Up.Recreate

/-!
This module contains when the settings that `configure` shows are those that `up` uses. The two sides read
`kerghan.env` differently: `up` looks for any line of the default user that has a value, while `configure` goes by
the last line of each key.
-/

namespace Kerghan.Standalone

open Shell

variable [Ctype]

section

def DEFAULT_USER_KEYS : List Text :=
  [KERGHAN_DEFAULT_USER_USERNAME, KERGHAN_DEFAULT_USER_EMAIL, KERGHAN_DEFAULT_USER_PASSWORD]

def givesValue (key raw : Text) : Bool :=
  (envOf key raw).any fun line => line.kind = .value && hasText line.value

/--
Some line gives the key a value.
-/
def Disk.AnyValue (disk : Disk) (key : Text) : Prop :=
  ∃ raw ∈ disk.lines .env, givesValue key raw = true

/--
If each key of the default user is given a value, then by its last line.
-/
def LastDecides (disk : Disk) : Prop :=
  (∀ key ∈ DEFAULT_USER_KEYS, disk.AnyValue key) → disk.settings.env.hasDefaultUser = true

/--
What is promised about `configure` on files with which `up` gets as far as its settings.
-/
structure ShowsWhatUpUses (disk : Disk) : Prop where
  used : ∀ settings, Prog.Runs exec readSettings disk (.ok settings) disk →
    ∀ cfg, Prog.Runs exec loadConfig disk (.ok cfg) disk →
      ∀ disk', Prog.Runs exec cmdUp.requireEnv disk (.ok ()) disk' →
        ∀ autoLogin disk'', Prog.Runs exec (cmdUp.autoLogin (cfg.value .autoLogin)) disk' (.ok autoLogin) disk'' →
          ∀ key, (settings.configLookup key).value = cmdUp.effective cfg autoLogin key
  warned : ∀ settings, Prog.Runs exec readSettings disk (.ok settings) disk →
    ∀ cfg, Prog.Runs exec loadConfig disk (.ok cfg) disk →
      ∀ disk', Prog.Runs exec cmdUp.requireEnv disk (.ok ()) disk' →
        ((crossKeyWarnings settings).noDefaultUser = true ↔
          ∃ failure disk'', Prog.Runs exec (cmdUp.autoLogin (cfg.value .autoLogin)) disk' (.error failure) disk'')

end

section Grep

variable {key raw text : Text}

theorem hasText_iff (value : Text) : hasText value = true ↔ ∃ c ∈ value, Ctype.space c = false := by
  simp [hasText]

theorem hasText_dropEnd (value : Text) : hasText (dropEnd '\r' value) = hasText value := by
  cases dropEnd_cases '\r' value with
  | inl hsame => rw [← hsame]
  | inr hreturn =>
    generalize dropEnd '\r' value = rest at hreturn ⊢
    rw [hreturn]
    simp [hasText, space_return]

theorem exists_mem_envFileSets (hkey : isEnvKey key = true)
    : (∃ rest, rest ∈ envFileSets.pattern key raw) ↔
        ∃ value, trimStart raw = key ++ '=' :: value ∧ hasText value = true := by
  have ⟨hne, hspaces⟩ := And.intro (isEnvKey_chars hkey).1 (isEnvKey_space hkey)
  cases key with
  | nil => exact absurd rfl hne
  | cons c key =>
    have hc := hspaces c (List.mem_cons_self ..)
    have hfront (behind : Text)
        : (∃ s, s ∈ Pattern.many Ctype.space raw ∧ behind ∈ Pattern.literal (c :: (key ++ ['='])) s) ↔
            trimStart raw = c :: (key ++ ['=']) ++ behind := by
      rw [← Pattern.mem_andThen]
      exact Pattern.mem_many_literal hc
    unfold envFileSets.pattern
    rw [List.cons_append]
    constructor
    . intro ⟨rest, hrest⟩
      have ⟨s, hs, hrest⟩ := Pattern.mem_andThen.mp hrest
      have ⟨value, hvalue, hrest⟩ := Pattern.mem_andThen.mp hrest
      have ⟨s', hs', hone⟩ := Pattern.mem_andThen.mp hrest
      have ⟨front, _, hsplit⟩ := Pattern.mem_many.mp hs'
      have ⟨d, hd, hcons⟩ := Pattern.mem_one.mp hone
      have htrim := (hfront value).mp ⟨s, hs, hvalue⟩
      refine ⟨value, by rw [htrim]; simp, (hasText_iff value).mpr ⟨d, ?_, by simpa using hd⟩⟩
      rw [hsplit, hcons]
      simp
    . intro ⟨value, htrim, htext⟩
      have ⟨d, hd, hspace⟩ := (hasText_iff value).mp htext
      have ⟨front, rest, hsplit⟩ := List.append_of_mem hd
      have ⟨s, hs, hvalue⟩ := (hfront value).mpr (by rw [htrim]; simp)
      refine ⟨rest, Pattern.mem_andThen.mpr ⟨s, hs, Pattern.mem_andThen.mpr ⟨value, hvalue, ?_⟩⟩⟩
      refine Pattern.mem_andThen.mpr ⟨d :: rest, Pattern.mem_many.mpr ⟨front, by simp, hsplit⟩, ?_⟩
      exact Pattern.mem_one.mpr ⟨d, by simpa using hspace, rfl⟩

theorem envLine_trimStart (raw : Text) : envLine (trimStart raw) = envLine raw := by
  unfold envLine
  rw [trimStart_dropEnd space_return, trimStart_dropEnd space_return, trimStart_trimStart]

theorem givesValue_iff (hkey : isEnvKey key = true)
    : givesValue key raw = true ↔ ∃ value, trimStart raw = key ++ '=' :: value ∧ hasText value = true := by
  unfold givesValue envOf
  constructor
  . intro hgives
    unfold envLine at hgives
    rw [trimStart_dropEnd space_return] at hgives
    have hcases := dropEnd_cases '\r' (trimStart raw)
    generalize dropEnd '\r' (trimStart raw) = line at hgives hcases
    cases line with
    | nil => simp at hgives
    | cons c rest =>
      dsimp only at hgives
      split at hgives
      . next found hline =>
        split at hline
        . cases hline
        . split at hline
          . next hassigns =>
            cases hline
            split at hgives
            . next hname =>
              have htext : hasText (after '=' (c :: rest)) = true := by simpa using hgives
              have hline : key ++ '=' :: after '=' (c :: rest) = c :: rest := by
                rw [← hname]
                exact before_append_after hassigns
              cases hcases with
              | inl hsame => exact ⟨_, hsame.trans hline.symm, htext⟩
              | inr hreturn =>
                refine ⟨after '=' (c :: rest) ++ ['\r'], ?_, ?_⟩
                . rw [hreturn, ← List.cons_append, ← List.append_assoc, hline]
                . rw [← hasText_dropEnd, dropEnd_concat, if_pos rfl]
                  exact htext
            . cases hgives
          . cases hline
            split at hgives
            . simp at hgives
            . cases hgives
      . simp at hgives
  . intro ⟨value, htrim, htext⟩
    rw [← envLine_trimStart, htrim, envLine_value hkey]
    simp [hasText_dropEnd, htext]

end Grep

section Credentials

variable {disk disk' : Disk} {text key : Text} {cfg : Loaded}

omit [Ctype] in
theorem mem_default (hkey : key ∈ DEFAULT_USER_KEYS) : key ∈ DEFAULT_ENV_KEYS := by
  simp only [DEFAULT_USER_KEYS, DEFAULT_ENV_KEYS, List.mem_cons, List.not_mem_nil, or_false] at hkey ⊢
  rcases hkey with hkey | hkey | hkey
  . exact Or.inr (Or.inr (Or.inr (Or.inl hkey)))
  . exact Or.inr (Or.inr (Or.inr (Or.inr (Or.inl hkey))))
  . exact Or.inr (Or.inr (Or.inr (Or.inr (Or.inr (Or.inl hkey)))))

theorem isEnvKey_defaultUser (hkey : key ∈ DEFAULT_USER_KEYS) : isEnvKey key = true :=
  isEnvKey_default key (mem_default hkey)

omit [Ctype] in
theorem exists_isLineOf {keys lines : List Text} (hlines : List.Forall₂ IsLineOf keys lines) (hkey : key ∈ keys)
    : ∃ line ∈ lines, IsLineOf key line := by
  induction hlines with
  | nil => cases hkey
  | @cons first line keys lines hfirst _ ih =>
    cases List.mem_cons.mp hkey with
    | inl heq => exact ⟨line, List.mem_cons_self .., heq ▸ hfirst⟩
    | inr hrest =>
      have ⟨line', hline', his⟩ := ih hrest
      exact ⟨line', List.mem_cons_of_mem _ hline', his⟩

theorem grep_envFileSets (hkey : isEnvKey key = true) (text : Text)
    : grep (envFileSets.pattern key) text = true ↔ ∃ raw ∈ readLines text, givesValue key raw = true := by
  rw [grep_eq_true]
  simp only [exists_mem_envFileSets hkey, givesValue_iff hkey]

/--
What `up` finds out about the default user in a `kerghan.env` with this content.
-/
def hasCredentials (text : Text) : Bool :=
  DEFAULT_USER_KEYS.all fun key => grep (envFileSets.pattern key) text

theorem hasCredentials_iff (hfile : disk.files .env = some text)
    : hasCredentials text = true ↔ ∀ key ∈ DEFAULT_USER_KEYS, disk.AnyValue key := by
  unfold hasCredentials Disk.AnyValue Disk.lines
  rw [List.all_eq_true, hfile]
  constructor
  . intro hall key hkey
    exact (grep_envFileSets (isEnvKey_defaultUser hkey) text).mp (hall key hkey)
  . intro hall key hkey
    exact (grep_envFileSets (isEnvKey_defaultUser hkey) text).mpr (hall key hkey)

theorem runs_hasDefaultUserCredentials (hfile : disk.files .env = some text) {result : Except Failure Bool}
    : Prog.Runs exec hasDefaultUserCredentials disk result disk' ↔
        result = .ok (hasCredentials text) ∧ disk' = disk := by
  unfold hasDefaultUserCredentials envFileSets
  rw [Script.runs_bind_of_ok fun _ _ => runs_grepEnv hfile]
  unfold hasCredentials DEFAULT_USER_KEYS
  rw [List.all_cons, List.all_cons, List.all_cons, List.all_nil, Bool.and_true]
  cases grep (envFileSets.pattern KERGHAN_DEFAULT_USER_USERNAME) text with
  | false => exact Prog.runs_pure
  | true =>
    rw [if_pos rfl, Script.runs_bind_of_ok fun _ _ => runs_grepEnv hfile]
    cases grep (envFileSets.pattern KERGHAN_DEFAULT_USER_EMAIL) text with
    | false => exact Prog.runs_pure
    | true => exact runs_grepEnv hfile

/--
A value that `configure` goes by is one that `up` finds.
-/
theorem anyValue_of_valueSet (hset : disk.settings.env.valueSet key = true) : disk.AnyValue key := by
  unfold EnvSettings.valueSet at hset
  rw [env_settings] at hset
  cases hlast : ((disk.lines .env).filterMap (envOf key)).getLast? with
  | none => simp [hlast] at hset
  | some line =>
    rw [hlast, Option.map_some] at hset
    have ⟨raw, hraw, henv⟩ := List.mem_filterMap.mp (List.mem_of_getLast? hlast)
    refine ⟨raw, hraw, ?_⟩
    rw [givesValue, henv, Option.any_some]
    exact hset

theorem anyValue_of_hasDefaultUser (huser : disk.settings.env.hasDefaultUser = true)
    : ∀ key ∈ DEFAULT_USER_KEYS, disk.AnyValue key := by
  simp only [EnvSettings.hasDefaultUser, Bool.and_eq_true] at huser
  simp only [DEFAULT_USER_KEYS, List.mem_cons, List.not_mem_nil, or_false, forall_eq_or_imp, forall_eq]
  exact ⟨anyValue_of_valueSet huser.1.1, anyValue_of_valueSet huser.1.2, anyValue_of_valueSet huser.2⟩

theorem hasText_of_isPlain {value : Text} (hplain : IsPlain value) : hasText value = true := by
  cases value with
  | nil => exact absurd rfl hplain.1
  | cons c value =>
    have hrange := hplain.2 c (List.mem_cons_self ..)
    rw [hasText_iff]
    refine ⟨c, List.mem_cons_self .., ?_⟩
    rw [Ctype.space_ascii c (by omega)]
    simp only [Bool.or_eq_false_iff, beq_eq_false_iff_ne, Bool.and_eq_false_iff, decide_eq_false_iff_not]
    omega

/--
A new `kerghan.env` has the default user.
-/
theorem hasCredentials_made {lines : List Text} (hlines : List.Forall₂ IsLineOf DEFAULT_ENV_KEYS lines)
    : hasCredentials (printLines lines) = true := by
  have hread : readLines (printLines lines) = lines :=
    readLines_printLines fun line hline => (mem_added hlines isEnvKey_default line hline).2
  unfold hasCredentials
  rw [List.all_eq_true]
  intro key hkey
  have henv := isEnvKey_defaultUser hkey
  have ⟨line, hline, value, hvalue, hplain⟩ := exists_isLineOf hlines (mem_default hkey)
  rw [grep_envFileSets henv, hread]
  refine ⟨line, hline, ?_⟩
  unfold givesValue envOf
  rw [hvalue, envLine_value henv]
  simp [hasText_dropEnd, hasText_of_isPlain hplain]

end Credentials

section Up

variable {disk disk' disk'' : Disk} {text value : Text} {cfg : Loaded}

def decidedAutoLogin (explicitAutoLogin : Text) (credentials : Bool) : Except Failure Text :=
  if orDefault explicitAutoLogin DEFAULT_AUTO_LOGIN = "true".toList then
    if credentials then
      .ok "true".toList
    else if explicitAutoLogin ≠ [] then
      .error .noDefaultUser
    else
      .ok "false".toList
  else
    .ok (orDefault explicitAutoLogin DEFAULT_AUTO_LOGIN)

theorem runs_autoLogin (hfile : disk.files .env = some text) {result : Except Failure Text}
    : Prog.Runs exec (cmdUp.autoLogin value) disk result disk' ↔
        result = decidedAutoLogin value (hasCredentials text) ∧ disk' = disk := by
  unfold cmdUp.autoLogin decidedAutoLogin
  dsimp only
  split
  . next hon =>
    rw [Script.runs_bind_of_ok fun _ _ => runs_hasDefaultUserCredentials hfile]
    cases hasCredentials text with
    | true =>
      rw [if_pos rfl, if_pos rfl, hon]
      exact Prog.runs_pure
    | false =>
      rw [if_neg Bool.false_ne_true, if_neg Bool.false_ne_true]
      split
      . exact Prog.runs_throw
      . exact Prog.runs_pure
  . exact Prog.runs_pure

/--
What `up` and `configure` make of a `config` that `up` accepts.
-/
structure Reads (disk : Disk) (cfg : Loaded) : Prop where
  value : ∀ key, (disk.settings.config.entry key).value = cfg.value key
  good : ∀ key, (disk.settings.config.entry key).badLine = none
  valid : Valid cfg

theorem readable_of_loadConfig (hload : Prog.Runs exec loadConfig disk (.ok cfg) disk') : disk.Readable .config := by
  by_contra hunreadable
  cases ((Script.runs_readFile_of_not_readable hunreadable).mp hload).1

theorem reads_of_loadConfig (hload : Prog.Runs exec loadConfig disk (.ok cfg) disk') : Reads disk cfg := by
  have hresult := runs_loadConfig (readable_of_loadConfig hload) hload
  cases hfile : disk.files .config with
  | none =>
    rw [hfile] at hresult
    cases hresult
    exact {
      value := fun key => by simp [Disk.settings, hfile, ConfigSettings.empty, Loaded.none]
      good := fun key => by simp [Disk.settings, hfile, ConfigSettings.empty]
      valid := fun key => Or.inl rfl
    }
  | some text =>
    rw [hfile, Option.elim_some] at hresult
    have hagree := agree_of_loadConfig hresult.symm
    have hsettings : disk.settings.config = readConfigFile.text text := by
      rw [Disk.settings, hfile]
      rfl
    exact {
      value := fun key => by rw [hsettings, hagree.value key]
      good := fun key => by rw [hsettings, hagree.badLine key]
      valid := valid_of_loadConfig hresult.symm
    }

theorem runs_refuseClientManagedKeys (hfile : disk.files .env = some text) {result : Except Failure Unit}
    (hruns : Prog.Runs exec refuseClientManagedKeys disk result disk')
    : disk' = disk := by
  unfold refuseClientManagedKeys at hruns
  rw [Script.runs_bind_of_ok fun _ _ => runs_find hfile _ _] at hruns
  split at hruns
  . exact (Prog.runs_pure.mp hruns).2
  . exact (Prog.runs_throw.mp hruns).2

/--
Once `up` goes by its settings there is a `kerghan.env`, an old one or one that it has just made.
-/
theorem runs_requireEnv (hreadable : disk.Readable .env)
    (hruns : Prog.Runs exec cmdUp.requireEnv disk (.ok ()) disk')
    : ∃ text, disk'.files .env = some text ∧
        (disk.files .env = some text ∨ disk.files .env = none ∧ hasCredentials text = true) := by
  unfold cmdUp.requireEnv at hruns
  rw [Script.runs_exist_of_readable hreadable] at hruns
  cases hfile : disk.files .env with
  | some text =>
    rw [hfile] at hruns
    have hensured (result : Except Failure Bool) (disk₁ : Disk)
        : Prog.Runs exec ensureEnvFile disk result disk₁ ↔ result = .ok true ∧ disk₁ = disk := by
      unfold ensureEnvFile
      rw [Script.runs_exist_of_readable hreadable, hfile]
      exact Prog.runs_pure
    dsimp only [Option.isSome_some] at hruns
    rw [if_neg (by simp), Script.runs_bind_of_ok hensured] at hruns
    have hdisk : disk' = disk := runs_refuseClientManagedKeys hfile hruns
    exact ⟨text, by rw [hdisk, hfile], Or.inl rfl⟩
  | none =>
    rw [hfile] at hruns
    have hmade (hrest : Prog.Runs exec (ensureEnvFile >>= fun made =>
        if (!made) = true then (throw Failure.notWritten : Script Unit) >>= fun _ => refuseClientManagedKeys
        else refuseClientManagedKeys) disk (.ok ()) disk')
        : ∃ text, disk'.files .env = some text ∧
            (none = some text ∨ (none : Option Text) = none ∧ hasCredentials text = true) := by
      rcases Prog.runs_bind.mp hrest with ⟨made, disk₁, hmade, hrefuse⟩ | ⟨failure, _, hfailure⟩
      . rcases runs_ensureEnvFile hreadable hfile hmade with ⟨hresult, _⟩ | ⟨hresult, lines, hlines, hfiles⟩
        . cases hresult
          cases (Prog.runs_throw.mp hrefuse).1
        . cases hresult
          have hnew : disk₁.files .env = some (printLines lines) := by
            rw [hfiles, Function.update_self]
          have hdisk : disk' = disk₁ := runs_refuseClientManagedKeys hnew hrefuse
          exact ⟨printLines lines, by rw [hdisk, hnew], Or.inr ⟨rfl, hasCredentials_made hlines⟩⟩
      . cases hfailure
    have ⟨chance, hrest⟩ := Prog.runs_step.mp hruns
    change Prog.Runs exec (if chance.succeeds = true then _ else _) _ _ _ at hrest
    split at hrest
    . cases (Prog.runs_throw.mp hrest).1
    . exact hmade hrest

end Up

section Shown

variable {disk disk' disk'' : Disk} {text : Text} {cfg : Loaded}

theorem Reads.file (hreads : Reads disk cfg) (key : ConfigKey)
    : configLookup.file (disk.settings.config.entry key)
        =
      if cfg.value key ≠ [] then
        some { value := cfg.value key, raw := cfg.value key, source := .file, refused := false, isSet := true }
      else
        none := by
  unfold configLookup.file
  rw [hreads.value, hreads.good]
  rfl

/--
What `configure` shows of automatic login.
-/
theorem Reads.shown_autoLogin (hreads : Reads disk cfg)
    : disk.settings.autoLogin
        =
      if cfg.value .autoLogin ≠ [] then
        { value := cfg.value .autoLogin, raw := cfg.value .autoLogin, source := .file, refused := false, isSet := true }
      else if disk.settings.env.exist && !disk.settings.env.hasDefaultUser then
        configLookup.default "false".toList .derived
      else
        configLookup.default DEFAULT_AUTO_LOGIN .default := by
  unfold Settings.autoLogin
  rw [hreads.file]
  by_cases hvalue : cfg.value .autoLogin = []
  . rw [if_neg (not_not_intro hvalue), if_neg (not_not_intro hvalue)]
  . rw [if_pos hvalue, if_pos hvalue]

theorem Reads.shown (hreads : Reads disk cfg) {autoLogin : Text} (hsame : disk.settings.autoLogin.value = autoLogin)
    (key : ConfigKey)
    : (disk.settings.configLookup key).value = cmdUp.effective cfg autoLogin key := by
  have hfile := hreads.file key
  by_cases hvalue : cfg.value key = []
  . rw [if_neg (not_not_intro hvalue)] at hfile
    cases key with
    | autoLogin => exact hsame
    | bind =>
      unfold Settings.configLookup cmdUp.effective orDefault
      dsimp only
      rw [hfile, hvalue, hsame, if_pos rfl]
      dsimp only
      split
      . rfl
      . rfl
    | _ =>
      unfold Settings.configLookup cmdUp.effective orDefault
      dsimp only
      rw [hfile, hvalue, if_pos rfl]
      rfl
  . rw [if_pos hvalue] at hfile
    cases key with
    | autoLogin => exact hsame
    | _ =>
      unfold Settings.configLookup cmdUp.effective orDefault
      dsimp only
      rw [hfile, if_neg hvalue]

/--
Both sides say the same of automatic login, and `configure` warns if and only if `up` fails.
-/
def AutoLoginAgrees (disk : Disk) (value : Text) (credentials : Bool) : Prop :=
  match decidedAutoLogin value credentials with
  | .ok autoLogin => disk.settings.autoLogin.value = autoLogin ∧ (crossKeyWarnings disk.settings).noDefaultUser = false
  | .error _ => (crossKeyWarnings disk.settings).noDefaultUser = true

omit [Ctype] in
theorem autoLogin_cases (hreads : Valid cfg)
    : cfg.value .autoLogin = [] ∨ cfg.value .autoLogin = "true".toList ∨ cfg.value .autoLogin = "false".toList := by
  have hvalid := hreads .autoLogin
  simpa [validConfigValue, validBool, inValues, AUTO_LOGIN_VALUES] using hvalid

theorem Reads.agrees_iff (hreads : Reads disk cfg) {credentials : Bool}
    (hmade : disk.settings.env.exist = false → credentials = true)
    (huser : disk.settings.env.hasDefaultUser = true → credentials = true)
    : AutoLoginAgrees disk (cfg.value .autoLogin) credentials ↔
        cfg.value .autoLogin = "false".toList ∨
          (disk.settings.env.exist = true → credentials = true → disk.settings.env.hasDefaultUser = true) := by
  have hwarning : (crossKeyWarnings disk.settings).noDefaultUser
      = (disk.settings.autoLogin.value = "true".toList && disk.settings.autoLogin.source = .file
        && disk.settings.env.exist && !disk.settings.env.hasDefaultUser) := rfl
  unfold AutoLoginAgrees decidedAutoLogin
  rw [hwarning, hreads.shown_autoLogin]
  generalize disk.settings.env.exist = exist at hmade
  generalize disk.settings.env.hasDefaultUser = user at huser
  -- all that is left are the three values of automatic login and three facts about the files
  rcases autoLogin_cases hreads.valid with hvalue | hvalue | hvalue
  . rw [hvalue]
    cases exist <;> cases user <;> cases credentials <;> simp_all [orDefault, DEFAULT_AUTO_LOGIN, configLookup.default]
  . rw [hvalue]
    cases exist <;> cases user <;> cases credentials <;> simp_all [orDefault]
  . rw [hvalue]
    cases exist <;> cases user <;> cases credentials <;> simp_all [orDefault]

/--
What `up` finds out about the default user, in terms of the files before it.
-/
theorem credentials_iff (hreadable : disk.Readable .env)
    (hpass : Prog.Runs exec cmdUp.requireEnv disk (.ok ()) disk')
    : ∃ text, disk'.files .env = some text ∧
        (hasCredentials text = true ↔
          (disk.settings.env.exist = true → ∀ key ∈ DEFAULT_USER_KEYS, disk.AnyValue key)) := by
  have ⟨text, hfile', hold⟩ := runs_requireEnv hreadable hpass
  refine ⟨text, hfile', ?_⟩
  rw [exist_settings]
  rcases hold with hfile | ⟨hnone, hmade⟩
  . rw [hasCredentials_iff hfile, hfile]
    simp
  . simp [hnone, hmade]

theorem not_anyValue_of_none (hnone : disk.files .env = none) (key : Text) : ¬disk.AnyValue key := by
  unfold Disk.AnyValue Disk.lines
  rw [hnone]
  simp

theorem Reads.lastDecides_iff (hreads : Reads disk cfg)
    (hcredentials : hasCredentials text = true ↔
      (disk.settings.env.exist = true → ∀ key ∈ DEFAULT_USER_KEYS, disk.AnyValue key))
    : AutoLoginAgrees disk (cfg.value .autoLogin) (hasCredentials text) ↔
        cfg.value .autoLogin = "false".toList ∨ LastDecides disk := by
  rw [hreads.agrees_iff]
  . unfold LastDecides
    rw [hcredentials]
    apply or_congr_right
    constructor
    . intro hdecides hany
      apply hdecides
      . cases hfile : disk.files .env with
        | none => exact absurd (hany _ (List.mem_cons_self ..)) (not_anyValue_of_none hfile _)
        | some text => simp [exist_settings, hfile]
      . exact fun _ => hany
    . intro hdecides hexist hany
      exact hdecides (hany hexist)
  . intro hmissing
    rw [hcredentials, hmissing]
    exact fun h => absurd h Bool.false_ne_true
  . intro huser
    rw [hcredentials]
    exact fun _ => anyValue_of_hasDefaultUser huser

theorem shows_of_agrees (hreads : Reads disk cfg) (hfile : disk'.files .env = some text)
    (hagrees : AutoLoginAgrees disk (cfg.value .autoLogin) (hasCredentials text))
    : (∀ autoLogin disk'', Prog.Runs exec (cmdUp.autoLogin (cfg.value .autoLogin)) disk' (.ok autoLogin) disk'' →
          ∀ key, (disk.settings.configLookup key).value = cmdUp.effective cfg autoLogin key) ∧
        ((crossKeyWarnings disk.settings).noDefaultUser = true ↔
          ∃ failure disk'', Prog.Runs exec (cmdUp.autoLogin (cfg.value .autoLogin)) disk' (.error failure) disk'') := by
  simp only [runs_autoLogin hfile]
  unfold AutoLoginAgrees at hagrees
  cases hdecided : decidedAutoLogin (cfg.value .autoLogin) (hasCredentials text) with
  | ok autoLogin =>
    rw [hdecided] at hagrees
    refine ⟨?_, by simp [hagrees.2]⟩
    intro autoLogin' disk'' hrun
    cases hrun.1
    exact hreads.shown hagrees.1
  | error failure =>
    rw [hdecided] at hagrees
    exact ⟨fun _ _ hrun => (nomatch hrun.1), iff_of_true hagrees ⟨failure, disk', rfl, rfl⟩⟩

theorem agrees_of_shows (hreadable : ∀ file, disk.Readable file)
    (hload : Prog.Runs exec loadConfig disk (.ok cfg) disk)
    (hpass : Prog.Runs exec cmdUp.requireEnv disk (.ok ()) disk') (hfile : disk'.files .env = some text)
    (hshows : ShowsWhatUpUses disk)
    : AutoLoginAgrees disk (cfg.value .autoLogin) (hasCredentials text) := by
  have hsettings : Prog.Runs exec readSettings disk (.ok disk.settings) disk :=
    (runs_readSettings_of_readable hreadable).mpr ⟨rfl, rfl⟩
  have hwarned := hshows.warned _ hsettings cfg hload disk' hpass
  simp only [runs_autoLogin hfile] at hwarned
  unfold AutoLoginAgrees
  cases hdecided : decidedAutoLogin (cfg.value .autoLogin) (hasCredentials text) with
  | ok autoLogin =>
    rw [hdecided] at hwarned
    have hrun : Prog.Runs exec (cmdUp.autoLogin (cfg.value .autoLogin)) disk' (.ok autoLogin) disk' :=
      (runs_autoLogin hfile).mpr ⟨hdecided.symm, rfl⟩
    refine ⟨hshows.used _ hsettings cfg hload disk' hpass autoLogin disk' hrun .autoLogin, ?_⟩
    simpa using hwarned
  | error failure =>
    rw [hdecided] at hwarned
    exact hwarned.mpr ⟨failure, disk', rfl, rfl⟩

/--
`configure` shows what `up` uses, and warns exactly when `up` will fail, if automatic login is off in `config` or
the last lines of the default user decide.
-/
theorem shown_iff (hload : Prog.Runs exec loadConfig disk (.ok cfg) disk)
    (hpasses : ∃ disk', Prog.Runs exec cmdUp.requireEnv disk (.ok ()) disk')
    : ShowsWhatUpUses disk ↔ cfg.value .autoLogin = "false".toList ∨ LastDecides disk := by
  have hreads := reads_of_loadConfig hload
  have hconfig := readable_of_loadConfig hload
  constructor
  . intro hshows
    have ⟨disk', hpass⟩ := hpasses
    by_cases henv : disk.Readable .env
    . have ⟨text, hfile, hcredentials⟩ := credentials_iff henv hpass
      exact (hreads.lastDecides_iff hcredentials).mp
        (agrees_of_shows (readable_of_both hconfig henv) hload hpass hfile hshows)
    . exact Or.inr fun hany =>
        absurd (hany _ (List.mem_cons_self ..)) (not_anyValue_of_none (not_readable_iff.mp henv).2 _)
  . intro hdecides
    have hagrees (disk' : Disk) (henv : disk.Readable .env)
        (hpass : Prog.Runs exec cmdUp.requireEnv disk (.ok ()) disk')
        : ∃ text, disk'.files .env = some text ∧
            AutoLoginAgrees disk (cfg.value .autoLogin) (hasCredentials text) := by
      have ⟨text, hfile, hcredentials⟩ := credentials_iff henv hpass
      exact ⟨text, hfile, (hreads.lastDecides_iff hcredentials).mpr hdecides⟩
    have hsame (cfg' : Loaded) (hload' : Prog.Runs exec loadConfig disk (.ok cfg') disk) : cfg' = cfg := by
      have heq := (runs_loadConfig hconfig hload').trans (runs_loadConfig hconfig hload).symm
      cases heq
      rfl
    exact {
      used := by
        intro settings hsettings cfg' hload' disk' hpass
        have ⟨hreadable, heq, _⟩ := settings_of_runs hsettings
        have ⟨text, hfile, hagree⟩ := hagrees disk' (hreadable .env) hpass
        rw [heq, hsame cfg' hload']
        exact (shows_of_agrees hreads hfile hagree).1
      warned := by
        intro settings hsettings cfg' hload' disk' hpass
        have ⟨hreadable, heq, _⟩ := settings_of_runs hsettings
        have ⟨text, hfile, hagree⟩ := hagrees disk' (hreadable .env) hpass
        rw [heq, hsame cfg' hload']
        exact (shows_of_agrees hreads hfile hagree).2
    }

/--
The password has a value, and no value in a later line.
-/
def blankedPassword : Disk where
  files
    | .config => none
    | .env => some (printLines [
        "KERGHAN_DEFAULT_USER_USERNAME=admin".toList, "KERGHAN_DEFAULT_USER_EMAIL=admin@kerghan.local".toList,
        "KERGHAN_DEFAULT_USER_PASSWORD=secret".toList, "KERGHAN_DEFAULT_USER_PASSWORD=".toList])
  temps _ := none
  nextTemp := 0

omit [Ctype] in
theorem shown_iff_blanked : ¬@ShowsWhatUpUses .posix blankedPassword := by
  have hload : Prog.Runs exec (@loadConfig .posix) blankedPassword (.ok Loaded.none) blankedPassword :=
    Prog.eval_runs (e := ⟨true, []⟩)
  have hpass : Prog.Runs exec (@cmdUp.requireEnv .posix) blankedPassword (.ok ()) blankedPassword :=
    Prog.eval_runs (e := ⟨true, []⟩)
  intro hshows
  rcases (@shown_iff .posix _ _ hload ⟨_, hpass⟩).mp hshows with hoff | hdecides
  . cases hoff
  . have hcredentials := (@hasCredentials_iff .posix blankedPassword _ rfl).mp (by decide)
    have huser : @EnvSettings.hasDefaultUser .posix (@Disk.settings .posix blankedPassword).env = false := by decide
    rw [hdecides hcredentials] at huser
    cases huser

end Shown

end Kerghan.Standalone
