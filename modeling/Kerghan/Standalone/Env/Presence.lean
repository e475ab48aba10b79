import Kerghan.Standalone.Impl.Env
import Kerghan.Standalone.Lemmas.Env
import Kerghan.Standalone.Lemmas.Runs

/-!
This module contains the proof that the checks of `kerghan.env` by `grep` find what its parser records,
except for `FRONTEND_BASE_URL`, which is only found in the first column.
-/

namespace Kerghan.Standalone

open Shell

variable [Ctype]

section

variable (text : Text)

/--
`kerghan.env` has this content.
-/
def Holds (disk : Disk) : Prop :=
  disk.files .env = some text

/--
A `FRONTEND_BASE_URL=value` line is recorded.
-/
def SetsFrontendBaseUrl : Prop :=
  ∃ raw ∈ readLines text, ∃ value, envLine raw = some ⟨FRONTEND_BASE_URL_KEY, value, .value⟩

/--
What is promised about the checks of a `kerghan.env` with this content.
-/
structure PresenceAgrees : Prop where
  hasKey_iff : ∀ disk, Holds text disk → ∀ key, isEnvKey key = true →
    ∀ found disk', Prog.Runs exec (envFileHasKey key) disk (.ok found) disk' →
      (found = true ↔ ((readEnvFile.text text).index key).isSome = true)
  refuses_iff : ∀ disk, Holds text disk →
    ∀ result disk', Prog.Runs exec refuseClientManagedKeys disk result disk' →
      ((∃ failure, result = .error failure) ↔
        ∃ key ∈ CLIENT_MANAGED_KEYS, ((readEnvFile.text text).index key).isSome = true)
  passes_iff : ∀ disk, Holds text disk →
    ∀ port args disk', Prog.Runs exec (frontendBaseUrlArgs port) disk (.ok args) disk' →
      (args = frontendBaseUrlArgs.own port ↔ ¬SetsFrontendBaseUrl text)

/--
If `FRONTEND_BASE_URL` is set, then also by a line that starts with it.
-/
def SetsFrontendBaseUrlFirst : Prop :=
  SetsFrontendBaseUrl text →
    ∃ raw ∈ readLines text, ∃ value, raw = FRONTEND_BASE_URL_KEY ++ '=' :: value

end

section Keys

variable {c : Char} {key : Text}

theorem space_return : Ctype.space '\r' = true := by
  rw [Ctype.space_ascii _ (by decide)]
  decide

theorem space_equals : Ctype.space '=' = false := by
  rw [Ctype.space_ascii _ (by decide)]
  decide

theorem isEnvKey_chars (hkey : isEnvKey key = true)
    : key ≠ [] ∧ ∀ c ∈ key, (Ctype.upper c || c.isDigit || c == '_') = true := by
  cases key with
  | nil => cases hkey
  | cons first rest =>
    simp only [isEnvKey, Bool.and_eq_true, List.all_eq_true] at hkey
    refine ⟨by simp, ?_⟩
    intro c hc
    cases List.mem_cons.mp hc with
    | inl hfirst =>
      subst hfirst
      have hchar := hkey.1
      simp only [Bool.or_eq_true] at hchar ⊢
      cases hchar with
      | inl hupper => exact Or.inl (Or.inl hupper)
      | inr hunderscore => exact Or.inr hunderscore
    | inr hrest => exact hkey.2 c hrest

theorem isEnvKey_space (hkey : isEnvKey key = true) : ∀ c ∈ key, Ctype.space c = false := by
  intro c hc
  have hchar := (isEnvKey_chars hkey).2 c hc
  simp only [Bool.or_eq_true, beq_iff_eq] at hchar
  rcases hchar with (hupper | hdigit) | hunderscore
  . exact Ctype.not_space_of_upper c hupper
  . simp only [Char.isDigit, Bool.and_eq_true, decide_eq_true_eq, UInt32.le_iff_toNat_le] at hdigit
    have hlow : 48 ≤ c.toNat := hdigit.1
    have hhigh : c.toNat ≤ 57 := hdigit.2
    rw [Ctype.space_ascii c (by omega)]
    simp only [Bool.or_eq_false_iff, beq_eq_false_iff_ne, Bool.and_eq_false_iff, decide_eq_false_iff_not]
    omega
  . subst hunderscore
    rw [Ctype.space_ascii _ (by decide)]
    decide

theorem isEnvKey_not_mem (hkey : isEnvKey key = true) (hascii : c.toNat < 128) (hupper : c.isUpper = false)
    (hdigit : c.isDigit = false) (hunderscore : c ≠ '_')
    : c ∉ key := by
  intro hc
  have hchar := (isEnvKey_chars hkey).2 c hc
  simp [Ctype.upper_ascii c hascii, hupper, hdigit, hunderscore] at hchar

end Keys

section Lines

variable {key raw rest : Text}

/--
`key`, and behind it `=` or nothing but white space.
-/
def IsKeyLine (key s : Text) : Prop :=
  ∃ rest, s = key ++ rest ∧ ((∃ value, rest = '=' :: value) ∨ ∀ c ∈ rest, Ctype.space c = true)

theorem exists_mem_envFileHasKey (hkey : isEnvKey key = true)
    : (∃ rest, rest ∈ envFileHasKey.pattern key raw) ↔ IsKeyLine key (trimStart raw) := by
  have ⟨hne, hspaces⟩ := And.intro (isEnvKey_chars hkey).1 (isEnvKey_space hkey)
  cases key with
  | nil => exact absurd rfl hne
  | cons c key =>
    have hc := hspaces c (List.mem_cons_self ..)
    have hfront (behind : Text)
        : (∃ s, s ∈ Pattern.many Ctype.space raw ∧ behind ∈ Pattern.literal (c :: key) s) ↔
            trimStart raw = c :: key ++ behind := by
      rw [← Pattern.mem_andThen]
      exact Pattern.mem_many_literal hc
    unfold envFileHasKey.pattern IsKeyLine
    constructor
    . intro ⟨rest, hrest⟩
      have ⟨s, hs, hrest⟩ := Pattern.mem_andThen.mp hrest
      have ⟨behind, hbehind, hrest⟩ := Pattern.mem_andThen.mp hrest
      refine ⟨behind, (hfront behind).mp ⟨s, hs, hbehind⟩, ?_⟩
      cases Pattern.mem_or.mp hrest with
      | inl hequals => exact Or.inl ⟨rest, Pattern.mem_literal.mp hequals⟩
      | inr hblank =>
        have ⟨s', hs', hend⟩ := Pattern.mem_andThen.mp hblank
        have ⟨front, hfront, hbehind⟩ := Pattern.mem_many.mp hs'
        rw [(Pattern.mem_lineEnd.mp hend).1, List.append_nil] at hbehind
        exact Or.inr (hbehind ▸ hfront)
    . intro ⟨behind, hraw, hrest⟩
      have ⟨s, hs, hbehind⟩ := (hfront behind).mpr hraw
      cases hrest with
      | inl hequals =>
        have ⟨value, hvalue⟩ := hequals
        refine ⟨value, Pattern.mem_andThen.mpr ⟨s, hs, Pattern.mem_andThen.mpr ⟨behind, hbehind, ?_⟩⟩⟩
        exact Pattern.mem_or.mpr (Or.inl (Pattern.mem_literal.mpr hvalue))
      | inr hblank =>
        refine ⟨[], Pattern.mem_andThen.mpr ⟨s, hs, Pattern.mem_andThen.mpr ⟨behind, hbehind, ?_⟩⟩⟩
        refine Pattern.mem_or.mpr (Or.inr (Pattern.mem_andThen.mpr ⟨[], ?_, ?_⟩))
        . exact Pattern.mem_many.mpr ⟨behind, hblank, by rw [List.append_nil]⟩
        . exact Pattern.mem_lineEnd.mpr ⟨rfl, rfl⟩

theorem not_isKeyLine_of_comment (hkey : isEnvKey key = true) : ¬IsKeyLine key ('#' :: rest) := by
  intro ⟨behind, hline, _⟩
  cases key with
  | nil => exact (isEnvKey_chars hkey).1 rfl
  | cons c key =>
    simp only [List.cons_append, List.cons.injEq] at hline
    have hhash : '#' ∉ c :: key :=
      isEnvKey_not_mem hkey (by decide) (by decide) (by decide) (by decide)
    exact hhash (hline.1 ▸ List.mem_cons_self ..)

theorem isKeyLine_dropEnd (hkey : isEnvKey key = true) (s : Text)
    : IsKeyLine key (dropEnd '\r' s) ↔ IsKeyLine key s := by
  have hreturn : '\r' ∉ key :=
    isEnvKey_not_mem hkey (by decide) (by decide) (by decide) (by decide)
  unfold IsKeyLine
  constructor
  . intro ⟨behind, hline, hbehind⟩
    cases dropEnd_cases '\r' s with
    | inl hs => exact ⟨behind, hs.trans hline, hbehind⟩
    | inr hs =>
      refine ⟨behind ++ ['\r'], by rw [hs, hline, List.append_assoc], ?_⟩
      cases hbehind with
      | inl hequals =>
        have ⟨value, hvalue⟩ := hequals
        exact Or.inl ⟨value ++ ['\r'], by rw [hvalue]; rfl⟩
      | inr hblank =>
        right
        intro c hc
        cases List.mem_append.mp hc with
        | inl hc => exact hblank c hc
        | inr hc => exact List.mem_singleton.mp hc ▸ space_return
  . intro ⟨behind, hline, hbehind⟩
    refine ⟨dropEnd '\r' behind, by rw [hline, dropEnd_append hreturn], ?_⟩
    cases hbehind with
    | inl hequals =>
      have ⟨value, hvalue⟩ := hequals
      have happend : ['='] ++ value = behind := hvalue.symm
      exact Or.inl ⟨dropEnd '\r' value, by rw [← happend, dropEnd_append (by decide)]; rfl⟩
    | inr hblank =>
      right
      intro c hc
      cases dropEnd_cases '\r' behind with
      | inl hsame => exact hblank c (hsame ▸ hc)
      | inr hdrop => exact hblank c (hdrop ▸ List.mem_append_left _ hc)

theorem recordsKey_iff (hkey : isEnvKey key = true) : RecordsKey key raw ↔ IsKeyLine key (trimStart raw) := by
  have hequals : '=' ∉ key :=
    isEnvKey_not_mem hkey (by decide) (by decide) (by decide) (by decide)
  have hstart : trimStart (dropEnd '\r' raw) = dropEnd '\r' (trimStart raw) :=
    trimStart_dropEnd space_return raw
  have hidem : trimStart (trimStart (dropEnd '\r' raw)) = trimStart (dropEnd '\r' raw) :=
    trimStart_trimStart _
  rw [← isKeyLine_dropEnd hkey, ← hstart]
  unfold RecordsKey envLine
  generalize trimStart (dropEnd '\r' raw) = s at hidem
  cases s with
  | nil =>
    simp only [reduceCtorEq, false_and, exists_false, false_iff]
    intro ⟨behind, hline, _⟩
    exact (isEnvKey_chars hkey).1 (List.append_eq_nil_iff.mp hline.symm).1
  | cons c rest =>
    dsimp only
    by_cases hcomment : c = '#'
    . subst hcomment
      rw [if_pos rfl]
      simp only [reduceCtorEq, false_and, exists_false, false_iff]
      exact not_isKeyLine_of_comment hkey
    . rw [if_neg hcomment]
      -- a line with `=` is split there, one without it is trimmed
      by_cases hassigns : '=' ∈ c :: rest
      . rw [if_pos hassigns]
        simp only [Option.some.injEq, exists_eq_left']
        constructor
        . intro hbefore
          refine ⟨'=' :: after '=' (c :: rest), ?_, Or.inl ⟨_, rfl⟩⟩
          rw [← hbefore, before_append_after hassigns]
        . intro ⟨behind, hline, hbehind⟩
          rw [hline] at hassigns ⊢
          cases hbehind with
          | inl hvalue =>
            have ⟨value, hvalue⟩ := hvalue
            rw [hvalue, before_append hequals]
          | inr hblank =>
            cases List.mem_append.mp hassigns with
            | inl hmem => exact absurd hmem hequals
            | inr hmem => exact absurd (hblank _ hmem) (by simp [space_equals])
      . rw [if_neg hassigns]
        simp only [Option.some.injEq, exists_eq_left']
        constructor
        . intro htrim
          have ⟨spaces, hline, hspaces⟩ := exists_of_trim hidem
          exact ⟨spaces, by rw [← htrim]; exact hline, Or.inr hspaces⟩
        . intro ⟨behind, hline, hbehind⟩
          rw [hline] at hassigns ⊢
          cases hbehind with
          | inl hvalue =>
            have ⟨value, hvalue⟩ := hvalue
            exact absurd (by simp [hvalue]) hassigns
          | inr hblank => exact trim_append (isEnvKey_space hkey) hblank

theorem envLine_value (hkey : isEnvKey key = true) (value : Text)
    : envLine (key ++ '=' :: value) = some ⟨key, dropEnd '\r' value, .value⟩ := by
  have hreturn : '\r' ∉ key ++ ['='] := by
    simp only [List.mem_append, List.mem_singleton, not_or]
    exact ⟨isEnvKey_not_mem hkey (by decide) (by decide) (by decide) (by decide), by decide⟩
  have hequals : '=' ∉ key :=
    isEnvKey_not_mem hkey (by decide) (by decide) (by decide) (by decide)
  have hline : dropEnd '\r' (key ++ '=' :: value) = key ++ '=' :: dropEnd '\r' value := by
    have happend := dropEnd_append hreturn value
    rw [List.append_assoc, List.append_assoc, List.singleton_append, List.singleton_append] at happend
    exact happend
  unfold envLine
  rw [hline]
  cases key with
  | nil => exact absurd rfl (isEnvKey_chars hkey).1
  | cons c key =>
    have hcomment : c ≠ '#' := by
      intro hc
      exact isEnvKey_not_mem (c := '#') hkey (by decide) (by decide) (by decide) (by decide)
        (hc ▸ List.mem_cons_self ..)
    rw [List.cons_append, trimStart_eq_self (isEnvKey_space hkey c (List.mem_cons_self ..))]
    dsimp only
    rw [if_neg hcomment, if_pos (by simp), ← List.cons_append, before_append hequals, after_append hequals]

end Lines

section Checks

variable {text port : Text} {disk disk' : Disk}

omit [Ctype] in
theorem runs_grepEnv (hholds : Holds text disk) {pattern : Pattern} {result : Except Failure Bool}
    : Prog.Runs exec (grepEnv pattern) disk result disk' ↔
        result = .ok (grep pattern text) ∧ disk' = disk := by
  have hread : disk.files .env = some text := hholds
  unfold grepEnv
  rw [Script.runs_read, hread]
  exact Prog.runs_pure

theorem grep_envFileHasKey {key : Text} (hkey : isEnvKey key = true) (text : Text)
    : grep (envFileHasKey.pattern key) text = true ↔ ((readEnvFile.text text).index key).isSome = true := by
  rw [grep_eq_true, index_text]
  simp only [exists_mem_envFileHasKey hkey, recordsKey_iff hkey]

theorem isEnvKey_of_ascii {key : Text} {c : Char} {rest : Text} (hkey : key = c :: rest)
    (hfirst : (c.isUpper || c == '_') = true) (hrest : (rest.all fun c => c.isUpper || c == '_') = true)
    : isEnvKey key = true := by
  subst hkey
  have hchar (c : Char) (hc : (c.isUpper || c == '_') = true) : (Ctype.upper c || c == '_') = true := by
    simp only [Bool.or_eq_true, beq_iff_eq] at hc ⊢
    cases hc with
    | inl hupper =>
      left
      rw [Ctype.upper_ascii, hupper]
      have hrange : decide (65 ≤ c.val ∧ c.val ≤ 90) = true := hupper
      simp only [decide_eq_true_eq, UInt32.le_iff_toNat_le] at hrange
      exact Nat.lt_of_le_of_lt hrange.2 (by decide)
    | inr hunderscore => exact Or.inr hunderscore
  simp only [isEnvKey, Bool.and_eq_true, List.all_eq_true] at hrest ⊢
  refine ⟨hchar c hfirst, ?_⟩
  intro d hd
  have hd' := hchar d (hrest d hd)
  simp only [Bool.or_eq_true] at hd' ⊢
  cases hd' with
  | inl hupper => exact Or.inl (Or.inl hupper)
  | inr hunderscore => exact Or.inr hunderscore

theorem isEnvKey_clientManaged : ∀ key ∈ CLIENT_MANAGED_KEYS, isEnvKey key = true := by
  intro key hkey
  simp only [CLIENT_MANAGED_KEYS, List.mem_cons, List.not_mem_nil, or_false] at hkey
  rcases hkey with hkey | hkey
  . exact isEnvKey_of_ascii hkey (by decide) (by decide)
  . exact isEnvKey_of_ascii hkey (by decide) (by decide)

theorem runs_find (hholds : Holds text disk) (keys found : List Text) {result : Except Failure (List Text)}
    : Prog.Runs exec (keys.foldlM refuseClientManagedKeys.find found) disk result disk' ↔
        result = .ok (found ++ keys.filter fun key => grep (envFileHasKey.pattern key) text) ∧ disk' = disk := by
  induction keys generalizing found with
  | nil => simp
  | cons key keys ih =>
    rw [List.foldlM_cons, Script.runs_bind_of_ok (b :=
      if grep (envFileHasKey.pattern key) text then found ++ [key] else found), ih]
    . split
      . next hfound => simp [hfound]
      . next hfound => simp [hfound]
    . intro result disk'
      unfold refuseClientManagedKeys.find envFileHasKey
      rw [Script.runs_bind_of_ok fun _ _ => runs_grepEnv hholds]
      split
      . exact Prog.runs_pure
      . exact Prog.runs_pure

end Checks

section Frontend

variable {raw text : Text}

theorem isEnvKey_frontendBaseUrl : isEnvKey FRONTEND_BASE_URL_KEY = true :=
  isEnvKey_of_ascii rfl (by decide) (by decide)

omit [Ctype] in
theorem grep_frontendBaseUrl (text : Text)
    : grep frontendBaseUrlArgs.pattern text = true ↔
        ∃ raw ∈ readLines text, ∃ value, raw = FRONTEND_BASE_URL_KEY ++ '=' :: value := by
  rw [grep_eq_true]
  unfold frontendBaseUrlArgs.pattern
  simp only [Pattern.mem_literal, List.append_assoc, List.singleton_append]

theorem sets_of_first (hfirst : ∃ raw ∈ readLines text, ∃ value, raw = FRONTEND_BASE_URL_KEY ++ '=' :: value)
    : SetsFrontendBaseUrl text := by
  have ⟨raw, hraw, value, hvalue⟩ := hfirst
  exact ⟨raw, hraw, dropEnd '\r' value, by rw [hvalue, envLine_value isEnvKey_frontendBaseUrl]⟩

omit [Ctype] in
theorem own_ne_nil (port : Text) : frontendBaseUrlArgs.own port ≠ [] :=
  List.cons_ne_nil _ _

omit [Ctype] in
theorem runs_frontendBaseUrlArgs {disk disk' : Disk} (hholds : Holds text disk) {port : Text}
    {result : Except Failure (List Text)}
    : Prog.Runs exec (frontendBaseUrlArgs port) disk result disk' ↔
        result = .ok (if grep frontendBaseUrlArgs.pattern text then [] else frontendBaseUrlArgs.own port) ∧
          disk' = disk := by
  unfold frontendBaseUrlArgs
  rw [Script.runs_bind_of_ok fun _ _ => runs_grepEnv hholds]
  cases grep frontendBaseUrlArgs.pattern text with
  | true => exact Prog.runs_pure
  | false => exact Prog.runs_pure

end Frontend

/--
The checks agree with the parser exactly if `FRONTEND_BASE_URL` is not only set by lines that start with
white space.
-/
theorem presenceAgrees_iff (text : Text) : PresenceAgrees text ↔ SetsFrontendBaseUrlFirst text := by
  constructor
  . intro hagrees hsets
    -- the promise is put to the test on a disk with this file
    let disk : Disk := {
      files := fun _ => some text
      temps := fun _ => none
      nextTemp := 0
    }
    have hholds : Holds text disk := rfl
    have hruns := (@runs_frontendBaseUrlArgs text disk disk hholds [] _).mpr ⟨rfl, rfl⟩
    have hpasses := hagrees.passes_iff disk hholds [] _ disk hruns
    rw [← grep_frontendBaseUrl]
    cases hgrep : grep frontendBaseUrlArgs.pattern text with
    | true => rfl
    | false => exact absurd hsets (hpasses.mp (by rw [hgrep]; rfl))
  . intro hfirst
    exact {
      hasKey_iff := by
        intro disk hholds key hkey found disk' hruns
        have ⟨hfound, _⟩ := (runs_grepEnv hholds).mp hruns
        cases hfound
        exact grep_envFileHasKey hkey text
      refuses_iff := by
        intro disk hholds result disk' hruns
        unfold refuseClientManagedKeys at hruns
        rw [Script.runs_bind_of_ok fun _ _ => runs_find hholds _ _, List.nil_append] at hruns
        have hfound : (∃ key ∈ CLIENT_MANAGED_KEYS, ((readEnvFile.text text).index key).isSome = true) ↔
            CLIENT_MANAGED_KEYS.filter (fun key => grep (envFileHasKey.pattern key) text) ≠ [] := by
          rw [ne_eq, List.filter_eq_nil_iff]
          push Not
          apply exists_congr
          intro key
          apply and_congr_right
          intro hkey
          rw [grep_envFileHasKey (isEnvKey_clientManaged key hkey)]
        rw [hfound]
        split at hruns
        . next hnone =>
          cases (Prog.runs_pure.mp hruns).1
          simp [hnone]
        . next hsome =>
          cases (Prog.runs_throw.mp hruns).1
          simpa using hsome
      passes_iff := by
        intro disk hholds port args disk' hruns
        have ⟨hargs, _⟩ := (runs_frontendBaseUrlArgs hholds).mp hruns
        cases hargs
        have hsets : SetsFrontendBaseUrl text ↔ grep frontendBaseUrlArgs.pattern text = true := by
          rw [grep_frontendBaseUrl]
          exact ⟨hfirst, sets_of_first⟩
        rw [hsets]
        cases grep frontendBaseUrlArgs.pattern text with
        | true => simpa using (own_ne_nil port).symm
        | false => simp
    }

/--
A line that sets it behind two blanks.
-/
def indentedFrontendBaseUrl : Text :=
  "  FRONTEND_BASE_URL=https://kerghan.example\n".toList

omit [Ctype] in
theorem not_presenceAgrees : ¬@PresenceAgrees .posix indentedFrontendBaseUrl := by
  let _ := Ctype.posix
  have hlines : readLines indentedFrontendBaseUrl = ["  FRONTEND_BASE_URL=https://kerghan.example".toList] := by
    decide
  rw [presenceAgrees_iff]
  unfold SetsFrontendBaseUrlFirst SetsFrontendBaseUrl
  rw [hlines]
  intro hfirst
  have ⟨raw, hraw, value, hvalue⟩ := hfirst ⟨_, List.mem_singleton.mpr rfl, _, rfl⟩
  rw [List.mem_singleton.mp hraw] at hvalue
  have hhead := congrArg List.head? hvalue
  rw [List.head?_append_of_ne_nil _ (by decide)] at hhead
  exact absurd hhead (by decide)

end Kerghan.Standalone
