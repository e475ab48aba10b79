import Mathlib.Data.List.DropRight
import Kerghan.Text

/-!
This module contains `toLowerCase` of JavaScript strings, the full lower-casing of Unicode. Of the character
database only those entries are fixed that a text can change its length or its context by.
-/

namespace Kerghan

/--
The Unicode character database.
-/
class UnicodeData where
  /-- `Simple_Lowercase_Mapping`, the character itself if it has none. -/
  lower : Char → Char
  /-- `Cased` -/
  cased : Char → Bool
  /-- `Case_Ignorable` -/
  caseIgnorable : Char → Bool
  /-- What has been mapped is in lower case. -/
  lower_lower : ∀ c, lower (lower c) = lower c
  lower_dottedI : lower 'İ' = 'i'
  lower_combiningDot : lower '\u0307' = '\u0307'
  lower_sigma : lower 'Σ' = 'σ'
  lower_finalSigma : lower 'ς' = 'ς'
  /-- White space has no case. -/
  isSpace_lower : ∀ c, isSpace (lower c) = isSpace c

namespace UnicodeData

variable [UnicodeData]

/--
A cased letter and case-ignorable characters before it.
-/
def reachesCased : List Char → Bool
  | [] => false
  | c :: chars => cased c || (caseIgnorable c && reachesCased chars)

/--
`Final_Sigma`, where `before` are the characters before the letter, the last one first.
-/
def isFinal (before after : List Char) : Bool :=
  reachesCased before && !reachesCased after

/--
`Lowercase_Mapping`: the entries of `SpecialCasing.txt` without a language, and the simple mapping.
-/
def lowercaseMapping (before : List Char) (c : Char) (after : List Char) : List Char :=
  if c = 'İ' then
    ['i', '\u0307']
  else if c = 'Σ' then
    [if isFinal before after then 'ς' else 'σ']
  else
    [lower c]

def lowerFrom (before : List Char) : List Char → List Char
  | [] => []
  | c :: after => lowercaseMapping before c after ++ lowerFrom (c :: before) after

/--
`text.toLowerCase()`
-/
def toLowerCase (text : String) : String :=
  String.ofList (lowerFrom [] text.toList)

/--
The character is not changed by lower-casing, whatever stands around it.
-/
def IsLower (c : Char) : Prop :=
  c ≠ 'İ' ∧ c ≠ 'Σ' ∧ lower c = c

variable {c d : Char} {before after chars : List Char}

theorem length_lowerFrom (before chars : List Char)
    : (lowerFrom before chars).length = chars.length + chars.count 'İ' := by
  induction chars generalizing before with
  | nil => rfl
  | cons c chars ih =>
    rw [lowerFrom, List.length_append, ih, List.count_cons, List.length_cons, lowercaseMapping]
    by_cases hdotted : c = 'İ'
    . simp only [hdotted, if_true, BEq.rfl, List.length_cons, List.length_nil]
      omega
    . have hbeq : (c == 'İ') = false := by simpa using hdotted
      rw [if_neg hdotted, hbeq]
      split
      . simp only [List.length_singleton, Bool.false_eq_true, if_false]
        omega
      . simp only [List.length_singleton, Bool.false_eq_true, if_false]
        omega

theorem isLower_lower (c : Char) : IsLower (lower c) := by
  refine ⟨fun hdotted => ?_, fun hsigma => ?_, lower_lower c⟩
  . have hlower := lower_lower c
    rw [hdotted, lower_dottedI] at hlower
    exact absurd hlower (by decide)
  . have hlower := lower_lower c
    rw [hsigma, lower_sigma] at hlower
    exact absurd hlower (by decide)

theorem isLower_of_mem_mapping (h : d ∈ lowercaseMapping before c after) : IsLower d := by
  unfold lowercaseMapping at h
  split at h
  . simp only [List.mem_cons, List.not_mem_nil, or_false] at h
    cases h with
    | inl hi =>
      rw [hi, ← lower_dottedI]
      exact isLower_lower 'İ'
    | inr hdot => exact hdot ▸ ⟨by decide, by decide, lower_combiningDot⟩
  . split at h
    . rw [List.mem_singleton] at h
      rw [h]
      split
      . exact ⟨by decide, by decide, lower_finalSigma⟩
      . rw [← lower_sigma]
        exact isLower_lower 'Σ'
    . rw [List.mem_singleton] at h
      rw [h]
      exact isLower_lower c

theorem isLower_of_mem_lowerFrom (h : d ∈ lowerFrom before chars) : IsLower d := by
  induction chars generalizing before with
  | nil => simp [lowerFrom] at h
  | cons c chars ih =>
    rw [lowerFrom, List.mem_append] at h
    cases h with
    | inl hfirst => exact isLower_of_mem_mapping hfirst
    | inr hrest => exact ih hrest

theorem lowerFrom_eq_self (h : ∀ c ∈ chars, IsLower c) (before : List Char) : lowerFrom before chars = chars := by
  induction chars generalizing before with
  | nil => rfl
  | cons c chars ih =>
    have ⟨hdotted, hsigma, hlower⟩ := h c (List.mem_cons_self ..)
    rw [lowerFrom, ih fun d hd => h d (List.mem_cons_of_mem _ hd), lowercaseMapping, if_neg hdotted,
      if_neg hsigma, hlower]
    rfl

theorem toLowerCase_toLowerCase (text : String) : toLowerCase (toLowerCase text) = toLowerCase text := by
  unfold toLowerCase
  rw [String.toList_ofList, lowerFrom_eq_self fun _ => isLower_of_mem_lowerFrom]

theorem length_toLowerCase (text : String)
    : (toLowerCase text).toList.length = text.toList.length + text.toList.count 'İ' := by
  rw [toLowerCase, String.toList_ofList, length_lowerFrom]

section Trim

omit [UnicodeData] in
theorem toList_trim (text : String) : (trim text).toList = (text.toList.dropWhile isSpace).rdropWhile isSpace := by
  rw [trim, String.toList_ofList]
  rfl

omit [UnicodeData] in
/--
Nothing is to be trimmed if and only if no white space stands at an end.
-/
theorem trim_eq_self_iff {text : String}
    : trim text = text ↔
        (∀ c ∈ text.toList.head?, isSpace c = false) ∧ ∀ c ∈ text.toList.getLast?, isSpace c = false := by
  rw [← String.toList_inj, toList_trim]
  generalize text.toList = chars
  constructor
  . intro htrim
    have hstart : chars.dropWhile isSpace = chars := by
      apply (List.dropWhile_suffix isSpace).eq_of_length_le
      exact Nat.le_trans (Nat.le_of_eq (congrArg List.length htrim).symm) (List.rdropWhile_prefix ..).length_le
    rw [hstart, List.rdropWhile_eq_self_iff] at htrim
    constructor
    . intro c hc
      cases chars with
      | nil => simp at hc
      | cons d chars =>
        simp only [List.head?_cons, Option.mem_some_iff] at hc
        subst hc
        by_contra hspace
        rw [Bool.not_eq_false] at hspace
        have hlength := congrArg List.length hstart
        rw [List.dropWhile_cons_of_pos hspace] at hlength
        have hle := (List.dropWhile_suffix isSpace (l := chars)).length_le
        simp only [List.length_cons] at hlength
        omega
    . intro c hc
      have hne : chars ≠ [] := by
        intro hempty
        simp [hempty] at hc
      have hlast := htrim hne
      rw [List.getLast?_eq_some_getLast hne, Option.mem_some_iff] at hc
      rw [hc] at hlast
      simpa using hlast
  . intro ⟨hstart, hend⟩
    have hdrop : chars.dropWhile isSpace = chars := by
      cases chars with
      | nil => rfl
      | cons c chars => rw [List.dropWhile_cons_of_neg (by simp [hstart c rfl])]
    rw [hdrop, List.rdropWhile_eq_self_iff]
    intro hne
    simp [hend _ (List.getLast?_eq_some_getLast hne)]

omit [UnicodeData] in
@[simp]
theorem trim_trim (text : String) : trim (trim text) = trim text := by
  rw [trim_eq_self_iff, toList_trim]
  generalize hdrop : text.toList.dropWhile isSpace = chars
  constructor
  . intro c hc
    have ⟨rest, hrest⟩ := List.rdropWhile_prefix isSpace (l := chars)
    have hhead : chars.head? = some c := by
      rw [← hrest, List.head?_append, Option.mem_def.mp hc]
      rfl
    have hfirst := List.head?_dropWhile_not isSpace text.toList
    rw [hdrop, hhead] at hfirst
    simpa using hfirst
  . intro c hc
    have hne : chars.rdropWhile isSpace ≠ [] := by
      intro hempty
      simp [hempty] at hc
    have hlast := List.rdropWhile_last_not isSpace chars hne
    rw [List.getLast?_eq_some_getLast hne, Option.mem_some_iff] at hc
    rw [hc] at hlast
    simpa using hlast

theorem isSpace_of_mem_mapping (h : d ∈ lowercaseMapping before c after) : isSpace d = isSpace c := by
  unfold lowercaseMapping at h
  split at h
  . next hdotted =>
    subst hdotted
    simp only [List.mem_cons, List.not_mem_nil, or_false] at h
    rcases h with h | h
    . exact h ▸ by decide
    . exact h ▸ by decide
  . split at h
    . next hsigma =>
      subst hsigma
      rw [List.mem_singleton] at h
      rw [h]
      split
      . decide
      . decide
    . rw [List.mem_singleton] at h
      rw [h]
      exact isSpace_lower c

theorem lowercaseMapping_ne_nil (before : List Char) (c : Char) (after : List Char)
    : lowercaseMapping before c after ≠ [] := by
  unfold lowercaseMapping
  split
  . simp
  . split <;> simp

theorem lowerFrom_concat (before chars : List Char) (c : Char)
    : ∃ front before', lowerFrom before (chars ++ [c]) = front ++ lowercaseMapping before' c [] := by
  induction chars generalizing before with
  | nil => exact ⟨[], before, by simp [lowerFrom]⟩
  | cons d chars ih =>
    have ⟨front, before', hfront⟩ := ih (d :: before)
    exact ⟨lowercaseMapping before d (chars ++ [c]) ++ front, before', by
      rw [List.cons_append, lowerFrom, hfront, List.append_assoc]⟩

theorem trim_toLowerCase {text : String} (h : trim text = text) : trim (toLowerCase text) = toLowerCase text := by
  have ⟨hstart, hend⟩ := trim_eq_self_iff.mp h
  apply trim_eq_self_iff.mpr
  rw [toLowerCase, String.toList_ofList]
  constructor
  . intro d hd
    cases hchars : text.toList with
    | nil => simp [hchars, lowerFrom] at hd
    | cons c chars =>
      rw [hchars, lowerFrom, List.head?_append_of_ne_nil _ (lowercaseMapping_ne_nil _ _ _)] at hd
      rw [isSpace_of_mem_mapping (List.mem_of_mem_head? hd)]
      exact hstart c (by rw [hchars]; rfl)
  . intro d hd
    cases List.eq_nil_or_concat text.toList with
    | inl hempty => simp [hempty, lowerFrom] at hd
    | inr hconcat =>
      have ⟨chars, c, hchars⟩ := hconcat
      rw [List.concat_eq_append] at hchars
      have ⟨front, before', hfront⟩ := lowerFrom_concat [] chars c
      rw [hchars, hfront, List.getLast?_append_of_ne_nil _ (lowercaseMapping_ne_nil _ _ _)] at hd
      rw [isSpace_of_mem_mapping (List.mem_of_getLast? hd)]
      exact hend c (by rw [hchars]; simp)

end Trim

section Ascii

/--
The letters of ASCII, and of the others those that are fixed.
-/
def asciiLower (c : Char) : Char :=
  if c.isUpper then
    Char.ofNat (c.toNat + 32)
  else if c = 'İ' then
    'i'
  else if c = 'Σ' then
    'σ'
  else
    c

omit [UnicodeData] in
theorem asciiLower_cases (c : Char)
    : (∃ n < 26, c = Char.ofNat (65 + n)) ∨ c = 'İ' ∨ c = 'Σ' ∨ asciiLower c = c := by
  unfold asciiLower
  split
  . next hupper =>
    have hrange : decide (65 ≤ c.val ∧ c.val ≤ 90) = true := hupper
    simp only [decide_eq_true_eq, UInt32.le_iff_toNat_le] at hrange
    have hlow : 65 ≤ c.toNat := hrange.1
    have hhigh : c.toNat ≤ 90 := hrange.2
    refine Or.inl ⟨c.toNat - 65, by omega, ?_⟩
    rw [Nat.add_sub_of_le hlow, Char.ofNat_toNat]
  . split
    . next hdotted => exact Or.inr (Or.inl hdotted)
    . split
      . next hsigma => exact Or.inr (Or.inr (Or.inl hsigma))
      . exact Or.inr (Or.inr (Or.inr rfl))

omit [UnicodeData] in
theorem asciiLower_spec (c : Char)
    : asciiLower (asciiLower c) = asciiLower c ∧ isSpace (asciiLower c) = isSpace c := by
  rcases asciiLower_cases c with ⟨n, hn, hc⟩ | hc | hc | hc
  . subst hc
    have hall : ∀ n < 26, asciiLower (asciiLower (Char.ofNat (65 + n))) = asciiLower (Char.ofNat (65 + n)) ∧
        isSpace (asciiLower (Char.ofNat (65 + n))) = isSpace (Char.ofNat (65 + n)) := by decide
    exact hall n hn
  . subst hc
    decide
  . subst hc
    decide
  . rw [hc]
    exact ⟨hc, rfl⟩

@[reducible]
def ascii : UnicodeData where
  lower := asciiLower
  cased c := c.isAlpha
  caseIgnorable _ := false
  lower_lower c := (asciiLower_spec c).1
  lower_dottedI := by decide
  lower_combiningDot := by decide
  lower_sigma := by decide
  lower_finalSigma := by decide
  isSpace_lower c := (asciiLower_spec c).2

end Ascii

end UnicodeData

end Kerghan
