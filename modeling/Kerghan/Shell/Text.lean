import Mathlib.Data.List.DropRight

/-!
This module contains the texts of the shell and its parameter expansions, as far as scripts use them
to take lines apart. A text holds no NUL, as no shell variable does.
-/

namespace Shell

abbrev Text := List Char

instance : LawfulBEq Text :=
  inferInstance

/--
The character classes of a locale. A locale is free to extend them beyond ASCII, but it never calls a
letter white space.
-/
class Ctype where
  space : Char → Bool
  upper : Char → Bool
  lower : Char → Bool
  space_ascii (c : Char) : c.toNat < 128 → space c = (c.toNat == 32 || (9 ≤ c.toNat && c.toNat ≤ 13))
  upper_ascii (c : Char) : c.toNat < 128 → upper c = c.isUpper
  lower_ascii (c : Char) : c.toNat < 128 → lower c = c.isLower
  not_space_of_upper (c : Char) : upper c = true → space c = false
  not_space_of_lower (c : Char) : lower c = true → space c = false

section Posix

def isPosixSpace (c : Char) : Bool :=
  c.toNat == 32 || (9 ≤ c.toNat && c.toNat ≤ 13)

theorem isPosixSpace_eq (c : Char) (_ : c.toNat < 128)
    : isPosixSpace c = (c.toNat == 32 || (9 ≤ c.toNat && c.toNat ≤ 13)) := rfl

theorem isPosixSpace_eq_false {c : Char} (h : 14 ≤ c.toNat ∧ c.toNat ≠ 32) : isPosixSpace c = false := by
  unfold isPosixSpace
  simp only [Bool.or_eq_false_iff, beq_eq_false_iff_ne, Bool.and_eq_false_iff, decide_eq_false_iff_not]
  omega

theorem isPosixSpace_of_isUpper (c : Char) (h : c.isUpper = true) : isPosixSpace c = false := by
  have hrange : decide (65 ≤ c.val ∧ c.val ≤ 90) = true := h
  rw [decide_eq_true_eq, UInt32.le_iff_toNat_le] at hrange
  have hlow : 65 ≤ c.toNat := hrange.1
  exact isPosixSpace_eq_false (by omega)

theorem isPosixSpace_of_isLower (c : Char) (h : c.isLower = true) : isPosixSpace c = false := by
  have hrange : (decide (97 ≤ c.val) && decide (c.val ≤ 122)) = true := h
  rw [Bool.and_eq_true, decide_eq_true_eq, UInt32.le_iff_toNat_le] at hrange
  have hlow : 97 ≤ c.toNat := hrange.1
  exact isPosixSpace_eq_false (by omega)

/--
The classes of the POSIX locale.
-/
@[reducible]
def Ctype.posix : Ctype where
  space := isPosixSpace
  upper := Char.isUpper
  lower := Char.isLower
  space_ascii := isPosixSpace_eq
  upper_ascii := fun _ _ => rfl
  lower_ascii := fun _ _ => rfl
  not_space_of_upper := isPosixSpace_of_isUpper
  not_space_of_lower := isPosixSpace_of_isLower

end Posix

section Expansions

/--
`${text%%c*}`
-/
def before (c : Char) (text : Text) : Text :=
  text.takeWhile (· ≠ c)

/--
`${text#*c}` of a text that has a `c`.
-/
def after (c : Char) (text : Text) : Text :=
  (text.dropWhile (· ≠ c)).tail

/--
`${text%c*}`: up to the last `c`, everything if there is none.
-/
def beforeLast (c : Char) (text : Text) : Text :=
  if c ∈ text then (text.reverse.dropWhile (· ≠ c)).tail.reverse else text

/--
`${text##*c}`
-/
def afterLast (c : Char) (text : Text) : Text :=
  (text.reverse.takeWhile (· ≠ c)).reverse

/--
`${text%ending}`
-/
def dropEnding (ending text : Text) : Text :=
  if ending.isSuffixOf text then text.take (text.length - ending.length) else text

/--
`${text%c}`
-/
def dropEnd (c : Char) (text : Text) : Text :=
  if text.getLast? = some c then text.dropLast else text

/--
What `$(...)` keeps of an output.
-/
def substitution (output : Text) : Text :=
  output.rdropWhile (· = '\n')

@[simp]
theorem before_append {c : Char} {text : Text} (h : c ∉ text) (rest : Text)
    : before c (text ++ c :: rest) = text := by
  induction text with
  | nil => simp [before]
  | cons d text ih =>
    simp only [List.mem_cons, not_or] at h
    have hne : d ≠ c := fun heq => h.1 heq.symm
    simpa [before, hne] using ih h.2

@[simp]
theorem after_append {c : Char} {text : Text} (h : c ∉ text) (rest : Text)
    : after c (text ++ c :: rest) = rest := by
  induction text with
  | nil => simp [after]
  | cons d text ih =>
    simp only [List.mem_cons, not_or] at h
    have hne : d ≠ c := fun heq => h.1 heq.symm
    simpa [after, hne] using ih h.2

theorem before_eq_self {c : Char} {text : Text} (h : c ∉ text) : before c text = text := by
  apply List.takeWhile_eq_self_iff.mpr
  intro d hd
  have hne : d ≠ c := fun heq => h (heq ▸ hd)
  simp [hne]

/--
A text with a `c` is what stands before it, the `c`, and what stands after it.
-/
theorem before_append_after {c : Char} {text : Text} (h : c ∈ text)
    : before c text ++ c :: after c text = text := by
  induction text with
  | nil => simp at h
  | cons d text ih =>
    by_cases heq : d = c
    . subst heq
      simp [before, after]
    . have hmem : c ∈ text := by
        rcases List.mem_cons.mp h with h | h
        . exact absurd h.symm heq
        . exact h
      simpa [before, after, heq] using ih hmem

theorem dropEnd_eq_self {c : Char} {text : Text} (h : c ∉ text) : dropEnd c text = text := by
  unfold dropEnd
  split
  . next hlast => exact absurd (List.mem_of_getLast? hlast) h
  . rfl

theorem dropEnd_concat (c d : Char) (text : Text)
    : dropEnd c (text ++ [d]) = if d = c then text else text ++ [d] := by
  simp [dropEnd]

theorem dropEnd_append {c : Char} {text : Text} (h : c ∉ text) (rest : Text)
    : dropEnd c (text ++ rest) = text ++ dropEnd c rest := by
  cases List.eq_nil_or_concat rest with
  | inl hempty =>
    subst hempty
    rw [List.append_nil, dropEnd_eq_self h, dropEnd_eq_self List.not_mem_nil, List.append_nil]
  | inr hconcat =>
    have ⟨front, last, hlast⟩ := hconcat
    rw [hlast, List.concat_eq_append, ← List.append_assoc, dropEnd_concat, dropEnd_concat]
    split
    . rfl
    . rw [List.append_assoc]

theorem dropEnd_cases (c : Char) (text : Text)
    : text = dropEnd c text ∨ text = dropEnd c text ++ [c] := by
  unfold dropEnd
  split
  . next hlast =>
    have ⟨rest, htext⟩ := List.getLast?_eq_some_iff.mp hlast
    subst htext
    exact Or.inr (by rw [List.dropLast_concat])
  . exact Or.inl rfl

theorem afterLast_append {c : Char} {rest : Text} (h : c ∉ rest) (text : Text)
    : afterLast c (text ++ c :: rest) = rest := by
  have hrest : ∀ d ∈ rest.reverse, decide (d ≠ c) = true := by
    intro d hd
    rw [decide_eq_true_eq]
    exact fun heq => h (heq ▸ List.mem_reverse.mp hd)
  rw [afterLast, List.reverse_append, List.reverse_cons, List.append_assoc, List.takeWhile_append_of_pos hrest,
    List.singleton_append, List.takeWhile_cons_of_neg (by simp), List.append_nil, List.reverse_reverse]

theorem beforeLast_append {c : Char} {rest : Text} (h : c ∉ rest) (text : Text)
    : beforeLast c (text ++ c :: rest) = text := by
  have hrest : ∀ d ∈ rest.reverse, decide (d ≠ c) = true := by
    intro d hd
    rw [decide_eq_true_eq]
    exact fun heq => h (heq ▸ List.mem_reverse.mp hd)
  rw [beforeLast, if_pos (by simp), List.reverse_append, List.reverse_cons, List.append_assoc,
    List.dropWhile_append_of_pos hrest, List.singleton_append, List.dropWhile_cons_of_neg (by simp),
    List.tail_cons, List.reverse_reverse]

theorem beforeLast_append_afterLast {c : Char} {text : Text} (h : c ∈ text)
    : beforeLast c text ++ c :: afterLast c text = text := by
  have ⟨front, rest, htext, hrest⟩ := List.eq_append_cons_of_mem (List.mem_reverse.mpr h)
  have htext' : text = rest.reverse ++ c :: front.reverse := by
    rw [← List.reverse_reverse text, htext]
    simp
  have hfront : c ∉ front.reverse := fun hmem => hrest (List.mem_reverse.mp hmem)
  rw [htext', beforeLast_append hfront, afterLast_append hfront]

theorem dropEnding_append (ending text : Text) : dropEnding ending (text ++ ending) = text := by
  rw [dropEnding, if_pos (List.isSuffixOf_iff_suffix.mpr (List.suffix_append ..))]
  simp

theorem dropEnding_cases (ending text : Text)
    : dropEnding ending text = text ∨ text = dropEnding ending text ++ ending := by
  rw [dropEnding]
  split
  . next hending =>
    have ⟨front, hfront⟩ := List.isSuffixOf_iff_suffix.mp hending
    right
    rw [← hfront]
    simp
  . exact Or.inl rfl

theorem dropEnding_eq_self {ending text : Text} (h : ¬ending <:+ text) : dropEnding ending text = text := by
  rw [dropEnding, if_neg]
  exact fun hending => h (List.isSuffixOf_iff_suffix.mp hending)

end Expansions

section Trim

variable [Ctype]

/--
`${text#"${text%%[![:space:]]*}"}`
-/
def trimStart (text : Text) : Text :=
  text.dropWhile Ctype.space

def trim (text : Text) : Text :=
  (trimStart text).rdropWhile Ctype.space

/--
`*[![:space:]]*`
-/
def hasText (text : Text) : Bool :=
  text.any fun c => !Ctype.space c

theorem trimStart_eq_self {c : Char} (hc : Ctype.space c = false) (text : Text)
    : trimStart (c :: text) = c :: text := by
  simp [trimStart, hc]

theorem trim_eq_self {text : Text} (h : ∀ c ∈ text, Ctype.space c = false) : trim text = text := by
  have hstart : trimStart text = text := by
    cases text with
    | nil => rfl
    | cons c text => exact trimStart_eq_self (h c (List.mem_cons_self ..)) text
  rw [trim, hstart]
  apply List.rdropWhile_eq_self_iff.mpr
  intro hne
  simp [h _ (List.getLast_mem hne)]

theorem trim_append {text spaces : Text} (htext : ∀ c ∈ text, Ctype.space c = false)
    (hspaces : ∀ c ∈ spaces, Ctype.space c = true)
    : trim (text ++ spaces) = text := by
  have hdrop : (text ++ spaces).rdropWhile Ctype.space = text := by
    rw [List.rdropWhile, List.reverse_append, List.dropWhile_append_of_pos (by simpa using hspaces),
      ← List.rdropWhile, List.rdropWhile_eq_self_iff]
    intro hne
    simp [htext _ (List.getLast_mem hne)]
  cases text with
  | nil =>
    unfold trim trimStart
    rw [List.nil_append, List.dropWhile_eq_nil_iff.mpr hspaces]
    rfl
  | cons c text =>
    rw [trim, List.cons_append, trimStart_eq_self (htext c (List.mem_cons_self ..))]
    exact hdrop

theorem exists_of_trim {text : Text} (hstart : trimStart text = text)
    : ∃ spaces, text = trim text ++ spaces ∧ ∀ c ∈ spaces, Ctype.space c = true := by
  have ⟨spaces, hspaces⟩ := List.rdropWhile_prefix Ctype.space text
  refine ⟨spaces, by rw [trim, hstart, hspaces], ?_⟩
  have hdrop : text.rtakeWhile Ctype.space = spaces := by
    have hsplit : text.rdropWhile Ctype.space ++ text.rtakeWhile Ctype.space = text := by
      rw [List.rdropWhile, List.rtakeWhile, ← List.reverse_append, List.takeWhile_append_dropWhile,
        List.reverse_reverse]
    exact List.append_cancel_left (hsplit.trans hspaces.symm)
  intro c hc
  exact List.mem_rtakeWhile_imp (hdrop ▸ hc)

@[simp]
theorem trimStart_trimStart (text : Text) : trimStart (trimStart text) = trimStart text :=
  List.dropWhile_idempotent ..

theorem trimStart_dropEnd {c : Char} (hc : Ctype.space c = true) (text : Text)
    : trimStart (dropEnd c text) = dropEnd c (trimStart text) := by
  unfold dropEnd
  by_cases hlast : text.getLast? = some c
  . have ⟨rest, htext⟩ := List.getLast?_eq_some_iff.mp hlast
    subst htext
    rw [if_pos hlast, List.dropLast_concat]
    unfold trimStart
    rw [List.dropWhile_append]
    by_cases hempty : rest.dropWhile Ctype.space = []
    . simp [hempty, hc]
    . simp [hempty]
  . rw [if_neg hlast, if_neg]
    intro hlast'
    have ⟨front, hfront⟩ := List.dropWhile_suffix Ctype.space (l := text)
    apply hlast
    rw [← hfront, List.getLast?_append, show List.dropWhile Ctype.space text = trimStart text by rfl, hlast']
    rfl

end Trim

section Lines

/--
The lines that `while IFS= read -r line || [ -n "$line" ]` sees.
-/
def readLines (text : Text) : List Text :=
  match text with
  | [] => []
  | c :: rest =>
    if c = '\n' then
      [] :: readLines rest
    else
      match readLines rest with
      | [] => [[c]]
      | line :: lines => (c :: line) :: lines

/--
Every line with a newline behind it.
-/
def printLines (lines : List Text) : Text :=
  lines.flatMap (· ++ ['\n'])

@[simp]
theorem printLines_append (lines lines' : List Text)
    : printLines (lines ++ lines') = printLines lines ++ printLines lines' := by
  simp [printLines]

theorem readLines_append {line : Text} (h : '\n' ∉ line) (rest : Text)
    : readLines (line ++ '\n' :: rest) = line :: readLines rest := by
  induction line with
  | nil => simp [readLines]
  | cons c line ih =>
    simp only [List.mem_cons, not_or] at h
    have hne : c ≠ '\n' := fun heq => h.1 heq.symm
    simp [readLines, hne, ih h.2]

theorem readLines_printLines {lines : List Text} (h : ∀ line ∈ lines, '\n' ∉ line)
    : readLines (printLines lines) = lines := by
  induction lines with
  | nil => rfl
  | cons line lines ih =>
    have hline := h line (List.mem_cons_self ..)
    rw [show printLines (line :: lines) = line ++ '\n' :: printLines lines by simp [printLines],
      readLines_append hline, ih fun l hl => h l (List.mem_cons_of_mem _ hl)]

theorem readLines_eq_nil {text : Text} (h : readLines text = []) : text = [] := by
  cases text with
  | nil => rfl
  | cons c rest =>
    rw [readLines] at h
    split at h
    . cases h
    . split at h
      . cases h
      . cases h

theorem readLines_append_text {text : Text} (h : text = [] ∨ text.getLast? = some '\n') (rest : Text)
    : readLines (text ++ rest) = readLines text ++ readLines rest := by
  induction text with
  | nil => rfl
  | cons c text ih =>
    rw [List.cons_append, readLines, readLines]
    by_cases hempty : text = []
    . subst hempty
      have hc : c = '\n' := by simpa using h
      rw [if_pos hc, if_pos hc]
      rfl
    . have hlast : text.getLast? = some '\n' := by
        cases h with
        | inl h => cases h
        | inr h => rwa [List.getLast?_cons_of_ne_nil hempty] at h
      rw [ih (Or.inr hlast)]
      split
      . rfl
      . cases hlines : readLines text with
        | nil => exact absurd (readLines_eq_nil hlines) hempty
        | cons line lines => rfl

theorem readLines_concat {text : Text} (hne : text ≠ []) (hlast : text.getLast? ≠ some '\n')
    : readLines (text ++ ['\n']) = readLines text := by
  induction text with
  | nil => exact absurd rfl hne
  | cons c text ih =>
    rw [List.cons_append, readLines, readLines]
    by_cases hempty : text = []
    . subst hempty
      have hc : c ≠ '\n' := by simpa using hlast
      rw [if_neg hc, if_neg hc]
      rfl
    . rw [List.getLast?_cons_of_ne_nil hempty] at hlast
      rw [ih hempty hlast]

theorem substitution_printLines {lines : List Text} (hne : lines ≠ [])
    (hlines : ∀ line ∈ lines, line ≠ [] ∧ '\n' ∉ line)
    : substitution (printLines lines) ++ ['\n'] = printLines lines := by
  cases List.eq_nil_or_concat lines with
  | inl hempty => exact absurd hempty hne
  | inr hconcat =>
    have ⟨front, last, hlast⟩ := hconcat
    rw [List.concat_eq_append] at hlast
    subst hlast
    have ⟨hpresent, hnewline⟩ := hlines last (by simp)
    have hprint : printLines (front ++ [last]) = (printLines front ++ last) ++ ['\n'] := by
      simp [printLines]
    rw [hprint, substitution, List.rdropWhile_concat_pos _ _ _ (by decide), List.rdropWhile_eq_self_iff.mpr]
    intro hend
    rw [List.getLast_append_of_ne_nil _ hpresent]
    have hmem := List.getLast_mem hpresent
    intro hnewline'
    exact hnewline (of_decide_eq_true hnewline' ▸ hmem)

theorem not_mem_of_mem_readLines {text line : Text} (h : line ∈ readLines text) : '\n' ∉ line := by
  induction text generalizing line with
  | nil => simp [readLines] at h
  | cons c rest ih =>
    simp only [readLines] at h
    split at h
    . rcases List.mem_cons.mp h with rfl | h
      . exact List.not_mem_nil
      . exact ih h
    . next hc =>
      have hne : '\n' ≠ c := fun heq => hc heq.symm
      split at h
      . simp only [List.mem_singleton] at h
        simp [h, hne]
      . next first lines hrest =>
        rcases List.mem_cons.mp h with rfl | h
        . have := ih (hrest ▸ List.mem_cons_self ..)
          simp [hne, this]
        . exact ih (hrest ▸ List.mem_cons_of_mem _ h)

end Lines

end Shell
