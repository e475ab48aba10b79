/-!
This module contains the functions of JavaScript strings that the repository uses.
-/

namespace Kerghan

/--
`WhiteSpace` and `LineTerminator` of ECMAScript.
-/
def isSpace (c : Char) : Bool :=
  let n := c.toNat
  (9 ≤ n && n ≤ 13) || n == 0x20 || n == 0xA0 || n == 0x1680 || (0x2000 ≤ n && n ≤ 0x200A)
    || n == 0x2028 || n == 0x2029 || n == 0x202F || n == 0x205F || n == 0x3000 || n == 0xFEFF

/--
`text.trim()`
-/
def trim (text : String) : String :=
  String.ofList ((text.toList.dropWhile isSpace).reverse.dropWhile isSpace).reverse

theorem trim_eq_self {text : String} (h : ∀ c ∈ text.toList, isSpace c = false) : trim text = text := by
  have hdrop : ∀ chars : List Char, (∀ c ∈ chars, isSpace c = false) → chars.dropWhile isSpace = chars := by
    intro chars hchars
    cases chars with
    | nil => rfl
    | cons c chars => simp [hchars c (List.mem_cons_self ..)]
  unfold trim
  rw [hdrop _ h, hdrop _ fun c hc => h c (List.mem_reverse.mp hc), List.reverse_reverse,
    String.ofList_toList]

def isAlphanumeric (c : Char) : Bool :=
  c.isDigit || ('a' ≤ c && c ≤ 'z') || ('A' ≤ c && c ≤ 'Z')

theorem isSpace_of_isAlphanumeric {c : Char} (h : (isAlphanumeric c || c == '_') = true)
    : isSpace c = false := by
  have hnat : (48 ≤ c.toNat ∧ c.toNat ≤ 57) ∨ (97 ≤ c.toNat ∧ c.toNat ≤ 122) ∨
      (65 ≤ c.toNat ∧ c.toNat ≤ 90) ∨ c.toNat = 95 := by
    simp only [isAlphanumeric, Bool.or_eq_true, Bool.and_eq_true, decide_eq_true_eq, beq_iff_eq] at h
    rcases h with ((h | h) | h) | h
    . rw [Char.isDigit_iff_toNat] at h
      exact Or.inl h
    . exact Or.inr (Or.inl h)
    . exact Or.inr (Or.inr (Or.inl h))
    . rw [h]
      exact Or.inr (Or.inr (Or.inr rfl))
  unfold isSpace
  simp only [Bool.or_eq_false_iff, Bool.and_eq_false_iff, decide_eq_false_iff_not, beq_eq_false_iff_ne]
  omega

def utf16 (text : String) : List Nat :=
  text.toList.flatMap fun c =>
    let n := c.toNat
    if n < 0x10000 then
      [n]
    else
      [0xD800 + (n - 0x10000) / 0x400, 0xDC00 + (n - 0x10000) % 0x400]

/--
`text.length`
-/
def utf16Length (text : String) : Nat :=
  (utf16 text).length

section Utf16

def units (c : Char) : List Nat :=
  let n := c.toNat
  if n < 0x10000 then
    [n]
  else
    [0xD800 + (n - 0x10000) / 0x400, 0xDC00 + (n - 0x10000) % 0x400]

theorem eq_of_flatMap_units {chars chars' : List Char} (hplain : ∀ c ∈ chars', c.toNat < 0xD800)
    (h : chars.flatMap units = chars'.flatMap units)
    : chars = chars' := by
  induction chars' generalizing chars with
  | nil =>
    cases chars with
    | nil => rfl
    | cons c chars =>
      have hne : units c ≠ [] := by
        unfold units
        dsimp only
        split
        . nofun
        . nofun
      simp [hne] at h
  | cons c' chars' ih =>
    have hc' := hplain c' (List.mem_cons_self ..)
    have hunits : units c' = [c'.toNat] := by
      unfold units
      rw [if_pos (Nat.lt_trans hc' (by decide))]
    cases chars with
    | nil => simp [hunits] at h
    | cons c chars =>
      rw [List.flatMap_cons, List.flatMap_cons, hunits] at h
      unfold units at h
      dsimp only at h
      split at h
      . have ⟨hhead, htail⟩ := List.cons.inj h
        rw [Char.toNat_inj.mp hhead, ih (fun c hc => hplain c (List.mem_cons_of_mem _ hc)) htail]
      . have hhead := (List.cons.inj h).1
        omega

theorem eq_of_utf16_eq {text text' : String} (hplain : ∀ c ∈ text'.toList, c.toNat < 0xD800)
    (h : utf16 text = utf16 text')
    : text = text' :=
  String.toList_inj.mp (eq_of_flatMap_units hplain h)

end Utf16

/--
`text.split(separator)`
-/
def split (separator : Char) (text : String) : List String :=
  (text.toList.splitOn separator).map String.ofList

/--
`text.startsWith(start)`
-/
def startsWith (text start : String) : Bool :=
  start.toList.isPrefixOf text.toList

/--
`text.slice(-n)` of a text without surrogates.
-/
def lastChars (n : Nat) (text : String) : String :=
  String.ofList (text.toList.drop (text.toList.length - n))

end Kerghan
