import Kerghan.Shell.Text

/-!
This module contains the regular expressions of `grep`. A pattern maps a text to what may be left of
it after the pattern has matched at its start, so the parts of an expression compose like functions.
-/

namespace Shell

abbrev Pattern := Text → List Text

namespace Pattern

/--
The characters of `text`.
-/
def literal (text : Text) : Pattern :=
  fun s => if text.isPrefixOf s then [s.drop text.length] else []

def one (p : Char → Bool) : Pattern
  | [] => []
  | c :: s => if p c then [s] else []

def many (p : Char → Bool) : Pattern
  | [] => [[]]
  | c :: s => (c :: s) :: if p c then many p s else []

def lineEnd : Pattern :=
  fun s => if s = [] then [s] else []

def andThen (a b : Pattern) : Pattern :=
  fun s => (a s).flatMap b

def or (a b : Pattern) : Pattern :=
  fun s => a s ++ b s

end Pattern

/--
`grep -q "^pattern"`
-/
def grep (pattern : Pattern) (text : Text) : Bool :=
  (readLines text).any fun line => !(pattern line).isEmpty

theorem grep_eq_true {pattern : Pattern} {text : Text}
    : grep pattern text = true ↔ ∃ line ∈ readLines text, ∃ rest, rest ∈ pattern line := by
  simp only [grep, List.any_eq_true]
  apply exists_congr
  intro line
  apply and_congr_right
  intro _
  cases pattern line with
  | nil => simp
  | cons rest rests => simp

namespace Pattern

variable {text rest s : Text} {p : Char → Bool} {a b : Pattern}

theorem mem_literal : rest ∈ literal text s ↔ s = text ++ rest := by
  unfold literal
  split
  . next hprefix =>
    obtain ⟨rest', hs⟩ := List.isPrefixOf_iff_prefix.mp hprefix
    rw [← hs]
    simp [eq_comm]
  . next hprefix =>
    simp only [List.not_mem_nil, false_iff]
    intro hs
    apply hprefix
    apply List.isPrefixOf_iff_prefix.mpr
    exact ⟨rest, hs.symm⟩

theorem mem_one : rest ∈ one p s ↔ ∃ c, p c = true ∧ s = c :: rest := by
  cases s with
  | nil => simp [one]
  | cons c s =>
    by_cases hc : p c = true
    . simp only [one, hc, if_true, List.mem_singleton, List.cons.injEq]
      constructor
      . rintro rfl
        exact ⟨c, hc, rfl, rfl⟩
      . rintro ⟨_, _, _, h⟩
        exact h.symm
    . simp only [one, hc, Bool.false_eq_true, if_false, List.not_mem_nil, false_iff]
      rintro ⟨c', hc', heq⟩
      simp only [List.cons.injEq] at heq
      exact hc (heq.1 ▸ hc')

theorem mem_many : rest ∈ many p s ↔ ∃ front, (∀ c ∈ front, p c = true) ∧ s = front ++ rest := by
  induction s with
  | nil =>
    simp only [many, List.mem_singleton]
    constructor
    . intro h
      exact ⟨[], by simp, by simp [h]⟩
    . rintro ⟨front, _, h⟩
      exact (List.append_eq_nil_iff.mp h.symm).2
  | cons c s ih =>
    simp only [many, List.mem_cons]
    constructor
    . rintro (rfl | h)
      . exact ⟨[], by simp, rfl⟩
      . by_cases hc : p c = true
        . rw [if_pos hc] at h
          obtain ⟨front, hfront, rfl⟩ := ih.mp h
          exact ⟨c :: front, by simpa [hc] using hfront, rfl⟩
        . simp [hc] at h
    . rintro ⟨front, hfront, h⟩
      cases front with
      | nil => exact Or.inl h.symm
      | cons d front =>
        simp only [List.cons_append, List.cons.injEq] at h
        right
        have hc : p c = true := h.1 ▸ hfront d (List.mem_cons_self ..)
        rw [if_pos hc]
        exact ih.mpr ⟨front, fun c hc => hfront c (List.mem_cons_of_mem _ hc), h.2⟩

theorem mem_lineEnd : rest ∈ lineEnd s ↔ s = [] ∧ rest = [] := by
  unfold lineEnd
  split
  . next h => simp [h]
  . next h => simp [h]

theorem mem_andThen : rest ∈ andThen a b s ↔ ∃ s', s' ∈ a s ∧ rest ∈ b s' := by
  simp [andThen]

theorem mem_or : rest ∈ or a b s ↔ rest ∈ a s ∨ rest ∈ b s := by
  simp [or]

/--
A class that `text` does not start with has matched all it can before `text`.
-/
theorem mem_many_literal {c : Char} (hc : p c = false)
    : rest ∈ andThen (many p) (literal (c :: text)) s ↔ s.dropWhile p = c :: text ++ rest := by
  simp only [mem_andThen, mem_many, mem_literal]
  constructor
  . rintro ⟨s', ⟨front, hfront, rfl⟩, rfl⟩
    rw [List.dropWhile_append_of_pos hfront]
    simp [hc]
  . intro h
    exact ⟨s.dropWhile p, ⟨s.takeWhile p, fun d hd => List.mem_takeWhile_imp hd,
      (List.takeWhile_append_dropWhile ..).symm⟩, h⟩

end Pattern

end Shell
