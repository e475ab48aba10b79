import Mathlib.Data.List.Basic

/-!
This module contains the editing of a list of lines by what the lines are about: the lines of a setting are
those that satisfy a predicate `p`, and the first line that satisfies `t` is where a new one goes if the setting
has no line.
-/

namespace Shell

variable {α β : Type}

section Edit

def setLast (p : α → Bool) (line : α) (lines : List α) : List α :=
  match lines with
  | [] => []
  | first :: lines =>
    if p first then
      if lines.any p then setLast p line lines else line :: lines
    else
      first :: setLast p line lines

def setFirst (t : α → Bool) (line : α) (lines : List α) : List α :=
  match lines with
  | [] => []
  | first :: lines => if t first then line :: lines else first :: setFirst t line lines

def setLine (p t : α → Bool) (line : α) (lines : List α) : List α :=
  if lines.any p then
    setLast p line lines
  else if lines.any t then
    setFirst t line lines
  else
    lines ++ [line]

def unsetLines (p : α → Bool) (lines : List α) : List α :=
  lines.filter fun line => !p line

/--
The numbers of the lines of a setting, counted from `n`.
-/
def numbersFrom (p : α → Bool) (lines : List α) (n : Nat) : List Nat :=
  (lines.zipIdx n).filterMap fun (line, n) => if p line then some n else none

abbrev numbers (p : α → Bool) (lines : List α) : List Nat :=
  numbersFrom p lines 1

end Edit

section Split

variable {p t : α → Bool} {line old : α} {front back lines : List α}

theorem exists_last (h : lines.any p = true)
    : ∃ front old back, lines = front ++ old :: back ∧ p old = true ∧ ∀ a ∈ back, p a = false := by
  induction lines with
  | nil => simp at h
  | cons first lines ih =>
    cases hlater : lines.any p with
    | true =>
      have ⟨front, old, back, hlines, hold, hback⟩ := ih hlater
      exact ⟨first :: front, old, back, by rw [hlines, List.cons_append], hold, hback⟩
    | false =>
      rw [List.any_cons, hlater, Bool.or_false] at h
      exact ⟨[], first, lines, rfl, h, by simpa using hlater⟩

theorem exists_first (h : lines.any t = true)
    : ∃ front old back, lines = front ++ old :: back ∧ t old = true ∧ ∀ a ∈ front, t a = false := by
  induction lines with
  | nil => simp at h
  | cons first lines ih =>
    cases hfirst : t first with
    | true => exact ⟨[], first, lines, rfl, hfirst, by simp⟩
    | false =>
      rw [List.any_cons, hfirst, Bool.false_or] at h
      have ⟨front, old, back, hlines, hold, hfront⟩ := ih h
      refine ⟨first :: front, old, back, by rw [hlines, List.cons_append], hold, ?_⟩
      intro a ha
      cases List.mem_cons.mp ha with
      | inl ha => exact ha ▸ hfirst
      | inr ha => exact hfront a ha

theorem unsetLines_append (front back : List α)
    : unsetLines p (front ++ back) = unsetLines p front ++ unsetLines p back :=
  List.filter_append ..

theorem setLast_split (hold : p old = true) (hback : ∀ a ∈ back, p a = false)
    : setLast p line (front ++ old :: back) = unsetLines p front ++ line :: back := by
  induction front with
  | nil =>
    have hnone : ¬back.any p = true := by simpa using hback
    rw [List.nil_append, setLast, if_pos hold, if_neg hnone]
    rfl
  | cons first front ih =>
    have hlater : (front ++ old :: back).any p = true := by simp [hold]
    rw [List.cons_append, setLast, hlater, ih, unsetLines, unsetLines, List.filter_cons]
    cases p first with
    | true => rfl
    | false => rfl

theorem setFirst_split (hfront : ∀ a ∈ front, t a = false) (hold : t old = true)
    : setFirst t line (front ++ old :: back) = front ++ line :: back := by
  induction front with
  | nil => rw [List.nil_append, setFirst, if_pos hold, List.nil_append]
  | cons first front ih =>
    have hfirst : ¬t first = true := by simp [hfront first (List.mem_cons_self ..)]
    rw [List.cons_append, setFirst, if_neg hfirst, ih fun a ha => hfront a (List.mem_cons_of_mem _ ha),
      List.cons_append]

theorem setLine_last (hold : p old = true) (hback : ∀ a ∈ back, p a = false)
    : setLine p t line (front ++ old :: back) = unsetLines p front ++ line :: back := by
  have hsome : (front ++ old :: back).any p = true := by simp [hold]
  rw [setLine, if_pos hsome, setLast_split hold hback]

theorem setLine_first (hlines : ∀ a ∈ front ++ old :: back, p a = false) (hfront : ∀ a ∈ front, t a = false)
    (hold : t old = true)
    : setLine p t line (front ++ old :: back) = front ++ line :: back := by
  have hnone : ¬(front ++ old :: back).any p = true := by
    rw [List.any_eq_true]
    intro ⟨a, ha, hpa⟩
    rw [hlines a ha] at hpa
    cases hpa
  have hsome : (front ++ old :: back).any t = true := by simp [hold]
  rw [setLine, if_neg hnone, if_pos hsome, setFirst_split hfront hold]

theorem setLine_none (hp : ∀ a ∈ lines, p a = false) (ht : ∀ a ∈ lines, t a = false)
    : setLine p t line lines = lines ++ [line] := by
  rw [setLine, if_neg (by simpa using hp), if_neg (by simpa using ht)]

theorem setLine_cases {motive : List α → List α → Prop} (line : α) (lines : List α)
    (last : ∀ front old back, p old = true → (∀ a ∈ back, p a = false) →
      motive (front ++ old :: back) (unsetLines p front ++ line :: back))
    (first : ∀ front old back, (∀ a ∈ front ++ old :: back, p a = false) → (∀ a ∈ front, t a = false) →
      t old = true → motive (front ++ old :: back) (front ++ line :: back))
    (none : ∀ lines, (∀ a ∈ lines, p a = false) → (∀ a ∈ lines, t a = false) → motive lines (lines ++ [line]))
    : motive lines (setLine p t line lines) := by
  cases hp : lines.any p with
  | true =>
    have ⟨front, old, back, hlines, hold, hback⟩ := exists_last hp
    rw [hlines, setLine_last hold hback]
    exact last front old back hold hback
  | false =>
    have hp' : ∀ a ∈ lines, p a = false := by simpa using hp
    cases ht : lines.any t with
    | true =>
      have ⟨front, old, back, hlines, hold, hfront⟩ := exists_first ht
      rw [hlines] at hp' ⊢
      rw [setLine_first hp' hfront hold]
      exact first front old back hp' hfront hold
    | false =>
      have ht' : ∀ a ∈ lines, t a = false := by simpa using ht
      rw [setLine_none hp' ht']
      exact none lines hp' ht'

end Split

section Read

variable {p t : α → Bool} {line : α} {lines : List α} {f : α → Option β}

theorem filterMap_unsetLines (hf : ∀ a, p a = true → f a = none)
    : (unsetLines p lines).filterMap f = lines.filterMap f := by
  rw [unsetLines, List.filterMap_filter]
  apply List.filterMap_congr
  intro a _
  cases hp : p a with
  | true => rw [hf a hp]; rfl
  | false => rfl

theorem filterMap_unsetLines_self (hf : ∀ a, p a = false → f a = none)
    : (unsetLines p lines).filterMap f = [] := by
  apply List.filterMap_eq_nil_iff.mpr
  intro a ha
  apply hf
  simpa using (List.mem_filter.mp ha).2

theorem filterMap_setLine (hline : f line = none) (hp : ∀ a, p a = true → f a = none)
    (ht : ∀ a, t a = true → f a = none)
    : (setLine p t line lines).filterMap f = lines.filterMap f := by
  apply setLine_cases (motive := fun old new => new.filterMap f = old.filterMap f)
  . intro front old back hold _
    rw [List.filterMap_append, List.filterMap_append, filterMap_unsetLines hp, List.filterMap_cons_none hline,
      List.filterMap_cons_none (hp old hold)]
  . intro front old back _ _ hold
    rw [List.filterMap_append, List.filterMap_append, List.filterMap_cons_none hline,
      List.filterMap_cons_none (ht old hold)]
  . intro lines _ _
    rw [List.filterMap_append, List.filterMap_cons_none hline, List.filterMap_nil, List.append_nil]

theorem filterMap_setLine_self {b : β} (hline : f line = some b) (hf : ∀ a, p a = false → f a = none)
    : (setLine p t line lines).filterMap f = [b] := by
  have hnone (lines : List α) (hlines : ∀ a ∈ lines, p a = false) : lines.filterMap f = [] :=
    List.filterMap_eq_nil_iff.mpr fun a ha => hf a (hlines a ha)
  apply setLine_cases (motive := fun _ new => new.filterMap f = [b])
  . intro front old back _ hback
    rw [List.filterMap_append, filterMap_unsetLines_self hf, List.filterMap_cons_some hline, hnone back hback,
      List.nil_append]
  . intro front old back hlines _ _
    rw [List.filterMap_append, List.filterMap_cons_some hline,
      hnone front fun a ha => hlines a (List.mem_append_left _ ha),
      hnone back fun a ha => hlines a (List.mem_append_right _ (List.mem_cons_of_mem _ ha)), List.nil_append]
  . intro lines hlines _
    rw [List.filterMap_append, hnone lines hlines, List.filterMap_cons_some hline, List.filterMap_nil,
      List.nil_append]

end Read

section Numbers

variable {p : α → Bool} {front back lines : List α} {n : Nat}

theorem numbersFrom_append (front back : List α) (n : Nat)
    : numbersFrom p (front ++ back) n = numbersFrom p front n ++ numbersFrom p back (n + front.length) := by
  rw [numbersFrom, List.zipIdx_append, List.filterMap_append]
  rfl

theorem numbersFrom_eq_nil (h : ∀ a ∈ lines, p a = false) : numbersFrom p lines n = [] := by
  apply List.filterMap_eq_nil_iff.mpr
  intro (a, m) ha
  have hmem := h a (List.fst_mem_of_mem_zipIdx ha)
  simp [hmem]

theorem numbersFrom_cons (first : α) (lines : List α) (n : Nat)
    : numbersFrom p (first :: lines) n = (if p first then [n] else []) ++ numbersFrom p lines (n + 1) := by
  rw [numbersFrom, List.zipIdx_cons, List.filterMap_cons]
  cases hp : p first with
  | true => simp [hp, numbersFrom]
  | false => simp [hp, numbersFrom]

theorem mem_numbersFrom {m : Nat}
    : m ∈ numbersFrom p lines n ↔ n ≤ m ∧ ∃ a, lines[m - n]? = some a ∧ p a = true := by
  unfold numbersFrom
  rw [List.mem_filterMap]
  constructor
  . intro ⟨(a, k), hmem, hif⟩
    have ⟨hp, hk⟩ : p a = true ∧ k = m := by simpa using hif
    have ⟨hle, hget⟩ := List.mem_zipIdx_iff_le_and_getElem?_sub.mp hmem
    subst hk
    exact ⟨hle, a, hget, hp⟩
  . intro ⟨hle, a, hget, hp⟩
    refine ⟨(a, m), List.mem_zipIdx_iff_le_and_getElem?_sub.mpr ⟨hle, hget⟩, ?_⟩
    simp [hp]

theorem mem_numbersFrom_of_zipIdx {a : α} {m : Nat} (h : (a, m) ∈ lines.zipIdx n)
    : m ∈ numbersFrom p lines n ↔ p a = true := by
  have ⟨hle, hget⟩ := List.mem_zipIdx_iff_le_and_getElem?_sub.mp h
  rw [mem_numbersFrom]
  constructor
  . intro ⟨_, b, hget', hp⟩
    have heq : a = b := Option.some.inj (hget.symm.trans hget')
    exact heq ▸ hp
  . intro hp
    exact ⟨hle, a, hget, hp⟩

theorem zipIdx_split (front back : List α) (old : α) (n : Nat)
    : (front ++ old :: back).zipIdx n
        =
      front.zipIdx n ++ (old, n + front.length) :: back.zipIdx (n + front.length + 1) := by
  rw [List.zipIdx_append, List.zipIdx_cons]

theorem numbersFrom_bounds {m : Nat} (h : m ∈ numbersFrom p lines n) : n ≤ m ∧ m < n + lines.length := by
  have ⟨hle, a, hget, _⟩ := mem_numbersFrom.mp h
  have ⟨hlt, _⟩ := List.getElem?_eq_some_iff.mp hget
  exact ⟨hle, by omega⟩

end Numbers

end Shell
