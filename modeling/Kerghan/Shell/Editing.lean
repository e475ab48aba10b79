import Kerghan.Shell.Draft

/-!
This module contains the proof that the editing by line numbers, which have been recorded before the first edit,
is the editing of the lines themselves, as long as no two edits are about the same lines.
-/

namespace Shell

section Apply

variable {edits edits' : Edits} {p t : Text → Bool} {front back lines : List Text} {n : Nat}

theorem Edits.applyFrom_append (front back : List Text) (n : Nat)
    : edits.applyFrom (front ++ back) n = edits.applyFrom front n ++ edits.applyFrom back (n + front.length) := by
  rw [Edits.applyFrom, List.zipIdx_append, List.filterMap_append]
  rfl

theorem Edits.applyFrom_cons (line : Text) (lines : List Text) (n : Nat)
    : edits.applyFrom (line :: lines) n = ((edits n).getD (some line)).toList ++ edits.applyFrom lines (n + 1) := by
  rw [Edits.applyFrom, List.zipIdx_cons, List.filterMap_cons]
  dsimp only
  cases (edits n).getD (some line) with
  | none => rfl
  | some line => rfl

theorem Edits.applyFrom_congr (h : ∀ m, n ≤ m → m < n + lines.length → edits m = edits' m)
    : edits.applyFrom lines n = edits'.applyFrom lines n := by
  apply List.filterMap_congr
  intro (line, m) hmem
  have ⟨hle, hlt⟩ := List.mem_zipIdx hmem |>.imp_right And.left
  dsimp only
  rw [h m hle (by omega)]

theorem Edits.mem_applyFrom {line : Text} (h : line ∈ edits.applyFrom lines n)
    : line ∈ lines ∨ ∃ m, edits m = some (some line) := by
  have ⟨(old, m), hmem, hline⟩ := List.mem_filterMap.mp h
  cases hedit : edits m with
  | none =>
    have heq : old = line := by simpa [hedit] using hline
    exact Or.inl (heq ▸ List.fst_mem_of_mem_zipIdx hmem)
  | some new =>
    have heq : new = some line := by simpa [hedit] using hline
    exact Or.inr ⟨m, by rw [hedit, heq]⟩

theorem Edits.applyFrom_delete (huntouched : ∀ line m, (line, m) ∈ lines.zipIdx n → p line = true → edits m = none)
    (hnew : ∀ line m, edits m = some (some line) → p line = false)
    (hedits' : ∀ line m, (line, m) ∈ lines.zipIdx n → edits' m = if p line then some none else edits m)
    : edits'.applyFrom lines n = unsetLines p (edits.applyFrom lines n) := by
  unfold Edits.applyFrom unsetLines
  rw [List.filter_filterMap]
  apply List.filterMap_congr
  intro (line, m) hmem
  dsimp only
  rw [hedits' line m hmem]
  cases hp : p line with
  | true => simp [huntouched line m hmem hp, Option.filter, hp]
  | false =>
    cases hedit : edits m with
    | none => simp [Option.filter, hp]
    | some new =>
      cases new with
      | none => rfl
      | some new => simp [Option.filter, hnew new m hedit]

end Apply

/--
The draft is on the way from `lines` to `result`. Nothing has been done to the lines that are `free`, and no new
line is free.
-/
structure Draft.Makes (draft : Draft) (lines result : List Text) (free : Text → Prop) (edits : Edits) : Prop where
  shows : draft.Shows lines edits
  untouched : ∀ line n, (line, n) ∈ lines.zipIdx 1 → free line → edits n = none
  replaced : ∀ line n, edits n = some (some line) → ¬free line
  appended : ∀ line ∈ draft.appends, ¬free line
  result : result = edits.apply lines ++ draft.appends

namespace Draft.Makes

variable {draft : Draft} {lines result : List Text} {free free' : Text → Prop} {edits : Edits} {p t : Text → Bool}
variable {line : Text}

theorem ofLines (lines : List Text) (free : Text → Prop)
    : (Draft.ofLines lines).Makes lines lines free fun _ => none where
  shows := .ofLines lines
  untouched _ _ _ _ := rfl
  replaced := by simp
  appended := by simp [Draft.ofLines]
  result := by simp [Edits.applyFrom, Draft.ofLines]

theorem print (h : draft.Makes lines result free edits) : draft.print = some result := by
  rw [h.shows.print, h.result]

theorem not_mem (h : draft.Makes lines result free edits) (hfree : ∀ line, p line = true → free line)
    (hlines : ∀ line ∈ lines, p line = false)
    : ∀ line ∈ result, p line = false := by
  intro line hline
  rw [h.result] at hline
  have hnot (hnew : ¬free line) : p line = false := by
    cases hp : p line with
    | true => exact absurd (hfree line hp) hnew
    | false => rfl
  cases List.mem_append.mp hline with
  | inl hline =>
    rcases Edits.mem_applyFrom hline with hold | ⟨n, hnew⟩
    . exact hlines line hold
    . exact hnot (h.replaced line n hnew)
  | inr hline => exact hnot (h.appended line hline)

theorem weaken (h : draft.Makes lines result free edits) (hfree : ∀ line, free' line → free line)
    : draft.Makes lines result free' edits where
  shows := h.shows
  untouched line n hmem hline := h.untouched line n hmem (hfree line hline)
  replaced line n hedit hline := h.replaced line n hedit (hfree line hline)
  appended line hmem hline := h.appended line hmem (hfree line hline)
  result := h.result

theorem unset (h : draft.Makes lines result free edits) (hp : ∀ line, p line = true → free line)
    (hfree : ∀ line, free' line → free line ∧ p line = false)
    : ∃ edits', (draft.unset (numbers p lines)).Makes lines (unsetLines p result) free' edits' := by
  have hnew : ∀ line n, edits n = some (some line) → p line = false := by
    intro line n hedit
    cases hline : p line with
    | true => exact absurd (hp line hline) (h.replaced line n hedit)
    | false => rfl
  have happended : unsetLines p draft.appends = draft.appends := by
    apply List.filter_eq_self.mpr
    intro line hline
    cases hline' : p line with
    | true => exact absurd (hp line hline') (h.appended line hline)
    | false => rfl
  refine ⟨edits.delete (numbers p lines), ?_, ?_, ?_, ?_, ?_⟩
  . apply h.shows.deletes
    intro n hn
    have hbounds := numbersFrom_bounds hn
    omega
  . intro line n hmem hline
    have ⟨hline, hother⟩ := hfree line hline
    have hnot : n ∉ numbers p lines := by
      rw [mem_numbersFrom_of_zipIdx hmem, hother]
      exact Bool.false_ne_true
    rw [Edits.delete, if_neg hnot, h.untouched line n hmem hline]
  . intro line n hedit hline
    unfold Edits.delete at hedit
    split at hedit
    . cases hedit
    . exact h.replaced line n hedit (hfree line hline).1
  . intro line hline hfree'
    rw [Draft.unset_appends] at hline
    exact h.appended line hline (hfree line hfree').1
  . rw [h.result, Draft.unset_appends, unsetLines_append, happended]
    congr 1
    symm
    apply Edits.applyFrom_delete (fun line n hmem hline => h.untouched line n hmem (hp line hline)) hnew
    intro line n hmem
    simp only [Edits.delete, mem_numbersFrom_of_zipIdx hmem]

theorem not_mem_from (h : draft.Makes lines result free edits) (hfree : ∀ line, p line = true → free line)
    {back : List Text} (hback : ∀ line ∈ back, p line = false) (n : Nat)
    : ∀ line ∈ edits.applyFrom back n, p line = false := by
  intro line hline
  rcases Edits.mem_applyFrom hline with hold | ⟨n, hnew⟩
  . exact hback line hold
  . cases hp : p line with
    | true => exact absurd (hfree line hp) (h.replaced line n hnew)
    | false => rfl

variable {front back : List Text} {old : Text}

theorem apply_last (h : draft.Makes (front ++ old :: back) result free edits)
    (hp : ∀ line, p line = true → free line)
    : ((edits.delete (numbers p front)).rewrite (1 + front.length) line).apply (front ++ old :: back)
        =
      unsetLines p (edits.applyFrom front 1) ++ line :: edits.applyFrom back (1 + front.length + 1) := by
  have hfront : ((edits.delete (numbers p front)).rewrite (1 + front.length) line).applyFrom front 1
      = unsetLines p (edits.applyFrom front 1) := by
    apply Edits.applyFrom_delete
    . intro a n ha hpa
      apply h.untouched a n _ (hp a hpa)
      rw [zipIdx_split]
      exact List.mem_append_left _ ha
    . intro a n hedit
      cases hpa : p a with
      | true => exact absurd (hp a hpa) (h.replaced a n hedit)
      | false => rfl
    . intro a n ha
      have hlt := (List.mem_zipIdx ha).2.1
      rw [Edits.rewrite, if_neg (by omega), Edits.delete]
      simp only [mem_numbersFrom_of_zipIdx ha]
  have hback : ((edits.delete (numbers p front)).rewrite (1 + front.length) line).applyFrom back
      (1 + front.length + 1) = edits.applyFrom back (1 + front.length + 1) := by
    apply Edits.applyFrom_congr
    intro m hm _
    have hnot : m ∉ numbers p front := by
      intro hmem
      have hbounds := numbersFrom_bounds hmem
      omega
    rw [Edits.rewrite, if_neg (by omega), Edits.delete, if_neg hnot]
  rw [Edits.apply, Edits.applyFrom_append, Edits.applyFrom_cons, hfront, hback, Edits.rewrite, if_pos rfl]
  rfl

theorem not_mem_rest (h : draft.Makes lines result free edits) (hp : ∀ line, p line = true → free line)
    (hback : ∀ a ∈ back, p a = false) (n : Nat)
    : ∀ a ∈ edits.applyFrom back n ++ draft.appends, p a = false := by
  intro a ha
  cases List.mem_append.mp ha with
  | inl ha => exact h.not_mem_from hp hback _ a ha
  | inr ha =>
    cases hpa : p a with
    | true => exact absurd (hp a hpa) (h.appended a ha)
    | false => rfl

theorem set_last (h : draft.Makes (front ++ old :: back) result free edits) (hp : ∀ line, p line = true → free line)
    (hfree : ∀ line, free' line → free line ∧ p line = false ∧ t line = false) (hline : ¬free' line)
    (hold : p old = true) (hback : ∀ a ∈ back, p a = false)
    : ∃ edits', (draft.set (numbers p (front ++ old :: back)) (numbers t (front ++ old :: back)).head? line).Makes
        (front ++ old :: back) (setLine p t line result) free' edits' := by
  have hnums : numbers p (front ++ old :: back) = numbers p front ++ [1 + front.length] := by
    rw [numbers, numbersFrom_append, numbersFrom_cons, if_pos hold, numbersFrom_eq_nil hback]
    rfl
  have hbefore : ∀ n ∈ numbers p front, n < 1 + front.length := fun n hn => (numbersFrom_bounds hn).2
  -- all lines but the last one are deleted
  have hfilter : (numbers p front ++ [1 + front.length]).filter (· ≠ 1 + front.length) = numbers p front := by
    rw [List.filter_append, List.filter_eq_self.mpr]
    . simp
    . intro n hn
      have := hbefore n hn
      simp only [ne_eq, decide_not, Bool.not_eq_true', decide_eq_false_iff_not]
      omega
  have hmem : (old, 1 + front.length) ∈ (front ++ old :: back).zipIdx 1 := by
    rw [zipIdx_split]
    exact List.mem_append_right _ (List.mem_cons_self ..)
  have huntouched : edits (1 + front.length) = none := h.untouched old _ hmem (hp old hold)
  rw [Draft.set_of_last (by rw [hnums, List.getLast?_concat]), hnums, hfilter]
  refine ⟨(edits.delete (numbers p front)).rewrite (1 + front.length) line, ?_, ?_, ?_, ?_, ?_⟩
  . have hdeleted : (draft.unset (numbers p front)).Shows _ (edits.delete (numbers p front)) := h.shows.deletes (by
      intro n hn
      have hbounds := numbersFrom_bounds hn
      rw [List.length_append]
      omega)
    apply hdeleted.rewrite (by omega)
    . rw [List.length_append, List.length_cons]
      omega
    . have hnot : 1 + front.length ∉ numbers p front := by
        intro hmem
        have := hbefore _ hmem
        omega
      rw [Edits.delete, if_neg hnot, huntouched]
  . intro a n ha hfree'
    have ⟨ha', hother, _⟩ := hfree a hfree'
    have hnot : n ∉ numbers p (front ++ old :: back) := by
      rw [mem_numbersFrom_of_zipIdx ha, hother]
      exact Bool.false_ne_true
    rw [hnums, List.mem_append, List.mem_singleton, not_or] at hnot
    rw [Edits.rewrite, if_neg hnot.2, Edits.delete, if_neg hnot.1]
    exact h.untouched a n ha ha'
  . intro new n hedit hnew
    unfold Edits.rewrite Edits.delete at hedit
    split at hedit
    . cases hedit
      exact hline hnew
    . split at hedit
      . cases hedit
      . exact h.replaced new n hedit (hfree new hnew).1
  . intro new hmem' hnew
    have happends : new ∈ (draft.unset (numbers p front)).appends := hmem'
    rw [Draft.unset_appends] at happends
    exact h.appended new happends (hfree new hnew).1
  . have happends : ((draft.unset (numbers p front)).rewrite (1 + front.length) line).appends = draft.appends :=
      Draft.unset_appends draft (numbers p front)
    rw [h.apply_last hp, h.result, happends, Edits.apply, Edits.applyFrom_append, Edits.applyFrom_cons,
      huntouched, Option.getD_none, Option.toList_some, List.singleton_append, List.append_assoc, List.append_assoc,
      List.cons_append, List.cons_append, setLine_last hold (h.not_mem_rest hp hback _)]

theorem set_first (h : draft.Makes (front ++ old :: back) result free edits)
    (hp : ∀ line, p line = true → free line) (ht : ∀ line, t line = true → free line)
    (hfree : ∀ line, free' line → free line ∧ p line = false ∧ t line = false) (hline : ¬free' line)
    (hnone : ∀ a ∈ front ++ old :: back, p a = false) (hold : t old = true) (hfront : ∀ a ∈ front, t a = false)
    : ∃ edits', (draft.set (numbers p (front ++ old :: back)) (numbers t (front ++ old :: back)).head? line).Makes
        (front ++ old :: back) (setLine p t line result) free' edits' := by
  have hnums : numbers p (front ++ old :: back) = [] := numbersFrom_eq_nil hnone
  have htemplate : (numbers t (front ++ old :: back)).head? = some (1 + front.length) := by
    rw [numbers, numbersFrom_append, numbersFrom_cons, if_pos hold, numbersFrom_eq_nil hfront]
    rfl
  have hmem : (old, 1 + front.length) ∈ (front ++ old :: back).zipIdx 1 := by
    rw [zipIdx_split]
    exact List.mem_append_right _ (List.mem_cons_self ..)
  have huntouched : edits (1 + front.length) = none := h.untouched old _ hmem (ht old hold)
  rw [hnums, htemplate, Draft.set_of_template]
  refine ⟨edits.rewrite (1 + front.length) line, ?_, ?_, ?_, ?_, ?_⟩
  . apply h.shows.rewrite (by omega) _ huntouched
    rw [List.length_append, List.length_cons]
    omega
  . intro a n ha hfree'
    have ⟨ha', _, hother⟩ := hfree a hfree'
    have hne : n ≠ 1 + front.length := by
      intro heq
      have hget := (List.mem_zipIdx_iff_le_and_getElem?_sub.mp ha).2
      have hget' := (List.mem_zipIdx_iff_le_and_getElem?_sub.mp hmem).2
      dsimp only at hget hget'
      rw [heq, hget'] at hget
      rw [← Option.some.inj hget, hold] at hother
      cases hother
    rw [Edits.rewrite, if_neg hne]
    exact h.untouched a n ha ha'
  . intro new n hedit hnew
    unfold Edits.rewrite at hedit
    split at hedit
    . cases hedit
      exact hline hnew
    . exact h.replaced new n hedit (hfree new hnew).1
  . intro new hmem' hnew
    exact h.appended new hmem' (hfree new hnew).1
  . have hfront' : (edits.rewrite (1 + front.length) line).applyFrom front 1 = edits.applyFrom front 1 := by
      apply Edits.applyFrom_congr
      intro m _ hm
      rw [Edits.rewrite, if_neg (by omega)]
    have hback' : (edits.rewrite (1 + front.length) line).applyFrom back (1 + front.length + 1)
        = edits.applyFrom back (1 + front.length + 1) := by
      apply Edits.applyFrom_congr
      intro m hm _
      rw [Edits.rewrite, if_neg (by omega)]
    have hresult := h.not_mem hp hnone
    rw [h.result, Edits.apply, Edits.applyFrom_append, Edits.applyFrom_cons, huntouched, Option.getD_none,
      Option.toList_some, List.singleton_append, List.append_assoc, List.cons_append] at hresult ⊢
    rw [setLine_first hresult (h.not_mem_from ht hfront _) hold, Edits.apply, Edits.applyFrom_append,
      Edits.applyFrom_cons, hfront', hback', Edits.rewrite, if_pos rfl]
    simp [Draft.rewrite]

theorem set (h : draft.Makes lines result free edits) (hp : ∀ line, p line = true → free line)
    (ht : ∀ line, t line = true → free line) (hfree : ∀ line, free' line → free line ∧ p line = false ∧ t line = false)
    (hline : ¬free' line)
    : ∃ edits', (draft.set (numbers p lines) (numbers t lines).head? line).Makes lines (setLine p t line result)
        free' edits' := by
  cases hsome : lines.any p with
  | true =>
    have ⟨front, old, back, hlines, hold, hback⟩ := exists_last hsome
    subst hlines
    exact h.set_last hp hfree hline hold hback
  | false =>
    have hnone : ∀ a ∈ lines, p a = false := by simpa using hsome
    cases htemplate : lines.any t with
    | true =>
      have ⟨front, old, back, hlines, hold, hfront⟩ := exists_first htemplate
      subst hlines
      exact h.set_first hp ht hfree hline hnone hold hfront
    | false =>
      have hnone' : ∀ a ∈ lines, t a = false := by simpa using htemplate
      have hnums : numbers p lines = [] := numbersFrom_eq_nil hnone
      have htemplate : numbers t lines = [] := numbersFrom_eq_nil hnone'
      refine ⟨edits, ?_⟩
      rw [hnums, htemplate, setLine_none (h.not_mem hp hnone) (h.not_mem ht hnone')]
      exact {
        shows := h.shows.append line
        untouched := fun old n hmem hold => h.untouched old n hmem (hfree old hold).1
        replaced := fun new n hedit hnew => h.replaced new n hedit (hfree new hnew).1
        appended := by
          intro new hnew hfree'
          cases List.mem_append.mp hnew with
          | inl hnew => exact h.appended new hnew (hfree new hfree').1
          | inr hnew => exact hline (List.mem_singleton.mp hnew ▸ hfree')
        result := by rw [h.result, List.append_assoc]; rfl
      }

end Draft.Makes

end Shell
