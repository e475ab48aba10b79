import Mathlib.Algebra.BigOperators.Group.Finset.Basic
import Mathlib.Algebra.BigOperators.Intervals
import Kerghan.Async.Run

/-!
This module contains the accounting for events of a run: how many a trace has is how many its callers
have seen.
-/

section Count

variable {S : Type} {R : S → Type} {σ : Type}

/--
How many entries of some callers show an event that satisfies `p`.
-/
def countEvents (callers : Nat → Bool) (p : (s : S) × R s → Bool) (t : List (Entry S R σ)) : Nat :=
  t.countP fun x => callers x.call && p ⟨x.effect, x.resp⟩

variable {callers : Nat → Bool} {p : (s : S) × R s → Bool} {t : List (Entry S R σ)}

@[simp]
theorem countEvents_nil : countEvents callers p ([] : List (Entry S R σ)) = 0 := rfl

theorem countEvents_cons (x : Entry S R σ)
    : countEvents callers p (x :: t) =
        countEvents callers p t + if callers x.call && p ⟨x.effect, x.resp⟩ then 1 else 0 :=
  List.countP_cons

theorem countP_own_cons (x : Entry S R σ) (i : Nat)
    : (own i (x :: t)).countP p =
        (own i t).countP p + if x.call = i ∧ p ⟨x.effect, x.resp⟩ = true then 1 else 0 := by
  by_cases hcall : x.call = i
  . subst hcall
    simp [List.countP_cons]
  . simp [own_cons_of_ne hcall, hcall]

/--
The events of a trace are those that its callers have seen, of which there are less than `n`.
-/
theorem countEvents_eq_sum {n : Nat} (hn : ∀ i, callers i = true → i < n)
    : countEvents callers p t = ∑ i ∈ (Finset.range n).filter (callers ·), (own i t).countP p := by
  induction t with
  | nil => simp
  | cons x t ih =>
    simp only [countP_own_cons, Finset.sum_add_distrib, countEvents_cons, ih]
    congr 1
    by_cases hcaller : callers x.call = true
    . have hmem : x.call ∈ (Finset.range n).filter (callers ·) := by
        simp [hcaller, hn x.call hcaller]
      rw [Finset.sum_eq_single_of_mem x.call hmem]
      . simp [hcaller]
      . intro i _ hne
        exact if_neg fun h => hne h.1.symm
    . rw [Finset.sum_eq_zero]
      . simp [hcaller]
      . intro i hi
        refine if_neg fun h => hcaller ?_
        rw [h.1]
        exact (Finset.mem_filter.mp hi).2

/--
If every caller has seen one such event, there are as many events as callers.
-/
theorem countEvents_eq_card {n : Nat} (hn : ∀ i, callers i = true → i < n)
    (hone : ∀ i, callers i = true → (own i t).countP p = 1)
    : countEvents callers p t = ((Finset.range n).filter (callers ·)).card := by
  rw [countEvents_eq_sum hn, Finset.card_eq_sum_ones]
  apply Finset.sum_congr rfl
  intro i hi
  exact hone i (Finset.mem_filter.mp hi).2

/--
The callers at the positions of a list that satisfy `f` are as many as there are such positions.
-/
theorem card_callers {α : Type} (f : α → Bool) (l : List α)
    : ((Finset.range l.length).filter fun i => l[i]?.any f).card = l.countP f := by
  induction l using List.reverseRecOn with
  | nil => rfl
  | append_singleton l a ih =>
    have hearlier : ((Finset.range l.length).filter fun i => (l ++ [a])[i]?.any f) =
        (Finset.range l.length).filter fun i => l[i]?.any f := by
      apply Finset.filter_congr
      intro i hi
      rw [List.getElem?_append_left (Finset.mem_range.mp hi)]
    rw [List.length_append, List.length_singleton, Finset.range_add_one, Finset.filter_insert, hearlier,
      List.countP_append, List.countP_singleton, ← ih]
    cases hfa : f a with
    | true => simp [hfa]
    | false => simp [hfa]

end Count
