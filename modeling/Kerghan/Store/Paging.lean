import Mathlib.Data.List.Sort
import Mathlib.Order.Basic

/-!
This module contains the loops that read a store page by page while its rows may come and go: a page has the
next rows by their key, the next page starts after the last row of the page, and the loop ends with a page that
is not full.
-/

namespace Paging

variable {α : Type} (key : α → Nat) (limit : Nat)

def page (rows : List α) : List α :=
  (rows.insertionSort fun a b => key a ≤ key b).take limit

/--
Where the page after the page of `rows` starts.
-/
def cursor (after : Nat) (rows : List α) : Nat :=
  ((page key limit rows).getLast?.map key).getD after

/--
A loop that starts after the key `after` and visits the rows `visited`. Each of `answers` is the cursor that has
been asked for with the rows that have been found. The loop has `ended` if its last page was not full, otherwise
it has been given up.
-/
inductive Loop : Nat → List (Nat × List α) → List α → Bool → Prop where
  | givenUp {after : Nat} : Loop after [] [] false
  | last {after : Nat} {rows : List α} (hshort : (page key limit rows).length ≠ limit)
    : Loop after [(after, rows)] (page key limit rows) true
  | next {after : Nat} {rows visited : List α} {answers : List (Nat × List α)} {ended : Bool}
    (hfull : (page key limit rows).length = limit)
    (hrest : Loop (cursor key limit after rows) answers visited ended)
    : Loop after ((after, rows) :: answers) (page key limit rows ++ visited) ended

variable {key limit} {after : Nat} {rows visited : List α} {answers : List (Nat × List α)} {ended : Bool}

theorem mem_of_mem_page {r : α} (hr : r ∈ page key limit rows) : r ∈ rows :=
  (List.mem_insertionSort _).mp (List.mem_of_mem_take hr)

theorem sorted_pairwise (key : α → Nat) (rows : List α)
    : (rows.insertionSort fun a b => key a ≤ key b).Pairwise fun a b => key a ≤ key b := by
  have : Std.Total fun a b : α => key a ≤ key b := ⟨fun a b => Nat.le_total _ _⟩
  have : IsTrans α fun a b => key a ≤ key b := ⟨fun _ _ _ => Nat.le_trans⟩
  exact List.pairwise_insertionSort _ _

theorem page_pairwise (key : α → Nat) (limit : Nat) (rows : List α)
    : (page key limit rows).Pairwise fun a b => key a ≤ key b :=
  (sorted_pairwise key rows).sublist (List.take_sublist _ _)

theorem page_pairwise_lt (hnodup : (rows.map key).Nodup)
    : (page key limit rows).Pairwise fun a b => key a < key b := by
  have hsorted : ((rows.insertionSort fun a b => key a ≤ key b).map key).Nodup :=
    ((List.perm_insertionSort _ rows).map key).nodup_iff.mpr hnodup
  have hpage : ((page key limit rows).map key).Nodup := hsorted.sublist ((List.take_sublist _ _).map key)
  have hne : (page key limit rows).Pairwise fun a b => key a ≠ key b := List.pairwise_map.mp hpage
  exact ((page_pairwise key limit rows).and hne).imp fun h => Nat.lt_of_le_of_ne h.1 h.2

theorem cursor_cases (key : α → Nat) (limit after : Nat) (rows : List α)
    : (page key limit rows = [] ∧ cursor key limit after rows = after) ∨
      ∃ r ∈ page key limit rows, cursor key limit after rows = key r ∧
        ∀ r' ∈ page key limit rows, key r' ≤ key r := by
  unfold cursor
  cases hlast : (page key limit rows).getLast? with
  | none => exact Or.inl ⟨List.getLast?_eq_none_iff.mp hlast, rfl⟩
  | some r =>
    obtain ⟨front, hpage⟩ := List.getLast?_eq_some_iff.mp hlast
    have hpairwise := page_pairwise key limit rows
    rw [hpage] at hpairwise ⊢
    refine Or.inr ⟨r, by simp, rfl, fun r' hr' => ?_⟩
    rcases List.mem_append.mp hr' with hfront | hsame
    . exact (List.pairwise_append.mp hpairwise).2.2 r' hfront r (List.mem_singleton_self r)
    . rw [List.mem_singleton.mp hsame]

theorem mem_page_or {r : α} (hr : r ∈ rows)
    : r ∈ page key limit rows ∨
      (page key limit rows).length = limit ∧ ∀ r' ∈ page key limit rows, key r' ≤ key r := by
  have hmem : r ∈ rows.insertionSort fun a b => key a ≤ key b := (List.mem_insertionSort _).mpr hr
  rw [← List.take_append_drop limit (rows.insertionSort fun a b => key a ≤ key b)] at hmem
  rcases List.mem_append.mp hmem with hpage | hrest
  . exact Or.inl hpage
  . right
    constructor
    . have hlt : 0 < (List.drop limit (rows.insertionSort fun a b => key a ≤ key b)).length :=
        List.length_pos_of_mem hrest
      rw [List.length_drop] at hlt
      unfold page
      rw [List.length_take]
      omega
    . intro r' hr'
      have hsplit := sorted_pairwise key rows
      rw [← List.take_append_drop limit (rows.insertionSort fun a b => key a ≤ key b)] at hsplit
      exact (List.pairwise_append.mp hsplit).2.2 r' hr' r hrest

theorem Loop.found (hloop : Loop key limit after answers visited ended) {r : α} (hr : r ∈ visited)
    : ∃ answer ∈ answers, r ∈ answer.2 := by
  induction hloop with
  | givenUp => exact absurd hr List.not_mem_nil
  | @last after rows => exact ⟨(after, rows), List.mem_singleton_self _, mem_of_mem_page hr⟩
  | @next after rows visited answers ended _ _ ih =>
    rcases List.mem_append.mp hr with hnow | hlater
    . exact ⟨(after, rows), List.mem_cons_self .., mem_of_mem_page hnow⟩
    . obtain ⟨answer, hanswer, hmem⟩ := ih hlater
      exact ⟨answer, List.mem_cons_of_mem _ hanswer, hmem⟩

section Loop

variable (hanswers : ∀ answer ∈ answers, ∀ r ∈ answer.2, answer.1 < key r)

include hanswers

theorem Loop.after_lt (hloop : Loop key limit after answers visited ended)
    : ∀ r ∈ visited, after < key r := by
  induction hloop with
  | givenUp => simp
  | @last after rows =>
    intro r hr
    exact hanswers (after, rows) (List.mem_singleton_self _) r (mem_of_mem_page hr)
  | @next after rows visited answers ended _ _ ih =>
    have hpage : ∀ r ∈ page key limit rows, after < key r := fun r hr =>
      hanswers (after, rows) (List.mem_cons_self ..) r (mem_of_mem_page hr)
    intro r hr
    rcases List.mem_append.mp hr with hnow | hlater
    . exact hpage r hnow
    . have hlt := ih (fun answer hanswer => hanswers answer (List.mem_cons_of_mem _ hanswer)) r hlater
      rcases cursor_cases key limit after rows with
        ⟨_, heq⟩ | ⟨r', hr', heq, _⟩
      . rwa [heq] at hlt
      . rw [heq] at hlt
        exact Nat.lt_trans (hpage r' hr') hlt

theorem Loop.pairwise_lt (hnodup : ∀ answer ∈ answers, (answer.2.map key).Nodup)
    (hloop : Loop key limit after answers visited ended)
    : visited.Pairwise fun a b => key a < key b := by
  induction hloop with
  | givenUp => exact .nil
  | @last after rows => exact page_pairwise_lt (hnodup (after, rows) (List.mem_singleton_self _))
  | @next after rows visited answers ended _ hrest ih =>
    have hlater : ∀ answer ∈ answers, ∀ r ∈ answer.2, answer.1 < key r :=
      fun answer hanswer => hanswers answer (List.mem_cons_of_mem _ hanswer)
    refine List.pairwise_append.mpr ⟨page_pairwise_lt (hnodup (after, rows) (List.mem_cons_self ..)),
      ih hlater fun answer hanswer => hnodup answer (List.mem_cons_of_mem _ hanswer), fun r hr r' hr' => ?_⟩
    have hlt := hrest.after_lt hlater r' hr'
    rcases cursor_cases key limit after rows with
      ⟨hnil, _⟩ | ⟨_, _, heq, hle⟩
    . rw [hnil] at hr
      exact absurd hr List.not_mem_nil
    . rw [heq] at hlt
      exact Nat.lt_of_le_of_lt (hle r hr) hlt

omit hanswers

theorem Loop.covers {k : Nat} (hloop : Loop key limit after answers visited ended) (hended : ended = true)
    (hafter : after < k) (hfound : ∀ answer ∈ answers, answer.1 < k → ∃ r ∈ answer.2, key r = k)
    : ∃ r ∈ visited, key r = k := by
  induction hloop with
  | givenUp => simp at hended
  | @last after rows hshort =>
    obtain ⟨r, hr, hk⟩ := hfound (after, rows) (List.mem_singleton_self _) hafter
    rcases mem_page_or hr with hpage | ⟨hfull, _⟩
    . exact ⟨r, hpage, hk⟩
    . exact absurd hfull hshort
  | @next after rows visited answers ended _ _ ih =>
    obtain ⟨r, hr, hk⟩ := hfound (after, rows) (List.mem_cons_self ..) hafter
    have hlater : cursor key limit after rows < k → ∃ r ∈ visited, key r = k := fun hlt =>
      ih hended hlt fun answer hanswer => hfound answer (List.mem_cons_of_mem _ hanswer)
    have hpage : (∃ r ∈ page key limit rows, key r = k) ∨ cursor key limit after rows < k := by
      rcases cursor_cases key limit after rows with
        ⟨_, heq⟩ | ⟨r', hr', heq, _⟩
      . right
        rwa [heq]
      . rcases mem_page_or hr with hpage | ⟨_, hle⟩
        . exact Or.inl ⟨r, hpage, hk⟩
        . rw [heq]
          rcases Nat.lt_or_eq_of_le (hk ▸ hle r' hr') with hlt | hsame
          . exact Or.inr hlt
          . exact Or.inl ⟨r', hr', hsame⟩
    rcases hpage with ⟨r', hr', hk'⟩ | hlt
    . exact ⟨r', List.mem_append_left _ hr', hk'⟩
    . obtain ⟨r', hr', hk'⟩ := hlater hlt
      exact ⟨r', List.mem_append_right _ hr', hk'⟩

theorem Loop.length_le (hloop : Loop key limit after answers visited ended)
    : answers.length * limit ≤ visited.length + if ended then limit else 0 := by
  induction hloop with
  | givenUp => simp
  | last => simp
  | next hfull _ ih =>
    rw [List.length_cons, List.length_append, hfull, Nat.succ_mul]
    omega

end Loop

end Paging
