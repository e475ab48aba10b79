import Mathlib.Data.List.Sort

/-!
This module contains lists that are sorted by a key and cut off after so many entries.
-/

namespace Sorted

variable {α κ : Type} [LE κ] [DecidableLE κ] [Std.IsLinearOrder κ] (key : α → κ)

theorem insertionSort_pairwise (l : List α)
    : (l.insertionSort fun a b => key a ≤ key b).Pairwise fun a b => key a ≤ key b := by
  have : Std.Total fun a b : α => key a ≤ key b := ⟨fun _ _ => Std.le_total⟩
  have : IsTrans α fun a b => key a ≤ key b := ⟨fun _ _ _ => Std.le_trans⟩
  exact List.pairwise_insertionSort _ _

theorem insertionSort_of_take (l : List α) (n : Nat)
    : ((l.insertionSort fun a b => key a ≤ key b).take n).insertionSort (fun a b => key a ≤ key b) =
        (l.insertionSort fun a b => key a ≤ key b).take n :=
  ((insertionSort_pairwise key l).sublist (List.take_sublist _ _)).insertionSort_eq

variable [LT κ] [DecidableLT κ] [Std.LawfulOrderLT κ]
variable {key} {l : List α} {a : α} {n : Nat}

omit [DecidableLE κ] in
/--
An entry with a key of its own is not cut off if and only if few enough entries have a smaller key.
-/
theorem mem_take_iff (hsorted : l.Pairwise fun a b => key a ≤ key b) (hnodup : l.Nodup)
    (hkey : ∀ b, key b = key a → b = a) (ha : a ∈ l)
    : a ∈ l.take n ↔ l.countP (fun b => key b < key a) < n := by
  induction l generalizing n with
  | nil => cases ha
  | cons b l ih =>
    have ⟨hle, hsorted⟩ := List.pairwise_cons.mp hsorted
    have ⟨hnew, hnodup⟩ := List.nodup_cons.mp hnodup
    by_cases hsame : b = a
    . subst hsame
      have hnone : l.countP (fun c => key c < key b) = 0 := by
        rw [List.countP_eq_zero]
        intro c hc
        simpa using Std.not_lt.mpr (hle c hc)
      cases n with
      | zero => simp
      | succ n =>
        rw [List.countP_cons_of_neg (by simpa using Std.lt_irrefl), hnone]
        simp
    . have hmem := (List.mem_cons.mp ha).resolve_left (Ne.symm hsame)
      have hlt : key b < key a := Std.lt_of_le_of_ne (hle a hmem) fun heq => hsame (hkey b heq)
      cases n with
      | zero => simp
      | succ n =>
        rw [List.take_succ_cons, List.mem_cons, List.countP_cons_of_pos (by simpa using hlt),
          ih hsorted hnodup hmem]
        have hne : a ≠ b := Ne.symm hsame
        simp [hne]

theorem mem_take_insertionSort_iff (hnodup : l.Nodup) (hkey : ∀ b, key b = key a → b = a) (ha : a ∈ l)
    : a ∈ (l.insertionSort fun a b => key a ≤ key b).take n ↔ l.countP (fun b => key b < key a) < n := by
  have hperm := List.perm_insertionSort (fun a b => key a ≤ key b) l
  rw [mem_take_iff (insertionSort_pairwise key l) (hperm.nodup_iff.mpr hnodup) hkey (hperm.mem_iff.mpr ha),
    hperm.countP_eq]

section EraseDups

variable [BEq α] [LawfulBEq α]

theorem nodup_eraseDups (l : List α) : l.eraseDups.Nodup := by
  match l with
  | [] => exact List.nodup_nil
  | a :: l =>
    have hlt : (l.filter fun b => !b == a).length < l.length + 1 := Nat.lt_succ_of_le (List.length_filter_le _ _)
    rw [List.eraseDups_cons, List.nodup_cons]
    constructor
    . simp
    . exact nodup_eraseDups _
termination_by l.length

theorem eraseDups_of_nodup (hnodup : l.Nodup) : l.eraseDups = l := by
  induction l with
  | nil => rfl
  | cons a l ih =>
    have ⟨hnew, hnodup⟩ := List.nodup_cons.mp hnodup
    have hfilter : l.filter (fun b => !b == a) = l := by
      rw [List.filter_eq_self]
      intro b hb
      have hne : b ≠ a := ne_of_mem_of_not_mem hb hnew
      simpa using hne
    rw [List.eraseDups_cons, hfilter, ih hnodup]

end EraseDups

end Sorted
