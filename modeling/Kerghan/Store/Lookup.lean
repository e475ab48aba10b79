import Kerghan.Store.Table

/-!
This module contains lookups by the column of a unique index, and what statements do to them.
-/

namespace Table

variable {α κ : Type} [Entity α] [DecidableEq κ] {t t' : Table α}

/--
The row with the key `k`.
-/
def lookup (t : Table α) (key : α → κ) (k : κ) : Option α :=
  t.rows.find? fun r => key r == k

variable {key : α → κ} {k : κ}

theorem mem_of_lookup {r : α} (hlookup : t.lookup key k = some r) : r ∈ t.rows ∧ key r = k := by
  have hkey : (key r == k) = true := List.find?_some (p := fun r => key r == k) hlookup
  exact ⟨List.mem_of_find?_eq_some hlookup, beq_iff_eq.mp hkey⟩

theorem lookup_of_insert {r : α} (hrows : t'.rows = t.rows ++ [r])
    : t'.lookup key k = (t.lookup key k).or (if key r = k then some r else none) := by
  unfold lookup
  rw [hrows, List.find?_append, List.find?_singleton]
  simp only [beq_iff_eq]

theorem lookup_of_update {p : α → Bool} {f : α → α} (hkey : ∀ r, key (f r) = key r)
    (hrows : t'.rows = t.rows.map fun r => if p r then f r else r)
    : t'.lookup key k = (t.lookup key k).map fun r => if p r then f r else r := by
  unfold lookup
  rw [hrows, List.find?_map]
  congr 2
  funext r
  dsimp only [Function.comp]
  split
  . rw [hkey]
  . rfl

/--
How many rows a statement affects whose `WHERE` has a unique column.
-/
theorem countP_key (hunique : ∀ a b : α, key a = key b → Entity.clash a b = true) (q : α → Bool)
    : t.rows.countP (fun r => key r == k && q r) = if (t.lookup key k).any q then 1 else 0 := by
  have hfilter : t.rows.filter (fun r => key r == k) = (t.lookup key k).toList := by
    have hpairwise : (t.rows.filter fun r => key r == k).Pairwise Entity.Distinct :=
      t.distinct.filter _
    rw [lookup, ← List.head?_filter]
    cases hrows : t.rows.filter (fun r => key r == k) with
    | nil => rfl
    | cons r rest =>
      rw [hrows] at hpairwise
      cases rest with
      | nil => rfl
      | cons r' _ =>
        have hkey : ∀ a ∈ t.rows.filter (fun r => key r == k), key a = k := by
          intro a ha
          exact beq_iff_eq.mp (List.mem_filter.mp ha).2
        rw [hrows] at hkey
        have hclash := hunique r r' ((hkey r (by simp)).trans (hkey r' (by simp)).symm)
        have hdistinct := (List.pairwise_cons.mp hpairwise).1 r' (by simp)
        exact absurd (hclash.symm.trans hdistinct.2) (by simp)
  rw [show (fun r => key r == k && q r) = fun r => q r && (key r == k) from
    funext fun r => Bool.and_comm _ _, ← List.countP_filter, hfilter]
  cases t.lookup key k with
  | none => rfl
  | some r => simp [List.countP_cons]

end Table
