import Mathlib.Data.List.MinMax
import Mathlib.Data.List.Pairwise

/-!
This module contains the tables of a relational store. A table carries the guarantees of its
indexes: no two rows share a primary key, no two rows share the columns of a unique index, and new
rows always get a primary key that no row ever had.
-/

/--
Rows with a generated primary key.
-/
class Entity (α : Type) where
  id : α → Nat
  /-- Whether two rows agree on all columns of some unique index. -/
  clash : α → α → Bool
  clash_comm : ∀ a b, clash a b = clash b a

/--
Two rows that may be in one table.
-/
def Entity.Distinct {α : Type} [Entity α] (a b : α) : Prop :=
  id a ≠ id b ∧ clash a b = false

instance {α : Type} [Entity α] (a b : α) : Decidable (Entity.Distinct a b) :=
  inferInstanceAs (Decidable (_ ∧ _))

instance {α : Type} [Entity α] : Std.Symm (@Entity.Distinct α _) where
  symm := fun _ _ h => ⟨fun heq => h.1 heq.symm, by rw [Entity.clash_comm]; exact h.2⟩

structure Table (α : Type) [Entity α] where
  rows : List α
  nextId : Nat
  id_lt : ∀ r ∈ rows, Entity.id r < nextId
  distinct : rows.Pairwise Entity.Distinct

namespace Table

variable {α : Type} [Entity α]

def empty : Table α :=
  ⟨[], 0, by simp, .nil⟩

def single (row : α) : Table α :=
  ⟨[row], Entity.id row + 1, by simp, by simp⟩

def ofRows? (rows : List α) (nextId : Nat) : Option (Table α) :=
  if h : (∀ r ∈ rows, Entity.id r < nextId) ∧ rows.Pairwise Entity.Distinct then
    some ⟨rows, nextId, h.1, h.2⟩
  else
    none

/--
Among the rows that satisfy `p`, one with the least `rank`. A store is free to return any of these,
`choice` says which one it does return.
-/
def first (t : Table α) (p : α → Bool) (rank : α → Int) (choice : Nat) : Option α :=
  let hits := t.rows.filter p
  let best := hits.filter fun r => hits.all fun r' => rank r ≤ rank r'
  best[choice % best.length]?

def insert (t : Table α) (mk : Nat → α) : Option (Table α) :=
  ofRows? (t.rows ++ [mk t.nextId]) (t.nextId + 1)

def update (t : Table α) (p : α → Bool) (f : α → α) : Option (Table α) :=
  ofRows? (t.rows.map fun r => if p r then f r else r) t.nextId

def delete (t : Table α) (p : α → Bool) : Table α where
  rows := t.rows.filter fun r => !p r
  nextId := t.nextId
  id_lt := fun r hr => t.id_lt r (List.mem_of_mem_filter hr)
  distinct := t.distinct.filter _

variable {t t' : Table α} {p : α → Bool}

theorem ofRows?_eq_some {rows : List α} {nextId : Nat} (h : ofRows? rows nextId = some t)
    : t.rows = rows ∧ t.nextId = nextId := by
  unfold ofRows? at h
  split at h
  . simp only [Option.some.injEq] at h
    simp [← h]
  . simp at h

theorem rows_insert {mk : Nat → α} (h : t.insert mk = some t')
    : t'.rows = t.rows ++ [mk t.nextId] ∧ t'.nextId = t.nextId + 1 :=
  ofRows?_eq_some h

/--
An insert only fails because of a unique index.
-/
theorem clash_of_insert {mk : Nat → α} (hid : Entity.id (mk t.nextId) = t.nextId)
    (h : t.insert mk = none)
    : ∃ r ∈ t.rows, Entity.clash r (mk t.nextId) = true := by
  by_contra hfree
  refine absurd h (Option.isSome_iff_ne_none.mp ?_)
  unfold insert ofRows?
  rw [dif_pos]
  . rfl
  . constructor
    . intro r hr
      rcases List.mem_append.mp hr with hold | hnew
      . exact Nat.lt_succ_of_lt (t.id_lt r hold)
      . rw [List.mem_singleton.mp hnew, hid]
        exact Nat.lt_succ_self _
    . refine List.pairwise_append.mpr ⟨t.distinct, List.pairwise_singleton _ _, ?_⟩
      intro r hr r' hr'
      rw [List.mem_singleton.mp hr']
      constructor
      . rw [hid]
        exact Nat.ne_of_lt (t.id_lt r hr)
      . refine Bool.eq_false_iff.mpr fun hclash => hfree ⟨r, hr, hclash⟩

theorem rows_update {f : α → α} (h : t.update p f = some t')
    : t'.rows = (t.rows.map fun r => if p r then f r else r) ∧ t'.nextId = t.nextId :=
  ofRows?_eq_some h

/--
An update that leaves the indexed columns alone cannot fail.
-/
theorem update_isSome {f : α → α} (hid : ∀ r, Entity.id (f r) = Entity.id r)
    (hclash : ∀ a b, Entity.clash (f a) (f b) = Entity.clash a b)
    (hmixed : ∀ a b, Entity.clash (f a) b = Entity.clash a b)
    : ∃ t', t.update p f = some t' := by
  have hdistinct : ∀ a b, Entity.Distinct a b →
      Entity.Distinct (if p a then f a else a) (if p b then f b else b) := by
    intro a b ⟨hne, hcl⟩
    unfold Entity.Distinct
    split <;> split
    . exact ⟨by simpa [hid] using hne, by rw [hclash]; exact hcl⟩
    . exact ⟨by simpa [hid] using hne, by rw [hmixed]; exact hcl⟩
    . refine ⟨by simpa [hid] using hne, ?_⟩
      rw [Entity.clash_comm, hmixed, Entity.clash_comm]
      exact hcl
    . exact ⟨hne, hcl⟩
  unfold update ofRows?
  rw [dif_pos]
  . simp
  . constructor
    . simp only [List.mem_map, forall_exists_index, and_imp, forall_apply_eq_imp_iff₂]
      intro r hr
      split
      . rw [hid]
        exact t.id_lt r hr
      . exact t.id_lt r hr
    . exact t.distinct.map _ (fun a b => hdistinct a b)

theorem eq_of_id_eq {a b : α} (ha : a ∈ t.rows) (hb : b ∈ t.rows) (h : Entity.id a = Entity.id b)
    : a = b := by
  by_cases hab : a = b
  . exact hab
  . exact absurd h (t.distinct.forall ha hb hab).1

theorem eq_of_clash {a b : α} (ha : a ∈ t.rows) (hb : b ∈ t.rows) (h : Entity.clash a b = true)
    : a = b := by
  by_cases hab : a = b
  . exact hab
  . have := (t.distinct.forall ha hb hab).2
    simp [h] at this

theorem first_eq_some {rank : α → Int} {choice : Nat} {r : α} (h : t.first p rank choice = some r)
    : r ∈ t.rows ∧ p r = true := by
  unfold first at h
  have := List.mem_of_getElem? h
  simp only [List.mem_filter] at this
  exact this.1

theorem first_ne_none {rank : α → Int} {choice : Nat} {r : α} (hr : r ∈ t.rows) (hp : p r = true)
    : t.first p rank choice ≠ none := by
  intro h
  have hhit : r ∈ t.rows.filter p := List.mem_filter.mpr ⟨hr, hp⟩
  obtain ⟨m, hm⟩ : ∃ m, m ∈ (t.rows.filter p).argmin rank := by
    cases harg : (t.rows.filter p).argmin rank with
    | none => simp [List.argmin_eq_none.mp harg] at hhit
    | some m => exact ⟨m, rfl⟩
  unfold first at h
  have hbest : m ∈ (t.rows.filter p).filter fun r => (t.rows.filter p).all fun r' => rank r ≤ rank r' := by
    refine List.mem_filter.mpr ⟨List.argmin_mem hm, ?_⟩
    simp only [List.all_eq_true, decide_eq_true_eq]
    intro r' hr'
    exact List.le_of_mem_argmin hr' hm
  have hpos := List.length_pos_of_mem hbest
  rw [List.getElem?_eq_none_iff] at h
  exact absurd (Nat.mod_lt choice hpos) (Nat.not_lt.mpr h)

theorem first_eq_of_unique {rank : α → Int} {choice : Nat} {r : α} (hr : r ∈ t.rows)
    (hp : p r = true) (hunique : ∀ r' ∈ t.rows, p r' = true → r' = r)
    : t.first p rank choice = some r := by
  cases h : t.first p rank choice with
  | none => exact absurd h (first_ne_none hr hp)
  | some r' =>
    have := first_eq_some h
    rw [hunique r' this.1 this.2]

theorem countP_eq_one {r : α} (hr : r ∈ t.rows) (hp : p r = true)
    (hunique : ∀ r' ∈ t.rows, p r' = true → r' = r)
    : t.rows.countP p = 1 := by
  have hnodup : (t.rows.filter p).Nodup :=
    (t.distinct.imp fun h heq => h.1 (congrArg Entity.id heq)).filter _
  have hsame : ∀ r' ∈ t.rows.filter p, r' = r := by
    intro r' hr'
    obtain ⟨hmem, hp'⟩ := List.mem_filter.mp hr'
    exact hunique r' hmem hp'
  have hpos : 0 < (t.rows.filter p).length := List.length_pos_of_mem (List.mem_filter.mpr ⟨hr, hp⟩)
  rw [List.eq_replicate_of_mem hsame, List.nodup_replicate] at hnodup
  rw [List.countP_eq_length_filter]
  omega

end Table
