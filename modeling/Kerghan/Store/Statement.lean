import Mathlib.Logic.Function.Basic
import Kerghan.Store.Table

/-!
This module contains the statements that a client sends to a store with several tables. A statement
is atomic: it runs against one state of the store and either takes effect completely or fails and
changes nothing.
-/

inductive DbError where
  /-- A unique index would have been violated. -/
  | duplicateEntry
  /-- Anything else. The statement is not applied. -/
  | queryFailed
  deriving DecidableEq

structure DbEnv where
  /-- The store's clock. -/
  now : Int
  /-- Which row to return if a lookup leaves a choice. -/
  choice : Nat
  /-- Whether the statement fails. -/
  fault : Bool

abbrev Db {T : Type} (Row : T → Type) [∀ t, Entity (Row t)] := (t : T) → Table (Row t)

inductive Stmt {T : Type} (Row : T → Type) where
  /-- One row that satisfies `p`, with the least `rank` among these. -/
  | find (t : T) (p : Row t → Bool) (rank : Row t → Int)
  /-- All rows that satisfy `p`. -/
  | all (t : T) (p : Row t → Bool)
  /-- How many rows satisfy `p`. -/
  | count (t : T) (p : Row t → Bool)
  /-- `mk` gets the generated primary key and the store's clock. -/
  | insert (t : T) (mk : Nat → Int → Row t)
  /-- `f` gets the store's clock. -/
  | update (t : T) (p : Row t → Bool) (f : Int → Row t → Row t)
  | delete (t : T) (p : Row t → Bool)

namespace Stmt

variable {T : Type} {Row : T → Type}

@[simp]
def table : Stmt Row → T
  | .find t _ _ | .all t _ | .count t _ | .insert t _ | .update t _ _ | .delete t _ => t

@[simp]
def isRead : Stmt Row → Bool
  | .find .. | .all .. | .count .. => true
  | .insert .. | .update .. | .delete .. => false

/--
What a successful statement returns. Updates and deletes return the number of affected rows.
-/
abbrev Answer : Stmt Row → Type
  | .find t _ _ => Option (Row t)
  | .all t _ => List (Row t)
  | .insert t _ => Row t
  | .count .. | .update .. | .delete .. => Nat

variable [DecidableEq T] [∀ t, Entity (Row t)]

def exec (s : Stmt Row) (e : DbEnv) (db : Db Row) : Except DbError s.Answer × Db Row :=
  if e.fault then
    (.error .queryFailed, db)
  else
    match s with
    | .find t p rank => (.ok ((db t).first p rank e.choice), db)
    | .all t p => (.ok ((db t).rows.filter p), db)
    | .count t p => (.ok ((db t).rows.countP p), db)
    | .insert t mk =>
      match (db t).insert fun id => mk id e.now with
      | some table => (.ok (mk (db t).nextId e.now), Function.update db t table)
      | none => (.error .duplicateEntry, db)
    | .update t p f =>
      match (db t).update p (f e.now) with
      | some table => (.ok ((db t).rows.countP p), Function.update db t table)
      | none => (.error .duplicateEntry, db)
    | .delete t p => (.ok ((db t).rows.countP p), Function.update db t ((db t).delete p))

variable {e : DbEnv} {db db' : Db Row}

theorem exec_error {s : Stmt Row} {err : DbError} (h : s.exec e db = (.error err, db')) : db' = db := by
  unfold exec at h
  split at h
  . simp_all
  . split at h
    case h_4 | h_5 => split at h <;> simp_all
    all_goals simp_all

theorem exec_read {s : Stmt Row} (hs : s.isRead = true) : (s.exec e db).2 = db := by
  unfold exec
  split
  . rfl
  . split
    all_goals simp_all

theorem exec_frame {s : Stmt Row} {t : T} (ht : t ≠ s.table) : (s.exec e db).2 t = db t := by
  unfold exec
  split
  . rfl
  . split
    case h_4 | h_5 => split <;> simp_all
    all_goals simp_all

theorem exec_find {t : T} {p : Row t → Bool} {rank : Row t → Int} {answer : Option (Row t)}
    (h : exec (.find t p rank) e db = (.ok answer, db'))
    : ∃ choice, answer = (db t).first p rank choice := by
  unfold exec at h
  split at h
  . simp_all
  . simp only [Prod.mk.injEq, Except.ok.injEq] at h
    exact ⟨_, h.1.symm⟩

theorem exec_insert_eq {t : T} {mk : Nat → Int → Row t} {row : Row t}
    (h : exec (.insert t mk) e db = (.ok row, db'))
    : row = mk (db t).nextId e.now
        ∧
      (db' t).rows = (db t).rows ++ [row]
        ∧
      (db' t).nextId = (db t).nextId + 1 := by
  unfold exec at h
  split at h
  . simp at h
  . dsimp at h
    split at h
    . next table heq =>
      simp only [Prod.mk.injEq, Except.ok.injEq] at h
      have := Table.rows_insert heq
      refine ⟨h.1.symm, ?_⟩
      rw [← h.1, ← h.2]
      simpa using this
    . simp at h

theorem exec_insert {t : T} {mk : Nat → Int → Row t} {row : Row t}
    (h : exec (.insert t mk) e db = (.ok row, db'))
    : ∃ now,
        row = mk (db t).nextId now
          ∧
        (db' t).rows = (db t).rows ++ [row]
          ∧
        (db' t).nextId = (db t).nextId + 1 :=
  ⟨e.now, exec_insert_eq h⟩

theorem exec_insert_duplicate {t : T} {mk : Nat → Int → Row t}
    (hid : ∀ id now, Entity.id (mk id now) = id)
    (h : exec (.insert t mk) e db = (.error .duplicateEntry, db'))
    : ∃ now, ∃ r ∈ (db t).rows, Entity.clash r (mk (db t).nextId now) = true := by
  unfold exec at h
  split at h
  . simp at h
  . dsimp at h
    split at h
    . simp at h
    . next hnone => exact ⟨e.now, Table.clash_of_insert (hid _ _) hnone⟩

theorem exec_update {t : T} {p : Row t → Bool} {f : Int → Row t → Row t} {n : Nat}
    (h : exec (.update t p f) e db = (.ok n, db'))
    : ∃ now,
        n = (db t).rows.countP p
          ∧
        (db' t).rows = ((db t).rows.map fun r => if p r then f now r else r)
          ∧
        (db' t).nextId = (db t).nextId := by
  unfold exec at h
  split at h
  . simp at h
  . dsimp at h
    split at h
    . next table heq =>
      simp only [Prod.mk.injEq, Except.ok.injEq] at h
      have := Table.rows_update heq
      refine ⟨e.now, h.1.symm, ?_⟩
      rw [← h.2]
      simpa using this
    . simp at h

/--
A successful update changes the rows that satisfy its `WHERE`.
-/
theorem mem_rows_update {t : T} {p : Row t → Bool} {f : Int → Row t → Row t} {n : Nat}
    (h : exec (.update t p f) e db = (.ok n, db'))
    : ∃ now, ∀ r', r' ∈ (db' t).rows ↔ ∃ r ∈ (db t).rows, (if p r then f now r else r) = r' := by
  obtain ⟨now, _, hrows, _⟩ := exec_update h
  exact ⟨now, fun r' => by rw [hrows, List.mem_map]⟩

/--
What a successful update makes of all rows, if `Change` describes what it makes of a single one.
-/
theorem rows_update {t : T} {p : Row t → Bool} {f : Int → Row t → Row t} {n : Nat}
    {Change : Row t → Row t → Prop} (hkeep : ∀ r, Change r r)
    (hchange : ∀ now r, p r = true → Change r (f now r))
    (h : exec (.update t p f) e db = (.ok n, db'))
    : (∀ r' ∈ (db' t).rows, ∃ r ∈ (db t).rows, Change r r')
        ∧
      (∀ r ∈ (db t).rows, ∃ r' ∈ (db' t).rows, Change r r') := by
  obtain ⟨now, hrows⟩ := mem_rows_update h
  have hrow : ∀ r, Change r (if p r then f now r else r) := by
    intro r
    split
    . next hp => exact hchange now r hp
    . exact hkeep r
  constructor
  . intro r' hr'
    obtain ⟨r, hr, rfl⟩ := (hrows r').mp hr'
    exact ⟨r, hr, hrow r⟩
  . intro r hr
    exact ⟨_, (hrows _).mpr ⟨r, hr, rfl⟩, hrow r⟩

theorem exec_delete {t : T} {p : Row t → Bool} {n : Nat}
    (h : exec (.delete t p) e db = (.ok n, db'))
    : (db' t).rows = ((db t).rows.filter fun r => !p r) ∧ (db' t).nextId = (db t).nextId := by
  unfold exec at h
  split at h
  . simp at h
  . simp only [Prod.mk.injEq, Except.ok.injEq] at h
    rw [← h.2]
    simp [Table.delete]

theorem exec_all {t : T} {p : Row t → Bool} {rows : List (Row t)}
    (h : exec (.all t p) e db = (.ok rows, db'))
    : rows = (db t).rows.filter p := by
  unfold exec at h
  split at h
  . simp at h
  . simp only [Prod.mk.injEq, Except.ok.injEq] at h
    exact h.1.symm

theorem exec_count {t : T} {p : Row t → Bool} {n : Nat} (h : exec (.count t p) e db = (.ok n, db'))
    : n = (db t).rows.countP p := by
  unfold exec at h
  split at h
  . simp at h
  . simp only [Prod.mk.injEq, Except.ok.injEq] at h
    exact h.1.symm

theorem exec_delete_count {t : T} {p : Row t → Bool} {n : Nat}
    (h : exec (.delete t p) e db = (.ok n, db'))
    : n = (db t).rows.countP p := by
  unfold exec at h
  split at h
  . simp at h
  . simp only [Prod.mk.injEq, Except.ok.injEq] at h
    exact h.1.symm

end Stmt
