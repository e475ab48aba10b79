import Kerghan.Store.Client

/-!
This module contains the argument by which a row is a token that only one program can take: rows whose
primary key is never given out again, and deletes whose number of affected rows says who has removed a row.
-/

/--
No row has the primary key `n`, and no row will ever have it.
-/
def Table.Gone {α : Type} [Entity α] (t : Table α) (n : Nat) : Prop :=
  n < t.nextId ∧ ∀ r ∈ t.rows, Entity.id r ≠ n

section Removal

variable {S : Type} {R : S → Type} {σ ω T : Type} {Row : T → Type} [DecidableEq T]
variable [∀ t, Entity (Row t)] (exec : (s : S) → ω → σ → R s × σ) [Backed Row exec]

open Backed

/--
`x` has removed the row with the primary key `n`.
-/
def Entry.Removes (x : Entry S R σ) (t : T) (n : Nat) : Prop :=
  ∃ p : Row t → Bool,
    (∀ r, p r = true ↔ Entity.id r = n)
      ∧
    ⟨x.effect, x.resp⟩ = Backed.ran exec (.delete t p) (1 : Nat)

/--
What `x` writes to the table keeps primary keys what they are.
-/
structure Entry.KeepsIds (x : Entry S R σ) (t : T) : Prop where
  insert : ∀ (mk : Nat → Int → Row t) row, ⟨x.effect, x.resp⟩ = Backed.ran exec (.insert t mk) row →
    ∀ id now, Entity.id (mk id now) = id
  update : ∀ (p : Row t → Bool) f (affected : Nat),
    ⟨x.effect, x.resp⟩ = Backed.ran exec (.update t p f) affected →
    ∀ now r, Entity.id (f now r) = Entity.id r

variable {exec} {x : Entry S R σ} {t : T} {n : Nat}

theorem Entry.Executed.gone (hx : x.Executed exec) (hkeeps : x.KeepsIds exec t)
    (hgone : (db exec x.before t).Gone n)
    : (db exec x.after t).Gone n := by
  obtain ⟨hlt, hrows⟩ := hgone
  refine ⟨Nat.lt_of_lt_of_le hlt (hx.nextId_le t), ?_⟩
  rcases hx.table_cases t with hsame | ⟨s, a, e, hran, hexec, htable, hread⟩
  . rw [hsame]
    exact hrows
  . cases s with
    | find => simp at hread
    | all => simp at hread
    | count => simp at hread
    | insert t' mk =>
      obtain rfl : t' = t := htable
      obtain ⟨now, hrow, hafter, _⟩ := Stmt.exec_insert hexec
      intro r hr
      rw [hafter, List.mem_append, List.mem_singleton] at hr
      rcases hr with hold | rfl
      . exact hrows r hold
      . rw [hrow, hkeeps.insert mk _ hran]
        exact Nat.ne_of_gt hlt
    | update t' p f =>
      obtain rfl : t' = t := htable
      obtain ⟨now, _, hafter, _⟩ := Stmt.exec_update hexec
      intro r hr
      rw [hafter] at hr
      obtain ⟨r', hr', rfl⟩ := List.mem_map.mp hr
      split
      . rw [hkeeps.update p f a hran]
        exact hrows r' hr'
      . exact hrows r' hr'
    | delete t' p =>
      obtain rfl : t' = t := htable
      intro r hr
      rw [(Stmt.exec_delete hexec).1] at hr
      exact hrows r (List.mem_filter.mp hr).1

theorem Entry.Executed.gone_of_removes (hx : x.Executed exec) (hremoves : x.Removes exec t n)
    : (db exec x.after t).Gone n := by
  obtain ⟨p, hp, hran⟩ := hremoves
  obtain ⟨hcount, hafter⟩ := hx.deleted hran
  have hpos : 0 < (db exec x.before t).rows.countP p := by
    rw [← hcount]
    exact Nat.zero_lt_one
  obtain ⟨r, hr, hpr⟩ := List.countP_pos_iff.mp hpos
  constructor
  . rw [← (hp r).mp hpr]
    exact Nat.lt_of_lt_of_le ((db exec x.before t).id_lt r hr) (hx.nextId_le t)
  . intro r' hr'
    rw [hafter] at hr'
    have hkept := (List.mem_filter.mp hr').2
    intro hid
    rw [(hp r').mpr hid] at hkept
    exact absurd hkept (by simp)

theorem Entry.Executed.not_removes (hx : x.Executed exec) (hgone : (db exec x.before t).Gone n)
    : ¬x.Removes exec t n := by
  rintro ⟨p, hp, hran⟩
  obtain ⟨hcount, _⟩ := hx.deleted hran
  have hzero : (db exec x.before t).rows.countP p = 0 := by
    rw [List.countP_eq_zero]
    intro r hr hpr
    exact hgone.2 r hr ((hp r).mp hpr)
  rw [hzero] at hcount
  exact absurd hcount (by simp)

structure RemovedOnce (exec : (s : S) → ω → σ → R s × σ) [Backed Row exec] (t : T) (w : σ)
    (trace : List (Entry S R σ)) : Prop where
  gone : ∀ x ∈ trace, ∀ n, x.Removes exec t n → (db exec w t).Gone n
  once : trace.Pairwise fun y x => ∀ n, y.Removes exec t n → ¬x.Removes exec t n

theorem RemovedOnce.nil {w : σ} : RemovedOnce exec t w [] where
  gone := by simp
  once := .nil

theorem RemovedOnce.step {trace : List (Entry S R σ)} (hx : x.Executed exec)
    (hkeeps : x.KeepsIds exec t) (hremoved : RemovedOnce exec t x.before trace)
    : RemovedOnce exec t x.after (x :: trace) where
  gone := by
    intro y hy n hremoves
    rcases List.mem_cons.mp hy with rfl | hold
    . exact hx.gone_of_removes hremoves
    . exact hx.gone hkeeps (hremoved.gone y hold n hremoves)
  once := by
    refine List.pairwise_cons.mpr ⟨fun y hy n hremoves hremoved' => ?_, hremoved.once⟩
    exact hx.not_removes (hremoved.gone y hy n hremoved') hremoves

end Removal
