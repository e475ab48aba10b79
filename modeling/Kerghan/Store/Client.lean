import Kerghan.Async.Run
import Kerghan.Store.Statement

/-!
This module contains what the steps of programs can do to a store that they share, if the store is
only reached by statements. Nothing here depends on what else the programs do, or on their contracts.
-/

/--
The effects of `exec` reach the store `Row` by statements only: `ran s a` is the effect that sends `s`
together with the answer that `s` has succeeded with `a`.
-/
class Backed {S : Type} {R : S → Type} {σ ω : Type} {T : outParam Type}
    (Row : outParam (T → Type)) [DecidableEq T] [∀ t, Entity (Row t)] (exec : (s : S) → ω → σ → R s × σ) where
  db : σ → Db Row
  ran : (s : Stmt Row) → s.Answer → (s : S) × R s
  ran_inj : ∀ {s s' a a'}, ran s a = ran s' a' → (⟨s, a⟩ : (s : Stmt Row) × s.Answer) = ⟨s', a'⟩
  exec_ran : ∀ {effect e w s a}, ⟨effect, (exec effect e w).1⟩ = ran s a →
    ∃ e', s.exec e' (db w) = (.ok a, db (exec effect e w).2)
  exec_cases : ∀ effect e w, db (exec effect e w).2 = db w ∨
    ∃ s a, ⟨effect, (exec effect e w).1⟩ = ran s a

namespace Entry

variable {S : Type} {R : S → Type} {σ ω T : Type} {Row : T → Type} [DecidableEq T]
variable [∀ t, Entity (Row t)] (exec : (s : S) → ω → σ → R s × σ)

/--
The answer and the world that `x` records are those of its effect.
-/
def Executed (x : Entry S R σ) : Prop :=
  ∃ e, exec x.effect e x.before = (x.resp, x.after)

namespace Executed

variable {exec} [Backed Row exec] {x : Entry S R σ}

open Backed

theorem ran (hx : x.Executed exec) {s : Stmt Row} {a : s.Answer}
    (hran : ⟨x.effect, x.resp⟩ = Backed.ran exec s a)
    : ∃ e, s.exec e (db exec x.before) = (.ok a, db exec x.after) := by
  obtain ⟨e, hexec⟩ := hx
  obtain ⟨hresp, hafter⟩ := Prod.mk.inj hexec
  rw [← hresp] at hran
  rw [← hafter]
  exact exec_ran hran

theorem table_cases (hx : x.Executed exec) (t : T)
    : db exec x.after t = (db exec x.before : Db Row) t ∨
      ∃ (s : Stmt Row) (a : s.Answer) (e : DbEnv),
        ⟨x.effect, x.resp⟩ = Backed.ran exec s a
          ∧
        s.exec e (db exec x.before) = (.ok a, db exec x.after)
          ∧
        s.table = t
          ∧
        s.isRead = false := by
  obtain ⟨e, hexec⟩ := id hx
  obtain ⟨hresp, hafter⟩ := Prod.mk.inj hexec
  rcases @exec_cases _ _ _ _ _ Row _ _ exec _ x.effect e x.before with hsame | ⟨s, a, hran⟩
  . left
    rw [← hafter, hsame]
  . rw [hresp] at hran
    obtain ⟨e', hdb⟩ := hx.ran hran
    by_cases htable : s.table = t
    . cases hread : s.isRead with
      | true =>
        left
        have hsame : (s.exec e' (db exec x.before)).2 = db exec x.before := Stmt.exec_read hread
        rw [hdb] at hsame
        exact congrFun hsame t
      | false => exact Or.inr ⟨s, a, e', hran, hdb, htable, hread⟩
    . left
      have hsame := @Stmt.exec_frame _ Row _ _ e' (db exec x.before) _ _ (Ne.symm htable)
      rw [hdb] at hsame
      exact hsame

theorem table_eq (hx : x.Executed exec) {s : Stmt Row} {a : s.Answer}
    (hran : ⟨x.effect, x.resp⟩ = Backed.ran exec s a) {t : T} (htable : s.table ≠ t)
    : db exec x.after t = (db exec x.before : Db Row) t := by
  rcases hx.table_cases t with hsame | ⟨s', a', _, hran', _, htable', _⟩
  . exact hsame
  . have hs : s = s' := congrArg Sigma.fst (ran_inj (hran.symm.trans hran'))
    rw [hs] at htable
    exact absurd htable' htable

variable {t : T} {p : Row t → Bool}

theorem found (hx : x.Executed exec) {rank : Row t → Int} {found : Option (Row t)}
    (hfind : ⟨x.effect, x.resp⟩ = Backed.ran exec (.find t p rank) found)
    : ∃ choice, found = (db exec x.before t).first p rank choice := by
  obtain ⟨e, hexec⟩ := hx.ran hfind
  exact Stmt.exec_find hexec

theorem found_mem (hx : x.Executed exec) {rank : Row t → Int} {row : Row t}
    (hfind : ⟨x.effect, x.resp⟩ = Backed.ran exec (.find t p rank) (some row))
    : row ∈ (db exec x.before t).rows ∧ p row = true := by
  obtain ⟨choice, hchoice⟩ := hx.found hfind
  exact Table.first_eq_some hchoice.symm

theorem listed (hx : x.Executed exec) {rows : List (Row t)}
    (hall : ⟨x.effect, x.resp⟩ = Backed.ran exec (.all t p) rows)
    : rows = (db exec x.before t).rows.filter p := by
  obtain ⟨e, hexec⟩ := hx.ran hall
  exact Stmt.exec_all hexec

theorem counted (hx : x.Executed exec) {n : Nat}
    (hcount : ⟨x.effect, x.resp⟩ = Backed.ran exec (.count t p) n)
    : n = (db exec x.before t).rows.countP p := by
  obtain ⟨e, hexec⟩ := hx.ran hcount
  exact Stmt.exec_count hexec

theorem inserted (hx : x.Executed exec) {mk : Nat → Int → Row t} {row : Row t}
    (hinsert : ⟨x.effect, x.resp⟩ = Backed.ran exec (.insert t mk) row)
    : ∃ now,
        row = mk (db exec x.before t).nextId now
          ∧
        (db exec x.after t).rows = (db exec x.before t).rows ++ [row]
          ∧
        (db exec x.after t).nextId = (db exec x.before t).nextId + 1 := by
  obtain ⟨e, hexec⟩ := hx.ran hinsert
  exact Stmt.exec_insert hexec

/--
What an update affects are the rows that satisfy its `WHERE`.
-/
theorem updated (hx : x.Executed exec) {f : Int → Row t → Row t} {affected : Nat}
    (hupdate : ⟨x.effect, x.resp⟩ = Backed.ran exec (.update t p f) affected)
    : ∃ now,
        affected = (db exec x.before t).rows.countP p
          ∧
        (db exec x.after t).rows = (db exec x.before t).rows.map fun r => if p r then f now r else r := by
  obtain ⟨e, hexec⟩ := hx.ran hupdate
  obtain ⟨now, hcount, hrows, _⟩ := Stmt.exec_update hexec
  exact ⟨now, hcount, hrows⟩

/--
What a delete affects are the rows that satisfy its `WHERE`.
-/
theorem deleted (hx : x.Executed exec) {affected : Nat}
    (hdelete : ⟨x.effect, x.resp⟩ = Backed.ran exec (.delete t p) affected)
    : affected = (db exec x.before t).rows.countP p
        ∧
      (db exec x.after t).rows = (db exec x.before t).rows.filter fun r => !p r := by
  obtain ⟨e, hexec⟩ := hx.ran hdelete
  exact ⟨Stmt.exec_delete_count hexec, (Stmt.exec_delete hexec).1⟩

theorem rows_cases (hx : x.Executed exec)
    (hupdate : ∀ (p : Row t → Bool) f (affected : Nat),
      ⟨x.effect, x.resp⟩ ≠ Backed.ran exec (.update t p f) affected)
    {r : Row t} (hr : r ∈ (db exec x.after t).rows)
    : r ∈ (db exec x.before t).rows ∨ ∃ mk, ⟨x.effect, x.resp⟩ = Backed.ran exec (.insert t mk) r := by
  rcases hx.table_cases t with hsame | ⟨s, a, e, hran, hexec, htable, hread⟩
  . left
    rw [← hsame]
    exact hr
  . cases s with
    | find => simp at hread
    | all => simp at hread
    | count => simp at hread
    | insert t' mk =>
      obtain rfl : t' = t := htable
      obtain ⟨now, _, hafter, _⟩ := Stmt.exec_insert hexec
      rw [hafter, List.mem_append, List.mem_singleton] at hr
      rcases hr with hold | rfl
      . exact Or.inl hold
      . exact Or.inr ⟨mk, hran⟩
    | update t' p f =>
      obtain rfl : t' = t := htable
      exact absurd hran (hupdate p f a)
    | delete t' p =>
      obtain rfl : t' = t := htable
      rw [(Stmt.exec_delete hexec).1] at hr
      exact Or.inl (List.mem_filter.mp hr).1

theorem row_cases (hx : x.Executed exec)
    (hid : ∀ (mk : Nat → Int → Row t) row, ⟨x.effect, x.resp⟩ = Backed.ran exec (.insert t mk) row →
      ∀ id now, Entity.id (mk id now) = id)
    {r : Row t} (hr : r ∈ (db exec x.after t).rows)
    : (r ∈ (db exec x.before t).rows
        ∧
      (∀ mk row, ⟨x.effect, x.resp⟩ = Backed.ran exec (.insert t mk) row → Entity.id row ≠ Entity.id r)
        ∧
      ∀ (p : Row t → Bool) f (affected : Nat),
        ⟨x.effect, x.resp⟩ = Backed.ran exec (.update t p f) affected → p r = false)
        ∨
      (∃ mk, ⟨x.effect, x.resp⟩ = Backed.ran exec (.insert t mk) r)
        ∨
      ∃ (p : Row t → Bool) (f : Int → Row t → Row t) (affected : Nat) (now : Int),
        ∃ r' ∈ (db exec x.before t).rows,
          ⟨x.effect, x.resp⟩ = Backed.ran exec (.update t p f) affected
            ∧
          p r' = true
            ∧
          r = f now r' := by
  -- one event answers one statement, so it is not an insert and an update at once
  have hdiffer : ∀ {s s' : Stmt Row} {a a'}, ⟨x.effect, x.resp⟩ = Backed.ran exec s a →
      ⟨x.effect, x.resp⟩ = Backed.ran exec s' a' → s = s' :=
    fun hran hran' => congrArg Sigma.fst (ran_inj (hran.symm.trans hran'))
  by_cases hinsert : ∃ (mk : Nat → Int → Row t) (row : Row t),
      ⟨x.effect, x.resp⟩ = Backed.ran exec (.insert t mk) row
  . obtain ⟨mk, row, hran⟩ := hinsert
    obtain ⟨now, hrow, hafter, _⟩ := hx.inserted hran
    rw [hafter, List.mem_append, List.mem_singleton] at hr
    rcases hr with hold | rfl
    . refine Or.inl ⟨hold, fun mk' row' hran' => ?_, fun p f affected hran' => ?_⟩
      . obtain ⟨now', hrow', _⟩ := hx.inserted hran'
        rw [hrow', hid mk' row' hran']
        exact Nat.ne_of_gt ((db exec x.before t).id_lt r hold)
      . exact absurd (hdiffer hran hran') (by simp)
    . exact Or.inr (Or.inl ⟨mk, hran⟩)
  . have hfresh : ∀ mk row, ⟨x.effect, x.resp⟩ = Backed.ran exec (.insert t mk) row →
        Entity.id row ≠ Entity.id r := fun mk row hran => absurd ⟨mk, row, hran⟩ hinsert
    by_cases hupdate : ∃ (p : Row t → Bool) (f : Int → Row t → Row t) (affected : Nat),
        ⟨x.effect, x.resp⟩ = Backed.ran exec (.update t p f) affected
    . obtain ⟨p, f, affected, hran⟩ := hupdate
      obtain ⟨now, _, hafter⟩ := hx.updated hran
      rw [hafter] at hr
      obtain ⟨r', hr', rfl⟩ := List.mem_map.mp hr
      cases hp : p r' with
      | true => exact Or.inr (Or.inr ⟨p, f, affected, now, r', hr', hran, hp, by simp⟩)
      | false =>
        rw [hp] at hfresh
        refine Or.inl ⟨by simpa using hr', hfresh, fun p' f' affected' hran' => ?_⟩
        obtain ⟨_, hsame, _⟩ := Stmt.update.inj (hdiffer hran hran')
        rw [← eq_of_heq hsame]
        simpa using hp
    . refine Or.inl ⟨?_, hfresh, fun p f affected hran => absurd ⟨p, f, affected, hran⟩ hupdate⟩
      rcases hx.rows_cases (fun p f affected hran => hupdate ⟨p, f, affected, hran⟩) hr with hold | ⟨mk, hran⟩
      . exact hold
      . exact absurd ⟨mk, r, hran⟩ hinsert

theorem nextId_le (hx : x.Executed exec) (t : T)
    : (db exec x.before t).nextId ≤ ((db exec x.after : Db Row) t).nextId := by
  rcases hx.table_cases t with hsame | ⟨s, a, e, _, hexec, htable, hread⟩
  . rw [hsame]
  . subst htable
    cases s with
    | find => simp at hread
    | all => simp at hread
    | count => simp at hread
    | insert t mk =>
      obtain ⟨_, _, _, hnext⟩ := Stmt.exec_insert hexec
      exact Nat.le_of_succ_le (Nat.le_of_eq hnext.symm)
    | update t p f =>
      obtain ⟨_, _, _, hnext⟩ := Stmt.exec_update hexec
      exact Nat.le_of_eq hnext.symm
    | delete t p => exact Nat.le_of_eq (Stmt.exec_delete hexec).2.symm

end Executed

end Entry
