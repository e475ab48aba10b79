import Kerghan.Auth.Lemmas.Call
import Kerghan.Store.Client

/-!
This module contains what a single step of a run can do to the tables, in terms of the contract.
-/

namespace Kerghan

variable [Platform] {cfg : AuthConfig} {calls : List Call}

instance : Backed AuthRow AuthEffect.exec where
  db := id
  ran := ran
  ran_inj h := by
    cases h
    rfl
  exec_ran {effect e w s a} hran := by
    cases effect with
    | db s' =>
      obtain ⟨heffect, hresp⟩ := Sigma.mk.inj hran
      cases heffect
      exact ⟨e.toDbEnv, Prod.ext (eq_of_heq hresp) rfl⟩
    | _ => simp at hran
  exec_cases effect e w := by
    cases effect with
    | db s =>
      cases hresp : (s.exec e.toDbEnv w).1 with
      | ok a => exact Or.inr ⟨s, a, congrArg (Sigma.mk (AuthEffect.db s)) hresp⟩
      | error err => exact Or.inl (Stmt.exec_error (Prod.ext hresp rfl))
    | _ => exact Or.inl rfl

/--
The contract of the `i`-th call.
-/
def Allowed (calls : List Call) (i : Nat) (h : AuthHistory) (s : AuthEffect) : Prop :=
  ∃ call, calls[i]? = some call ∧ Issues call h s

theorem start_meets_of {C : Call → AuthHistory → AuthEffect → Prop}
    {Q : Call → AuthHistory → Except HttpError Reply → Prop}
    (hprog : ∀ call : Call, (call.prog cfg).Meets Answers (C call) (Q call) []) (db : AuthDb)
    (calls : List Call)
    : (Auth.start cfg db calls).Meets Answers (fun i h s => ∃ call, calls[i]? = some call ∧ C call h s)
        (fun _ _ _ => True) := by
  intro i
  unfold Auth.start
  dsimp only
  cases calls[i]? with
  | none => trivial
  | some call =>
    simp only [Option.map_some, Option.getD_some, Option.some.injEq, exists_eq_left']
    exact (hprog call).mono fun _ _ _ _ => trivial

theorem start_meets (cfg : AuthConfig) (db : AuthDb) (calls : List Call)
    : (Auth.start cfg db calls).Meets Answers (Allowed calls) (fun _ _ _ => True) :=
  start_meets_of (prog_meets cfg) db calls

/--
`x` is a step that some call may take after the trace `t`.
-/
abbrev Step (calls : List Call) (t : List AuthEntry) (x : AuthEntry) : Prop :=
  Config.Performs AuthEffect.exec (Allowed calls) t x

theorem auth_induction {I : AuthDb → List AuthEntry → Prop} {A : List AuthEntry → Prop}
    (hadm : ∀ x t, A (x :: t) → A t)
    (hstep : ∀ x t, A (x :: t) → Step calls t x → I x.before t → I x.after (x :: t))
    {db : AuthDb} (hinit : I db []) (schedule : Schedule)
    (hrun : A (Auth.after cfg db calls schedule).trace)
    : I (Auth.after cfg db calls schedule).world (Auth.after cfg db calls schedule).trace :=
  Config.run_induction hadm hstep answers_exec (start_meets cfg db calls) hinit schedule hrun

theorem auth_induction_split {I : AuthDb → List AuthEntry → Prop} {A : List AuthEntry → Prop}
    (hadm : ∀ x t, A (x :: t) → A t)
    (hstep : ∀ x t, A (x :: t) → Step calls t x → I x.before t → I x.after (x :: t))
    {db : AuthDb} (hinit : I db []) (schedule : Schedule)
    (hrun : A (Auth.after cfg db calls schedule).trace) {later earlier : List AuthEntry} {x : AuthEntry}
    (htrace : (Auth.after cfg db calls schedule).trace = later ++ x :: earlier)
    : I x.before earlier ∧ I x.after (x :: earlier) :=
  Config.run_induction_split hadm hstep answers_exec (start_meets cfg db calls) hinit rfl schedule hrun
    htrace

theorem step_of_split {db : AuthDb} {schedule : Schedule} {later earlier : List AuthEntry}
    {x : AuthEntry} (htrace : (Auth.after cfg db calls schedule).trace = later ++ x :: earlier)
    : Step calls earlier x :=
  Config.performs_of_split answers_exec (start_meets cfg db calls) rfl schedule htrace

theorem ended (result : Except HttpError Reply) {db : AuthDb} {schedule : Schedule} {i : Nat}
    {call : Call} {C : AuthHistory → AuthEffect → Prop}
    {Q : AuthHistory → Except HttpError Reply → Prop}
    (hprog : (call.prog cfg).Meets Answers C Q []) (hcall : calls[i]? = some call)
    (hended : (Auth.after cfg db calls schedule).pool i = .ofExcept result)
    : Q (own i (Auth.after cfg db calls schedule).trace) result := by
  have hstart : ((Auth.start cfg db calls).pool i).Meets Answers C Q [] := by
    simp only [Auth.start, hcall, Option.map_some, Option.getD_some]
    exact hprog
  have hrun : ((Auth.after cfg db calls schedule).pool i).Meets Answers C Q
      (own i (Auth.after cfg db calls schedule).trace) :=
    Config.meets_pool_run answers_exec hstart schedule
  rw [hended] at hrun
  cases result with
  | ok reply => exact hrun
  | error e => exact hrun

/--
What a lookup has returned satisfies its `WHERE`.
-/
theorem found_where {db : AuthDb} {schedule : Schedule} {i : Nat} {table : AuthTable}
    {p : AuthRow table → Bool} {rank : AuthRow table → Int} {row : AuthRow table}
    (hmem : ran (.find table p rank) (some row) ∈ own i (Auth.after cfg db calls schedule).trace)
    : p row = true := by
  obtain ⟨later, x, earlier, hsplit, _, hev⟩ := split_of_mem_own hmem
  obtain ⟨_, e, hexec⟩ := step_of_split hsplit
  have hanswers := answers_exec x.effect e x.before
  rw [hexec] at hanswers
  obtain ⟨i, before, effect, resp, after⟩ := x
  dsimp only at hanswers hev
  cases hev
  exact hanswers

section Table

variable {call : Call} {h : AuthHistory} {s : AuthStmt}

theorem UserWrite.table (hwrite : UserWrite call h s) : s.table = .users := by
  cases hwrite <;> rfl

theorem TokenWrite.table (hwrite : TokenWrite call h s) : s.table = .refreshTokens := by
  cases hwrite <;> rfl

theorem ResetWrite.table (hwrite : ResetWrite call h s) : s.table = .passwordResetTokens := by
  cases hwrite <;> rfl

theorem RequestWrite.table (hwrite : RequestWrite call h s) : s.table = .authorizationRequests := by
  cases hwrite <;> rfl

theorem Issues.write (hissues : Issues call h (.db s)) (hread : s.isRead = false)
    : match s.table with
      | .users => UserWrite call h s ∧ OnlyRead [] h
      | .refreshTokens => TokenWrite call h s
      | .passwordResetTokens => ResetWrite call h s
      | .authorizationRequests => RequestWrite call h s
      | .accountEditLockouts => True := by
  cases hissues with
  | read hread' => exact absurd (hread.symm.trans hread') Bool.false_ne_true
  | token hwrite => simpa only [hwrite.table] using hwrite
  | request hwrite => simpa only [hwrite.table] using hwrite
  | user hwrite hfirst => simpa only [hwrite.table] using ⟨hwrite, hfirst⟩
  | reset hwrite => simpa only [hwrite.table] using hwrite
  | lockout _ htable => simp only [htable]

end Table

section Step

variable {t : List AuthEntry} {x : AuthEntry}

@[simp]
def isWrite (ev : (s : AuthEffect) × AuthAnswer s) : Bool :=
  match ev with
  | ⟨.db s, .ok _⟩ => !s.isRead
  | _ => false

theorem Step.issues (hx : Step calls t x)
    : ∃ call, calls[x.call]? = some call ∧ Issues call (own x.call t) x.effect := hx.allowed

theorem Step.executed (hx : Step calls t x) : x.Executed AuthEffect.exec := hx.answered

theorem Step.table_cases (hx : Step calls t x) (table : AuthTable)
    : x.after table = x.before table ∨
      ∃ call s a e,
        calls[x.call]? = some call
          ∧
        ⟨x.effect, x.resp⟩ = ran s a
          ∧
        Issues call (own x.call t) (.db s)
          ∧
        s.exec e x.before = (.ok a, x.after)
          ∧
        s.table = table
          ∧
        s.isRead = false := by
  obtain ⟨call, hcall, hissues⟩ := hx.issues
  rcases hx.executed.table_cases table with hsame | ⟨s, a, e, hran, hexec, htable, hread⟩
  . exact Or.inl hsame
  . have heffect : x.effect = .db s := congrArg Sigma.fst hran
    rw [heffect] at hissues
    exact Or.inr ⟨call, s, a, e, hcall, hran, hissues, hexec, htable, hread⟩

theorem Step.changed (hx : Step calls t x)
    : x.after = x.before ∨ ∃ s a, ⟨x.effect, x.resp⟩ = ran s a ∧ s.isRead = false := by
  by_cases hsame : ∀ table, x.after table = x.before table
  . exact Or.inl (funext hsame)
  . right
    rw [not_forall] at hsame
    obtain ⟨table, hchanged⟩ := hsame
    rcases hx.table_cases table with hsame | ⟨_, s, a, _, _, hran, _, _, _, hread⟩
    . exact absurd hsame hchanged
    . exact ⟨s, a, hran, hread⟩

theorem Step.unchanged (hx : Step calls t x) (hread : isWrite ⟨x.effect, x.resp⟩ = false)
    : x.after = x.before := by
  rcases hx.changed with hsame | ⟨s, a, hran, hwrites⟩
  . exact hsame
  . rw [hran] at hread
    simp only [isWrite, hwrites, Bool.not_false, Bool.true_eq_false] at hread

theorem Step.table_eq (hx : Step calls t x) {s : AuthStmt} {a : s.Answer}
    (hran : ⟨x.effect, x.resp⟩ = ran s a) {table : AuthTable} (htable : s.table ≠ table)
    : x.after table = x.before table :=
  hx.executed.table_eq hran htable

theorem Step.found (hx : Step calls t x) {table : AuthTable} {p : AuthRow table → Bool}
    {rank : AuthRow table → Int} {found : Option (AuthRow table)}
    (hfind : ⟨x.effect, x.resp⟩ = ran (.find table p rank) found)
    : ∃ choice, found = (x.before table).first p rank choice :=
  hx.executed.found hfind

theorem Step.found_mem (hx : Step calls t x) {table : AuthTable} {p : AuthRow table → Bool}
    {rank : AuthRow table → Int} {row : AuthRow table}
    (hfind : ⟨x.effect, x.resp⟩ = ran (.find table p rank) (some row))
    : row ∈ (x.before table).rows ∧ p row = true :=
  hx.executed.found_mem hfind

/--
What an update affects are the rows that satisfy its `WHERE`.
-/
theorem Step.updated (hx : Step calls t x) {table : AuthTable} {p : AuthRow table → Bool}
    {f : Date → AuthRow table → AuthRow table} {affected : Nat}
    (hupdate : ⟨x.effect, x.resp⟩ = ran (.update table p f) affected)
    : ∃ now,
        affected = (x.before table).rows.countP p
          ∧
        (x.after table).rows = (x.before table).rows.map fun r => if p r then f now r else r :=
  hx.executed.updated hupdate

theorem Step.inserted (hx : Step calls t x) {table : AuthTable} {mk : Nat → Date → AuthRow table}
    {row : AuthRow table} (hinsert : ⟨x.effect, x.resp⟩ = ran (.insert table mk) row)
    : ∃ now,
        row = mk (x.before table).nextId now
          ∧
        (x.after table).rows = (x.before table).rows ++ [row]
          ∧
        (x.after table).nextId = (x.before table).nextId + 1 :=
  hx.executed.inserted hinsert

theorem Step.nextId_le (hx : Step calls t x) (table : AuthTable)
    : (x.before table).nextId ≤ (x.after table).nextId :=
  hx.executed.nextId_le table

end Step

end Kerghan
