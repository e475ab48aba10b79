import Kerghan.Async.Sequential
import Kerghan.Auth.Lemmas.Token
import Kerghan.Auth.Sample

/-!
This module contains the steps of a program that has the database for itself, including those at which
the database fails.
-/

namespace Kerghan

variable [Platform] {cfg : AuthConfig} {db db' : AuthDb} {h : AuthHistory}

theorem Api.runs_find_bind {α : Type} {table : AuthTable} {p : AuthRow table → Bool}
    {rank : AuthRow table → Int} {f : Option (AuthRow table) → Api α} {result : Except HttpError α}
    : (Api.query (.find table p rank) >>= f).Runs AuthEffect.exec db result db' ↔
        (result = .error (.database .queryFailed) ∧ db' = db) ∨
          ∃ choice, (f ((db table).first p rank choice)).Runs AuthEffect.exec db result db' := by
  have hexec : ∀ e : AuthEnv, AuthEffect.exec (.db (.find table p rank)) e db =
      if e.fault then (.error .queryFailed, db) else (.ok ((db table).first p rank e.choice), db) :=
    fun _ => rfl
  constructor
  . intro hruns
    obtain ⟨e, hrest⟩ := Prog.runs_step.mp hruns
    rw [hexec] at hrest
    cases hfault : e.fault with
    | true =>
      rw [hfault] at hrest
      exact Or.inl (Prog.runs_throw.mp hrest)
    | false =>
      rw [hfault] at hrest
      exact Or.inr ⟨e.choice, hrest⟩
  . intro hends
    apply Prog.runs_step.mpr
    rcases hends with hfailed | ⟨choice, hrest⟩
    . refine ⟨{ Sample.env 0 with fault := true }, ?_⟩
      rw [hexec]
      exact Prog.runs_throw.mpr hfailed
    . refine ⟨{ Sample.env 0 with choice := choice }, ?_⟩
      rw [hexec]
      exact hrest

abbrev Logged := AuthDb × AuthHistory

section Logged

variable {w w' : Logged}

theorem Api.logged_query {s : AuthStmt} {result : Except HttpError s.Answer}
    (hruns : (Api.query s).Runs (Prog.logged AuthEffect.exec) w result w')
    : ∃ (e : DbEnv) (answer : Except DbError s.Answer),
        s.exec e w.1 = (answer, w'.1) ∧ w'.2 = ⟨.db s, answer⟩ :: w.2 ∧
          result = answer.mapError .database := by
  obtain ⟨e, hrest⟩ := Prog.runs_step.mp hruns
  have hlogged : Prog.logged AuthEffect.exec (.db s) e w =
      ((s.exec e.toDbEnv w.1).1, (s.exec e.toDbEnv w.1).2,
        ⟨.db s, (s.exec e.toDbEnv w.1).1⟩ :: w.2) := rfl
  rw [hlogged] at hrest
  cases hexec : s.exec e.toDbEnv w.1 with
  | mk answer after =>
    rw [hexec] at hrest
    refine ⟨e.toDbEnv, answer, ?_⟩
    cases answer with
    | ok a =>
      obtain ⟨rfl, rfl⟩ := Prog.runs_pure.mp hrest
      exact ⟨hexec, rfl, rfl⟩
    | error err =>
      obtain ⟨rfl, rfl⟩ := Prog.runs_throw.mp hrest
      exact ⟨hexec, rfl, rfl⟩

variable {α : Type} {result : Except HttpError α}

theorem Api.logged_query_bind {s : AuthStmt} {f : s.Answer → Api α}
    (hruns : (Api.query s >>= f).Runs (Prog.logged AuthEffect.exec) w result w')
    : (∃ e, result = .error (.database e) ∧ w' = (w.1, failed s e :: w.2)) ∨
        ∃ e a after, s.exec e w.1 = (.ok a, after) ∧
          (f a).Runs (Prog.logged AuthEffect.exec) (after, ran s a :: w.2) result w' := by
  rcases Prog.runs_bind.mp hruns with ⟨a, w₁, hquery, hrest⟩ | ⟨err, hquery, hresult⟩
  . obtain ⟨e, answer, hexec, hlog, hanswer⟩ := Api.logged_query hquery
    cases answer with
    | ok a' =>
      have ha : a = a' := Except.ok.inj hanswer
      subst ha
      have hw : w₁ = (w₁.1, ran s a :: w.2) := Prod.ext rfl hlog
      rw [hw] at hrest
      exact Or.inr ⟨e, a, w₁.1, hexec, hrest⟩
    | error dbErr => simp [Except.mapError] at hanswer
  . obtain ⟨e, answer, hexec, hlog, hanswer⟩ := Api.logged_query hquery
    cases answer with
    | ok a' => simp [Except.mapError] at hanswer
    | error dbErr =>
      rw [Except.error.inj hanswer] at hresult
      exact Or.inl ⟨dbErr, hresult, Prod.ext (Stmt.exec_error hexec) hlog⟩

theorem Api.logged_find_bind {table : AuthTable} {p : AuthRow table → Bool} {rank : AuthRow table → Int}
    {f : Option (AuthRow table) → Api α}
    (hruns : (Api.query (.find table p rank) >>= f).Runs (Prog.logged AuthEffect.exec) w result w')
    : (∃ e, result = .error (.database e) ∧ w' = (w.1, failed (.find table p rank) e :: w.2)) ∨
        ∃ choice, (f ((w.1 table).first p rank choice)).Runs (Prog.logged AuthEffect.exec)
          (w.1, ran (.find table p rank) ((w.1 table).first p rank choice) :: w.2) result w' := by
  rcases Api.logged_query_bind hruns with hfailed | ⟨e, found, after, hexec, hrest⟩
  . exact Or.inl hfailed
  . right
    obtain ⟨choice, rfl⟩ := Stmt.exec_find hexec
    have hsame := @Stmt.exec_read _ AuthRow _ _ e w.1 (.find table p rank) rfl
    rw [hexec] at hsame
    dsimp only at hsame
    rw [hsame] at hrest
    exact ⟨choice, hrest⟩

theorem Api.logged_now_bind {f : Date → Api α}
    (hruns : (Api.now >>= f).Runs (Prog.logged AuthEffect.exec) w result w')
    : ∃ now, (f now).Runs (Prog.logged AuthEffect.exec) (w.1, clock now :: w.2) result w' := by
  obtain ⟨e, hrest⟩ := Prog.runs_step.mp hruns
  exact ⟨e.now, hrest⟩

end Logged

def IsRefusal (err : HttpError) : Prop :=
  ∀ e, err ≠ .database e

/--
Only the database keeps a program from returning a result.
-/
def OnlyDatabase {α : Type} (_ : AuthHistory) (r : Except HttpError α) : Prop :=
  ∀ err, r = .error err → ∃ e, err = .database e

section OnlyDatabase

variable {α : Type}

omit [Platform]

@[simp]
theorem onlyDatabase_ok {a : α} : OnlyDatabase h (.ok a) := by
  simp [OnlyDatabase]

@[simp]
theorem onlyDatabase_database {e : DbError} : OnlyDatabase h (.error (.database e) : Except HttpError α) := by
  simp [OnlyDatabase]

end OnlyDatabase

namespace TokenService

theorem issueTokens_errors {user : User} {keepSignedIn : Bool} {session : Option SessionIdentity}
    : (issueTokens cfg user keepSignedIn session).Meets Answers (fun _ _ => True) OnlyDatabase h := by
  unfold issueTokens
  rw [Api.meets_reached]
  refine ⟨trivial, ?_⟩
  cases session with
  | none =>
    simp only [sessionUuidOf, startedAtOf, Api.meets_randomUUID, Api.meets_now, Api.meets_randomBytes,
      true_and]
    intro sessionUuid issuedAt refreshToken now pruneBefore
    rw [Api.meets_query]
    refine ⟨trivial, fun pruned _ => ?_, by simp⟩
    rw [Api.meets_now]
    refine ⟨trivial, fun startedAt => ?_⟩
    rw [Api.meets_query]
    exact ⟨trivial, by simp, by simp⟩
  | some session =>
    simp only [sessionUuidOf, startedAtOf, Prog.pure_bind, Api.meets_now, Api.meets_randomBytes,
      true_and]
    intro issuedAt refreshToken now pruneBefore
    rw [Api.meets_query]
    refine ⟨trivial, fun pruned _ => ?_, by simp⟩
    rw [Api.meets_query]
    exact ⟨trivial, by simp, by simp⟩

end TokenService

end Kerghan
