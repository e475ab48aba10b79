import Kerghan.Auth.Lemmas.Alone
import Kerghan.CoolOff.Basic

/-!
This module contains the runs of calls one after the other on a clock that never goes back, and what an
attempt is on such a clock: what has been asked for before anything is judged, and the judgement.
-/

namespace Kerghan

variable [Platform] {α β : Type}

abbrev Moment := AuthDb × Date

def AuthEffect.tick (s : AuthEffect) (e : AuthEnv × Nat) (w : Moment) : AuthAnswer s × Moment :=
  let now := w.2 + e.2
  let res := s.exec { e.1 with now := now } w.1
  (res.1, res.2, now)

theorem answers_tick (s : AuthEffect) (e : AuthEnv × Nat) (w : Moment) : Answers s (s.tick e w).1 :=
  answers_exec s _ w.1

section Runs

variable {w w' : Moment} {result : Except HttpError α}

theorem time_le {prog : Api α} (hruns : prog.Runs AuthEffect.tick w result w') : w.2 ≤ w'.2 := by
  induction hruns with
  | pure a w => exact Int.le_refl _
  | throw e w => exact Int.le_refl _
  | step e hrest ih => exact Int.le_trans (Int.le_add_of_nonneg_right (Int.natCast_nonneg e.2)) ih

theorem db_of_reads {prog : Api α} {Q : AuthHistory → Except HttpError α → Prop} {h : AuthHistory}
    (hprog : prog.Meets Answers (fun _ s => s.writes = false) Q h)
    (hruns : prog.Runs AuthEffect.tick w result w')
    : w'.1 = w.1 := by
  induction hruns generalizing h with
  | pure a w => rfl
  | throw e w => rfl
  | step e hrest ih =>
    rename_i s k w w' result
    rw [ih (hprog.2 _ (answers_tick s e w))]
    cases s with
    | db s =>
      exact Stmt.exec_read (by simpa using hprog.1)
    | _ => rfl

theorem tick_query_cases {s : AuthStmt} {result : Except HttpError s.Answer}
    (hruns : (Api.query s).Runs AuthEffect.tick w result w')
    : ∃ (e : DbEnv) (answer : Except DbError s.Answer),
        s.exec e w.1 = (answer, w'.1) ∧ e.now = w'.2 ∧ result = answer.mapError .database := by
  obtain ⟨e, hrest⟩ := Prog.runs_step.mp hruns
  have htick : (AuthEffect.db s).tick e w =
      ((s.exec { e.1.toDbEnv with now := w.2 + e.2 } w.1).1,
        (s.exec { e.1.toDbEnv with now := w.2 + e.2 } w.1).2, w.2 + e.2) := rfl
  rw [htick] at hrest
  cases hexec : s.exec { e.1.toDbEnv with now := w.2 + e.2 } w.1 with
  | mk answer after =>
    rw [hexec] at hrest
    refine ⟨{ e.1.toDbEnv with now := w.2 + e.2 }, answer, ?_⟩
    cases answer with
    | ok a =>
      obtain ⟨rfl, rfl⟩ := Prog.runs_pure.mp hrest
      exact ⟨hexec, rfl, rfl⟩
    | error err =>
      obtain ⟨rfl, rfl⟩ := Prog.runs_throw.mp hrest
      exact ⟨hexec, rfl, rfl⟩

theorem tick_query {s : AuthStmt} {a : s.Answer}
    (hruns : (Api.query s).Runs AuthEffect.tick w (.ok a) w')
    : ∃ e : DbEnv, s.exec e w.1 = (.ok a, w'.1) ∧ e.now = w'.2 := by
  obtain ⟨e, answer, hexec, hnow, hresult⟩ := tick_query_cases hruns
  cases answer with
  | ok a' =>
    rw [Except.ok.inj hresult]
    exact ⟨e, hexec, hnow⟩
  | error err => simp [Except.mapError] at hresult

theorem tick_query_error {s : AuthStmt} {err : HttpError}
    (hruns : (Api.query s).Runs AuthEffect.tick w (.error err) w')
    : ∃ (e : DbEnv) (dbErr : DbError), s.exec e w.1 = (.error dbErr, w'.1) ∧ err = .database dbErr := by
  obtain ⟨e, answer, hexec, _, hresult⟩ := tick_query_cases hruns
  cases answer with
  | ok a => simp [Except.mapError] at hresult
  | error dbErr => exact ⟨e, dbErr, hexec, Except.error.inj hresult⟩

theorem tick_find {table : AuthTable} {p : AuthRow table → Bool} {rank : AuthRow table → Int}
    {found : Option (AuthRow table)}
    (hruns : (Api.query (.find table p rank)).Runs AuthEffect.tick w (.ok found) w')
    : w'.1 = w.1 ∧ ∃ choice, found = (w.1 table).first p rank choice := by
  obtain ⟨e, hexec, _⟩ := tick_query hruns
  have hread : (Stmt.find table p rank : AuthStmt).isRead = true := rfl
  have hsame := @Stmt.exec_read _ AuthRow _ _ e w.1 _ hread
  rw [hexec] at hsame
  exact ⟨hsame, Stmt.exec_find hexec⟩

theorem tick_now {now : Date} (hruns : Api.now.Runs AuthEffect.tick w (.ok now) w')
    : w'.1 = w.1 ∧ now = w'.2 := by
  obtain ⟨e, hrest⟩ := Prog.runs_step.mp hruns
  obtain ⟨hresult, rfl⟩ := Prog.runs_pure.mp hrest
  rw [Except.ok.injEq] at hresult
  exact ⟨rfl, hresult⟩

end Runs

/--
An attempt that fails: it is refused while it asks, or what it has asked for is judged and fails. The
label is the time of the judgement, somewhere between the steps before it and the steps after it.
-/
inductive FailedAttempt (ask : Api α) (judge : α → Api β) : Moment → Option Date → Moment → Prop where
  | refused {w w' : Moment} {err : HttpError} (hask : ask.Runs AuthEffect.tick w (.error err) w')
    (herr : IsRefusal err)
    : FailedAttempt ask judge w none w'
  | judged {w w₁ w' : Moment} {a : α} {guess : Date} {err : HttpError}
    (hask : ask.Runs AuthEffect.tick w (.ok a) w₁) (hguess : w₁.2 ≤ guess)
    (hjudge : (judge a).Runs AuthEffect.tick (w₁.1, guess) (.error err) w') (herr : IsRefusal err)
    : FailedAttempt ask judge w (some guess) w'

theorem FailedAttempt.of_runs {ask : Api α} {judge : α → Api β} {w w' : Moment} {err : HttpError}
    (hruns : (ask >>= judge).Runs AuthEffect.tick w (.error err) w') (herr : IsRefusal err)
    : ∃ label, FailedAttempt ask judge w label w' := by
  rcases Prog.runs_bind.mp hruns with ⟨a, w₁, hask, hjudge⟩ | ⟨err', hask, hresult⟩
  . exact ⟨_, .judged hask (Int.le_refl _) hjudge herr⟩
  . rw [Except.error.injEq] at hresult
    exact ⟨_, .refused hask (hresult ▸ herr)⟩

end Kerghan
