import Kerghan.Auth.CoolOff.Authorize
import Kerghan.Auth.Sample

/-!
This module contains the law of the cool-off for both guards: edits of an account, and authorizations of
one request.
-/

namespace Kerghan

/--
As long as no attempt succeeds, both guards keep to the law of the cool-off, with locks that end at a whole second.
-/
theorem cool_off_law [Platform] (cfg : AuthConfig) (start : Moment) (userId : Nat) (uuid : String)
    : (1 ≤ (editPolicy cfg).maxAttempts → editState start.1 userId = .initial →
        CoolOff.Kept (editPolicy cfg) (EditAttempt cfg userId) (fun w => editState w.1 userId) Prod.snd
          start)
        ∧
      (1 ≤ (authorizePolicy cfg).maxAttempts → requestState start.1 uuid = .initial →
        CoolOff.Kept (authorizePolicy cfg) (AuthorizeAttempt cfg uuid)
          (fun w => requestState w.1 uuid) Prod.snd start) := by
  constructor
  . intro hmax hstart
    exact .of_attempts hmax hstart fun w label w' h => h.attempt
  . intro hmax hstart
    exact .of_attempts hmax hstart fun w label w' h => h.attempt

section Runs

open Sample

attribute [local instance] platform

/--
Ann may guess her password five times before she is locked out for a while, and so it is for a request
that nobody has tried to authorize.
-/
theorem cool_off_law_default
    : CoolOff.Kept (editPolicy config) (EditAttempt config 1) (fun w => editState w.1 1) Prod.snd
        (db ann, 0)
        ∧
      CoolOff.Kept (authorizePolicy config) (AuthorizeAttempt config "u")
        (fun w => requestState w.1 "u") Prod.snd (db ann, 0) := by
  obtain ⟨hedits, hauthorizes⟩ := cool_off_law config (db ann, 0) 1 "u"
  exact ⟨hedits (by decide) (by decide), hauthorizes (by decide) (by decide)⟩

end Runs

section Brief

open Sample

abbrev briefPlatform : Platform :=
  { platform with number := fun raw => if raw = "400" then some 400 else some 1 }

attribute [local instance] briefPlatform

abbrev brief : AuthConfig :=
  { config with
    get := fun key =>
      if key = "KERGHAN_ACCOUNT_EDIT_MAX_ATTEMPTS" then some "1"
      else if key = "KERGHAN_ACCOUNT_EDIT_LOCK_MS" then some "400"
      else none }

abbrev briefDb : AuthDb
  | .users => .single ann
  | _ => Table.empty

abbrev wrongEdit : UpdateAccountDto where
  newPassword := some "other"
  currentPassword := "wrong"

/--
What the wrong edit makes of the database if it is judged at the time `10`.
-/
abbrev afterGuess (db : AuthDb) : Moment :=
  ((AccountService.judgeEdit brief 1 wrongEdit none ann).eval AuthEffect.tick (env 0, 0) (db, 10)).2

/--
The lock of the first guess is stored as the second before it, and so another guess follows at once.
-/
theorem cool_off_not_exact
    : ¬CoolOff.Kept (editPolicy brief).exact (EditAttempt brief 1) (fun w => editState w.1 1) Prod.snd
        (briefDb, 0) := by
  have herr : IsRefusal (.badRequest "Invalid current password") := nofun
  have hfirst : EditAttempt brief 1 (briefDb, 0) (some 10) (afterGuess briefDb) := by
    have hask : (AccountService.askToEdit brief 1 wrongEdit).Runs AuthEffect.tick (briefDb, 0) (.ok ann)
        (briefDb, 0) := Prog.eval_runs (e := (env 0, 0))
    have hjudge : (AccountService.judgeEdit brief 1 wrongEdit none ann).Runs AuthEffect.tick (briefDb, 10)
        (.error (.badRequest "Invalid current password")) (afterGuess briefDb) := Prog.eval_runs (e := (env 0, 0))
    exact ⟨1, wrongEdit, none, some 10, .judged hask (by decide) hjudge herr, rfl⟩
  have hsecond : EditAttempt brief 1 (afterGuess briefDb) (some 10) (afterGuess (afterGuess briefDb).1) := by
    have hask : (AccountService.askToEdit brief 1 wrongEdit).Runs AuthEffect.tick (afterGuess briefDb) (.ok ann)
        (afterGuess briefDb) := Prog.eval_runs (e := (env 0, 0))
    have hjudge : (AccountService.judgeEdit brief 1 wrongEdit none ann).Runs AuthEffect.tick
        ((afterGuess briefDb).1, 10) (.error (.badRequest "Invalid current password"))
        (afterGuess (afterGuess briefDb).1) := Prog.eval_runs (e := (env 0, 0))
    exact ⟨1, wrongEdit, none, some 10, .judged hask (by decide) hjudge herr, rfl⟩
  intro hkept
  have hapart := hkept.apart _ _ ((Sequence.nil.snoc hfirst).snoc hsecond) [10] 10 [] rfl (by decide) 10
    (List.mem_singleton_self _)
  exact absurd hapart (by decide)

end Brief

end Kerghan
