import Kerghan.Auth.Lemmas.Alone
import Kerghan.Auth.Lemmas.Tokens

/-!
This module contains what a refresh leaves behind that fails because of the database, and a run in which
the presented refresh token is lost.
-/

namespace Kerghan

section

variable [Platform] {cfg : AuthConfig} {db : AuthDb} {refreshToken : String} {row : RefreshToken}
variable {w w' : Logged} {result : Except HttpError AuthResult}

/--
The effect does not revoke all sessions of a user because of a replay.
-/
def Harmless (s : AuthEffect) : Prop :=
  ∀ criteria now, s ≠ .db (revokeTokens criteria now .replayDetected)

abbrev RefreshRuns (cfg : AuthConfig) (refreshToken : String) (db : AuthDb)
    (result : Except HttpError AuthResult) (w' : Logged) : Prop :=
  (AuthService.refresh cfg refreshToken).Runs (Prog.logged AuthEffect.exec) (db, []) result w'

/--
The refresh token can be presented again: it is unrevoked, presenting it succeeds unless the database fails
or the refresh token or its user is rejected, and presenting it is never taken for a replay.
-/
structure Usable (cfg : AuthConfig) (refreshToken : String) (db : AuthDb) : Prop where
  unrevoked : ∃ row ∈ (db .refreshTokens).rows,
    row.tokenHash = hashToken refreshToken ∧ row.revokedAt = none
  succeeds : ∀ row ∈ (db .refreshTokens).rows, row.tokenHash = hashToken refreshToken →
    ∀ result w', RefreshRuns cfg refreshToken db result w' →
      (∀ ev ∈ w'.2, isFailed ev = false) → (∀ now, clock now ∈ w'.2 → now ≤ row.expiresAt) →
        (∃ user ∈ (db .users).rows, user.id = row.userId ∧ user.status ≠ .denied) →
          ∃ session, result = .ok session
  harmless : ∀ result w', RefreshRuns cfg refreshToken db result w' → ∀ ev ∈ w'.2, Harmless ev.1

/--
The last statement was one of `issueTokens`, and it has failed.
-/
inductive IssuingFailed : AuthHistory → Prop where
  | prune {userId : Nat} {now : Date} {e : DbError} {older : AuthHistory}
    : IssuingFailed (failed (pruneTokens userId now) e :: older)
  | insert {tokenHash : String} {userId : Nat} {expiresAt : Date} {keepSignedIn : Bool}
    {session : SessionIdentity} {e : DbError} {older : AuthHistory}
    : IssuingFailed (failed (insertToken tokenHash userId expiresAt keepSignedIn session) e :: older)

omit [Platform] in
theorem IssuingFailed.isFailed {h : AuthHistory} (hissuing : IssuingFailed h)
    : ∃ ev ∈ h, isFailed ev = true := by
  cases hissuing with
  | prune => exact ⟨_, List.mem_cons_self .., rfl⟩
  | insert => exact ⟨_, List.mem_cons_self .., rfl⟩

/--
How a refresh can end if `row` is the unrevoked row of the presented refresh token.
-/
inductive RefreshedAlone (refreshToken : String) (db : AuthDb) (row : RefreshToken)
    : Except HttpError AuthResult → Logged → Prop where
  | failed {s : AuthStmt} {e : DbError} {older : AuthHistory}
    (hother : ¬IssuingFailed (failed s e :: older))
    : RefreshedAlone refreshToken db row (.error (.database e)) (db, failed s e :: older)
  | issuing {w' : Logged} {e : DbError} (hissuing : IssuingFailed w'.2)
    (hrevoked : ∀ r ∈ (w'.1 .refreshTokens).rows, r.tokenHash = hashToken refreshToken →
      r.revokedAt ≠ none)
    : RefreshedAlone refreshToken db row (.error (.database e)) w'
  | expired {w' : Logged} {err : HttpError} {now : Date} (herr : IsRefusal err) (hnow : clock now ∈ w'.2)
    (hexpired : row.expiresAt < now)
    : RefreshedAlone refreshToken db row (.error err) w'
  | refused {w' : Logged} {err : HttpError} (herr : IsRefusal err)
    (huser : ∀ user ∈ (db .users).rows, user.id = row.userId → user.status = .denied)
    : RefreshedAlone refreshToken db row (.error err) w'
  | returned {w' : Logged} {session : AuthResult}
    : RefreshedAlone refreshToken db row (.ok session) w'

namespace AuthService

/--
What follows once the presented refresh token has been found to be active.
-/
def continueSession (cfg : AuthConfig) (tokenRow : RefreshToken) : Api AuthResult := do
  match ← Api.query (findUserById tokenRow.userId) with
  | none => throw (.unauthorized "Invalid refresh token")
  | some user =>
    if user.status = .denied then
      TokenService.revokeToken tokenRow.id .adminDenied
      throw INVALID_REFRESH_TOKEN
    else
      let now ← Api.now
      let affected : Nat ← Api.query (revokeTokens { id := some tokenRow.id } now .rotated)
      if affected ≠ 1 then
        throw INVALID_REFRESH_TOKEN
      else
        TokenService.issueTokens cfg user tokenRow.keepSignedIn
          (some { sessionUuid := tokenRow.sessionUuid, startedAt := tokenRow.startedAt })

theorem refresh_eq : refresh cfg refreshToken = findActiveRefreshToken refreshToken >>= continueSession cfg :=
  rfl

end AuthService

section Harmless

variable {h : AuthHistory}

theorem harmless_rotate {id : Nat} {now : Date} {reason : RevokedReason}
    (hreason : reason ≠ .replayDetected)
    : Harmless (.db (revokeTokens { id := some id } now reason)) := by
  intro criteria now' heq
  exact hreason (reason_of_stmt_eq (AuthEffect.db.inj heq))

theorem AuthService.continueSession_harmless {tokenRow : RefreshToken}
    : (continueSession cfg tokenRow).Meets Answers (fun _ s => Harmless s) Anyhow h := by
  unfold continueSession
  rw [Api.meets_query]
  refine ⟨by simp [Harmless], fun found _ => ?_, fun _ => trivial⟩
  cases found with
  | none => trivial
  | some user =>
    dsimp only
    split
    . unfold TokenService.revokeToken
      rw [Prog.bind_assoc, Api.meets_now]
      refine ⟨by simp [Harmless], fun now => ?_⟩
      rw [Prog.bind_assoc, Api.meets_query]
      exact ⟨harmless_rotate (by simp), fun _ _ => trivial, fun _ => trivial⟩
    . rw [Api.meets_now]
      refine ⟨by simp [Harmless], fun now => ?_⟩
      rw [Api.meets_query]
      refine ⟨harmless_rotate (by simp), fun affected _ => ?_, fun _ => trivial⟩
      split
      . trivial
      . exact TokenService.issueTokens_revokesNothing.imp fun _ _ hnone criteria now => hnone criteria now _

end Harmless

/--
A refresh that has got as far as `issueTokens` returns a session or fails there.
-/
theorem TokenService.issueTokens_alone {user : User} {keepSignedIn : Bool} {session : SessionIdentity}
    (hruns : (issueTokens cfg user keepSignedIn (some session)).Runs (Prog.logged AuthEffect.exec) w result
      w')
    : (∃ session, result = .ok session) ∨
        ∃ e, result = .error (.database e) ∧ IssuingFailed w'.2 ∧
          ∀ r ∈ (w'.1 .refreshTokens).rows, r ∈ (w.1 .refreshTokens).rows := by
  unfold issueTokens at hruns
  obtain ⟨_, hrest⟩ := Prog.runs_step.mp hruns
  simp only [sessionUuidOf, startedAtOf, Prog.pure_bind] at hrest
  obtain ⟨issuedAt, hrest⟩ := Api.logged_now_bind hrest
  obtain ⟨_, hrest⟩ := Prog.runs_step.mp hrest
  obtain ⟨now, hrest⟩ := Api.logged_now_bind hrest
  obtain ⟨pruneBefore, hrest⟩ := Api.logged_now_bind hrest
  rcases Api.logged_query_bind hrest with ⟨e, hresult, rfl⟩ | ⟨_, _, after, hprune, hrest⟩
  . exact Or.inr ⟨e, hresult, .prune, fun r hr => hr⟩
  . obtain ⟨hrows, _⟩ := Stmt.exec_delete hprune
    rcases Api.logged_query_bind hrest with ⟨e, hresult, rfl⟩ | ⟨_, _, _, _, hend⟩
    . refine Or.inr ⟨e, hresult, .insert, fun r hr => ?_⟩
      dsimp only at hr
      rw [hrows] at hr
      exact List.mem_of_mem_filter hr
    . exact Or.inl ⟨_, (Prog.runs_pure.mp hend).1⟩

section Alone

variable (hrow : row ∈ (db .refreshTokens).rows) (hhash : row.tokenHash = hashToken refreshToken)
variable (hactive : row.revokedAt = none)

include hrow hhash

theorem first_token {choice : Nat}
    : (db .refreshTokens).first (fun r => r.tokenHash == hashToken refreshToken) (fun _ => 0) choice =
        some row := by
  refine Table.first_eq_of_unique hrow (beq_iff_eq.mpr hhash) fun r hr hsame => ?_
  apply Table.eq_of_clash hr hrow
  rw [beq_iff_eq] at hsame
  exact beq_iff_eq.mpr (hsame.trans hhash.symm)

include hactive

theorem AuthService.findActiveRefreshToken_alone {found : Except HttpError RefreshToken}
    (hruns : (findActiveRefreshToken refreshToken).Runs (Prog.logged AuthEffect.exec) (db, []) found w')
    : (∃ e, found = .error (.database e) ∧ w' = (db, [failed (findToken (hashToken refreshToken)) e])) ∨
        ∃ now, w' = (db, [clock now, ran (findToken (hashToken refreshToken)) (some row)]) ∧
          (found = .ok row ∨ found = .error INVALID_REFRESH_TOKEN ∧ row.expiresAt < now) := by
  unfold findActiveRefreshToken at hruns
  rcases Api.logged_find_bind hruns with ⟨e, hresult, hw⟩ | ⟨choice, hrest⟩
  . exact Or.inl ⟨e, hresult, hw⟩
  . right
    rw [first_token hrow hhash] at hrest
    obtain ⟨now, hrest⟩ := Api.logged_now_bind hrest
    rw [hactive] at hrest
    split at hrest
    . next hexpired =>
      obtain ⟨hresult, hw⟩ := Prog.runs_throw.mp hrest
      exact ⟨now, hw, Or.inr ⟨hresult, hexpired⟩⟩
    . obtain ⟨hresult, hw⟩ := Prog.runs_pure.mp hrest
      exact ⟨now, hw, Or.inl hresult⟩

theorem AuthService.continueSession_alone {h : AuthHistory}
    (hruns : (continueSession cfg row).Runs (Prog.logged AuthEffect.exec) (db, h) result w')
    : RefreshedAlone refreshToken db row result w' := by
  unfold continueSession at hruns
  rcases Api.logged_find_bind hruns with ⟨e, rfl, rfl⟩ | ⟨choice, hrest⟩
  . exact .failed (by rintro ⟨⟩)
  . cases hfound : (db .users).first (fun u => u.id == row.userId) (fun _ => 0) choice with
    | none =>
      rw [hfound] at hrest
      obtain ⟨rfl, rfl⟩ := Prog.runs_throw.mp hrest
      refine .refused (by simp [IsRefusal]) fun user huser hid => ?_
      exact absurd hfound (Table.first_ne_none huser (beq_iff_eq.mpr hid))
    | some user =>
      rw [hfound] at hrest
      obtain ⟨huser, hid⟩ := Table.first_eq_some hfound
      dsimp only at hrest
      split at hrest
      -- a user who is denied meanwhile cannot refresh
      . next hdenied =>
        unfold TokenService.revokeToken at hrest
        rw [Prog.bind_assoc] at hrest
        obtain ⟨now, hrest⟩ := Api.logged_now_bind hrest
        rw [Prog.bind_assoc] at hrest
        rcases Api.logged_query_bind hrest with ⟨e, rfl, rfl⟩ | ⟨_, _, _, _, hend⟩
        . exact .failed (by rintro ⟨⟩)
        . obtain ⟨rfl, _⟩ := Prog.runs_throw.mp hend
          refine .refused (by simp [IsRefusal, INVALID_REFRESH_TOKEN]) fun user' huser' hid' => ?_
          rw [Table.eq_of_id_eq huser' huser (hid'.trans (beq_iff_eq.mp hid).symm)]
          exact hdenied
      . obtain ⟨now, hrest⟩ := Api.logged_now_bind hrest
        rcases Api.logged_query_bind hrest with ⟨e, rfl, rfl⟩ | ⟨_, affected, after, hrotate, hrest⟩
        . exact .failed (by rintro ⟨⟩)
        . obtain ⟨now', hcount, hrows, _⟩ := Stmt.exec_update hrotate
          have hcovers : (row.revokedAt.isNone && TokenCriteria.covers { id := some row.id } row) = true := by
            simp [hactive, TokenCriteria.covers]
          have hone : (db .refreshTokens).rows.countP (fun r =>
              r.revokedAt.isNone && TokenCriteria.covers { id := some row.id } r) = 1 := by
            refine Table.countP_eq_one hrow hcovers fun r hr hr' => Table.eq_of_id_eq hr hrow ?_
            simp only [TokenCriteria.covers, Option.all_some, Option.all_none, Bool.and_true,
              Bool.and_eq_true, beq_iff_eq] at hr'
            exact hr'.2
          rw [if_neg (not_not.mpr (hcount.trans hone))] at hrest
          rcases TokenService.issueTokens_alone hrest with ⟨session, rfl⟩ | ⟨e, rfl, hissuing, hkept⟩
          . exact .returned
          . refine .issuing hissuing fun r hr hsame => ?_
            have hr' := hkept r hr
            dsimp only at hr'
            rw [hrows] at hr'
            obtain ⟨r0, hr0, rfl⟩ := List.mem_map.mp hr'
            split
            . simp
            . next hunmatched =>
              rw [if_neg hunmatched] at hsame
              have heq : r0 = row := Table.eq_of_clash hr0 hrow (beq_iff_eq.mpr (hsame.trans hhash.symm))
              rw [heq] at hunmatched
              exact absurd hcovers hunmatched

theorem refreshedAlone (hruns : RefreshRuns cfg refreshToken db result w')
    : RefreshedAlone refreshToken db row result w' ∧ ∀ ev ∈ w'.2, Harmless ev.1 := by
  unfold RefreshRuns at hruns
  rw [AuthService.refresh_eq] at hruns
  rcases Prog.runs_bind.mp hruns with ⟨tokenRow, w₁, hpresented, hrest⟩ | ⟨err, hpresented, rfl⟩
  . rcases AuthService.findActiveRefreshToken_alone hrow hhash hactive hpresented with
      ⟨e, herror, _⟩ | ⟨now, rfl, hfound | ⟨herror, _⟩⟩
    . simp at herror
    . rw [Except.ok.inj hfound] at hrest
      refine ⟨AuthService.continueSession_alone hrow hhash hactive hrest, ?_⟩
      obtain ⟨_, newer, hlog, hnewer⟩ := (AuthService.continueSession_harmless.added
        fun _ _ hharmless => hharmless).runs_logged answers_exec hrest
      rw [hlog]
      intro ev hev
      rcases List.mem_append.mp hev with hev | hev
      . exact hnewer ev hev
      . simp only [List.mem_cons, List.not_mem_nil, or_false] at hev
        rcases hev with rfl | rfl <;> simp [Harmless]
    . simp at herror
  . rcases AuthService.findActiveRefreshToken_alone hrow hhash hactive hpresented with
      ⟨e, herror, rfl⟩ | ⟨now, rfl, hfound | ⟨herror, hexpired⟩⟩
    . rw [Except.error.inj herror]
      exact ⟨.failed (by rintro ⟨⟩), by simp [Harmless]⟩
    . simp at hfound
    . rw [Except.error.inj herror]
      refine ⟨.expired (by simp [IsRefusal, AuthService.INVALID_REFRESH_TOKEN])
        (List.mem_cons_self ..) hexpired, ?_⟩
      simp [Harmless]

omit hrow hhash hactive in
theorem Usable.of_active (hrow : row ∈ (db .refreshTokens).rows)
    (hhash : row.tokenHash = hashToken refreshToken) (hactive : row.revokedAt = none)
    : Usable cfg refreshToken db where
  unrevoked := ⟨row, hrow, hhash, hactive⟩
  succeeds := by
    intro row' hrow' hhash' result w' hruns hfine hunexpired huser
    have heq : row' = row := Table.eq_of_clash hrow' hrow (beq_iff_eq.mpr (hhash'.trans hhash.symm))
    subst heq
    cases (refreshedAlone hrow hhash hactive hruns).1 with
    | failed hother => simpa using hfine _ (List.mem_cons_self ..)
    | issuing hissuing hrevoked =>
      obtain ⟨ev, hev, hfailed⟩ := hissuing.isFailed
      rw [hfine ev hev] at hfailed
      simp at hfailed
    | expired herr hnow hexpired => exact absurd hexpired (Int.not_lt.mpr (hunexpired _ hnow))
    | refused herr hdenied =>
      obtain ⟨user, hmem, hid, happroved⟩ := huser
      exact absurd (hdenied user hmem hid) happroved
    | returned => exact ⟨_, rfl⟩
  harmless := fun result w' hruns => (refreshedAlone hrow hhash hactive hruns).2

end Alone

/--
If the database makes a refresh fail, the presented refresh token can be presented again if and only if it
was not a statement of `issueTokens` that has failed.
-/
theorem refresh_atomic_iff (hrow : row ∈ (db .refreshTokens).rows)
    (hhash : row.tokenHash = hashToken refreshToken) (hactive : row.revokedAt = none) {e : DbError}
    (hruns : RefreshRuns cfg refreshToken db (.error (.database e)) w')
    : Usable cfg refreshToken w'.1 ↔ ¬IssuingFailed w'.2 := by
  have hends := (refreshedAlone hrow hhash hactive hruns).1
  clear hruns
  generalize hresult : (Except.error (HttpError.database e) : Except HttpError AuthResult) = result
    at hends
  cases hends with
  | failed hother => simp only [hother, not_false_iff, Usable.of_active hrow hhash hactive]
  | issuing hissuing hrevoked =>
    simp only [hissuing, not_true_eq_false, iff_false]
    intro husable
    obtain ⟨r, hr, hsame, hunrevoked⟩ := husable.unrevoked
    exact hrevoked r hr hsame hunrevoked
  | expired herr => exact absurd (Except.error.inj hresult).symm (herr e)
  | refused herr => exact absurd (Except.error.inj hresult).symm (herr e)
  | returned => simp at hresult

end

section Runs

open Sample

attribute [local instance] platform

/--
The rotation of the refresh token fails, and it can be presented again.
-/
theorem refresh_atomic_iff_rotate
    : ∃ w', RefreshRuns config "token" signedIn (.error (.database .queryFailed)) w' ∧
        Usable config "token" w'.1 := by
  have hruns : RefreshRuns config "token" signedIn (.error (.database .queryFailed))
      (signedIn, [failed (revokeTokens { id := some 1 } 3 .rotated) .queryFailed, clock 3,
        ran (findUserById 1) (some ann), clock 1, ran (findToken "token") (some annsToken)]) :=
    .step (faultAt 4 0) (.step (faultAt 4 1) (.step (faultAt 4 2) (.step (faultAt 4 3)
      (.step (faultAt 4 4) (.throw _ _)))))
  have hrow : annsToken ∈ (signedIn .refreshTokens).rows := List.mem_singleton_self _
  exact ⟨_, hruns, (refresh_atomic_iff hrow rfl rfl hruns).mpr (by rintro ⟨⟩)⟩

/--
The next refresh token cannot be stored after the presented one has been rotated.
-/
theorem not_refresh_atomic
    : ¬∀ e w', RefreshRuns config "token" signedIn (.error (.database e)) w' →
        Usable config "token" w'.1 := by
  intro hatomic
  have hlost : ∃ w', RefreshRuns config "token" signedIn (.error (.database .queryFailed)) w' ∧
      (w'.1 .refreshTokens).rows =
        [{ annsToken with revokedAt := some 3, revokedReason := some .rotated }] :=
    ⟨_, .step (faultAt 11 0) (.step (faultAt 11 1) (.step (faultAt 11 2) (.step (faultAt 11 3)
      (.step (faultAt 11 4) (.step (faultAt 11 5) (.step (faultAt 11 6) (.step (faultAt 11 7)
        (.step (faultAt 11 8) (.step (faultAt 11 9) (.step (faultAt 11 10) (.step (faultAt 11 11)
          (.throw _ _)))))))))))), rfl⟩
  obtain ⟨w', hruns, hrows⟩ := hlost
  obtain ⟨r, hr, _, hactive⟩ := (hatomic _ w' hruns).unrevoked
  rw [hrows, List.mem_singleton] at hr
  rw [hr] at hactive
  simp at hactive

end Runs

end Kerghan
