import Kerghan.Async.Sequential
import Kerghan.Auth.Sessions.Admission

/-!
This module contains which of the checks for an active session agree on a refresh token. They agree at every
instant but the one at which the token expires.
-/

namespace Kerghan

section

variable [Platform] {e : AuthEnv} {db : AuthDb} {row : RefreshToken} {token : String}

/--
How a call ends that has the database for itself, at a single instant.
-/
abbrev Api.endsAt {α : Type} (e : AuthEnv) (db : AuthDb) (prog : Api α) : Except HttpError α :=
  (prog.eval AuthEffect.exec e db).1

/--
`AuthService.refresh` regards the row of the presented token as neither expired nor revoked.
-/
def Refreshable (e : AuthEnv) (db : AuthDb) (row : RefreshToken) (token : String) : Prop :=
  Api.endsAt e db (AuthService.findActiveRefreshToken token) = .ok row

/--
The entry of a row in the list of its user who presents the token of the row.
-/
def RefreshToken.listed (row : RefreshToken) : ActiveSession where
  id := row.sessionUuid
  startedAt := row.startedAt
  lastUsedAt := row.issuedAt
  keepSignedIn := row.keepSignedIn
  current := true

/--
Another row of the session, such as the successor of a rotated token, keeps it active.
-/
def KeptActive (e : AuthEnv) (db : AuthDb) (row : RefreshToken) : Prop :=
  ∃ row' ∈ (db .refreshTokens).rows, row' ≠ row ∧
    ∃ user ∈ (db .users).rows, user.status = .approved ∧
      SessionService.isActiveSession row.sessionUuid e.now user row' = true

structure SessionChecksAgree (e : AuthEnv) (db : AuthDb) (row : RefreshToken) (token : String) : Prop where
  active : Api.endsAt e db (TokenService.findActiveToken (some token)) = .ok (some row) ↔ Refreshable e db row token
  listed : ∀ userId,
    (∃ sessions, Api.endsAt e db (SessionService.listActive userId (some token)) = .ok sessions ∧
      row.listed ∈ sessions) ↔
        row.userId = userId ∧ Refreshable e db row token
  presented : ∀ userId,
    Api.endsAt e db (SessionService.revokeOthers userId (some token)) = .ok () ↔
      row.userId = userId ∧ Refreshable e db row token
  session : ∀ user ∈ (db .users).rows, user.id = row.userId → user.status = .approved →
    ((∃ found, SessionService.findActiveSessionUser row.sessionUuid e.now e.toDbEnv db = .ok (some found)) ↔
      Refreshable e db row token ∨ KeptActive e db row)

/--
The row of a token that is presented to a database that answers.
-/
structure PresentsRow (e : AuthEnv) (db : AuthDb) (row : RefreshToken) (token : String) : Prop where
  answers : e.fault = false
  mem : row ∈ (db .refreshTokens).rows
  present : token ≠ ""
  hash : hashToken token = row.tokenHash

section PresentsRow

variable (h : PresentsRow e db row token)

include h

theorem PresentsRow.unique {row' : RefreshToken} (hmem : row' ∈ (db .refreshTokens).rows)
    (hhash : row'.tokenHash = row.tokenHash)
    : row' = row := by
  apply Table.eq_of_clash hmem h.mem
  simp [Entity.clash, hhash]

omit h in
theorem Api.eval_query {α : Type} {s : AuthStmt} {f : s.Answer → Api α}
    : (Api.query s >>= f).eval AuthEffect.exec e db =
        match s.exec e.toDbEnv db with
        | (.ok a, db') => (f a).eval AuthEffect.exec e db'
        | (.error err, db') => (.error (.database err), db') := by
  have hexec : AuthEffect.exec (.db s) e db = s.exec e.toDbEnv db := rfl
  rw [Api.query, Prog.bind_assoc, Prog.perform_bind, Prog.eval_step, hexec]
  cases s.exec e.toDbEnv db with
  | mk answer db' =>
    cases answer with
    | ok a => rfl
    | error err => rfl

omit h in
theorem Api.eval_now {α : Type} {f : Date → Api α}
    : (Api.now >>= f).eval AuthEffect.exec e db = (f e.now).eval AuthEffect.exec e db := rfl

omit h in
theorem exec_revokeTokens (hanswers : e.fault = false) (c : TokenCriteria) (now : Date) (reason : RevokedReason)
    : ∃ n db', (revokeTokens c now reason).exec e.toDbEnv db = (.ok n, db') := by
  have ⟨table, htable⟩ := @Table.update_isSome _ _ (db .refreshTokens)
    (fun r => r.revokedAt.isNone && c.covers r)
    (fun r => { r with revokedAt := some now, revokedReason := some reason })
    (fun _ => rfl) (fun _ _ => rfl) (fun _ _ => rfl)
  simp only [Stmt.exec, hanswers, Bool.false_eq_true, if_false, htable]
  exact ⟨_, _, rfl⟩

theorem PresentsRow.eval_find {α : Type} {f : Option RefreshToken → Api α}
    : (Api.query (findToken (hashToken token)) >>= f).eval AuthEffect.exec e db =
        (f (some row)).eval AuthEffect.exec e db := by
  have hfirst : (db .refreshTokens).first (fun r => r.tokenHash == hashToken token) (fun _ => 0) e.choice =
      some row := by
    apply Table.first_eq_of_unique h.mem
    . rw [h.hash, beq_self_eq_true]
    . intro row' hmem hhash
      exact h.unique hmem ((beq_iff_eq.mp hhash).trans h.hash)
  rw [Api.eval_query]
  simp only [Stmt.exec, h.answers, Bool.false_eq_true, if_false, hfirst]

theorem PresentsRow.refreshable_iff
    : Refreshable e db row token ↔ row.revokedAt = none ∧ e.now ≤ row.expiresAt := by
  unfold Refreshable Api.endsAt AuthService.findActiveRefreshToken
  rw [h.eval_find]
  dsimp only
  rw [Api.eval_now]
  by_cases hexpired : row.expiresAt < e.now
  . have hle : ¬e.now ≤ row.expiresAt := Int.not_le.mpr hexpired
    simp [hexpired, hle]
  . have hle : e.now ≤ row.expiresAt := Int.not_lt.mp hexpired
    rw [if_neg hexpired]
    cases hrevoked : row.revokedAt with
    | none => simp [hle]
    | some at' =>
      simp only [Option.isSome_some, if_true, reduceCtorEq, false_and, iff_false]
      exact Prog.eval_bind_throw

theorem PresentsRow.active_iff
    : Api.endsAt e db (TokenService.findActiveToken (some token)) = .ok (some row) ↔
        row.revokedAt = none ∧ e.now < row.expiresAt := by
  have htruthy : truthy (some token) = some token := by simp [truthy, h.present]
  unfold Api.endsAt TokenService.findActiveToken
  rw [htruthy]
  dsimp only
  rw [h.eval_find]
  dsimp only
  cases hrevoked : row.revokedAt with
  | none =>
    simp only [Option.isSome_none, Bool.false_eq_true, if_false, Api.eval_now, Prog.eval_pure, true_and,
      Except.ok.injEq]
    by_cases hunexpired : row.expiresAt > e.now
    . simp [hunexpired]
    . simp [hunexpired]
  | some at' => simp

theorem PresentsRow.listed_iff {userId : Nat}
    : (∃ sessions, Api.endsAt e db (SessionService.listActive userId (some token)) = .ok sessions ∧
        row.listed ∈ sessions) ↔
          row.userId = userId ∧ row.revokedAt = none ∧ e.now < row.expiresAt := by
  have htruthy : truthy (some token) = some token := by simp [truthy, h.present]
  unfold Api.endsAt SessionService.listActive
  rw [Api.eval_now, Api.eval_query]
  simp only [Stmt.exec, h.answers, Bool.false_eq_true, if_false, Prog.eval_pure, Except.ok.injEq,
    exists_eq_left', List.mem_map, List.mem_mergeSort, List.mem_filter, htruthy, Option.map_some, h.hash]
  constructor
  . intro ⟨row', ⟨hmem, hactive⟩, hlisted⟩
    have hhash : row'.tokenHash = row.tokenHash := by
      simpa [RefreshToken.listed] using congrArg ActiveSession.current hlisted
    rw [h.unique hmem hhash] at hactive
    simpa [and_assoc] using hactive
  . intro hactive
    refine ⟨row, ⟨h.mem, by simpa [and_assoc] using hactive⟩, ?_⟩
    simp [RefreshToken.listed]

theorem PresentsRow.presented_iff {userId : Nat}
    : Api.endsAt e db (SessionService.revokeOthers userId (some token)) = .ok () ↔
        row.userId = userId ∧ row.revokedAt = none ∧ e.now < row.expiresAt := by
  have htruthy : truthy (some token) = some token := by simp [truthy, h.present]
  unfold Api.endsAt SessionService.revokeOthers SessionService.findPresented
  rw [htruthy]
  dsimp only
  rw [h.eval_find]
  dsimp only
  by_cases hown : row.userId ≠ userId ∨ row.revokedAt.isSome
  . have hnot : ¬(row.userId = userId ∧ row.revokedAt = none ∧ e.now < row.expiresAt) := by
      rintro ⟨huser, hrevoked, _⟩
      rw [huser, hrevoked] at hown
      simp at hown
    simp [SessionService.isActiveOwnToken, hown, hnot]
  . obtain ⟨huser, hrevoked⟩ : row.userId = userId ∧ row.revokedAt = none := by simpa using hown
    have hcheck : SessionService.isActiveOwnToken row userId =
        Api.now >>= fun now => pure (decide (row.expiresAt > now)) := by
      simp [SessionService.isActiveOwnToken, huser, hrevoked]
    rw [hcheck, Prog.bind_assoc, Api.eval_now, Prog.pure_bind]
    by_cases hunexpired : row.expiresAt > e.now
    . simp only [hunexpired, decide_true, if_true, Api.eval_now]
      obtain ⟨n, db', hexec⟩ := @exec_revokeTokens _ e db h.answers
        { userId := some userId, notSessionUuid := some row.sessionUuid } e.now .userRevoked
      rw [Api.eval_query, hexec]
      simp [huser, hrevoked]
    . simp [hunexpired]

theorem PresentsRow.session_iff {user : User} (huser : user ∈ (db .users).rows) (hid : user.id = row.userId)
    (happroved : user.status = .approved)
    : (∃ found, SessionService.findActiveSessionUser row.sessionUuid e.now e.toDbEnv db = .ok (some found)) ↔
        row.revokedAt = none ∧ e.now < row.expiresAt ∨ KeptActive e db row := by
  constructor
  . rintro ⟨found, hfound⟩
    obtain ⟨_, user', huser', _, happroved', row', hrow', hactive⟩ := of_findActiveSessionUser hfound
    by_cases hsame : row' = row
    . subst hsame
      have hrow : row'.userId = user'.id ∧ row'.revokedAt = none ∧ e.now < row'.expiresAt := by
        simpa [SessionService.isActiveSession, and_assoc] using hactive
      exact Or.inl hrow.2
    . exact Or.inr ⟨row', hrow', hsame, user', huser', happroved', hactive⟩
  . intro hactive
    have hmatch : ∃ user' ∈ (db .users).rows, user'.status = .approved ∧
        ∃ row' ∈ (db .refreshTokens).rows,
          SessionService.isActiveSession row.sessionUuid e.now user' row' = true := by
      cases hactive with
      | inl hactive =>
        refine ⟨user, huser, happroved, row, h.mem, ?_⟩
        simp [SessionService.isActiveSession, hid, sameText_refl, hactive]
      | inr hkept =>
        obtain ⟨row', hrow', _, user', huser', happroved', hactive'⟩ := hkept
        exact ⟨user', huser', happroved', row', hrow', hactive'⟩
    obtain ⟨user', huser', happroved', row', hrow', hactive'⟩ := hmatch
    unfold SessionService.findActiveSessionUser
    rw [h.answers, if_neg Bool.false_ne_true]
    dsimp only
    cases hfirst : (db .users).first (fun user =>
        (db .refreshTokens).rows.any (SessionService.isActiveSession row.sessionUuid e.now user)
          && user.status == .approved) (fun _ => 0) e.choice with
    | none =>
      refine absurd hfirst (Table.first_ne_none huser' ?_)
      rw [Bool.and_eq_true, List.any_eq_true, beq_iff_eq]
      exact ⟨⟨row', hrow', hactive'⟩, happroved'⟩
    | some found => exact ⟨_, rfl⟩

/--
The checks agree on a row unless it expires at this very instant without having been revoked: only
`AuthService.refresh` still takes it.
-/
theorem sessionChecksAgree_iff
    : SessionChecksAgree e db row token ↔ ¬(row.revokedAt = none ∧ row.expiresAt = e.now) := by
  constructor
  . intro hagree ⟨hrevoked, hexpires⟩
    have hlt := h.active_iff.mp (hagree.active.mpr (h.refreshable_iff.mpr ⟨hrevoked, Int.le_of_eq hexpires.symm⟩))
    exact absurd hexpires.symm (Int.ne_of_lt hlt.2)
  . intro hlive
    have hrefreshable : Refreshable e db row token ↔ row.revokedAt = none ∧ e.now < row.expiresAt := by
      rw [h.refreshable_iff]
      constructor
      . intro ⟨hrevoked, hle⟩
        exact ⟨hrevoked, Int.lt_iff_le_and_ne.mpr ⟨hle, fun heq => hlive ⟨hrevoked, heq.symm⟩⟩⟩
      . intro ⟨hrevoked, hlt⟩
        exact ⟨hrevoked, Int.le_of_lt hlt⟩
    exact {
      active := by rw [h.active_iff, hrefreshable]
      listed := by
        intro userId
        rw [h.listed_iff, hrefreshable]
      presented := by
        intro userId
        rw [h.presented_iff, hrefreshable]
      session := by
        intro user huser hid happroved
        rw [h.session_iff huser hid happroved, hrefreshable]
    }

end PresentsRow

end

section Examples

open Sample

attribute [local instance] platform

/--
The token of Ann at the time of the `k`-th step.
-/
theorem presentsRow_annsToken (k : Nat) : PresentsRow (env k) signedIn annsToken "token" where
  answers := rfl
  mem := List.mem_singleton_self _
  present := by decide
  hash := rfl

theorem sessionChecksAgree_annsToken : SessionChecksAgree (env 999) signedIn annsToken "token" :=
  (sessionChecksAgree_iff (presentsRow_annsToken 999)).mpr (by decide)

/--
The token of Ann at the instant at which it expires.
-/
theorem not_sessionChecksAgree
    : ¬∀ (_ : Platform) (e : AuthEnv) (db : AuthDb) (row : RefreshToken) (token : String),
        PresentsRow e db row token → SessionChecksAgree e db row token := by
  intro h
  have hagree := h platform _ _ _ _ (presentsRow_annsToken 1000)
  have hactive := hagree.active.mpr rfl
  have hrejected : Api.endsAt (env 1000) signedIn (TokenService.findActiveToken (some "token")) = .ok none := by
    rfl
  rw [hrejected] at hactive
  cases hactive

end Examples

end Kerghan
