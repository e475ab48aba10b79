import Kerghan.Auth.Lemmas.Hashes
import Kerghan.Auth.Sessions.Gate

/-!
This module contains the proof that a password change keeps the session that it is sent from and ends the
other ones, as long as its revocation finds the refresh token that it is to spare, and a run in which a
refresh has replaced that refresh token in the meantime.
-/

namespace Kerghan

section

variable [Platform] {cfg : AuthConfig} {calls : List Call} {t : List AuthEntry} {x : AuthEntry}
variable {i userId : Nat} {token sessionUuid : String}

/--
The `i`-th call changes the password of its user, and is presented a refresh token of the user's session.
-/
structure ChangesPassword (calls : List Call) (t : List AuthEntry) (i userId : Nat)
    (token sessionUuid : String) : Prop where
  call : ∃ dto, calls[i]? = some (.updateAccount userId dto (some token)) ∧
    (truthy dto.newPassword).isSome = true
  present : token ≠ ""
  own : ∃ row, Minted t row ∧ row.tokenHash = hashToken token ∧ row.userId = userId ∧
    row.sessionUuid = sessionUuid

/--
The session is unexpired, and apart from the `i`-th call it has only been refreshed, by calls that have
returned.
-/
structure OnlyRefreshed (calls : List Call) (c : Auth) (i : Nat) (sessionUuid : String) : Prop where
  spared : ∀ later x earlier criteria, c.trace = later ++ x :: earlier → x.call ≠ i →
    Revocation calls earlier x criteria → ∀ r ∈ (x.before .refreshTokens).rows,
      r.sessionUuid = sessionUuid → r.revokedAt = none → criteria.covers r = false
  returned : ∀ j refreshToken tokenRow, Rotated calls c.trace j refreshToken tokenRow →
    tokenRow.sessionUuid = sessionUuid → ∃ reply, c.pool j = .pure reply
  unexpired : ∀ r, Current c.trace r → r.sessionUuid = sessionUuid → NotPast c.trace r.expiresAt

/--
The only unrevoked refresh token of the session is the one that has been presented.
-/
def FindsPresented (x : AuthEntry) (token sessionUuid : String) : Prop :=
  ∀ r ∈ (x.before .refreshTokens).rows, r.sessionUuid = sessionUuid → r.revokedAt = none →
    r.tokenHash = hashToken token

structure OwnSessionKept (calls : List Call) (c : Auth)
    (condition : AuthEntry → String → String → Prop) : Prop where
  stored : ∀ i userId token sessionUuid reply,
    ChangesPassword calls c.trace i userId token sessionUuid → c.pool i = .pure reply →
      ∃ later x earlier criteria,
        c.trace = later ++ x :: earlier ∧ x.call = i ∧ Revocation calls earlier x criteria
  kept : ∀ i userId token sessionUuid reply,
    ChangesPassword calls c.trace i userId token sessionUuid → c.pool i = .pure reply →
      OnlyRefreshed calls c i sessionUuid →
        (∀ later x earlier criteria, c.trace = later ++ x :: earlier → x.call = i →
          Revocation calls earlier x criteria → condition x token sessionUuid) →
            ∃ r ∈ (c.world .refreshTokens).rows, r.sessionUuid = sessionUuid ∧ r.revokedAt = none
  /-- No other session is left that existed at the time, unless a refresh of it was halfway through. -/
  others : ∀ i userId token sessionUuid later x earlier criteria,
    ChangesPassword calls c.trace i userId token sessionUuid → c.trace = later ++ x :: earlier →
      x.call = i → Revocation calls earlier x criteria →
        ∀ other, (∃ r, Minted earlier r ∧ r.userId = userId ∧ r.sessionUuid = other) →
          other ≠ sessionUuid → (∀ j, ¬Rotating calls earlier j other) →
            ∀ r ∈ (c.world .refreshTokens).rows, r.sessionUuid = other → r.revokedAt ≠ none

section Returned

variable {h : AuthHistory}

def HasStored (h : AuthHistory) : Prop :=
  ∃ tokenHash userId expiresAt keepSignedIn session r,
    ran (insertToken tokenHash userId expiresAt keepSignedIn session) r ∈ h

theorem TokenService.issueTokens_stores {user : User} {keepSignedIn : Bool}
    {session : Option SessionIdentity}
    : (issueTokens cfg user keepSignedIn session).Meets Answers (fun _ _ => True)
        (fun h' r => ∀ result, r = .ok result → HasStored h') h := by
  have hstored : ∀ {h tokenHash userId expiresAt identity} {r : RefreshToken},
      HasStored (ran (insertToken tokenHash userId expiresAt keepSignedIn identity) r :: h) :=
    ⟨_, _, _, _, _, _, List.mem_cons_self ..⟩
  unfold issueTokens
  rw [Api.meets_reached]
  refine ⟨trivial, ?_⟩
  cases session with
  | none =>
    simp only [sessionUuidOf, startedAtOf, Api.meets_randomUUID, Api.meets_now, Api.meets_randomBytes,
      true_and]
    intro sessionUuid issuedAt refreshToken now pruneBefore
    rw [Api.meets_query]
    refine ⟨trivial, fun pruned _ => ?_, by simp⟩
    rw [Api.meets_now]
    refine ⟨trivial, fun startedAt => ?_⟩
    rw [Api.meets_query]
    exact ⟨trivial, fun r _ _ _ => hstored, by simp⟩
  | some session =>
    simp only [sessionUuidOf, startedAtOf, Prog.pure_bind, Api.meets_now, Api.meets_randomBytes,
      true_and]
    intro issuedAt refreshToken now pruneBefore
    rw [Api.meets_query]
    refine ⟨trivial, fun pruned _ => ?_, by simp⟩
    rw [Api.meets_query]
    exact ⟨trivial, fun r _ _ _ => hstored, by simp⟩

theorem AuthService.refresh_stores (refreshToken : String)
    : (refresh cfg refreshToken).Meets Answers (fun _ _ => True)
        (fun h r => ∀ result, r = .ok result → HasStored h) [] := by
  unfold refresh
  refine (Prog.meets_true _).bind ?_ (by simp)
  intro h tokenRow _ _
  rw [Api.meets_query]
  refine ⟨trivial, fun user _ => ?_, by simp⟩
  cases user with
  | none => simp
  | some user =>
    dsimp only
    split
    . exact (Prog.meets_true _).bind (by simp) (by simp)
    . rw [Api.meets_now]
      refine ⟨trivial, fun now => ?_⟩
      rw [Api.meets_query]
      refine ⟨trivial, fun affected _ => ?_, by simp⟩
      split
      . simp
      . exact TokenService.issueTokens_stores

theorem stored_of_returned {db : AuthDb} {schedule : Schedule} {refreshToken : String} {reply : Reply}
    (hcall : calls[i]? = some (.refresh refreshToken))
    (hreturned : (Auth.after cfg db calls schedule).pool i = .pure reply)
    : ∃ y ∈ (Auth.after cfg db calls schedule).trace, y.call = i ∧ ∃ r, StoresToken y r := by
  have hprog : ((Call.refresh refreshToken).prog cfg).Meets Answers (fun _ _ => True)
      (fun h r => ∀ reply, r = .ok reply → HasStored h) [] := by
    apply (AuthService.refresh_stores refreshToken).map
    . exact fun _ session hstored _ _ => hstored session rfl
    . simp
  obtain ⟨tokenHash, userId, expiresAt, keepSignedIn, session, r, hmem⟩ :=
    ended (.ok reply) hprog hcall hreturned reply rfl
  obtain ⟨y, hy, hi, hran⟩ := mem_own.mp hmem
  exact ⟨y, hy, hi, r, tokenHash, userId, expiresAt, keepSignedIn, session, hran⟩

end Returned

theorem Revocation.criteria_eq {criteria : TokenCriteria} {dto : UpdateAccountDto}
    {refreshToken : Option String} (h : Revocation calls t x criteria)
    (hcall : calls[x.call]? = some (.updateAccount userId dto refreshToken))
    : criteria = TokenService.userCriteria userId refreshToken := by
  obtain ⟨call, now, reason, affected, hcall', _, hrevokes⟩ := h
  rw [hcall, Option.some.injEq] at hcall'
  subst hcall'
  cases hrevokes with
  | passwordChange heq =>
    cases heq
    rfl
  | _ => contradiction

theorem ChangesPassword.criteria_eq {criteria : TokenCriteria} {t' : List AuthEntry}
    (h : ChangesPassword calls t' x.call userId token sessionUuid) (hrevocation : Revocation calls t x criteria)
    : criteria = { userId := some userId, notTokenHash := some (hashToken token) } := by
  obtain ⟨dto, hcall, _⟩ := h.call
  have htruthy : truthy (some token) = some token := by simp [truthy, h.present]
  rw [hrevocation.criteria_eq hcall, TokenService.userCriteria, htruthy]

theorem exists_current {db : AuthDb} {schedule : Schedule} {row : RefreshToken}
    (h : Minted (Auth.after cfg db calls schedule).trace row)
    : ∃ r, Current (Auth.after cfg db calls schedule).trace r ∧ r.sessionUuid = row.sessionUuid := by
  classical
  obtain ⟨y₀, hy₀, hstores₀⟩ := h
  let ofSession (y : AuthEntry) : Bool :=
    decide (∃ r, StoresToken y r ∧ r.sessionUuid = row.sessionUuid)
  have hsome : ((Auth.after cfg db calls schedule).trace.find? ofSession).isSome = true :=
    List.find?_isSome.mpr ⟨y₀, hy₀, by simpa [ofSession] using ⟨_, hstores₀, rfl⟩⟩
  obtain ⟨y, hfound⟩ := Option.isSome_iff_exists.mp hsome
  obtain ⟨hlast, later, earlier, htrace, hlater⟩ := List.find?_eq_some_iff_append.mp hfound
  obtain ⟨r, hstores, hsession⟩ := of_decide_eq_true hlast
  have hidentity : r.identity = r := by
    obtain ⟨_, _, _, _, _, hran⟩ := hstores
    obtain ⟨_, hrow, _⟩ := (step_of_split htrace).inserted hran
    rw [hrow]
    rfl
  refine ⟨r, ⟨later, y, earlier, htrace, hidentity.symm ▸ hstores, ?_⟩, hsession⟩
  intro z hz r' hstores' hsame
  have hnot := hlater z hz
  simp only [ofSession, Bool.not_eq_true', decide_eq_false_iff_not, not_exists, not_and] at hnot
  exact hnot r' hstores' (hsame.trans hsession)

section Kept

variable {c : Auth} {condition : AuthEntry → String → String → Prop}

theorem OnlyRefreshed.untargeted (h : OnlyRefreshed calls c i sessionUuid)
    (hchanges : ChangesPassword calls c.trace i userId token sessionUuid)
    (hfinds : ∀ later x earlier criteria, c.trace = later ++ x :: earlier → x.call = i →
      Revocation calls earlier x criteria → FindsPresented x token sessionUuid)
    : Untargeted calls c.trace sessionUuid := by
  intro later x earlier criteria hsplit hrevocation r hr hsession hactive
  by_cases hi : x.call = i
  . subst hi
    have hhash := hfinds later x earlier criteria hsplit rfl hrevocation r hr hsession hactive
    rw [hchanges.criteria_eq hrevocation]
    simp [TokenCriteria.covers, hhash]
  . exact h.spared later x earlier criteria hsplit hi hrevocation r hr hsession hactive

end Kept

theorem revoked_of_settled {db : AuthDb} {schedule : Schedule} (hempty : (db .refreshTokens).rows = [])
    (huuids : FreshUuids (Auth.after cfg db calls schedule).trace) {later earlier : List AuthEntry}
    {criteria : TokenCriteria}
    (hsplit : (Auth.after cfg db calls schedule).trace = later ++ x :: earlier)
    (hrevocation : Revocation calls earlier x criteria) (htargets : Targets earlier criteria sessionUuid)
    (hsettled : Settled calls earlier x criteria sessionUuid)
    : ∀ r ∈ ((Auth.after cfg db calls schedule).world .refreshTokens).rows, r.sessionUuid = sessionUuid →
        r.revokedAt ≠ none := by
  have hinv := auth_induction (A := FreshUuids)
    (I := fun db t => SessionInv calls db t ∧
      ∀ later, t = later ++ x :: earlier → Ended calls db t sessionUuid)
    (fun _ _ => FreshUuids.tail) ?_ ⟨.init hempty, by simp⟩ schedule huuids
  . exact (hinv.2 later hsplit).revoked
  . intro y t hfresh hy ⟨hinv, hended⟩
    refine ⟨hinv.step hfresh hy, ?_⟩
    intro later hsplit
    cases later with
    | nil =>
      cases hsplit
      exact hrevocation.ended hinv hy htargets hsettled
    | cons z later =>
      cases hsplit
      exact (hended later rfl).step hinv hy

theorem ownSessionKept {db : AuthDb} {schedule : Schedule} (hempty : (db .refreshTokens).rows = [])
    (huuids : FreshUuids (Auth.after cfg db calls schedule).trace)
    (htokens : FreshTokens (Auth.after cfg db calls schedule).trace)
    : OwnSessionKept calls (Auth.after cfg db calls schedule) FindsPresented where
  stored := by
    intro i userId token sessionUuid reply hchanges hreturned
    obtain ⟨dto, hcall, hpassword⟩ := hchanges.call
    exact revocation_of_returned hcall hpassword hreturned
  kept := by
    intro i userId token sessionUuid reply hchanges _ hrefreshed hfinds
    obtain ⟨row, hminted, _, _, hsession⟩ := hchanges.own
    obtain ⟨r, hcurrent, hsame⟩ := exists_current hminted
    have hsession' : r.sessionUuid = sessionUuid := hsame.trans hsession
    have huntargeted := hrefreshed.untargeted hchanges hfinds
    have hkept := (hrefreshed.unexpired r hcurrent hsession').notPruned
    rw [← hsession'] at huntargeted
    rcases served hempty hcurrent huntargeted hkept with ⟨r', hr', hidentity, hactive⟩ | ⟨j, hrotated⟩
    . exact ⟨r', hr', (sessionUuid_of_tokenIdentity hidentity).trans hsession', hactive⟩
    . obtain ⟨refreshToken, tokenRow, hrotated, hrow, hnone⟩ := hrotated
      obtain ⟨reply, hreturned⟩ := hrefreshed.returned j refreshToken tokenRow hrotated
        (hrow.trans hsession')
      obtain ⟨y, hy, hj, r', hstores⟩ := stored_of_returned hrotated.1 hreturned
      exact absurd hstores (hnone y hy hj r')
  others := by
    intro i userId token sessionUuid later x earlier criteria hchanges hsplit hi hrevocation other hother
      hne hnot
    subst hi
    obtain ⟨row, hminted, hhash, _, hsession⟩ := hchanges.own
    have hcriteria := hchanges.criteria_eq hrevocation
    have hnotKept : ∀ r, Minted earlier r → r.sessionUuid = other → hashToken token ≠ r.tokenHash := by
      intro r hr hsame heq
      have hlater : Minted (Auth.after cfg db calls schedule).trace r := by
        obtain ⟨y, hy, hstores⟩ := hr
        rw [hsplit]
        exact ⟨y, List.mem_append_right _ (List.mem_cons_of_mem _ hy), hstores⟩
      have heq' := session_of_tokenHash htokens hminted hlater (hhash.trans heq)
      exact hne (hsame.symm.trans (heq'.symm.trans hsession))
    apply revoked_of_settled hempty huuids hsplit hrevocation
    . obtain ⟨r, hr, huser, hsame⟩ := hother
      constructor
      . refine ⟨r, hr, hsame, ?_⟩
        simp [hcriteria, TokenCriteria.covers, huser, (hnotKept r hr hsame).symm]
      . intro r hr hsame
        simpa [hcriteria] using hnotKept r hr hsame
    . exact ⟨hnot, by simp [hcriteria]⟩

end

section Runs

open Sample

attribute [local instance] platform

/--
A login, a change of the user's password that is sent from its session, and a refresh of the session.
-/
def changeCalls : List Call := [
  .login { username := "ann", password := "secret" },
  .updateAccount 1 { currentPassword := "secret", newPassword := some "other" } (some "bbbb"),
  .refresh "bbbb"
]

theorem ownSessionKept_refreshedLater
    : OwnSessionKept changeCalls (Auth.after config (db ann) changeCalls (schedule
        (List.replicate 10 0 ++ List.replicate 7 1 ++ List.replicate 12 2))) FindsPresented :=
  ownSessionKept rfl (by decide) (by decide)

/--
The refresh is run after the first step of the password change.
-/
def refreshedDuringChange : Schedule :=
  schedule (List.replicate 10 0 ++ List.replicate 1 1 ++ List.replicate 12 2 ++ List.replicate 6 1)

def storedToken (x : AuthEntry) : Option RefreshToken :=
  match x.effect, x.resp with
  | .db (.insert .refreshTokens _), .ok r => some r
  | _, _ => none

theorem StoresToken.storedToken {x : AuthEntry} {r : RefreshToken} (h : StoresToken x r)
    : storedToken x = some r := by
  obtain ⟨i, before, effect, resp, after⟩ := x
  obtain ⟨_, _, _, _, _, hran⟩ := h
  cases hran
  rfl

theorem onlyRefreshed_refreshedDuringChange
    : OnlyRefreshed changeCalls (Auth.after config (db ann) changeCalls refreshedDuringChange) 1 "uu" where
  spared := by
    intro later x earlier criteria hsplit hi hrevocation
    have hother : ∀ x ∈ (Auth.after config (db ann) changeCalls refreshedDuringChange).trace,
        x.call ≠ 1 → revokesOtherwise x = false := by decide
    have hx := hother x (hsplit ▸ List.mem_append_right _ (List.mem_cons_self ..)) hi
    rw [hrevocation.revokesOtherwise] at hx
    simp at hx
  returned := by
    intro j refreshToken tokenRow hrotated _
    obtain ⟨hcall, _⟩ := hrotated
    match j with
    | 0 => simp [changeCalls] at hcall
    | 1 => simp [changeCalls] at hcall
    | 2 => exact ⟨_, rfl⟩
    | j + 3 => simp [changeCalls] at hcall
  unexpired := by
    intro r hcurrent _ y hy now hread
    obtain ⟨later, z, earlier, hsplit, hstores, _⟩ := hcurrent
    have hexpires : ∀ z ∈ (Auth.after config (db ann) changeCalls refreshedDuringChange).trace,
        (storedToken z).all (604800005 ≤ ·.expiresAt) = true := by decide
    have hclock : ∀ y ∈ (Auth.after config (db ann) changeCalls refreshedDuringChange).trace,
        (clockReading y).all (· ≤ 604800005) = true := by decide
    have hz := hexpires z (hsplit ▸ List.mem_append_right _ (List.mem_cons_self ..))
    have hle := hclock y hy
    rw [hstores.storedToken, Option.all_some, decide_eq_true_eq] at hz
    rw [hread, Option.all_some, decide_eq_true_eq] at hle
    exact Int.le_trans hle hz

/--
The password change revokes the refresh token that has replaced the one it has been presented.
-/
theorem not_ownSessionKept
    : ¬OwnSessionKept changeCalls (Auth.after config (db ann) changeCalls refreshedDuringChange)
        (fun _ _ _ => True) := by
  intro hkept
  have hchanges : ChangesPassword changeCalls
      (Auth.after config (db ann) changeCalls refreshedDuringChange).trace 1 1 "bbbb" "uu" := by
    constructor
    . exact ⟨_, rfl, rfl⟩
    . simp
    . refine ⟨⟨⟨0, "bbbb", 1, 604800005⟩, 9, none, none, false, "uu", 8⟩, ?_, rfl, rfl, rfl⟩
      exact ⟨_, List.mem_of_getElem? (i := 19) rfl, "bbbb", 1, 604800005, false, ⟨"uu", 8⟩, rfl⟩
  obtain ⟨r, hr, _, hactive⟩ := hkept.kept 1 1 "bbbb" "uu" _ hchanges rfl
    onlyRefreshed_refreshedDuringChange (fun _ _ _ _ _ _ _ => trivial)
  have hrevoked : ∀ r ∈ ((Auth.after config (db ann) changeCalls refreshedDuringChange).world
      .refreshTokens).rows, r.revokedAt ≠ none := by decide
  exact hrevoked r hr hactive

end Runs

end Kerghan
