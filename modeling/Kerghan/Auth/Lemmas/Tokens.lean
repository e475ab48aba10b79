import Kerghan.Auth.Lemmas.Run

/-!
This module contains what a single step of a run can do to the refresh tokens, and what follows from
it for all refresh tokens that were ever stored.
-/

namespace Kerghan

def RefreshToken.identity (r : RefreshToken) : RefreshToken :=
  { r with revokedAt := none, revokedReason := none }

section Identity

variable {r r' : RefreshToken} (h : r.identity = r'.identity)

@[simp]
theorem identity_identity : r.identity.identity = r.identity := rfl

include h

theorem id_of_tokenIdentity : r.id = r'.id := by
  simpa [RefreshToken.identity] using congrArg (fun r : RefreshToken => r.id) h

theorem tokenHash_of_tokenIdentity : r.tokenHash = r'.tokenHash := by
  simpa [RefreshToken.identity] using congrArg (fun r : RefreshToken => r.tokenHash) h

theorem userId_of_tokenIdentity : r.userId = r'.userId := by
  simpa [RefreshToken.identity] using congrArg (fun r : RefreshToken => r.userId) h

theorem expiresAt_of_tokenIdentity : r.expiresAt = r'.expiresAt := by
  simpa [RefreshToken.identity] using congrArg (fun r : RefreshToken => r.expiresAt) h

theorem sessionUuid_of_tokenIdentity : r.sessionUuid = r'.sessionUuid := by
  simpa [RefreshToken.identity] using congrArg RefreshToken.sessionUuid h

end Identity

variable [Platform] {calls : List Call} {t : List AuthEntry} {x : AuthEntry}

theorem reason_of_stmt_eq {criteria criteria' : TokenCriteria} {now now' : Date}
    {reason reason' : RevokedReason}
    (h : (revokeTokens criteria now reason : AuthStmt) = revokeTokens criteria' now' reason')
    : reason = reason' := by
  simp only [Stmt.update.injEq, heq_eq_eq, true_and] at h
  have hrow := congrFun (congrFun h.2 0) ⟨⟨0, "", 0, 0⟩, 0, none, none, false, "", 0⟩
  simpa using congrArg RefreshToken.revokedReason hrow

/--
What the step `x` can make of a refresh token `r`.
-/
inductive TokenChange (calls : List Call) (t : List AuthEntry) (x : AuthEntry) (r : RefreshToken)
    : RefreshToken → Prop where
  | keep : TokenChange calls t x r r
  | rotate {refreshToken : String} {tokenRow : RefreshToken} {now : Date} {affected : Nat}
    (hcall : calls[x.call]? = some (.refresh refreshToken))
    (hran : ⟨x.effect, x.resp⟩ = ran (revokeTokens { id := some tokenRow.id } now .rotated) affected)
    (hpresented : Presented refreshToken tokenRow (own x.call t))
    (hid : r.id = tokenRow.id) (hactive : r.revokedAt = none)
    : TokenChange calls t x r { r with revokedAt := some now, revokedReason := some .rotated }
  | revoke {call : Call} {criteria : TokenCriteria} {now : Date} {reason : RevokedReason}
    {affected : Nat} (hcall : calls[x.call]? = some call)
    (hran : ⟨x.effect, x.resp⟩ = ran (revokeTokens criteria now reason) affected)
    (hrevokes : Revokes call (own x.call t) criteria reason) (hcovers : criteria.covers r = true)
    (hactive : r.revokedAt = none)
    : TokenChange calls t x r { r with revokedAt := some now, revokedReason := some reason }

/--
The step `x` has stored the refresh token `r`.
-/
inductive TokenCreated (calls : List Call) (t : List AuthEntry) (x : AuthEntry) (r : RefreshToken)
    : Prop where
  | mint {call : Call} {user : User} {keepSignedIn : Bool} {session : Option SessionIdentity}
    {identity : SessionIdentity} {refreshToken : String} {expiresAt issuedAt : Date}
    {newer older : AuthHistory} (hcall : calls[x.call]? = some call)
    (hran : ⟨x.effect, x.resp⟩ = ran (insertToken (hashToken refreshToken) user.id expiresAt
      keepSignedIn identity) r)
    (hhistory : own x.call t = newer ++ ⟨.issueTokens user keepSignedIn session, ()⟩ :: older)
    (hmints : Mints call older user keepSignedIn session)
    (hunfinished : Unfinished (own x.call t)) (hexpires : ∃ now, clock now ∈ newer ∧ now < expiresAt)
    (hbytes : ⟨.randomBytes, refreshToken⟩ ∈ newer)
    (hnew : session = none → ⟨.randomUUID, identity.sessionUuid⟩ ∈ newer)
    (hcontinued : ∀ s, session = some s → identity = s)
    (hrow : r = {
      id := (x.before .refreshTokens).nextId
      tokenHash := hashToken refreshToken
      userId := user.id
      expiresAt
      issuedAt
      revokedAt := none
      revokedReason := none
      keepSignedIn
      sessionUuid := identity.sessionUuid
      startedAt := identity.startedAt })

/--
The step `x` has removed the expired refresh token `r`.
-/
inductive TokenPruned (t : List AuthEntry) (x : AuthEntry) (r : RefreshToken) : Prop where
  | prune {user : User} {now : Date} {affected : Nat}
    (hran : ⟨x.effect, x.resp⟩ = ran (pruneTokens user.id now) affected)
    (hnow : clock now ∈ own x.call t) (huser : r.userId = user.id) (hexpired : r.expiresAt < now)

theorem TokenChange.identity {r r' : RefreshToken} (h : TokenChange calls t x r r')
    : r'.identity = r.identity := by
  cases h <;> rfl

theorem TokenCreated.id_eq {r : RefreshToken} (h : TokenCreated calls t x r)
    : r.id = (x.before .refreshTokens).nextId := by
  cases h with
  | mint hcall hran hhistory hmints hunfinished hexpires hbytes hnew hcontinued hrow =>
    rw [hrow]

theorem TokenChange.eq_of_revoked {r r' : RefreshToken} (h : TokenChange calls t x r r')
    (hrevoked : r.revokedAt ≠ none)
    : r' = r := by
  cases h with
  | keep => rfl
  | rotate hcall hran hfound hid hactive => exact absurd hactive hrevoked
  | revoke hcall hran hrevokes hcovers hactive => exact absurd hactive hrevoked

theorem TokenChange.eq_of_active {r r' : RefreshToken} (h : TokenChange calls t x r r')
    (hactive : r'.revokedAt = none)
    : r' = r := by
  cases h with
  | keep => rfl
  | rotate => simp at hactive
  | revoke => simp at hactive

theorem Step.tokens (hx : Step calls t x)
    : (∀ r' ∈ (x.after .refreshTokens).rows,
        (∃ r ∈ (x.before .refreshTokens).rows, TokenChange calls t x r r')
          ∨ TokenCreated calls t x r')
        ∧
      (∀ r ∈ (x.before .refreshTokens).rows,
        (∃ r' ∈ (x.after .refreshTokens).rows, TokenChange calls t x r r') ∨ TokenPruned t x r) := by
  -- all updates are alike: they only differ in how they change a row
  have hupdate : ∀ {p : RefreshToken → Bool} {f : Date → RefreshToken → RefreshToken} {e : DbEnv}
      {n : Nat}, (Stmt.update .refreshTokens p f : AuthStmt).exec e x.before = (.ok n, x.after) →
      (∀ now r, p r = true → TokenChange calls t x r (f now r)) →
      (∀ r' ∈ (x.after .refreshTokens).rows,
        (∃ r ∈ (x.before .refreshTokens).rows, TokenChange calls t x r r')
          ∨ TokenCreated calls t x r')
        ∧
      (∀ r ∈ (x.before .refreshTokens).rows,
        (∃ r' ∈ (x.after .refreshTokens).rows, TokenChange calls t x r r') ∨ TokenPruned t x r) := by
    intro p f e n hexec hchange
    obtain ⟨horigin, hfuture⟩ := Stmt.rows_update (fun _ => .keep) hchange hexec
    exact ⟨fun r' hr' => Or.inl (horigin r' hr'), fun r hr => Or.inl (hfuture r hr)⟩
  rcases hx.table_cases .refreshTokens with hsame | hwritten
  . rw [hsame]
    exact ⟨fun r hr => Or.inl ⟨r, hr, .keep⟩, fun r hr => Or.inl ⟨r, hr, .keep⟩⟩
  . obtain ⟨call, s, a, e, hcall, hran, hissues, hexec, htable, hread⟩ := hwritten
    have hwrite := hissues.write hread
    simp only [htable] at hwrite
    cases hwrite with
    | prune hhistory hmints hnow =>
      rename_i user keepSignedIn session now newer older
      obtain ⟨hrows, _⟩ := Stmt.exec_delete hexec
      rw [hrows]
      constructor
      . intro r' hr'
        exact Or.inl ⟨r', List.mem_of_mem_filter hr', .keep⟩
      . intro r hr
        by_cases hexpired : r.userId = user.id ∧ r.expiresAt < now
        . exact Or.inr (.prune hran hnow hexpired.1 hexpired.2)
        . refine Or.inl ⟨r, List.mem_filter.mpr ⟨hr, ?_⟩, .keep⟩
          rw [Decidable.not_and_iff_or_not] at hexpired
          simpa using hexpired
    | insert hhistory hmints hunfinished hexpires hbytes hnew hcontinued =>
      obtain ⟨now, hrow, hrows, _⟩ := Stmt.exec_insert hexec
      rw [hrows]
      constructor
      . intro r' hr'
        rcases List.mem_append.mp hr' with hr | hr
        . exact Or.inl ⟨r', hr, .keep⟩
        . rw [List.mem_singleton] at hr
          subst hr
          exact Or.inr
            (.mint hcall hran hhistory hmints hunfinished hexpires hbytes hnew hcontinued hrow)
      . exact fun r hr => Or.inl ⟨r, List.mem_append_left _ hr, .keep⟩
    | rotate hrefresh hpresented hactive =>
      subst hrefresh
      refine hupdate hexec fun now r hp => ?_
      simp only [Bool.and_eq_true, Option.isNone_iff_eq_none] at hp
      exact .rotate hcall hran hpresented (by simpa [TokenCriteria.covers] using hp.2) hp.1
    | revoke hrevokes =>
      refine hupdate hexec fun now r hp => ?_
      simp only [Bool.and_eq_true, Option.isNone_iff_eq_none] at hp
      exact .revoke hcall hran hrevokes hp.2 hp.1

/--
The step `x` has stored the refresh token `r`.
-/
def StoresToken (x : AuthEntry) (r : RefreshToken) : Prop :=
  ∃ tokenHash userId expiresAt keepSignedIn session,
    ⟨x.effect, x.resp⟩ = ran (insertToken tokenHash userId expiresAt keepSignedIn session) r

theorem StoresToken.id_eq {r : RefreshToken} (hx : Step calls t x) (h : StoresToken x r)
    : r.id = (x.before .refreshTokens).nextId := by
  obtain ⟨tokenHash, userId, expiresAt, keepSignedIn, session, hinsert⟩ := h
  obtain ⟨now, hrow, _⟩ := hx.inserted hinsert
  exact congrArg (fun r : RefreshToken => r.id) hrow

theorem StoresToken.created {r : RefreshToken} (hx : Step calls t x) (h : StoresToken x r)
    : TokenCreated calls t x r := by
  have hid := h.id_eq hx
  obtain ⟨tokenHash, userId, expiresAt, keepSignedIn, session, hinsert⟩ := h
  obtain ⟨now, hrow, hrows, _⟩ := hx.inserted hinsert
  have hr : r ∈ (x.after .refreshTokens).rows := by
    rw [hrows]
    exact List.mem_append_right _ (List.mem_singleton_self _)
  rcases hx.tokens.1 r hr with ⟨r1, hr1, hchange⟩ | hcreated
  . have hlt : r1.id < (x.before .refreshTokens).nextId := (x.before .refreshTokens).id_lt r1 hr1
    rw [← id_of_tokenIdentity hchange.identity, hid] at hlt
    exact absurd hlt (Nat.lt_irrefl _)
  . exact hcreated

def Minted (t : List AuthEntry) (r : RefreshToken) : Prop :=
  ∃ y ∈ t, StoresToken y r.identity

theorem Minted.cons {r : RefreshToken} (h : Minted t r) : Minted (x :: t) r := by
  obtain ⟨y, hy, hstores⟩ := h
  exact ⟨y, List.mem_cons_of_mem _ hy, hstores⟩

theorem Minted.congr {r r' : RefreshToken} (h : Minted t r) (hidentity : r'.identity = r.identity)
    : Minted t r' := by
  obtain ⟨y, hy, hstores⟩ := h
  exact ⟨y, hy, hidentity ▸ hstores⟩

theorem Minted.of_cons {r : RefreshToken} (hx : Step calls t x) (h : Minted (x :: t) r)
    : Minted t r ∨ TokenCreated calls t x r.identity := by
  obtain ⟨y, hy, hstores⟩ := h
  rcases List.mem_cons.mp hy with rfl | hold
  . exact Or.inr (hstores.created hx)
  . exact Or.inl ⟨y, hold, hstores⟩

/--
A refresh token that was ever stored is there under its primary key or not at all.
-/
structure TokensSeen (db : AuthDb) (t : List AuthEntry) : Prop where
  rows : ∀ r ∈ (db .refreshTokens).rows, Minted t r
  found : ∀ i r, Found (own i t) .refreshTokens r → Minted t r
  id_lt : ∀ r, Minted t r → r.id < (db .refreshTokens).nextId
  identity : ∀ r, Minted t r → ∀ r' ∈ (db .refreshTokens).rows, r'.id = r.id → r'.identity = r.identity

theorem TokensSeen.init {db : AuthDb} (hempty : (db .refreshTokens).rows = []) : TokensSeen db [] where
  rows := by simp [hempty]
  found := by
    intro i r ⟨p, rank, hmem⟩
    simp at hmem
  id_lt := by
    intro r ⟨y, hy, _⟩
    simp at hy
  identity := by simp [hempty]

theorem TokenCreated.minted {r : RefreshToken} (h : TokenCreated calls t x r) : Minted (x :: t) r := by
  cases h with
  | mint hcall hran hhistory hmints hunfinished hexpires hbytes hnew hcontinued hrow =>
    have hidentity : r.identity = r := by
      rw [hrow]
      rfl
    rw [← hidentity] at hran
    exact ⟨x, List.mem_cons_self .., _, _, _, _, _, hran⟩

theorem TokensSeen.step (hx : Step calls t x) (hseen : TokensSeen x.before t)
    : TokensSeen x.after (x :: t) := by
  have hnew : ∀ r, Minted (x :: t) r → Minted t r ∨
      r.id = (x.before .refreshTokens).nextId ∧
        (x.after .refreshTokens).nextId = (x.before .refreshTokens).nextId + 1 ∧
        (x.after .refreshTokens).rows = (x.before .refreshTokens).rows ++ [r.identity] := by
    intro r ⟨y, hy, hstores⟩
    rcases List.mem_cons.mp hy with rfl | hold
    . have hid := hstores.id_eq hx
      obtain ⟨tokenHash, userId, expiresAt, keepSignedIn, session, hinsert⟩ := hstores
      obtain ⟨now, _, hrows, hnext⟩ := hx.inserted hinsert
      exact Or.inr ⟨hid, hnext, hrows⟩
    . exact Or.inl ⟨y, hold, hstores⟩
  constructor
  . intro r' hr'
    rcases hx.tokens.1 r' hr' with ⟨r, hr, hchange⟩ | hcreated
    . exact (hseen.rows r hr).cons.congr hchange.identity
    . exact hcreated.minted
  . intro i r ⟨p, rank, hmem⟩
    rcases mem_own_cons.mp hmem with ⟨_, hfind⟩ | hold
    . exact (hseen.rows r (hx.found_mem hfind).1).cons
    . exact (hseen.found i r ⟨p, rank, hold⟩).cons
  . intro r hminted
    rcases hnew r hminted with hold | ⟨hid, hnext, _⟩
    . exact Nat.lt_of_lt_of_le (hseen.id_lt r hold) (hx.nextId_le .refreshTokens)
    . omega
  . intro r hminted r' hr' hid
    rcases hnew r hminted with hold | ⟨hnextId, _, hrows⟩
    . rcases hx.tokens.1 r' hr' with ⟨r1, hr1, hchange⟩ | hcreated
      . rw [hchange.identity]
        apply hseen.identity r hold r1 hr1
        rw [← id_of_tokenIdentity hchange.identity, hid]
      . have hlt := hseen.id_lt r hold
        rw [← hid, hcreated.id_eq] at hlt
        exact absurd hlt (Nat.lt_irrefl _)
    . rw [hrows] at hr'
      rcases List.mem_append.mp hr' with hr1 | hr1
      . have hlt : r'.id < (x.before .refreshTokens).nextId := (x.before .refreshTokens).id_lt r' hr1
        omega
      . rw [List.mem_singleton] at hr1
        rw [hr1]
        rfl

end Kerghan
