import Kerghan.Auth.Impl.Gate
import Kerghan.Auth.Sessions.Replay
import Kerghan.Auth.Sessions.Revocation

/-!
This module contains the proof that an access token passes the gate at any time of a run, as long as no
refresh has rotated a refresh token of its session without having stored the next one, and a run in which
one has.
-/

namespace Kerghan

section

variable [Platform] {cfg : AuthConfig} {calls : List Call} {t : List AuthEntry} {x : AuthEntry}

/--
The refresh token is the one that has been stored last for its session.
-/
def Current (t : List AuthEntry) (r : RefreshToken) : Prop :=
  ∃ later y earlier,
    t = later ++ y :: earlier
      ∧
    StoresToken y r.identity
      ∧
    ∀ z ∈ later, ∀ r', StoresToken z r' → r'.sessionUuid ≠ r.sessionUuid

/--
No revocation has covered an unrevoked refresh token of the session.
-/
def Untargeted (calls : List Call) (t : List AuthEntry) (sessionUuid : String) : Prop :=
  ∀ later x earlier criteria, t = later ++ x :: earlier → Revocation calls earlier x criteria →
    ∀ r ∈ (x.before .refreshTokens).rows, r.sessionUuid = sessionUuid → r.revokedAt = none →
      criteria.covers r = false

/--
The clock has not been past `expiresAt`.
-/
def NotPast (t : List AuthEntry) (expiresAt : Date) : Prop :=
  ∀ y ∈ t, ∀ now, clockReading y = some now → now ≤ expiresAt

/--
The row of the refresh token has not been removed before it was revoked.
-/
def NotPruned (t : List AuthEntry) (r : RefreshToken) : Prop :=
  ∀ later x earlier, t = later ++ x :: earlier → ∀ r' ∈ (x.before .refreshTokens).rows,
    r'.identity = r.identity → r'.revokedAt = none → ¬TokenPruned earlier x r'

/--
The `i`-th call has rotated a refresh token of this session, and has not stored the next one.
-/
def HalfRotated (calls : List Call) (t : List AuthEntry) (i : Nat) (sessionUuid : String) : Prop :=
  ∃ refreshToken tokenRow,
    Rotated calls t i refreshToken tokenRow
      ∧
    tokenRow.sessionUuid = sessionUuid
      ∧
    ∀ y ∈ t, y.call = i → ∀ r, ¬StoresToken y r

theorem Current.of_cons {r : RefreshToken} (h : Current (x :: t) r)
    : StoresToken x r.identity ∨
        Current t r ∧ ∀ r', StoresToken x r' → r'.sessionUuid ≠ r.sessionUuid := by
  obtain ⟨later, y, earlier, hsplit, hstores, hlater⟩ := h
  cases later with
  | nil =>
    rw [List.nil_append, List.cons.injEq] at hsplit
    rw [hsplit.1]
    exact Or.inl hstores
  | cons z later =>
    rw [List.cons_append, List.cons.injEq] at hsplit
    right
    constructor
    . exact ⟨later, y, earlier, hsplit.2, hstores, fun z hz => hlater z (List.mem_cons_of_mem _ hz)⟩
    . rw [hsplit.1]
      exact hlater z (List.mem_cons_self ..)

theorem Untargeted.of_cons {sessionUuid : String} (h : Untargeted calls (x :: t) sessionUuid)
    : Untargeted calls t sessionUuid := by
  intro later y earlier criteria hsplit
  apply h (x :: later)
  rw [hsplit, List.cons_append]

theorem NotPruned.of_cons {r : RefreshToken} (h : NotPruned (x :: t) r) : NotPruned t r := by
  intro later y earlier hsplit
  apply h (x :: later)
  rw [hsplit, List.cons_append]

theorem NotPast.notPruned {r : RefreshToken} (h : NotPast t r.expiresAt) : NotPruned t r := by
  intro later x earlier hsplit r' _ hidentity _ hpruned
  obtain ⟨y, hy, now, hread, hexpired⟩ := hpruned.expired
  rw [expiresAt_of_tokenIdentity hidentity] at hexpired
  have hmem : y ∈ t := by
    rw [hsplit]
    exact List.mem_append_right _ hy
  exact absurd hexpired (Int.not_lt.mpr (h y hmem now hread))

section Rotation

variable {refreshToken : String}

def RotatesAfterReading (refreshToken : String) (h : AuthHistory) (s : AuthEffect) : Prop :=
  ∀ criteria now, s = .db (revokeTokens criteria now .rotated) →
    ∃ tokenRow user checked rotatedAt,
      h = [clock rotatedAt, ran (findUserById tokenRow.userId) user, clock checked,
        ran (findToken (hashToken refreshToken)) (some tokenRow)]

theorem AuthService.refresh_rotatesAfterReading
    : (refresh cfg refreshToken).Meets Answers (RotatesAfterReading refreshToken) Anyhow [] := by
  -- all revocations but the rotation are for another reason
  have hother : ∀ {h criteria now reason}, reason ≠ .rotated →
      RotatesAfterReading refreshToken h (.db (revokeTokens criteria now reason)) := by
    intro h criteria now reason hreason criteria' now' heq
    exact absurd (reason_of_stmt_eq (AuthEffect.db.inj heq)) hreason
  have hnow : ∀ {h}, RotatesAfterReading refreshToken h .now := by
    intro h criteria now heq
    simp at heq
  unfold refresh findActiveRefreshToken
  rw [Prog.bind_assoc, Api.meets_query]
  refine ⟨by simp [RotatesAfterReading], fun found _ => ?_, fun _ => trivial⟩
  cases found with
  | none => trivial
  | some tokenRow =>
    dsimp only
    rw [Prog.bind_assoc, Api.meets_now]
    refine ⟨hnow, fun checked => ?_⟩
    split
    . trivial
    . split
      . unfold detectReplay
        split
        . unfold TokenService.revokeUserTokens
          simp only [Prog.bind_assoc]
          rw [Api.meets_now]
          refine ⟨hnow, fun _ => ?_⟩
          rw [Api.meets_query]
          exact ⟨hother (by simp), fun _ _ => trivial, fun _ => trivial⟩
        . trivial
      . rw [Prog.pure_bind, Api.meets_query]
        refine ⟨by simp [RotatesAfterReading], fun user _ => ?_, fun _ => trivial⟩
        cases user with
        | none => trivial
        | some user =>
          dsimp only
          split
          . unfold TokenService.revokeToken
            rw [Prog.bind_assoc, Api.meets_now]
            refine ⟨hnow, fun _ => ?_⟩
            rw [Prog.bind_assoc, Api.meets_query]
            exact ⟨hother (by simp), fun _ _ => trivial, fun _ => trivial⟩
          . rw [Api.meets_now]
            refine ⟨hnow, fun rotatedAt => ?_⟩
            rw [Api.meets_query]
            refine ⟨fun _ _ _ => ⟨tokenRow, _, checked, rotatedAt, rfl⟩, fun affected _ => ?_,
              fun _ => trivial⟩
            split
            . trivial
            . exact TokenService.issueTokens_revokesNothing.imp fun _ _ hnone criteria now heq =>
                absurd heq (hnone criteria now _)

theorem Call.prog_rotatesAfterReading (call : Call)
    : (call.prog cfg).Meets Answers
        (fun h s => ∀ refreshToken, call = .refresh refreshToken → RotatesAfterReading refreshToken h s)
        Anyhow [] := by
  by_cases hcall : ∃ refreshToken, call = .refresh refreshToken
  . obtain ⟨refreshToken, rfl⟩ := hcall
    apply (AuthService.refresh_rotatesAfterReading.imp ?_).map
    . exact fun _ _ _ => trivial
    . exact fun _ _ _ => trivial
    . intro h s hrotates refreshToken' heq
      cases heq
      exact hrotates
  . apply (prog_meets cfg call).mono (fun _ _ _ _ => trivial) |>.imp
    intro h s _ refreshToken heq
    exact absurd ⟨refreshToken, heq⟩ hcall

theorem rotates_of_split {db : AuthDb} {schedule : Schedule} {later earlier : List AuthEntry}
    (htrace : (Auth.after cfg db calls schedule).trace = later ++ x :: earlier)
    (hcall : calls[x.call]? = some (.refresh refreshToken))
    : RotatesAfterReading refreshToken (own x.call earlier) x.effect := by
  obtain ⟨call, hcall', hrotates⟩ := (Config.performs_of_split answers_exec
    (start_meets_of Call.prog_rotatesAfterReading db calls) rfl schedule htrace).allowed
  rw [hcall, Option.some.injEq] at hcall'
  exact hrotates refreshToken hcall'.symm

theorem row_of_found {tokenRow row : RefreshToken} {userId : Nat} {user : Option User}
    {checked rotatedAt : Date}
    (hfound : ran (findToken (hashToken refreshToken)) (some row) ∈
      ([clock rotatedAt, ran (findUserById userId) user, clock checked,
        ran (findToken (hashToken refreshToken)) (some tokenRow)] : AuthHistory))
    : row = tokenRow := by
  simp only [List.mem_cons, List.not_mem_nil, or_false] at hfound
  rcases hfound with hclock | huser | hclock | hfind
  . simp at hclock
  . simp at huser
  . simp at hclock
  . exact Option.some.inj (answer_of_ran_eq hfind)

section Unique

variable {db : AuthDb} {schedule : Schedule} {later : List AuthEntry} {i : Nat}
variable (htrace : (Auth.after cfg db calls schedule).trace = later ++ t)
variable (hcall : calls[i]? = some (.refresh refreshToken))

include htrace hcall

theorem rotation_read {id : Nat} {now : Date} {affected : Nat} {older : AuthHistory}
    (hsuffix : ran (revokeTokens { id := some id } now .rotated) affected :: older <:+ own i t)
    : ∃ tokenRow user checked rotatedAt,
        older = [clock rotatedAt, ran (findUserById tokenRow.userId) user, clock checked,
          ran (findToken (hashToken refreshToken)) (some tokenRow)] := by
  obtain ⟨newer, hhistory⟩ := hsuffix
  obtain ⟨between, x, earlier, hsplit, rfl, hran, _, hearlier⟩ := split_of_own_eq hhistory.symm
  rw [hsplit, ← List.append_assoc] at htrace
  have hrotates := rotates_of_split htrace hcall
  rw [hearlier] at hrotates
  exact hrotates _ _ (congrArg Sigma.fst hran)

theorem Rotated.unique {tokenRow : RefreshToken} (h : Rotated calls t i refreshToken tokenRow) {id : Nat}
    {now : Date} {affected : Nat} {older : AuthHistory}
    (hsuffix : ran (revokeTokens { id := some id } now .rotated) affected :: older <:+ own i t)
    : ∃ user checked rotatedAt,
        older = [clock rotatedAt, ran (findUserById tokenRow.userId) user, clock checked,
          ran (findToken (hashToken refreshToken)) (some tokenRow)] := by
  obtain ⟨_, now', older', hsuffix', hfound⟩ := h
  obtain ⟨tokenRow₁, user, checked, rotatedAt, holder⟩ := rotation_read htrace hcall hsuffix
  obtain ⟨_, _, _, _, holder'⟩ := rotation_read htrace hcall hsuffix'
  have heq : older = older' := by
    have hlength : older.length = older'.length := by simp [holder, holder']
    have hlonger := List.suffix_of_suffix_length_le hsuffix hsuffix' (by simp [hlength])
    exact (List.cons.inj (hlonger.eq_of_length (by simp [hlength]))).2
  rw [← heq, holder] at hfound
  rw [row_of_found hfound]
  exact ⟨user, checked, rotatedAt, holder⟩

end Unique

theorem Rotated.continues {db : AuthDb} {schedule : Schedule} {later : List AuthEntry}
    (htrace : (Auth.after cfg db calls schedule).trace = later ++ x :: t) {tokenRow r : RefreshToken}
    (h : Rotated calls t x.call refreshToken tokenRow) (hstores : StoresToken x r)
    : r.sessionUuid = tokenRow.sessionUuid := by
  have hcreated := hstores.created (step_of_split htrace)
  cases hcreated with
  | mint hcall hran hhistory hmints hunfinished hexpires hbytes hnew hcontinued hrow =>
    have hrefresh := h.1
    rw [hcall, Option.some.injEq] at hrefresh
    subst hrefresh
    cases hmints with
    | refresh heq hrotated hpresented hactive huser hid =>
      cases heq
      rw [hrotated] at hhistory
      have htrace' : (Auth.after cfg db calls schedule).trace = (later ++ [x]) ++ t := by
        rw [htrace, List.append_assoc, List.singleton_append]
      obtain ⟨user, checked, rotatedAt, holder⟩ := h.unique htrace' hcall
        (hhistory ▸ (List.suffix_cons _ _).trans (List.suffix_append _ _))
      have hfound := hpresented.found
      rw [holder] at hfound
      rw [hrow, hcontinued _ rfl, row_of_found hfound]
    | _ => contradiction

end Rotation

/--
The session can be used: the row of its refresh token is unrevoked, or a refresh is to replace it.
-/
def Served (calls : List Call) (db : AuthDb) (t : List AuthEntry) (r : RefreshToken) : Prop :=
  (∃ r' ∈ (db .refreshTokens).rows, r'.identity = r.identity ∧ r'.revokedAt = none) ∨
    ∃ i, HalfRotated calls t i r.sessionUuid

section Step

variable {db : AuthDb} {schedule : Schedule} {later : List AuthEntry} {r : RefreshToken}
variable (htrace : (Auth.after cfg db calls schedule).trace = later ++ x :: t)

include htrace

theorem HalfRotated.step {i : Nat} {sessionUuid : String} (h : HalfRotated calls t i sessionUuid)
    (hother : ∀ r', StoresToken x r' → r'.sessionUuid ≠ sessionUuid)
    : HalfRotated calls (x :: t) i sessionUuid := by
  obtain ⟨refreshToken, tokenRow, hrotated, hsession, hnone⟩ := h
  refine ⟨refreshToken, tokenRow, hrotated.mono (List.suffix_cons x t), hsession, ?_⟩
  intro y hy hi r hstores
  rcases List.mem_cons.mp hy with rfl | hold
  . subst hi
    exact hother r hstores ((hrotated.continues htrace hstores).trans hsession)
  . exact hnone y hold hi r hstores

theorem halfRotated_of_rotate (hseen : TokensSeen x.before t) {r' : RefreshToken}
    (hr' : r' ∈ (x.before .refreshTokens).rows) (hactive : r'.revokedAt = none) {refreshToken : String}
    {tokenRow : RefreshToken} {now : Date} {affected : Nat}
    (hcall : calls[x.call]? = some (.refresh refreshToken))
    (hran : ⟨x.effect, x.resp⟩ = ran (revokeTokens { id := some tokenRow.id } now .rotated) affected)
    (hpresented : Presented refreshToken tokenRow (own x.call t)) (hid : r'.id = tokenRow.id)
    : HalfRotated calls (x :: t) x.call r'.sessionUuid := by
  have hx : Step calls t x := step_of_split htrace
  obtain ⟨tokenRow₁, user, checked, rotatedAt, hhistory⟩ :=
    rotates_of_split htrace hcall _ _ (congrArg Sigma.fst hran)
  have hone : affected = 1 := by
    obtain ⟨_, hcount, _⟩ := hx.updated hran
    rw [hcount]
    refine Table.countP_eq_one hr' ?_ fun r hr hcovers => Table.eq_of_id_eq hr hr' ?_
    . simp [hactive, hid, TokenCriteria.covers]
    . simp only [TokenCriteria.covers, Option.all_some, Option.all_none, Bool.and_true,
        Bool.and_eq_true, beq_iff_eq] at hcovers
      exact hcovers.2.trans hid.symm
  subst hone
  have hidentity := hseen.identity tokenRow (hseen.found x.call tokenRow (found_of_ran hpresented.found))
    r' hr' hid
  refine ⟨refreshToken, tokenRow, ⟨hcall, now, own x.call t, cons_own_suffix hran, hpresented.found⟩,
    (sessionUuid_of_tokenIdentity hidentity).symm, ?_⟩
  -- so far the refresh has only read, and now it updates
  rintro y hy hi r ⟨_, _, _, _, _, hinsert⟩
  have hev : ⟨y.effect, y.resp⟩ ∈ own x.call (x :: t) := mem_own.mpr ⟨y, hy, hi, rfl⟩
  rw [own_cons_self, hran, hhistory, hinsert] at hev
  simp at hev

theorem Served.step (hseen : TokensSeen x.before t) (huntargeted : Untargeted calls (x :: t) r.sessionUuid)
    (hkept : NotPruned (x :: t) r)
    (hother : ∀ r', StoresToken x r' → r'.sessionUuid ≠ r.sessionUuid)
    (h : Served calls x.before t r)
    : Served calls x.after (x :: t) r := by
  have hx : Step calls t x := step_of_split htrace
  rcases h with ⟨r', hr', hidentity, hactive⟩ | ⟨i, hrotated⟩
  . have hsession := sessionUuid_of_tokenIdentity hidentity
    rcases hx.tokens.2 r' hr' with ⟨r'', hr'', hchange⟩ | hpruned
    . cases hchange with
      | keep => exact Or.inl ⟨r', hr'', hidentity, hactive⟩
      | rotate hcall hran hpresented hid _ =>
        right
        rw [← hsession]
        exact ⟨x.call, halfRotated_of_rotate htrace hseen hr' hactive hcall hran hpresented hid⟩
      | revoke hcall hran hrevokes hcovers _ =>
        have hrevocation : Revocation calls t x _ := ⟨_, _, _, _, hcall, hran, hrevokes⟩
        have hspared := huntargeted [] x t _ rfl hrevocation r' hr' hsession hactive
        rw [hcovers] at hspared
        simp at hspared
    . exact absurd hpruned (hkept [] x t rfl r' hr' hidentity hactive)
  . exact Or.inr ⟨i, hrotated.step htrace hother⟩

end Step

theorem served {db : AuthDb} {schedule : Schedule} (hempty : (db .refreshTokens).rows = [])
    {r : RefreshToken} (hcurrent : Current (Auth.after cfg db calls schedule).trace r)
    (huntargeted : Untargeted calls (Auth.after cfg db calls schedule).trace r.sessionUuid)
    (hkept : NotPruned (Auth.after cfg db calls schedule).trace r)
    : Served calls (Auth.after cfg db calls schedule).world (Auth.after cfg db calls schedule).trace r := by
  have hinv : TokensSeen (Auth.after cfg db calls schedule).world
      (Auth.after cfg db calls schedule).trace ∧ ∀ r, Current (Auth.after cfg db calls schedule).trace r →
        Untargeted calls (Auth.after cfg db calls schedule).trace r.sessionUuid →
          NotPruned (Auth.after cfg db calls schedule).trace r →
            Served calls (Auth.after cfg db calls schedule).world
              (Auth.after cfg db calls schedule).trace r := by
    refine Config.run_induction_trace (I := fun db t => TokensSeen db t ∧ ∀ r, Current t r →
      Untargeted calls t r.sessionUuid → NotPruned t r → Served calls db t r) rfl ?_ ?_
    . refine ⟨.init hempty, fun r hcurrent => ?_⟩
      obtain ⟨later, y, earlier, hsplit, _⟩ := hcurrent
      simp at hsplit
    . intro later x t htrace ⟨hseen, hserved⟩
      refine ⟨hseen.step (step_of_split htrace), fun r hcurrent huntargeted hkept => ?_⟩
      rcases hcurrent.of_cons with hstores | ⟨hold, hother⟩
      . obtain ⟨_, _, _, _, _, hinsert⟩ := hstores
        obtain ⟨_, hrow, hrows, _⟩ := (step_of_split htrace).inserted hinsert
        refine Or.inl ⟨r.identity, ?_, rfl, rfl⟩
        rw [hrows]
        exact List.mem_append_right _ (List.mem_singleton_self _)
      . exact (hserved r hold huntargeted.of_cons hkept.of_cons).step htrace hseen huntargeted hkept hother
  exact hinv.2 r hcurrent huntargeted hkept

def DistinctUuids (t : List AuthEntry) : Prop :=
  ((t.filterMap drawnUuid).map Platform.collation).Nodup

/--
An access token of the session of `r`, which is checked before the session expires. The session is that of
an approved user, and no revocation has been aimed at it.
-/
structure Presents (guard : JwtGuard) (calls : List Call) (c : Auth) (r : RefreshToken)
    (accessToken : String) (now : Date) : Prop where
  current : Current c.trace r
  untargeted : Untargeted calls c.trace r.sessionUuid
  notPast : NotPast c.trace r.expiresAt
  unexpired : now < r.expiresAt
  present : accessToken ≠ ""
  verified : guard.verify accessToken = .ok
    { sub := .number (.integer r.userId), sid := .string r.sessionUuid }
  approved : ∃ user ∈ (c.world .users).rows, user.id = r.userId ∧ user.status = .approved

/--
Whoever presents an access token of an active session passes the gate if `condition` is met at this time.
-/
def GateKept (guard : JwtGuard) (calls : List Call) (c : Auth) (condition : RefreshToken → Prop) : Prop :=
  ∀ r accessToken now (e : DbEnv), Presents guard calls c r accessToken now → e.fault = false →
    condition r →
      ∃ request : AccessTokenPayload,
        guard.canActivate false (some accessToken)
          (fun sid => SessionService.findActiveSessionUser sid now e c.world) = .ok (some request)
          ∧
        request.sub = r.userId
          ∧
        request.sid = r.sessionUuid

theorem SessionInv.userId_eq {db : AuthDb} (hinv : SessionInv calls db t) (huuids : DistinctUuids t)
    {r r' : RefreshToken} (hminted : Minted t r) (hminted' : Minted t r')
    (hsame : sameText r.sessionUuid r'.sessionUuid = true)
    : r.userId = r'.userId := by
  obtain ⟨y, hy, hdrew⟩ := hinv.drawn r hminted
  obtain ⟨y', hy', hdrew'⟩ := hinv.drawn r' hminted'
  have hmem : r.sessionUuid ∈ t.filterMap drawnUuid := List.mem_filterMap.mpr ⟨y, hy, hdrew⟩
  have hmem' : r'.sessionUuid ∈ t.filterMap drawnUuid := List.mem_filterMap.mpr ⟨y', hy', hdrew'⟩
  have hsession := List.inj_on_of_nodup_map huuids hmem hmem' (beq_iff_eq.mp hsame)
  exact (hinv.agree r r' hminted hminted' hsession).userId

theorem Current.minted {r : RefreshToken} (h : Current t r) : Minted t r := by
  obtain ⟨later, y, earlier, rfl, hstores, _⟩ := h
  exact ⟨y, List.mem_append_right _ (List.mem_cons_self ..), hstores⟩

theorem findActiveSessionUser_eq {db : AuthDb} {now : Date} {e : DbEnv} {r r' : RefreshToken} {user : User}
    (hinv : SessionInv calls db t) (huuids : DistinctUuids t) (hminted : Minted t r)
    (hr' : r' ∈ (db .refreshTokens).rows) (hidentity : r'.identity = r.identity)
    (hactive : r'.revokedAt = none) (hunexpired : now < r.expiresAt) (huser : user ∈ (db .users).rows)
    (hid : user.id = r.userId) (happroved : user.status = .approved) (hfault : e.fault = false)
    : SessionService.findActiveSessionUser r.sessionUuid now e db =
        .ok (some { id := user.id, username := user.username, isAdmin := user.isAdmin }) := by
  have hfirst : (db .users).first (fun user =>
      (db .refreshTokens).rows.any (SessionService.isActiveSession r.sessionUuid now user)
        && user.status == .approved) (fun _ => 0) e.choice = some user := by
    refine Table.first_eq_of_unique huser ?_ fun user' huser' hactive' => Table.eq_of_id_eq huser' huser ?_
    . rw [Bool.and_eq_true, List.any_eq_true]
      refine ⟨⟨r', hr', ?_⟩, by simp [happroved]⟩
      simp only [SessionService.isActiveSession, Bool.and_eq_true, beq_iff_eq, decide_eq_true_eq,
        Option.isNone_iff_eq_none]
      rw [userId_of_tokenIdentity hidentity, sessionUuid_of_tokenIdentity hidentity,
        expiresAt_of_tokenIdentity hidentity]
      exact ⟨⟨⟨hid.symm, sameText_refl⟩, hactive⟩, hunexpired⟩
    . rw [Bool.and_eq_true, List.any_eq_true] at hactive'
      obtain ⟨⟨session, hsession, hmatches⟩, _⟩ := hactive'
      simp only [SessionService.isActiveSession, Bool.and_eq_true, beq_iff_eq] at hmatches
      obtain ⟨⟨⟨hjoin, hsame⟩, _⟩, _⟩ := hmatches
      have howner := hinv.userId_eq huuids (hinv.seen.rows session hsession) hminted hsame
      exact hjoin.symm.trans (howner.trans hid.symm)
  unfold SessionService.findActiveSessionUser
  rw [hfault, if_neg Bool.false_ne_true]
  dsimp only
  rw [hfirst]
  rfl

omit [Platform] in
theorem JwtGuard.canActivate_eq {guard : JwtGuard} {accessToken sid : String} (user : SessionUser)
    {lookup : String → Except HttpError (Option SessionUser)} (hpresent : accessToken ≠ "")
    (hverified : guard.verify accessToken = .ok { sub := .number (.integer user.id), sid := .string sid })
    (hformed : isUuid sid = true) (hlookup : lookup sid = .ok (some user))
    : guard.canActivate false (some accessToken) lookup =
        .ok (some { sub := user.id, sid, username := user.username, isAdmin := user.isAdmin }) := by
  have hextract : extractToken (some accessToken) = .ok accessToken := by
    have htruthy : truthy (some accessToken) = some accessToken := by simp [truthy, hpresent]
    unfold extractToken
    rw [htruthy]
    rfl
  have hclaims : validateClaims { sub := .number (.integer user.id), sid := .string sid } =
      .ok ((user.id : Int), sid) := by
    unfold validateClaims
    dsimp only
    rw [hformed]
    rfl
  unfold canActivate
  rw [if_neg Bool.false_ne_true, hextract]
  simp only [bind, Except.bind, hverified, hclaims, hlookup, ne_eq, not_true_eq_false, if_false]
  rfl

theorem gateKept {db : AuthDb} {schedule : Schedule} {guard : JwtGuard}
    (hempty : (db .refreshTokens).rows = [])
    (huuids : DistinctUuids (Auth.after cfg db calls schedule).trace)
    (hformed : ∀ uuid ∈ (Auth.after cfg db calls schedule).trace.filterMap drawnUuid,
      JwtGuard.isUuid uuid = true)
    : GateKept guard calls (Auth.after cfg db calls schedule)
        (fun r => ∀ i, ¬HalfRotated calls (Auth.after cfg db calls schedule).trace i r.sessionUuid) := by
  intro r accessToken now e hpresents hfault hcondition
  have hinv : SessionInv calls (Auth.after cfg db calls schedule).world
      (Auth.after cfg db calls schedule).trace :=
    auth_induction (A := FreshUuids) (fun _ _ => FreshUuids.tail)
      (fun _ _ hfresh hx hinv => hinv.step hfresh hx) (.init hempty) schedule (.of_map _ huuids)
  have hminted := hpresents.current.minted
  obtain ⟨y, hy, hdrew⟩ := hinv.drawn r hminted
  obtain ⟨user, huser, hid, happroved⟩ := hpresents.approved
  rcases served hempty hpresents.current hpresents.untargeted hpresents.notPast.notPruned with
    ⟨r', hr', hidentity, hactive⟩ | ⟨i, hrotated⟩
  . have hlookup := findActiveSessionUser_eq hinv huuids hminted hr' hidentity hactive
      hpresents.unexpired huser hid happroved hfault
    refine ⟨{ sub := user.id, sid := r.sessionUuid, username := user.username, isAdmin := user.isAdmin },
      ?_, hid, rfl⟩
    have hverified := hpresents.verified
    rw [← hid] at hverified
    apply JwtGuard.canActivate_eq ⟨user.id, user.username, user.isAdmin⟩ hpresents.present hverified
    . exact hformed _ (List.mem_filterMap.mpr ⟨y, hy, hdrew⟩)
    . exact hlookup
  . exact absurd hrotated (hcondition i)

end

section Runs

open Sample

attribute [local instance] platform

def gateUuid : String := "00000000-0000-4000-8000-000000000000"

def gateGuard : JwtGuard where
  tryVerify _ _ := some { sub := .number (.integer 1), sid := .string gateUuid }
  previousKeys := []

def gateSchedule (steps : Nat) : Schedule :=
  (schedule (List.replicate 10 0 ++ List.replicate steps 1)).map fun pick =>
    (pick.1, { pick.2 with uuid := gateUuid })

def revokesOtherwise (x : AuthEntry) : Bool :=
  match x.effect with
  | .db (.update .refreshTokens _ f) => (f 0 annsToken).revokedReason != some .rotated
  | _ => false

theorem Revocation.revokesOtherwise {calls : List Call} {t : List AuthEntry} {x : AuthEntry}
    {criteria : TokenCriteria} (h : Revocation calls t x criteria)
    : revokesOtherwise x = true := by
  obtain ⟨call, now, reason, affected, hcall, hran, hrevokes⟩ := h
  unfold Kerghan.revokesOtherwise
  rw [show x.effect = _ from congrArg Sigma.fst hran]
  simpa using hrevokes.ne_rotated

/--
The access token is that of the session of `row`, which has been stored last in this run.
-/
theorem presents_of_stored {run : Auth} {row : RefreshToken} {later earlier : List AuthEntry} {y : AuthEntry}
    (hsplit : run.trace = later ++ y :: earlier) (hstores : StoresToken y row.identity)
    (hnone : ∀ z ∈ later, z.effect.insertsInto .refreshTokens = false)
    (hother : ∀ x ∈ run.trace, revokesOtherwise x = false)
    (hnotPast : ∀ y ∈ run.trace, (clockReading y).all (· ≤ row.expiresAt) = true) (hunexpired : 20 < row.expiresAt)
    (hverified : gateGuard.verify "token" =
      .ok { sub := .number (.integer row.userId), sid := .string row.sessionUuid })
    (happroved : ∃ user ∈ (run.world .users).rows, user.id = row.userId ∧ user.status = .approved)
    : Presents gateGuard refreshCalls run row "token" 20 where
  current := by
    refine ⟨later, y, earlier, hsplit, hstores, ?_⟩
    rintro z hz r' ⟨_, _, _, _, _, hinsert⟩
    have hz' := hnone z hz
    rw [show z.effect = _ from congrArg Sigma.fst hinsert] at hz'
    simp at hz'
  untargeted := by
    intro later x earlier criteria hsplit hrevocation
    have hx := hother x (hsplit ▸ List.mem_append_right _ (List.mem_cons_self ..))
    rw [hrevocation.revokesOtherwise] at hx
    simp at hx
  notPast := by
    intro y hy now hread
    have hle := hnotPast y hy
    rw [hread] at hle
    simpa using hle
  unexpired := hunexpired
  present := by decide
  verified := hverified
  approved := happroved

/--
The access token of the login still passes the gate after the refresh.
-/
theorem gateKept_refreshed
    : ∃ request : AccessTokenPayload,
        gateGuard.canActivate false (some "token") (fun sid => SessionService.findActiveSessionUser sid 20
          ⟨0, 0, false⟩ (Auth.after config (db ann) refreshCalls (gateSchedule 12)).world) = .ok (some request)
          ∧
        request.sub = 1
          ∧
        request.sid = gateUuid := by
  let row : RefreshToken := ⟨⟨1, "bbbbbbbbbbbbbbbbb", 1, 604800018⟩, 21, none, none, false, gateUuid, 8⟩
  have hpresents : Presents gateGuard refreshCalls
      (Auth.after config (db ann) refreshCalls (gateSchedule 12)) row "token" 20 :=
    @presents_of_stored _ row [] _ _ rfl ⟨"bbbbbbbbbbbbbbbbb", 1, 604800018, false, ⟨gateUuid, 8⟩, rfl⟩
      (by decide) (by decide) (by decide) (by decide) rfl ⟨ann, List.mem_singleton_self _, rfl, rfl⟩
  -- The next refresh token has been stored, so no rotation is half done.
  have hwhole : ∀ i, ¬HalfRotated refreshCalls
      (Auth.after config (db ann) refreshCalls (gateSchedule 12)).trace i gateUuid := by
    rintro i ⟨_, _, ⟨hcall, _⟩, _, hnone⟩
    have hi : i = 1 := by
      rcases i with _ | _ | i
      . simp [refreshCalls] at hcall
      . rfl
      . simp [refreshCalls] at hcall
    subst hi
    exact hnone _ (List.mem_cons_self ..) rfl row.identity
      ⟨"bbbbbbbbbbbbbbbbb", 1, 604800018, false, ⟨gateUuid, 8⟩, rfl⟩
  exact gateKept rfl (by unfold DistinctUuids; decide) (by decide) row "token" 20 ⟨0, 0, false⟩ hpresents rfl hwhole

/--
The session is checked after a refresh has rotated its refresh token, and before it stores the next one.
-/
theorem not_gateKept
    : ¬GateKept gateGuard refreshCalls (Auth.after config (db ann) refreshCalls (gateSchedule 5))
        (fun _ => True) := by
  intro hkept
  let row : RefreshToken := ⟨⟨0, "bbbb", 1, 604800005⟩, 9, none, none, false, gateUuid, 8⟩
  have hpresents : Presents gateGuard refreshCalls
      (Auth.after config (db ann) refreshCalls (gateSchedule 5)) row "token" 20 :=
    @presents_of_stored _ row [_, _, _, _, _] _ _ rfl ⟨"bbbb", 1, 604800005, false, ⟨gateUuid, 8⟩, rfl⟩
      (by decide) (by decide) (by decide) (by decide) rfl ⟨ann, List.mem_singleton_self _, rfl, rfl⟩
  obtain ⟨request, hpassed, _⟩ := hkept row "token" 20 ⟨0, 0, false⟩ hpresents rfl trivial
  have hrefused : gateGuard.canActivate false (some "token") (fun sid =>
      SessionService.findActiveSessionUser sid 20 ⟨0, 0, false⟩
        (Auth.after config (db ann) refreshCalls (gateSchedule 5)).world) =
      .error JwtGuard.invalidToken := by rfl
  rw [hrefused] at hpassed
  simp at hpassed

end Runs

end Kerghan
