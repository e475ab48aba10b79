import Kerghan.Except
import Kerghan.Auth.Sessions.Gate

/-!
This module contains the proof that the gate decides by the session of an access token, and not by what
the token claims about its user.
-/

namespace Kerghan

section

variable [Platform] {service : JwtService} {get : String → Option String} {db : AuthDb} {now : Date}
variable {e : DbEnv}

def SessionsOwned (db : AuthDb) : Prop :=
  ∀ r ∈ (db .refreshTokens).rows, ∀ r' ∈ (db .refreshTokens).rows,
    sameText r.sessionUuid r'.sessionUuid = true → r.userId = r'.userId

/--
The current secret key, or one that is listed as a previous one.
-/
def IsSecretKey (get : String → Option String) (key : String) : Prop :=
  key = (get SecretKeys.SECRET_KEY_VAR).getD "" ∨
    key ≠ "" ∧ ∃ entry ∈ split ',' ((get SecretKeys.PREVIOUS_SECRET_KEYS_VAR).getD ""), trim entry = key

structure Admissible (service : JwtService) (get : String → Option String) (db : AuthDb) (now : Date)
    (token : String) : Prop where
  present : token ≠ ""
  accepted : ∃ key, IsSecretKey get key ∧ service.accepts token key = true
  session : ∃ (sub : Int) (sid : String) (user : User) (r : RefreshToken),
    service.claim token "sub" = .number (.integer sub)
      ∧
    service.claim token "sid" = .string sid
      ∧
    JwtGuard.isUuid sid = true
      ∧
    user ∈ (db .users).rows
      ∧
    (user.id : Int) = sub
      ∧
    user.status = .approved
      ∧
    r ∈ (db .refreshTokens).rows
      ∧
    SessionService.isActiveSession sid now user r = true

abbrev letIn (service : JwtService) (get : String → Option String) (db : AuthDb) (now : Date) (e : DbEnv)
    (accessToken : Option String) : Except HttpError (Option AccessTokenPayload) :=
  (service.guard get).canActivate false accessToken fun sid =>
    SessionService.findActiveSessionUser sid now e db

structure DecidesBySession (service : JwtService) (get : String → Option String) (db : AuthDb)
    : Prop where
  admits_iff : ∀ accessToken now (e : DbEnv),
    (∃ request, letIn service get db now e accessToken = .ok (some request)) ↔
      e.fault = false ∧ ∃ token, accessToken = some token ∧ Admissible service get db now token
  /-- Whatever else two tokens claim, the request does not depend on it. -/
  independent : ∀ token token' now now' (e e' : DbEnv) request request',
    letIn service get db now e (some token) = .ok (some request) →
      letIn service get db now' e' (some token') = .ok (some request') →
        service.claim token "sub" = service.claim token' "sub" →
          service.claim token "sid" = service.claim token' "sid" →
            request = request'

omit [Platform] in
theorem isSecretKey_iff {key : String}
    : IsSecretKey get key ↔ key ∈ (SecretKeys.buildSecretKeys get).all := by
  unfold IsSecretKey SecretKeys.all SecretKeys.buildSecretKeys
  rw [List.mem_cons, SecretKeys.mem_parsePreviousKeys]
  constructor
  . rintro (hcurrent | ⟨hblank, hentry⟩)
    . exact Or.inl hcurrent
    . exact (em _).imp_right fun hother => ⟨hblank, hother, hentry⟩
  . rintro (hcurrent | ⟨hblank, _, hentry⟩)
    . exact Or.inl hcurrent
    . exact Or.inr ⟨hblank, hentry⟩

omit [Platform] in
theorem verify_eq_ok {token : String} {payload : VerifiedPayload}
    : (service.guard get).verify token = .ok payload ↔
        (∃ key, IsSecretKey get key ∧ service.accepts token key = true) ∧
          payload = { sub := service.claim token "sub", sid := service.claim token "sid" } := by
  have hverify : (service.guard get).verify token =
      ((SecretKeys.buildSecretKeys get).all.findSome? (service.verify token)).elim
        (.error JwtGuard.invalidToken) .ok := by
    unfold JwtGuard.verify JwtGuard.verifyWithPreviousKeys JwtService.guard SecretKeys.all
    simp only [List.findSome?_cons, Option.getD_none, Option.getD_some]
    cases service.verify token (SecretKeys.buildSecretKeys get).current with
    | none => cases (SecretKeys.buildSecretKeys get).previous.findSome? (service.verify token) <;> rfl
    | some found => rfl
  rw [hverify]
  cases hfound : (SecretKeys.buildSecretKeys get).all.findSome? (service.verify token) with
  | none =>
    simp only [Option.elim_none, reduceCtorEq, false_iff, not_and]
    rintro ⟨key, hkey, haccepts⟩
    have hnone := List.findSome?_eq_none_iff.mp hfound key (isSecretKey_iff.mp hkey)
    simp [JwtService.verify, haccepts] at hnone
  | some found =>
    obtain ⟨key, hkey, hsome⟩ := List.exists_of_findSome?_eq_some hfound
    have haccepts : service.accepts token key = true ∧
        { sub := service.claim token "sub", sid := service.claim token "sid" } = found := by
      simpa [JwtService.verify] using hsome
    simp only [Option.elim_some, Except.ok.injEq]
    constructor
    . rintro rfl
      exact ⟨⟨key, isSecretKey_iff.mpr hkey, haccepts.1⟩, haccepts.2.symm⟩
    . rintro ⟨_, hpayload⟩
      exact haccepts.2.symm.trans hpayload.symm

omit [Platform] in
theorem canActivate_eq_ok {guard : JwtGuard} {accessToken : Option String}
    {lookup : String → Except HttpError (Option SessionUser)} {request : AccessTokenPayload}
    (h : guard.canActivate false accessToken lookup = .ok (some request))
    : ∃ token payload sub user,
        accessToken = some token
          ∧
        token ≠ ""
          ∧
        guard.verify token = .ok payload
          ∧
        payload = { sub := .number (.integer sub), sid := .string request.sid }
          ∧
        JwtGuard.isUuid request.sid = true
          ∧
        lookup request.sid = .ok (some user)
          ∧
        (user.id : Int) = sub
          ∧
        request = {
          sub := user.id
          sid := request.sid
          username := user.username
          isAdmin := user.isAdmin
        } := by
  unfold JwtGuard.canActivate at h
  rw [if_neg Bool.false_ne_true] at h
  obtain ⟨token, hextract, h⟩ := Except.bind_eq_ok.mp h
  obtain ⟨payload, hverified, h⟩ := Except.bind_eq_ok.mp h
  obtain ⟨⟨sub, sid⟩, hclaims, h⟩ := Except.bind_eq_ok.mp h
  obtain ⟨found, hlookup, h⟩ := Except.bind_eq_ok.mp h
  -- each of the four checks is inverted on its own
  have htoken : accessToken = some token ∧ token ≠ "" := by
    unfold JwtGuard.extractToken at hextract
    cases htruthy : truthy accessToken with
    | none => simp [htruthy, throw, throwThe, MonadExceptOf.throw] at hextract
    | some token' =>
      rw [htruthy] at hextract
      obtain rfl : token' = token := Except.ok.inj hextract
      simpa [truthy, Option.filter_eq_some_iff] using htruthy
  have hpayload : payload = { sub := .number (.integer sub), sid := .string sid } ∧
      JwtGuard.isUuid sid = true := by
    obtain ⟨subClaim, sidClaim⟩ := payload
    unfold JwtGuard.validateClaims at hclaims
    split at hclaims
    . next hsub hsid =>
      split at hclaims
      . next hformed =>
        simp only [pure, Except.pure, Except.ok.injEq, Prod.mk.injEq] at hclaims
        obtain ⟨rfl, rfl⟩ := hclaims
        dsimp only at hsub hsid
        rw [hsub, hsid]
        exact ⟨rfl, hformed⟩
      . simp [throw, throwThe, MonadExceptOf.throw] at hclaims
    . simp [throw, throwThe, MonadExceptOf.throw] at hclaims
  cases found with
  | none => simp [throw, throwThe, MonadExceptOf.throw] at h
  | some user =>
    dsimp only at h
    split at h
    . simp [throw, throwThe, MonadExceptOf.throw] at h
    . next hsame =>
      simp only [pure, Except.pure, Except.ok.injEq, Option.some.injEq] at h
      rw [Decidable.not_not] at hsame
      subst h
      exact ⟨token, payload, sub, user, htoken.1, htoken.2, hverified, hpayload.1, hpayload.2, hlookup,
        hsame, rfl⟩

theorem of_findActiveSessionUser {sid : String} {found : SessionUser}
    (h : SessionService.findActiveSessionUser sid now e db = .ok (some found))
    : e.fault = false
        ∧
      ∃ user ∈ (db .users).rows,
        found = { id := user.id, username := user.username, isAdmin := user.isAdmin }
          ∧
        user.status = .approved
          ∧
        ∃ r ∈ (db .refreshTokens).rows, SessionService.isActiveSession sid now user r = true := by
  unfold SessionService.findActiveSessionUser at h
  split at h
  . simp [throw, throwThe, MonadExceptOf.throw] at h
  . next hfault =>
    refine ⟨by simpa using hfault, ?_⟩
    simp only [pure, Except.pure, Except.ok.injEq, Option.map_eq_some_iff] at h
    obtain ⟨user, hfirst, rfl⟩ := h
    obtain ⟨huser, hmatches⟩ := Table.first_eq_some hfirst
    rw [Bool.and_eq_true, List.any_eq_true, beq_iff_eq] at hmatches
    obtain ⟨⟨r, hr, hactive⟩, happroved⟩ := hmatches
    exact ⟨user, huser, rfl, happroved, r, hr, hactive⟩

theorem findActiveSessionUser_of_active (hsessions : SessionsOwned db) {sid : String} {user : User}
    {r : RefreshToken} (huser : user ∈ (db .users).rows) (happroved : user.status = .approved)
    (hr : r ∈ (db .refreshTokens).rows) (hactive : SessionService.isActiveSession sid now user r = true)
    (hfault : e.fault = false)
    : SessionService.findActiveSessionUser sid now e db =
        .ok (some { id := user.id, username := user.username, isAdmin := user.isAdmin }) := by
  have hfirst : (db .users).first (fun user =>
      (db .refreshTokens).rows.any (SessionService.isActiveSession sid now user)
        && user.status == .approved) (fun _ => 0) e.choice = some user := by
    refine Table.first_eq_of_unique huser ?_ fun user' huser' hmatches => ?_
    . rw [Bool.and_eq_true, List.any_eq_true]
      exact ⟨⟨r, hr, hactive⟩, by simp [happroved]⟩
    . rw [Bool.and_eq_true, List.any_eq_true] at hmatches
      obtain ⟨⟨r', hr', hactive'⟩, _⟩ := hmatches
      simp only [SessionService.isActiveSession, Bool.and_eq_true, beq_iff_eq] at hactive hactive'
      obtain ⟨⟨⟨hjoin, hsid⟩, _⟩, _⟩ := hactive
      obtain ⟨⟨⟨hjoin', hsid'⟩, _⟩, _⟩ := hactive'
      have hsame : sameText r'.sessionUuid r.sessionUuid = true :=
        sameText_trans hsid' (sameText_comm ▸ hsid)
      apply Table.eq_of_id_eq huser' huser
      exact hjoin'.symm.trans ((hsessions r' hr' r hr hsame).trans hjoin)
  unfold SessionService.findActiveSessionUser
  rw [hfault, if_neg Bool.false_ne_true]
  dsimp only
  rw [hfirst]
  rfl

theorem decidesBySession (hsessions : SessionsOwned db) : DecidesBySession service get db where
  admits_iff := by
    intro accessToken now e
    constructor
    . intro ⟨request, hadmitted⟩
      obtain ⟨token, payload, sub, found, htoken, hpresent, hverified, hpayload, hformed, hlookup, hid,
        _⟩ := canActivate_eq_ok hadmitted
      obtain ⟨haccepted, hclaims⟩ := verify_eq_ok.mp hverified
      obtain ⟨hfault, user, huser, rfl, happroved, r, hr, hactive⟩ := of_findActiveSessionUser hlookup
      rw [hpayload, VerifiedPayload.mk.injEq] at hclaims
      refine ⟨hfault, token, htoken, hpresent, haccepted, sub, request.sid, user, r, hclaims.1.symm,
        hclaims.2.symm, hformed, huser, hid, happroved, hr, hactive⟩
    . rintro ⟨hfault, token, rfl, hadmissible⟩
      obtain ⟨sub, sid, user, r, hsub, hsid, hformed, huser, rfl, happroved, hr, hactive⟩ :=
        hadmissible.session
      have hverified : (service.guard get).verify token =
          .ok { sub := .number (.integer user.id), sid := .string sid } :=
        verify_eq_ok.mpr ⟨hadmissible.accepted, by rw [hsub, hsid]⟩
      have hlookup := findActiveSessionUser_of_active hsessions huser happroved hr hactive hfault
      exact ⟨_, JwtGuard.canActivate_eq ⟨user.id, user.username, user.isAdmin⟩ hadmissible.present
        hverified hformed hlookup⟩
  independent := by
    intro token token' now now' e e' request request' hadmitted hadmitted' hsub hsid
    obtain ⟨_, payload, sub, found, htoken, _, hverified, hpayload, _, hlookup, hid, hrequest⟩ :=
      canActivate_eq_ok hadmitted
    obtain ⟨_, payload', sub', found', htoken', _, hverified', hpayload', _, hlookup', hid', hrequest'⟩ :=
      canActivate_eq_ok hadmitted'
    cases htoken
    cases htoken'
    have hclaims := (verify_eq_ok.mp hverified).2
    have hclaims' := (verify_eq_ok.mp hverified').2
    rw [hsub, hsid, ← hclaims', hpayload, hpayload'] at hclaims
    simp only [VerifiedPayload.mk.injEq, RawValue.number.injEq, JsNumber.integer.injEq,
      RawValue.string.injEq] at hclaims
    obtain ⟨_, user, huser, rfl, _⟩ := of_findActiveSessionUser hlookup
    obtain ⟨_, user', huser', rfl, _⟩ := of_findActiveSessionUser hlookup'
    have hsame : user = user' := by
      apply Table.eq_of_id_eq huser huser'
      exact Int.ofNat.inj (hid.trans (hclaims.1.trans hid'.symm))
    rw [hrequest, hrequest', hsame, hclaims.2]

theorem sessionsOwned {cfg : AuthConfig} {calls : List Call} {schedule : Schedule}
    (hempty : (db .refreshTokens).rows = [])
    (huuids : DistinctUuids (Auth.after cfg db calls schedule).trace)
    : SessionsOwned (Auth.after cfg db calls schedule).world := by
  have hinv : SessionInv calls (Auth.after cfg db calls schedule).world
      (Auth.after cfg db calls schedule).trace :=
    auth_induction (A := FreshUuids) (fun _ _ => FreshUuids.tail)
      (fun _ _ hfresh hx hinv => hinv.step hfresh hx) (.init hempty) schedule (.of_map _ huuids)
  intro r hr r' hr' hsame
  exact hinv.userId_eq huuids (hinv.seen.rows r hr) (hinv.seen.rows r' hr') hsame

end

section Runs

open Sample

attribute [local instance] platform

/--
All tokens are signed with the key `old`, and are those of the session of Ann.
-/
def oldService : JwtService where
  accepts _ key := key == "old"
  claim _ name := if name == "sub" then .number (.integer 1) else .string gateUuid

def rotatedKeys (name : String) : Option String :=
  if name == SecretKeys.SECRET_KEY_VAR then some "new" else some "older, old"

theorem decidesBySession_rotatedKeys
    : DecidesBySession oldService rotatedKeys
        (Auth.after config (db ann) refreshCalls (gateSchedule 12)).world :=
  decidesBySession (sessionsOwned rfl (by unfold DistinctUuids; decide))

end Runs

end Kerghan
