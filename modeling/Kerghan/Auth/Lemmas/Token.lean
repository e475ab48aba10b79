import Kerghan.Auth.Contract

/-!
This module contains the proofs that the services which mint and revoke sessions respect the
contract.
-/

namespace Kerghan

namespace Api

variable {α β : Type} {C : AuthHistory → AuthEffect → Prop}
variable {Q : AuthHistory → Except HttpError β → Prop} {h : AuthHistory}

theorem answers_error {s : AuthStmt} {e : DbError} : Answers (.db s) (.error e) := by
  cases s <;> trivial

@[simp]
theorem meets_query {s : AuthStmt} {f : s.Answer → Api β}
    : (query s >>= f).Meets Answers C Q h ↔
        C h (.db s)
          ∧
        (∀ a, Answers (.db s) (.ok a) → (f a).Meets Answers C Q (ran s a :: h))
          ∧
        (∀ e, Q (failed s e :: h) (.error (.database e))) := by
  constructor
  . intro hprog
    exact ⟨hprog.1, fun a ha => hprog.2 (.ok a) ha, fun e => hprog.2 (.error e) answers_error⟩
  . intro ⟨hallowed, hok, herror⟩
    refine ⟨hallowed, fun r hr => ?_⟩
    cases r with
    | ok a => exact hok a hr
    | error e => exact herror e

@[simp]
theorem meets_query_end {s : AuthStmt} {Q : AuthHistory → Except HttpError s.Answer → Prop}
    : (query s).Meets Answers C Q h ↔
        C h (.db s)
          ∧
        (∀ a, Answers (.db s) (.ok a) → Q (ran s a :: h) (.ok a))
          ∧
        (∀ e, Q (failed s e :: h) (.error (.database e))) := by
  constructor
  . intro hprog
    exact ⟨hprog.1, fun a ha => hprog.2 (.ok a) ha, fun e => hprog.2 (.error e) answers_error⟩
  . intro ⟨hallowed, hok, herror⟩
    refine ⟨hallowed, fun r hr => ?_⟩
    cases r with
    | ok a => exact hok a hr
    | error e => exact herror e

@[simp]
theorem meets_now {f : Date → Api β}
    : (now >>= f).Meets Answers C Q h ↔
        C h .now ∧ ∀ t, (f t).Meets Answers C Q (clock t :: h) :=
  ⟨fun h => ⟨h.1, fun t => h.2 t trivial⟩, fun h => ⟨h.1, fun t _ => h.2 t⟩⟩

@[simp]
theorem meets_randomUUID {f : String → Api β}
    : (randomUUID >>= f).Meets Answers C Q h ↔
        C h .randomUUID ∧ ∀ uuid, (f uuid).Meets Answers C Q (⟨.randomUUID, uuid⟩ :: h) :=
  ⟨fun h => ⟨h.1, fun t => h.2 t trivial⟩, fun h => ⟨h.1, fun t _ => h.2 t⟩⟩

@[simp]
theorem meets_randomBytes {f : String → Api β}
    : (randomBytes >>= f).Meets Answers C Q h ↔
        C h .randomBytes ∧ ∀ bytes, (f bytes).Meets Answers C Q (⟨.randomBytes, bytes⟩ :: h) :=
  ⟨fun h => ⟨h.1, fun t => h.2 t trivial⟩, fun h => ⟨h.1, fun t _ => h.2 t⟩⟩

@[simp]
theorem meets_emit {event : AuthEvent} {f : Unit → Api β}
    : (emit event >>= f).Meets Answers C Q h ↔
        C h (.emit event) ∧ (f ()).Meets Answers C Q (⟨.emit event, ()⟩ :: h) :=
  ⟨fun h => ⟨h.1, h.2 () trivial⟩, fun h => ⟨h.1, fun _ _ => h.2⟩⟩

@[simp]
theorem meets_bcryptHash [Platform] {password : String} {f : String → Api β}
    : (bcryptHash password >>= f).Meets Answers C Q h ↔
        C h .genSalt ∧
          ∀ salt, (f (Platform.bcryptHash salt password)).Meets Answers C Q (⟨.genSalt, salt⟩ :: h) :=
  ⟨fun h => ⟨h.1, fun t => h.2 t trivial⟩, fun h => ⟨h.1, fun t _ => h.2 t⟩⟩

@[simp]
theorem meets_reached {user : User} {keepSignedIn : Bool} {session : Option SessionIdentity}
    {f : Unit → Api β}
    : (Prog.perform (AuthEffect.issueTokens user keepSignedIn session) >>= f).Meets Answers C Q h ↔
        C h (.issueTokens user keepSignedIn session)
          ∧
        (f ()).Meets Answers C Q (⟨.issueTokens user keepSignedIn session, ()⟩ :: h) :=
  ⟨fun h => ⟨h.1, h.2 () trivial⟩, fun h => ⟨h.1, fun _ _ => h.2⟩⟩

end Api

abbrev Anyhow {α : Type} (_ : AuthHistory) (_ : Except HttpError α) : Prop := True

def Reads {α : Type} (older h : AuthHistory) (r : Except HttpError α) : Prop :=
  ∀ a, r = .ok a → OnlyRead older h

@[simp]
theorem reads_ok {α : Type} {older h : AuthHistory} {a : α}
    : Reads older h (.ok a) ↔ OnlyRead older h := by
  simp [Reads]

@[simp]
theorem reads_error {α : Type} {older h : AuthHistory} {e : HttpError}
    : Reads older h (.error e : Except HttpError α) := by
  simp [Reads]

section Found

variable {h : AuthHistory}

theorem Found.mono {h' : AuthHistory} {t : AuthTable} {row : AuthRow t} (hfound : Found h t row)
    (hsub : h ⊆ h')
    : Found h' t row := by
  obtain ⟨p, rank, hmem⟩ := hfound
  exact ⟨p, rank, hsub hmem⟩

theorem HasRevoked.mono [Platform] {h' : AuthHistory} (hrevoked : HasRevoked h) (hsub : h ⊆ h')
    : HasRevoked h' := by
  obtain ⟨criteria, now, reason, affected, hmem⟩ := hrevoked
  exact ⟨criteria, now, reason, affected, hsub hmem⟩

theorem Presented.mono [Platform] {refreshToken : String} {tokenRow : RefreshToken}
    {h' : AuthHistory} (hpresented : Presented refreshToken tokenRow h) (hsuffix : h <:+ h')
    : Presented refreshToken tokenRow h' := by
  obtain ⟨now, hread, hunexpired⟩ := hpresented
  exact ⟨now, hread.trans hsuffix, hunexpired⟩

theorem Presented.found [Platform] {refreshToken : String} {tokenRow : RefreshToken}
    (hpresented : Presented refreshToken tokenRow h)
    : ran (findToken (hashToken refreshToken)) (some tokenRow) ∈ h := by
  obtain ⟨now, hread, _⟩ := hpresented
  exact hread.subset (List.mem_cons_of_mem _ (List.mem_cons_self ..))

theorem found_of_ran {t : AuthTable} {p : AuthRow t → Bool} {rank : AuthRow t → Int} {row : AuthRow t}
    (hran : ran (.find t p rank) (some row) ∈ h)
    : Found h t row :=
  ⟨p, rank, hran⟩

theorem answer_of_ran_eq {t : AuthTable} {p p' : AuthRow t → Bool} {rank rank' : AuthRow t → Int}
    {found found' : Option (AuthRow t)}
    (hran : ran (.find t p rank) found = ran (.find t p' rank') found')
    : found = found' := by
  have := eq_of_heq (Sigma.mk.inj hran).2
  simpa using this

theorem findUserById_id {userId : Nat} {user : User}
    (hanswer : Answers (.db (findUserById userId)) (.ok (some user)))
    : user.id = userId := by
  have hid : (user.id == userId) = true := hanswer
  simpa using hid

end Found

section OnlyRead

variable {h older : AuthHistory}

@[simp]
theorem OnlyRead.refl : OnlyRead h h := by
  simp [OnlyRead]

@[simp]
theorem OnlyRead.cons {ev : (s : AuthEffect) × AuthAnswer s}
    (hev : ev.1.writes = false ∧ isFailed ev = false) (hread : OnlyRead older h)
    : OnlyRead older (ev :: h) := by
  obtain ⟨newer, rfl, hnewer⟩ := hread
  exact ⟨ev :: newer, rfl, List.forall_mem_cons.mpr ⟨hev, hnewer⟩⟩

theorem OnlyRead.trans {h' : AuthHistory} (hread : OnlyRead older h) (hread' : OnlyRead h h')
    : OnlyRead older h' := by
  obtain ⟨newer, rfl, hnewer⟩ := hread
  obtain ⟨newer', rfl, hnewer'⟩ := hread'
  refine ⟨newer' ++ newer, by simp, ?_⟩
  intro ev hev
  rcases List.mem_append.mp hev with hev | hev
  . exact hnewer' ev hev
  . exact hnewer ev hev

theorem OnlyRead.not_writes (hread : OnlyRead [] h) {ev : (s : AuthEffect) × AuthAnswer s}
    (hev : ev ∈ h)
    : ev.1.writes = false := by
  obtain ⟨newer, rfl, hnewer⟩ := hread
  rw [List.append_nil] at hev
  exact (hnewer ev hev).1

theorem insertsInto_of_writes {s : AuthEffect} (table : AuthTable) (hs : s.writes = false)
    : s.insertsInto table = false := by
  unfold AuthEffect.insertsInto
  split
  . simp at hs
  . rfl

end OnlyRead

section Unfinished

theorem Unfinished.nil : Unfinished [] := by
  simp [Unfinished]

@[simp]
theorem unfinished_cons {ev : (s : AuthEffect) × AuthAnswer s} {h : AuthHistory}
    : Unfinished (ev :: h) ↔ (ev.1.insertsInto .refreshTokens = false ∧ isFailed ev = false) ∧ Unfinished h := by
  simp [Unfinished]

theorem OnlyRead.unfinished {h older : AuthHistory} (hread : OnlyRead older h)
    (hunfinished : Unfinished older)
    : Unfinished h := by
  obtain ⟨newer, rfl, hnewer⟩ := hread
  intro ev hev
  rcases List.mem_append.mp hev with hev | hev
  . exact ⟨insertsInto_of_writes _ (hnewer ev hev).1, (hnewer ev hev).2⟩
  . exact hunfinished ev hev

end Unfinished

variable [Platform] {cfg : AuthConfig} {call : Call} {h : AuthHistory}

theorem Approves.mono {h' : AuthHistory} {request : AuthorizationRequest} {approverUserId : Nat}
    {password : String} (happroves : Approves h request approverUserId password) (hsuffix : h <:+ h')
    : Approves h' request approverUserId password where
  owner := happroves.owner
  opened := happroves.opened
  unexpired := by
    obtain ⟨now, hnow, hunexpired⟩ := happroves.unexpired
    exact ⟨now, hsuffix.subset hnow, hunexpired⟩
  unlocked := by
    rcases happroves.unlocked with hnone | ⟨lockedUntil, now, hsome, hnow, hle⟩
    . exact Or.inl hnone
    . exact Or.inr ⟨lockedUntil, now, hsome, hsuffix.subset hnow, hle⟩
  password := by
    obtain ⟨approver, newer, older, hsplit, hfound, hpassword⟩ := happroves.password
    obtain ⟨new, rfl⟩ := hsuffix
    exact ⟨approver, new ++ newer, older, by rw [hsplit, List.append_assoc], hfound, hpassword⟩

namespace TokenService

theorem resolveTtl_pos {key : String} {fallback : Int} (hfallback : 0 < fallback)
    : 0 < resolveTtl cfg key fallback := by
  unfold resolveTtl
  dsimp only
  split
  . assumption
  . exact hfallback

theorem refreshTokenTtlMs_pos {keepSignedIn : Bool} : 0 < refreshTokenTtlMs cfg keepSignedIn := by
  unfold refreshTokenTtlMs
  split
  . exact resolveTtl_pos (by decide)
  . exact resolveTtl_pos (by decide)

theorem issueTokens_meets {user : User} {keepSignedIn : Bool} {session : Option SessionIdentity}
    (hmints : Mints call h user keepSignedIn session) (hunfinished : Unfinished h)
    : (issueTokens cfg user keepSignedIn session).Meets Answers (Issues call) Anyhow h := by
  have hpos : 0 < refreshTokenTtlMs cfg keepSignedIn := refreshTokenTtlMs_pos
  unfold issueTokens
  rw [Api.meets_reached]
  refine ⟨.mint hmints, ?_⟩
  -- a new session draws its own UUID, a refreshed one keeps it
  cases session with
  | none =>
    simp only [sessionUuidOf, startedAtOf, Api.meets_randomUUID, Api.meets_now, Api.meets_randomBytes]
    refine ⟨.randomUUID, fun sessionUuid => ⟨.now, fun issuedAt => ⟨.randomBytes, fun refreshToken =>
      ⟨.now, fun now => ⟨.now, fun pruneBefore => ?_⟩⟩⟩⟩⟩
    rw [Api.meets_query]
    have hprune : (clock pruneBefore :: clock now :: ⟨.randomBytes, refreshToken⟩ :: clock issuedAt ::
        ⟨.randomUUID, sessionUuid⟩ :: ⟨.issueTokens user keepSignedIn none, ()⟩ :: h : AuthHistory) =
        [clock pruneBefore, clock now, ⟨.randomBytes, refreshToken⟩, clock issuedAt,
          ⟨.randomUUID, sessionUuid⟩] ++ ⟨.issueTokens user keepSignedIn none, ()⟩ :: h := rfl
    refine ⟨.token (.prune hprune hmints (List.mem_cons_self ..)), fun pruned _ => ?_,
      fun _ => trivial⟩
    rw [Api.meets_now]
    refine ⟨.now, fun startedAt => ?_⟩
    rw [Api.meets_query]
    have hhistory : (clock startedAt :: ran (pruneTokens user.id pruneBefore) pruned ::
        clock pruneBefore :: clock now :: ⟨.randomBytes, refreshToken⟩ :: clock issuedAt ::
        ⟨.randomUUID, sessionUuid⟩ :: ⟨.issueTokens user keepSignedIn none, ()⟩ :: h : AuthHistory) =
        [clock startedAt, ran (pruneTokens user.id pruneBefore) pruned, clock pruneBefore, clock now,
          ⟨.randomBytes, refreshToken⟩, clock issuedAt, ⟨.randomUUID, sessionUuid⟩] ++
        ⟨.issueTokens user keepSignedIn none, ()⟩ :: h := rfl
    refine ⟨.token (.insert hhistory hmints ?_ ⟨now, by simp, Int.lt_add_of_pos_right now hpos⟩ (by simp) (by simp)
      (by simp)), fun _ _ => trivial, fun _ => trivial⟩
    simp [hunfinished]
  | some session =>
    simp only [sessionUuidOf, startedAtOf, Prog.pure_bind, Api.meets_now, Api.meets_randomBytes]
    refine ⟨.now, fun issuedAt => ⟨.randomBytes, fun refreshToken => ⟨.now, fun now => ⟨.now,
      fun pruneBefore => ?_⟩⟩⟩⟩
    rw [Api.meets_query]
    have hprune : (clock pruneBefore :: clock now :: ⟨.randomBytes, refreshToken⟩ :: clock issuedAt ::
        ⟨.issueTokens user keepSignedIn (some session), ()⟩ :: h : AuthHistory) =
        [clock pruneBefore, clock now, ⟨.randomBytes, refreshToken⟩, clock issuedAt] ++
        ⟨.issueTokens user keepSignedIn (some session), ()⟩ :: h := rfl
    refine ⟨.token (.prune hprune hmints (List.mem_cons_self ..)), fun pruned _ => ?_,
      fun _ => trivial⟩
    rw [Api.meets_query]
    have hhistory : (ran (pruneTokens user.id pruneBefore) pruned :: clock pruneBefore :: clock now ::
        ⟨.randomBytes, refreshToken⟩ :: clock issuedAt ::
        ⟨.issueTokens user keepSignedIn (some session), ()⟩ :: h : AuthHistory) =
        [ran (pruneTokens user.id pruneBefore) pruned, clock pruneBefore, clock now,
          ⟨.randomBytes, refreshToken⟩, clock issuedAt] ++
        ⟨.issueTokens user keepSignedIn (some session), ()⟩ :: h := rfl
    refine ⟨.token (.insert hhistory hmints ?_ ⟨now, by simp, Int.lt_add_of_pos_right now hpos⟩ (by simp) (by simp)
      (by simp)), fun _ _ => trivial, fun _ => trivial⟩
    simp [hunfinished]

theorem issueTokens_revokesNothing {user : User} {keepSignedIn : Bool} {session : Option SessionIdentity}
    : (issueTokens cfg user keepSignedIn session).Meets Answers
        (fun _ s => ∀ criteria now reason, s ≠ .db (revokeTokens criteria now reason)) Anyhow h := by
  unfold issueTokens
  rw [Api.meets_reached]
  refine ⟨by simp, ?_⟩
  cases session with
  | none =>
    simp only [sessionUuidOf, startedAtOf, Api.meets_randomUUID, Api.meets_now, Api.meets_randomBytes]
    refine ⟨by simp, fun sessionUuid => ⟨by simp, fun issuedAt => ⟨by simp, fun refreshToken =>
      ⟨by simp, fun now => ⟨by simp, fun pruneBefore => ?_⟩⟩⟩⟩⟩
    rw [Api.meets_query]
    refine ⟨by simp, fun pruned _ => ?_, fun _ => trivial⟩
    rw [Api.meets_now]
    refine ⟨by simp, fun startedAt => ?_⟩
    rw [Api.meets_query]
    exact ⟨by simp, fun _ _ => trivial, fun _ => trivial⟩
  | some session =>
    simp only [sessionUuidOf, startedAtOf, Prog.pure_bind, Api.meets_now, Api.meets_randomBytes]
    refine ⟨by simp, fun issuedAt => ⟨by simp, fun refreshToken => ⟨by simp, fun now => ⟨by simp,
      fun pruneBefore => ?_⟩⟩⟩⟩
    rw [Api.meets_query]
    refine ⟨by simp, fun pruned _ => ?_, fun _ => trivial⟩
    rw [Api.meets_query]
    exact ⟨by simp, fun _ _ => trivial, fun _ => trivial⟩

theorem findActiveToken_meets (refreshToken : Option String)
    : (findActiveToken refreshToken).Meets Answers (Issues call)
        (fun h' r => ∀ found, r = .ok found →
          (∀ tokenRow, found = some tokenRow → Found h' .refreshTokens tokenRow)
            ∧
          OnlyRead h h') h := by
  unfold findActiveToken
  cases truthy refreshToken with
  | none => simp
  | some token =>
    rw [Api.meets_query]
    refine ⟨.read rfl, fun a ha => ?_, by simp⟩
    cases a with
    | none => simp
    | some tokenRow =>
      have hfound : ran (findToken (hashToken token)) (some tokenRow) ∈
          ran (findToken (hashToken token)) (some tokenRow) :: h := List.mem_cons_self ..
      dsimp only
      split
      . simp
      . rw [Api.meets_now]
        refine ⟨.now, fun now found hr => ?_⟩
        rw [Except.ok.injEq] at hr
        subst hr
        constructor
        . intro tokenRow' hsome
          split at hsome
          . rw [Option.some.injEq] at hsome
            subst hsome
            exact ⟨_, _, List.mem_cons_of_mem _ hfound⟩
          . simp at hsome
        . simp

theorem revoke_meets {criteria : TokenCriteria} {reason : RevokedReason}
    (hrevokes : ∀ now, Revokes call (clock now :: h) criteria reason)
    : (do
        let now ← Api.now
        let _ ← Api.query (revokeTokens criteria now reason) : Api Unit).Meets
        Answers (Issues call)
        (fun h' r => r = .ok () → HasRevoked h' ∧ (Unfinished h → Unfinished h')) h := by
  rw [Api.meets_now]
  refine ⟨.now, fun now => ?_⟩
  rw [Api.meets_query]
  refine ⟨.token (.revoke (hrevokes now)), fun affected _ _ => ⟨?_, by simp⟩, by simp⟩
  exact ⟨criteria, now, reason, affected, List.mem_cons_self ..⟩

theorem revokeToken_meets {id : Nat} {reason : RevokedReason}
    (hrevokes : ∀ now, Revokes call (clock now :: h) { id := some id } reason)
    : (revokeToken id reason).Meets Answers (Issues call)
        (fun h' r => r = .ok () → HasRevoked h' ∧ (Unfinished h → Unfinished h')) h :=
  revoke_meets hrevokes

theorem revokeUserTokens_meets {userId : Nat} {reason : RevokedReason} {keep : Option String}
    (hrevokes : ∀ now, Revokes call (clock now :: h) (userCriteria userId keep) reason)
    : (revokeUserTokens userId reason keep).Meets Answers (Issues call)
        (fun h' r => r = .ok () → HasRevoked h') h :=
  (revoke_meets hrevokes).mono fun _ _ _ hrevoked hr => (hrevoked hr).1

end TokenService

end Kerghan
