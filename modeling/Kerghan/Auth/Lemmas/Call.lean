import Kerghan.Auth.Lemmas.Account

/-!
This module contains the proof that every call respects the contract, and what follows from it for
the runs of several calls.
-/

namespace Kerghan

variable [Platform] {cfg : AuthConfig} {call : Call} {h : AuthHistory}

namespace DefaultUserService

theorem autoLogin_meets (refreshToken : Option String) (clientIp ip : String)
    (hunfinished : Unfinished h)
    : (autoLogin cfg ip).Meets Answers (Issues (.status refreshToken clientIp)) Anyhow h := by
  unfold autoLogin
  split
  . trivial
  . rw [Api.meets_query]
    refine ⟨.read rfl, fun user _ => ?_, fun _ => trivial⟩
    cases user with
    | none => trivial
    | some user =>
      simp only [Prog.map_eq]
      refine (TokenService.issueTokens_meets (.automatic rfl) ?_).bind ?_ (fun _ _ _ _ => trivial)
      . simp [hunfinished]
      intro _ _ _ _
      trivial

end DefaultUserService

namespace SessionService

theorem revoke_meets (userId : Nat) (sessionUuid : String)
    : (revoke userId sessionUuid).Meets Answers (Issues (.revoke userId sessionUuid))
        (fun h' r => r = .ok () → HasRevoked h') h := by
  unfold revoke
  rw [Api.meets_now]
  refine ⟨.now, fun now => ?_⟩
  rw [Api.meets_query]
  refine ⟨.token (.revoke (.userRevoked rfl)), fun affected _ => ?_, by simp⟩
  split
  . simp
  . exact fun _ => ⟨_, now, .userRevoked, affected, List.mem_cons_self ..⟩

theorem revokeOthers_meets (userId : Nat) (refreshToken : Option String)
    : (revokeOthers userId refreshToken).Meets Answers (Issues (.revokeOthers userId refreshToken))
        (fun h' r => r = .ok () → HasRevoked h') h := by
  unfold revokeOthers findPresented
  split
  . simp
  . next token _ =>
    rw [Api.meets_query]
    refine ⟨.read rfl, fun found _ => ?_, by simp⟩
    cases found with
    | none => simp
    | some row =>
      have hfound : Found (ran (findToken (hashToken token)) (some row) :: h) .refreshTokens row :=
        found_of_ran (List.mem_cons_self ..)
      have hactive : (isActiveOwnToken row userId).Meets Answers
          (Issues (.revokeOthers userId refreshToken)) Anyhow
          (ran (findToken (hashToken token)) (some row) :: h) := by
        unfold isActiveOwnToken
        split
        . trivial
        . rw [Api.meets_now]
          exact ⟨.now, fun _ => trivial⟩
      refine hactive.bind ?_ (by simp)
      intro h' active hsub _
      split
      . rw [Api.meets_now]
        refine ⟨.now, fun now => ?_⟩
        rw [Api.meets_query]
        refine ⟨.token (.revoke (.others rfl ?_)), fun affected _ _ => ?_, by simp⟩
        . exact (hfound.mono hsub.subset).mono (List.subset_cons_self ..)
        . exact ⟨_, now, .userRevoked, affected, List.mem_cons_self ..⟩
      . simp

end SessionService

namespace AuthService

theorem register_meets (dto : RegisterDto)
    : (register cfg dto).Meets Answers (Issues (.register dto)) Anyhow [] := by
  unfold register
  refine (assertAvailable_meets ..).bind ?_ (fun _ _ _ _ => trivial)
  intro h1 _ _ havailable
  rw [Api.meets_bcryptHash]
  refine ⟨.genSalt, fun salt => ?_⟩
  rw [Api.meets_query]
  refine ⟨.user (.insert rfl) (.cons ⟨rfl, rfl⟩ (havailable () rfl)), fun user _ => ?_, fun _ => trivial⟩
  rw [Api.meets_emit]
  refine ⟨.emit _, TokenService.issueTokens_meets (.register rfl) ?_⟩
  simp [(havailable () rfl).unfinished .nil]

theorem login_meets (dto : LoginDto)
    : (login cfg dto).Meets Answers (Issues (.login dto)) Anyhow [] := by
  unfold login validateCredentials
  simp only [Prog.bind_assoc]
  rw [Api.meets_query]
  refine ⟨.read rfl, fun user _ => ?_, fun _ => trivial⟩
  cases user with
  | none => trivial
  | some user =>
    cases hvalid : compareOrDummy dto.password (Option.map User.passwordDigest (some user)) with
    | false => trivial
    | true =>
      simp only [Prog.pure_bind]
      split
      . trivial
      . refine TokenService.issueTokens_meets (.login rfl (List.mem_cons_self ..) hvalid) ?_
        simp [Unfinished.nil]

theorem findActiveRefreshToken_meets (refreshToken : String)
    : (findActiveRefreshToken refreshToken).Meets Answers (Issues (.refresh refreshToken))
        (fun h' r => ∀ tokenRow, r = .ok tokenRow →
          Presented refreshToken tokenRow h' ∧ tokenRow.revokedAt = none ∧ Unfinished h') [] := by
  unfold findActiveRefreshToken
  rw [Api.meets_query]
  refine ⟨.read rfl, fun found _ => ?_, by simp⟩
  cases found with
  | none => simp
  | some tokenRow =>
    dsimp only
    rw [Api.meets_now]
    refine ⟨.now, fun now => ?_⟩
    split
    . simp
    . next hunexpired =>
      have hpresented : Presented refreshToken tokenRow
          [clock now, ran (findToken (hashToken refreshToken)) (some tokenRow)] :=
        ⟨now, List.suffix_refl _, hunexpired⟩
      split
      . unfold detectReplay
        split
        . next hrotated =>
          refine Prog.Meets.bind (TokenService.revokeUserTokens_meets fun now' => ?_) (by simp) (by simp)
          exact .replayDetected rfl (hpresented.mono (List.suffix_cons _ _)) hrotated
        . simp
      . next hactive =>
        simp only [Prog.meets_pure, Except.ok.injEq, forall_eq']
        refine ⟨hpresented, by simpa using hactive, by simp [Unfinished.nil]⟩

theorem refresh_meets (refreshToken : String)
    : (refresh cfg refreshToken).Meets Answers (Issues (.refresh refreshToken)) Anyhow [] := by
  unfold refresh
  refine (findActiveRefreshToken_meets refreshToken).bind ?_ (fun _ _ _ _ => trivial)
  intro h1 tokenRow _ hloaded
  obtain ⟨hpresented, hactive, hunfinished⟩ := hloaded tokenRow rfl
  rw [Api.meets_query]
  refine ⟨.read rfl, fun user huser => ?_, fun _ => trivial⟩
  replace hpresented := hpresented.mono
    (List.suffix_cons (ran (findUserById tokenRow.userId) user) h1)
  cases user with
  | none => trivial
  | some user =>
    dsimp only
    split
    . next hdenied =>
      refine (TokenService.revokeToken_meets fun now => ?_).bind ?_ (fun _ _ _ _ => trivial)
      . exact .deniedRefresh rfl (hpresented.mono (List.suffix_cons _ _)) hactive (by simp) hdenied
      . intro _ _ _ _
        trivial
    . rw [Api.meets_now]
      refine ⟨.now, fun now => ?_⟩
      replace hpresented := hpresented.mono (List.suffix_cons (clock now) _)
      rw [Api.meets_query]
      refine ⟨.token (.rotate rfl hpresented hactive), fun affected _ => ?_, fun _ => trivial⟩
      split
      . trivial
      . next haffected =>
        simp only [ne_eq, Decidable.not_not] at haffected
        subst haffected
        refine TokenService.issueTokens_meets
          (.refresh rfl rfl hpresented hactive (by simp) (findUserById_id huser)) ?_
        simp [hunfinished]

theorem logout_meets (refreshToken : String)
    : (logout refreshToken).Meets Answers (Issues (.logout refreshToken))
        (fun h' r => r = .ok () → HasRevoked h') h :=
  (TokenService.revoke_meets fun _ => .logout rfl).mono fun _ _ _ hrevoked hr => (hrevoked hr).1

theorem resetPassword_meets (dto : ResetPasswordDto)
    : (resetPassword cfg dto).Meets Answers (Issues (.resetPassword dto))
        (fun h r => r = .ok () → HasRevoked h) [] := by
  unfold resetPassword
  refine (PasswordResetService.resetPassword_meets dto).bind ?_ (by simp)
  intro h userId _ hreset
  obtain ⟨tokenRow, rfl, hmarked⟩ := hreset userId rfl
  refine TokenService.revokeUserTokens_meets fun now => ?_
  exact .passwordReset rfl hmarked (List.suffix_cons _ _)

theorem automaticLogin_meets (refreshToken : Option String) (clientIp ip : String)
    (hunfinished : Unfinished h)
    : (automaticLogin cfg ip).Meets Answers (Issues (.status refreshToken clientIp)) Anyhow h := by
  unfold automaticLogin
  refine (DefaultUserService.autoLogin_meets _ _ _ hunfinished).bind ?_ (fun _ _ _ _ => trivial)
  intro _ session _ _
  cases session <;> trivial

theorem status_meets (refreshToken : Option String) (clientIp : String)
    : (status cfg refreshToken clientIp).Meets Answers (Issues (.status refreshToken clientIp))
        Anyhow [] := by
  unfold status
  refine (TokenService.findActiveToken_meets refreshToken).bind ?_ (fun _ _ _ _ => trivial)
  intro h1 found _ hloaded
  obtain ⟨hfound, hread⟩ := hloaded found rfl
  cases found with
  | none => exact automaticLogin_meets _ _ _ (hread.unfinished .nil)
  | some tokenRow =>
    dsimp only
    rw [Api.meets_query]
    refine ⟨.read rfl, fun user _ => ?_, fun _ => trivial⟩
    cases user with
    | none => trivial
    | some user =>
      dsimp only
      split
      . next hdenied =>
        refine (TokenService.revokeToken_meets fun now => ?_).bind ?_ (fun _ _ _ _ => trivial)
        . exact .deniedStatus rfl ((hfound tokenRow rfl).mono (by simp)) (by simp) hdenied
        . intro h2 _ _ hrevoked
          apply automaticLogin_meets
          apply (hrevoked rfl).2
          simp [hread.unfinished .nil]
      . trivial
      . trivial

end AuthService

namespace AdminService

theorem findUserOrThrow_meets (id : Nat)
    : (findUserOrThrow id).Meets Answers (Issues call)
        (fun h' r => ∀ user, r = .ok user →
          ran (findUserById id) (some user) ∈ h' ∧ user.id = id ∧ OnlyRead h h') h := by
  unfold findUserOrThrow
  rw [Api.meets_query]
  refine ⟨.read rfl, fun found hfound => ?_, by simp⟩
  cases found with
  | none => simp
  | some user => simpa using findUserById_id hfound

theorem issueRecoveryToken_meets (user : User) (hcall : call.recovers = true) (hread : OnlyRead [] h)
    : (issueRecoveryToken cfg user).Meets Answers (Issues call) Anyhow h := by
  unfold issueRecoveryToken
  refine (assertNotDefaultUser_meets _).bind ?_ (fun _ _ _ _ => trivial)
  rintro _ _ _ rfl
  exact PasswordResetService.issueToken_meets user hcall hread

theorem generateRecoveryLink_meets (userId : Nat)
    : (generateRecoveryLink cfg userId).Meets Answers (Issues (.generateRecoveryLink userId)) Anyhow
        [] := by
  unfold generateRecoveryLink
  refine (findUserOrThrow_meets userId).bind ?_ (fun _ _ _ _ => trivial)
  intro _ user _ hloaded
  refine (issueRecoveryToken_meets user rfl (hloaded user rfl).2.2).bind ?_ (fun _ _ _ _ => trivial)
  intro _ _ _ _
  trivial

theorem sendRecoveryEmail_meets (userId : Nat)
    : (sendRecoveryEmail cfg userId).Meets Answers (Issues (.sendRecoveryEmail userId)) Anyhow [] := by
  unfold sendRecoveryEmail
  refine (findUserOrThrow_meets userId).bind ?_ (fun _ _ _ _ => trivial)
  intro _ user _ hloaded
  refine (issueRecoveryToken_meets user rfl (hloaded user rfl).2.2).bind ?_ (fun _ _ _ _ => trivial)
  intro _ _ _ _
  exact ⟨.sendEmailTemplate .., fun _ _ => trivial⟩

theorem editUser_meets (userId : Nat) (dto : UserFieldChangesDto)
    : (editUser cfg userId dto).Meets Answers (Issues (.editUser userId dto))
        (fun h' r => ∀ user, r = .ok user → truthy dto.newPassword ≠ none → HasRevoked h') [] := by
  unfold editUser
  refine (assertAnyFieldPresent_meets _).bind ?_ (by simp)
  intro h1 _ _ hread1
  refine (findUserOrThrow_meets userId).bind ?_ (by simp)
  intro h2 user _ hloaded
  obtain ⟨hfound, hid, hread2⟩ := hloaded user rfl
  refine (assertNotManaged_meets ..).bind ?_ (by simp)
  intro h3 _ hsub3 hread3
  refine (assertNewValuesAvailable_meets ..).bind ?_ (by simp)
  intro h4 _ hsub4 hread4
  have hread : OnlyRead [] h4 :=
    (((hread1 () rfl).trans hread2).trans (hread3 () rfl)).trans (hread4 () rfl)
  have hfound4 := hsub4.subset (hsub3.subset hfound)
  refine (UserUpdateService.applyUserUpdate_meets rfl hfound4 hid hread).bind ?_ (by simp)
  intro h5 summary _ happlied
  obtain ⟨saved, affected, hsavedId, hsaved⟩ := happlied summary rfl
  refine (AccountService.revokeAfterEdit_meets ?_).bind ?_ (by simp)
  . intro now
    rw [hid]
    exact .adminPasswordChange rfl hsavedId (List.mem_cons_of_mem _ hsaved)
  . intro h6 _ _ hrevoked
    refine (findUserOrThrow_meets userId).mono fun h7 _ hsub7 _ _ _ hnew => ?_
    exact (hrevoked rfl hnew).mono hsub7.subset

theorem approveUser_meets (userId : Nat)
    : (approveUser userId).Meets Answers (Issues (.approveUser userId)) Anyhow [] := by
  unfold approveUser
  refine (findUserOrThrow_meets userId).bind ?_ (fun _ _ _ _ => trivial)
  intro h1 user _ hloaded
  obtain ⟨_, hid, hread⟩ := hloaded user rfl
  rw [hid, Api.meets_query]
  refine ⟨.user (.approve rfl) hread, fun affected _ => ?_, fun _ => trivial⟩
  split
  . trivial
  . exact (findUserOrThrow_meets userId).mono fun _ _ _ _ => trivial

theorem denyUser_meets (userId callerId : Nat)
    : (denyUser cfg userId callerId).Meets Answers (Issues (.denyUser userId callerId))
        (fun h' r => ∀ user, r = .ok user → HasRevoked h') [] := by
  unfold denyUser
  refine (findUserOrThrow_meets userId).bind ?_ (by simp)
  intro h1 user _ hloaded
  obtain ⟨_, hid, hread⟩ := hloaded user rfl
  rw [hid]
  refine (assertNotDefaultUser_meets _).bind ?_ (by simp)
  rintro h2 _ _ rfl
  split
  . simp
  . rw [Api.meets_query]
    refine ⟨.user (.deny rfl) hread, fun _ _ => ?_, by simp⟩
    refine (TokenService.revokeUserTokens_meets fun _ => .deniedUser rfl).bind ?_ (by simp)
    intro h3 _ _ hrevoked
    refine (findUserOrThrow_meets userId).mono fun h4 _ hsub _ _ _ => ?_
    exact (hrevoked rfl).mono hsub.subset

end AdminService

def Call.revokes : Call → Bool
  | .logout _ | .resetPassword _ | .revoke .. | .revokeOthers .. | .denyUser .. => true
  | .updateAccount _ dto _ => (truthy dto.newPassword).isSome
  | .editUser _ dto => (truthy dto.newPassword).isSome
  | _ => false

theorem map_meets {α : Type} {prog : Api α} {Q : AuthHistory → Except HttpError α → Prop}
    {P : AuthHistory → Prop} (hprog : prog.Meets Answers (Issues call) Q h)
    (hreply : ∀ h a, Q h (.ok a) → P h) (f : α → Reply)
    : (f <$> prog).Meets Answers (Issues call) (fun h r => ∀ reply, r = .ok reply → P h) h := by
  rw [Prog.map_eq]
  exact hprog.bind (fun h a _ hq _ _ => hreply h a hq) (by simp)

theorem prog_meets (cfg : AuthConfig) (call : Call)
    : (call.prog cfg).Meets Answers (Issues call)
        (fun h r => ∀ reply, r = .ok reply → call.revokes = true → HasRevoked h) [] := by
  cases call with
  | register dto => exact map_meets (AuthService.register_meets dto) (by simp [Call.revokes]) _
  | login dto => exact map_meets (AuthService.login_meets dto) (by simp [Call.revokes]) _
  | refresh refreshToken =>
    exact map_meets (AuthService.refresh_meets refreshToken) (by simp [Call.revokes]) _
  | logout refreshToken =>
    exact map_meets (AuthService.logout_meets refreshToken) (fun _ _ hrevoked _ => hrevoked rfl) _
  | status refreshToken clientIp =>
    exact map_meets (AuthService.status_meets ..) (by simp [Call.revokes]) _
  | recover email => exact map_meets (PasswordResetService.recover_meets email) (by simp [Call.revokes]) _
  | resetPassword dto =>
    exact map_meets (AuthService.resetPassword_meets dto) (fun _ _ hrevoked _ => hrevoked rfl) _
  | revoke userId sessionUuid =>
    exact map_meets (SessionService.revoke_meets ..) (fun _ _ hrevoked _ => hrevoked rfl) _
  | revokeOthers userId refreshToken =>
    exact map_meets (SessionService.revokeOthers_meets ..) (fun _ _ hrevoked _ => hrevoked rfl) _
  | create username ip userAgent keepSignedIn =>
    exact map_meets (AuthorizationRequestService.create_meets ..) (by simp [Call.revokes]) _
  | poll uuid pollToken =>
    exact map_meets (AuthorizationRequestService.poll_meets ..) (by simp [Call.revokes]) _
  | authorize uuid approverUserId password =>
    exact map_meets (AuthorizationRequestService.authorize_meets ..) (by simp [Call.revokes]) _
  | deny uuid approverUserId =>
    exact map_meets (AuthorizationRequestService.deny_meets ..) (by simp [Call.revokes]) _
  | updateAccount userId dto currentRefreshToken =>
    refine map_meets (AccountService.updateAccount_meets ..) ?_ _
    intro h summary hrevoked hrevokes
    exact hrevoked summary rfl (Option.isSome_iff_ne_none.mp hrevokes)
  | generateRecoveryLink userId =>
    exact map_meets (AdminService.generateRecoveryLink_meets userId) (by simp [Call.revokes]) _
  | sendRecoveryEmail userId =>
    exact map_meets (AdminService.sendRecoveryEmail_meets userId) (by simp [Call.revokes]) _
  | editUser userId dto =>
    refine map_meets (AdminService.editUser_meets ..) ?_ _
    intro h user hrevoked hrevokes
    exact hrevoked user rfl (Option.isSome_iff_ne_none.mp hrevokes)
  | approveUser userId => exact map_meets (AdminService.approveUser_meets userId) (by simp [Call.revokes]) _
  | denyUser userId callerId =>
    exact map_meets (AdminService.denyUser_meets ..) (fun _ user hrevoked _ => hrevoked user rfl) _

end Kerghan
