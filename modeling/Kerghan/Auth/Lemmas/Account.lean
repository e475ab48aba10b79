import Kerghan.Auth.Lemmas.AuthorizationRequest

/-!
This module contains the proofs that the edits of an account and the recovery of its password respect
the contract.
-/

namespace Kerghan

variable [Platform] {cfg : AuthConfig} {call : Call} {h : AuthHistory}

theorem assertNotDefaultUser_meets (userId : Nat)
    : (DefaultUserService.assertNotDefaultUser cfg userId).Meets Answers (Issues call)
        (fun h' _ => h' = h) h := by
  unfold DefaultUserService.assertNotDefaultUser
  split <;> exact rfl

theorem assertAnyFieldPresent_meets (dto : UserFieldChangesDto)
    : (assertAnyFieldPresent dto).Meets Answers (Issues call) (Reads h) h := by
  unfold assertAnyFieldPresent
  split <;> simp

theorem assertNotManaged_meets (userId : Nat) (dto : UserFieldChangesDto)
    : (assertNotManaged cfg userId dto).Meets Answers (Issues call) (Reads h) h := by
  unfold assertNotManaged
  split
  . exact (assertNotDefaultUser_meets userId).mono fun h' _ _ hsame _ _ => hsame ▸ .refl
  . simp

theorem assertAvailable_meets (username email : String)
    : (assertAvailable username email).Meets Answers (Issues call) (Reads h) h := by
  unfold assertAvailable
  rw [Api.meets_query]
  refine ⟨.read rfl, fun existing _ => ?_, by simp⟩
  cases existing with
  | none => simp
  | some existing =>
    dsimp only
    split <;> simp

theorem assertFieldAvailableIfGiven_meets (field : UserField) (value : Option String)
    (excludeUserId : Nat)
    : (assertFieldAvailableIfGiven field value excludeUserId).Meets Answers (Issues call) (Reads h)
        h := by
  unfold assertFieldAvailableIfGiven
  split
  . simp
  . unfold assertFieldAvailable
    rw [Api.meets_query]
    refine ⟨.read rfl, fun existing _ => ?_, by simp⟩
    cases existing with
    | none => simp
    | some _ => cases field <;> simp

theorem assertNewValuesAvailable_meets (user : User) (dto : UserFieldChangesDto)
    : (assertNewValuesAvailable user dto).Meets Answers (Issues call) (Reads h) h := by
  unfold assertNewValuesAvailable assertAvailableForUpdate
  refine (assertFieldAvailableIfGiven_meets ..).bind ?_ (by simp)
  intro h' _ _ hread
  refine (assertFieldAvailableIfGiven_meets ..).mono fun _ _ _ hread' _ hr => ?_
  exact (hread () rfl).trans (hread' () hr)

namespace UserUpdateService

theorem hashNewPassword_meets (user : User) (newPassword : Option String)
    : (hashNewPassword user newPassword).Meets Answers (Issues call)
        (fun h' r => ∀ passwordDigest, r = .ok passwordDigest →
          (truthy newPassword = none → passwordDigest = user.passwordDigest)
            ∧
          (∀ given, truthy newPassword = some given →
            ∃ salt, ⟨.genSalt, salt⟩ ∈ h' ∧ passwordDigest = Platform.bcryptHash salt given)
            ∧
          OnlyRead h h') h := by
  unfold hashNewPassword
  cases truthy newPassword with
  | none => simp
  | some given =>
    refine ⟨.genSalt, fun salt _ => ?_⟩
    intro passwordDigest hdigest
    simp only [Except.ok.injEq] at hdigest
    refine ⟨by simp, ?_, .cons ⟨rfl, rfl⟩ .refl⟩
    simp only [Option.some.injEq]
    rintro _ rfl
    exact ⟨salt, by simp, hdigest.symm⟩

theorem applyUserUpdate_meets {userId : Nat} {dto : UserFieldChangesDto} {user : User}
    (hcall : call.edits = some (userId, dto))
    (hfound : ran (findUserById userId) (some user) ∈ h) (hid : user.id = userId)
    (hread : OnlyRead [] h)
    : (applyUserUpdate user dto).Meets Answers (Issues call)
        (fun h' r => ∀ summary, r = .ok summary → ∃ (saved : User) (affected : Nat),
          saved.id = userId ∧ ran (saveUser saved) affected ∈ h') h := by
  unfold applyUserUpdate
  refine (hashNewPassword_meets ..).bind ?_ (by simp)
  intro h' passwordDigest hsub hdigest
  obtain ⟨hkept, hhashed, hread'⟩ := hdigest passwordDigest rfl
  rw [Api.meets_query]
  refine ⟨.user (.save hcall (hsub.subset hfound) hid hkept hhashed) (hread.trans hread'),
    fun affected _ => ?_, by simp⟩
  intro summary _
  exact ⟨dto.applyTo passwordDigest user, affected, hid, List.mem_cons_self ..⟩

end UserUpdateService

namespace AccountEditAbuseGuardService

variable {editedId : Nat} {dto : UpdateAccountDto} {refreshToken : Option String}
variable (hcall : call = .updateAccount editedId dto refreshToken)

include hcall in
theorem applyFailure_meets (lockout : AccountEditLockout)
    : (applyFailure cfg lockout).Meets Answers (Issues call) Anyhow h := by
  unfold applyFailure nextAttemptState
  refine (AuthorizationRequestAbuseGuardService.computeLockoutState_meets ..).bind ?_
    (fun _ _ _ _ => trivial)
  intro h' state _ _
  rw [Api.meets_query]
  exact ⟨.lockout hcall rfl, fun _ _ => trivial, fun _ => trivial⟩

include hcall in
theorem insertFirstFailure_meets (userId : Nat)
    : (insertFirstFailure cfg userId).Meets Answers (Issues call) Anyhow h := by
  unfold insertFirstFailure nextAttemptState
  refine (AuthorizationRequestAbuseGuardService.computeLockoutState_meets ..).bind ?_
    (fun _ _ _ _ => trivial)
  intro h' state _ _
  refine Prog.Meets.tryCatch (Q := Anyhow) ?_ (fun _ _ _ _ => trivial) ?_
  . rw [Api.meets_query]
    exact ⟨.lockout hcall rfl, fun _ _ => trivial, fun _ => trivial⟩
  . intro h'' error _ _
    unfold recoverFromInsertRace
    split
    . trivial
    . rw [Api.meets_query]
      refine ⟨.read rfl, fun found _ => ?_, fun _ => trivial⟩
      cases found with
      | none => trivial
      | some lockout => exact applyFailure_meets hcall lockout

include hcall in
theorem registerFailure_meets (userId : Nat)
    : (registerFailure cfg userId).Meets Answers (Issues call) Anyhow h := by
  unfold registerFailure
  rw [Api.meets_query]
  refine ⟨.read rfl, fun found _ => ?_, fun _ => trivial⟩
  cases found with
  | none => exact insertFirstFailure_meets hcall userId
  | some lockout => exact applyFailure_meets hcall lockout

include hcall in
theorem reset_meets (userId : Nat)
    : (reset userId).Meets Answers (Issues call) Anyhow h := by
  unfold reset
  rw [Api.meets_query]
  refine ⟨.read rfl, fun found _ => ?_, fun _ => trivial⟩
  cases found with
  | none => trivial
  | some lockout =>
    dsimp only
    rw [Api.meets_query]
    exact ⟨.lockout hcall rfl, fun _ _ => trivial, fun _ => trivial⟩

theorem isLockedOut_meets (userId : Nat)
    : (isLockedOut userId).Meets Answers (Issues call) (Reads h) h := by
  unfold isLockedOut
  rw [Api.meets_query]
  refine ⟨.read rfl, fun found _ => ?_, by simp⟩
  cases found with
  | none => simp
  | some lockout =>
    dsimp only
    split
    . simp
    . rw [Api.meets_now]
      exact ⟨.now, by simp⟩

end AccountEditAbuseGuardService

namespace AccountService

theorem assertNotLockedOut_meets (userId : Nat)
    : (assertNotLockedOut userId).Meets Answers (Issues call) (Reads h) h := by
  unfold assertNotLockedOut
  refine (AccountEditAbuseGuardService.isLockedOut_meets userId).bind ?_ (by simp)
  intro h' lockedOut _ hread
  split
  . simp
  . exact fun _ _ => hread lockedOut rfl

theorem loadUser_meets (userId : Nat)
    : (loadUser userId).Meets Answers (Issues call)
        (fun h' r => ∀ user, r = .ok user →
          ran (findUserById userId) (some user) ∈ h' ∧ user.id = userId ∧ OnlyRead h h') h := by
  unfold loadUser
  rw [Api.meets_query]
  refine ⟨.read rfl, fun found hfound => ?_, by simp⟩
  cases found with
  | none => simp
  | some user => simpa using findUserById_id hfound

theorem applyGuardedChecks_meets {userId : Nat} {refreshToken : Option String} (user : User)
    (dto : UpdateAccountDto) (hcall : call = .updateAccount userId dto refreshToken)
    : (applyGuardedChecks cfg user dto).Meets Answers (Issues call) (Reads h) h := by
  refine Prog.Meets.tryCatch (Q := Reads h) ?_ (fun _ _ _ hread => hread) ?_
  . unfold verifyCurrentPassword
    split
    . exact assertNewValuesAvailable_meets ..
    . simp
  . intro h' error _ _
    refine (AccountEditAbuseGuardService.registerFailure_meets hcall user.id).bind ?_ (by simp)
    intro _ _ _ _
    simp

theorem revokeAfterEdit_meets {userId : Nat} {newPassword keep : Option String}
    {reason : RevokedReason}
    (hrevokes : ∀ now, Revokes call (clock now :: h) (TokenService.userCriteria userId keep) reason)
    : (revokeAfterEdit userId newPassword reason keep).Meets Answers (Issues call)
        (fun h' r => r = .ok () → truthy newPassword ≠ none → HasRevoked h') h := by
  unfold revokeAfterEdit
  split
  . next hnone => simp [hnone]
  . exact (TokenService.revokeUserTokens_meets hrevokes).mono fun _ _ _ hrevoked hr _ => hrevoked hr

theorem updateAccount_meets (userId : Nat) (dto : UpdateAccountDto)
    (currentRefreshToken : Option String)
    : (updateAccount cfg userId dto currentRefreshToken).Meets Answers
        (Issues (.updateAccount userId dto currentRefreshToken))
        (fun h' r => ∀ summary, r = .ok summary → truthy dto.newPassword ≠ none → HasRevoked h')
        [] := by
  unfold updateAccount
  refine (assertAnyFieldPresent_meets _).bind ?_ (by simp)
  intro h1 _ _ hread1
  refine (assertNotManaged_meets ..).bind ?_ (by simp)
  intro h2 _ _ hread2
  refine (assertNotLockedOut_meets userId).bind ?_ (by simp)
  intro h3 _ _ hread3
  refine (loadUser_meets userId).bind ?_ (by simp)
  intro h4 user _ hloaded
  obtain ⟨hfound, hid, hread4⟩ := hloaded user rfl
  refine (applyGuardedChecks_meets user dto rfl).bind ?_ (by simp)
  intro h5 _ hsub5 hread5
  have hread : OnlyRead [] h5 :=
    ((((hread1 () rfl).trans (hread2 () rfl)).trans (hread3 () rfl)).trans hread4).trans (hread5 () rfl)
  refine (UserUpdateService.applyUserUpdate_meets rfl (hsub5.subset hfound) hid hread).bind ?_ (by simp)
  intro h6 summary _ happlied
  obtain ⟨saved, affected, hsavedId, hsaved⟩ := happlied summary rfl
  refine (AccountEditAbuseGuardService.reset_meets rfl userId).bind ?_ (by simp)
  intro h7 _ hsub7 _
  refine (revokeAfterEdit_meets ?_).bind ?_ (by simp)
  . intro now
    exact .passwordChange rfl hsavedId (List.mem_cons_of_mem _ (hsub7.subset hsaved))
  . intro h8 _ _ hrevoked _ _ hnew
    exact hrevoked rfl hnew

end AccountService

namespace PasswordResetService

theorem saveToken_meets {userId : Nat} {token : String} (expiresAt : Option Date)
    (hcall : call.recovers = true) (hbytes : ⟨.randomBytes, token⟩ ∈ h)
    (hfirst : ∀ ev ∈ h, ev.1.insertsInto .passwordResetTokens = false)
    : (saveToken userId token expiresAt).Meets Answers (Issues call) Anyhow h := by
  unfold saveToken
  split
  . trivial
  . rw [Api.meets_query]
    exact ⟨.reset (.insert hcall hbytes hfirst), fun _ _ => trivial, fun _ => trivial⟩

theorem issueToken_meets (user : User) (hcall : call.recovers = true) (hread : OnlyRead [] h)
    : (issueToken cfg user).Meets Answers (Issues call) Anyhow h := by
  unfold issueToken pruneSpentTokens
  rw [Api.meets_randomBytes]
  refine ⟨.randomBytes, fun token => ?_⟩
  simp only [Prog.bind_assoc, Prog.pure_bind]
  rw [Api.meets_now]
  refine ⟨.now, fun now => ?_⟩
  rw [Api.meets_query]
  refine ⟨.reset (.pruneExpired hcall (List.mem_cons_self ..)), fun _ _ => ?_, fun _ => trivial⟩
  rw [Api.meets_query]
  refine ⟨.reset (.pruneUsed hcall), fun _ _ => ?_, fun _ => trivial⟩
  rw [Api.meets_now]
  refine ⟨.now, fun now' => ?_⟩
  refine (saveToken_meets _ hcall (by simp) ?_).bind ?_ (fun _ _ _ _ => trivial)
  . have hfirst : ∀ ev ∈ h, ev.1.insertsInto .passwordResetTokens = false :=
      fun ev hev => insertsInto_of_writes _ (hread.not_writes hev)
    simpa using hfirst
  . intro _ _ _ _
    trivial

theorem recover_meets (email : String)
    : (recover cfg email).Meets Answers (Issues (.recover email)) Anyhow [] := by
  unfold recover
  rw [Api.meets_query]
  refine ⟨.read rfl, fun found _ => ?_, fun _ => trivial⟩
  cases found with
  | none => trivial
  | some user =>
    dsimp only
    split
    . trivial
    . refine (issueToken_meets user rfl (.cons ⟨rfl, rfl⟩ .refl)).bind ?_ (fun _ _ _ _ => trivial)
      intro _ _ _ _
      exact ⟨.emit _, fun _ _ => trivial⟩

theorem findActiveToken_meets (token : String)
    : (findActiveToken token).Meets Answers (Issues call)
        (fun h r => ∀ tokenRow, r = .ok tokenRow → tokenRow.usedAt = none ∧
          ∃ now, h = [clock now, ran (findResetToken (hashToken token)) (some tokenRow)]) [] := by
  unfold findActiveToken
  rw [Api.meets_query]
  refine ⟨.read rfl, fun found _ => ?_, by simp⟩
  cases found with
  | none => simp
  | some tokenRow =>
    dsimp only
    split
    . simp
    . next hunused =>
      rw [Api.meets_now]
      refine ⟨.now, fun now => ?_⟩
      split
      . simp
      . simpa using hunused

theorem resetPassword_meets (dto : ResetPasswordDto)
    : (resetPassword cfg dto).Meets Answers (Issues (.resetPassword dto))
        (fun h r => ∀ userId, r = .ok userId →
          ∃ tokenRow, tokenRow.userId = userId ∧ ResetMarked dto tokenRow h) [] := by
  unfold resetPassword
  refine (findActiveToken_meets dto.token).bind ?_ (by simp)
  intro h1 tokenRow _ hactive
  obtain ⟨hunused, now, hfound⟩ := hactive tokenRow rfl
  refine (assertNotDefaultUser_meets _).bind ?_ (by simp)
  intro h2 _ _ hsame
  rw [hfound] at hsame
  subst hsame
  rw [Api.meets_query]
  refine ⟨.read rfl, fun user _ => ?_, by simp⟩
  unfold assertNotDenied
  split
  . simp
  . rw [Prog.pure_bind, Api.meets_bcryptHash]
    refine ⟨.genSalt, fun salt => ?_⟩
    rw [Api.meets_query]
    have hread : OnlyRead [] [⟨.genSalt, salt⟩, ran (findUserById tokenRow.userId) user, clock now,
        ran (findResetToken (hashToken dto.token)) (some tokenRow)] :=
      ⟨_, (List.append_nil _).symm, by simp⟩
    refine ⟨.user (.setPassword rfl (.ready hunused)) hread, fun affected _ => ?_, by simp⟩
    rw [Api.meets_now]
    refine ⟨.now, fun usedAt => ?_⟩
    rw [Api.meets_query]
    have hset : PasswordSet dto tokenRow (ran (setPassword tokenRow.userId
        (Platform.bcryptHash salt dto.password)) affected :: [⟨.genSalt, salt⟩,
        ran (findUserById tokenRow.userId) user, clock now,
        ran (findResetToken (hashToken dto.token)) (some tokenRow)]) := .set (.ready hunused)
    refine ⟨.reset (.markUsed rfl rfl hset), fun _ _ userId huser => ?_, by simp⟩
    rw [Except.ok.injEq] at huser
    exact ⟨tokenRow, huser, .marked hset⟩

end PasswordResetService

end Kerghan
