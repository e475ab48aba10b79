import Kerghan.Auth.Lemmas.Run

/-!
This module contains the proof that every call spares the default user: no call sends a statement that
could change its row or store or mark one of its password reset tokens.
-/

namespace Kerghan

open DefaultUserService

variable (cfg : AuthConfig)

/--
What a call may do next without touching the default user, if `h` is what it has done so far.
-/
inductive Spares (h : AuthHistory) : AuthEffect → Prop where
  | free {s : AuthEffect} (hs : s.writes = false) : Spares h s
  | elsewhere {s : AuthStmt} {table : AuthTable} (htable : s.table = table)
    (hother : table ≠ .users ∧ table ≠ .passwordResetTokens)
    : Spares h (.db s)
  | register {username email passwordDigest : String} {isAdmin : Bool} {status : UserStatus}
    : Spares h (.db (insertUser username email passwordDigest isAdmin status))
  | approve {userId : Nat} : Spares h (.db (approvePending userId))
  | edit {userId : Nat} {p : User → Bool} {f : Date → User → User}
    (hother : isDefaultUser cfg userId = false) (hcovers : ∀ u, p u = true → u.id = userId)
    : Spares h (.db (.update .users p f))
  | prune {userId : Nat} {p : PasswordResetToken → Bool}
    (hother : isDefaultUser cfg userId = false) (hcovers : ∀ r, p r = true → r.userId = userId)
    : Spares h (.db (.delete .passwordResetTokens p))
  | issue {userId : Nat} {tokenHash : String} {expiresAt : Date}
    (hother : isDefaultUser cfg userId = false)
    : Spares h (.db (insertResetToken userId tokenHash expiresAt))
  | markUsed {tokenRow : PasswordResetToken} {now : Date}
    (hother : isDefaultUser cfg tokenRow.userId = false)
    (hfound : Found h .passwordResetTokens tokenRow)
    : Spares h (.db (markResetTokenUsed tokenRow.id now))

variable {cfg} {h : AuthHistory}

namespace DefaultUserService

theorem assertNotDefaultUser_spares (userId : Nat)
    : (assertNotDefaultUser cfg userId).Meets Answers (Spares cfg)
        (fun h' r => h' = h ∧ (r = .ok () → isDefaultUser cfg userId = false)) h := by
  unfold assertNotDefaultUser
  split
  . simp
  . next hother => simpa using hother

end DefaultUserService

theorem hasManagedField_of_truthy {dto : UserFieldChangesDto}
    (hany : ¬((truthy dto.username).isNone && (truthy dto.email).isNone
      && (truthy dto.newPassword).isNone) = true)
    : hasManagedField dto = true := by
  have hgiven : ∀ value : Option String, ¬(truthy value).isNone = true → value.isSome = true := by
    intro value hvalue
    cases value with
    | none => exact absurd rfl hvalue
    | some => rfl
  unfold hasManagedField
  simp only [Bool.or_eq_true]
  by_cases husername : (truthy dto.username).isNone = true
  . by_cases hemail : (truthy dto.email).isNone = true
    . apply Or.inr
      apply hgiven
      simpa [husername, hemail] using hany
    . exact Or.inl (Or.inr (hgiven _ hemail))
  . exact Or.inl (Or.inl (hgiven _ husername))

theorem assertNotManaged_spares {userId : Nat} {dto : UserFieldChangesDto}
    (hmanaged : hasManagedField dto = true)
    : (assertNotManaged cfg userId dto).Meets Answers (Spares cfg)
        (fun _ r => r = .ok () → isDefaultUser cfg userId = false) h := by
  unfold assertNotManaged
  rw [if_pos hmanaged]
  exact (DefaultUserService.assertNotDefaultUser_spares userId).mono fun _ _ _ hpassed => hpassed.2

theorem assertAnyFieldPresent_spares (dto : UserFieldChangesDto)
    : (assertAnyFieldPresent dto).Meets Answers (Spares cfg)
        (fun _ r => r = .ok () → hasManagedField dto = true) h := by
  unfold assertAnyFieldPresent
  split
  . simp
  . next hany => exact fun _ => hasManagedField_of_truthy hany

namespace AdminService

theorem findUserOrThrow_spares (id : Nat)
    : (findUserOrThrow id).Meets Answers (Spares cfg) (fun _ r => ∀ user, r = .ok user → user.id = id)
        h := by
  unfold findUserOrThrow
  rw [Api.meets_query]
  refine ⟨.free rfl, fun found hfound => ?_, by simp⟩
  cases found with
  | none => simp
  | some user => simpa using findUserById_id hfound

end AdminService

variable [Platform]

theorem Spares.tokens {criteria : TokenCriteria} {now : Date} {reason : RevokedReason}
    : Spares cfg h (.db (revokeTokens criteria now reason)) :=
  .elsewhere rfl (by simp)

theorem Issues.spares {call : Call} {s : AuthEffect} (hissues : Issues call h s)
    (hedits : ∀ userId dto, call.edits = some (userId, dto) → isDefaultUser cfg userId = false)
    (hdeny : ∀ userId callerId, call = .denyUser userId callerId → isDefaultUser cfg userId = false)
    (hrecovers : call.recovers = false) (hreset : ∀ dto, call ≠ .resetPassword dto)
    : Spares cfg h s := by
  cases hissues with
  | read hread => exact .free (congrArg not hread)
  | token hwrite => exact .elsewhere hwrite.table (by simp)
  | request hwrite => exact .elsewhere hwrite.table (by simp)
  | lockout _ htable => exact .elsewhere htable (by simp)
  | user hwrite =>
    cases hwrite with
    | insert => exact .register
    | save hcall _ hid =>
      apply Spares.edit (hedits _ _ hcall)
      intro u hu
      exact (beq_iff_eq.mp hu).trans hid
    | setPassword hcall => exact absurd hcall (hreset _)
    | approve => exact .approve
    | deny hcall =>
      apply Spares.edit (hdeny _ _ hcall)
      exact fun u hu => beq_iff_eq.mp hu
  | reset hwrite =>
    cases hwrite with
    | pruneExpired hcall | pruneUsed hcall | insert hcall =>
      rw [hrecovers] at hcall
      exact absurd hcall Bool.false_ne_true
    | markUsed hcall => exact absurd hcall (hreset _)
  | _ => exact .free rfl

theorem prog_spares {call : Call}
    (hedits : ∀ userId dto, call.edits = some (userId, dto) → isDefaultUser cfg userId = false)
    (hdeny : ∀ userId callerId, call = .denyUser userId callerId → isDefaultUser cfg userId = false)
    (hrecovers : call.recovers = false) (hreset : ∀ dto, call ≠ .resetPassword dto)
    : (call.prog cfg).Meets Answers (Spares cfg) Anyhow [] := by
  refine Prog.Meets.imp ((prog_meets cfg call).mono fun _ _ _ _ => trivial) fun h s hissues => ?_
  exact hissues.spares hedits hdeny hrecovers hreset

/--
`updateAccount` never gets past its guards for the default user.
-/
theorem AccountService.updateAccount_spares (userId : Nat) (dto : UpdateAccountDto)
    (refreshToken : Option String) (hdefault : isDefaultUser cfg userId = true)
    : (updateAccount cfg userId dto refreshToken).Meets Answers (Spares cfg) Anyhow h := by
  unfold updateAccount
  refine (assertAnyFieldPresent_spares _).bind ?_ (fun _ _ _ _ => trivial)
  intro _ _ _ hmanaged
  refine (assertNotManaged_spares (hmanaged rfl)).bind ?_ (fun _ _ _ _ => trivial)
  intro _ _ _ hother
  rw [hother rfl] at hdefault
  exact absurd hdefault Bool.false_ne_true

namespace AdminService

theorem editUser_spares (userId : Nat) (dto : UserFieldChangesDto)
    (hdefault : isDefaultUser cfg userId = true)
    : (editUser cfg userId dto).Meets Answers (Spares cfg) Anyhow h := by
  unfold editUser
  refine (assertAnyFieldPresent_spares _).bind ?_ (fun _ _ _ _ => trivial)
  intro _ _ _ hmanaged
  refine (findUserOrThrow_spares userId).bind ?_ (fun _ _ _ _ => trivial)
  intro _ user _ hid
  refine (assertNotManaged_spares (hmanaged rfl)).bind ?_ (fun _ _ _ _ => trivial)
  intro _ _ _ hother
  rw [← hid user rfl, hother rfl] at hdefault
  exact absurd hdefault Bool.false_ne_true

theorem denyUser_spares (userId callerId : Nat) (hdefault : isDefaultUser cfg userId = true)
    : (denyUser cfg userId callerId).Meets Answers (Spares cfg) Anyhow h := by
  unfold denyUser
  refine (findUserOrThrow_spares userId).bind ?_ (fun _ _ _ _ => trivial)
  intro _ user _ hid
  refine (DefaultUserService.assertNotDefaultUser_spares user.id).bind ?_ (fun _ _ _ _ => trivial)
  intro _ _ _ hother
  rw [← hid user rfl, hother.2 rfl] at hdefault
  exact absurd hdefault Bool.false_ne_true

end AdminService

namespace PasswordResetService

theorem issueToken_spares (user : User) (hother : isDefaultUser cfg user.id = false)
    : (issueToken cfg user).Meets Answers (Spares cfg) Anyhow h := by
  unfold issueToken pruneSpentTokens
  rw [Api.meets_randomBytes]
  refine ⟨.free rfl, fun token => ?_⟩
  simp only [Prog.bind_assoc, Prog.pure_bind]
  rw [Api.meets_now]
  refine ⟨.free rfl, fun now => ?_⟩
  rw [Api.meets_query]
  refine ⟨.prune hother (by simp +contextual), fun _ _ => ?_, fun _ => trivial⟩
  rw [Api.meets_query]
  refine ⟨.prune hother (by simp +contextual), fun _ _ => ?_, fun _ => trivial⟩
  rw [Api.meets_now]
  refine ⟨.free rfl, fun now' => ?_⟩
  unfold saveToken
  split
  . trivial
  . simp only [Prog.bind_assoc]
    rw [Api.meets_query]
    exact ⟨.issue hother, fun _ _ => trivial, fun _ => trivial⟩

theorem recover_spares (email : String)
    : (recover cfg email).Meets Answers (Spares cfg) Anyhow h := by
  unfold recover
  rw [Api.meets_query]
  refine ⟨.free rfl, fun found _ => ?_, fun _ => trivial⟩
  cases found with
  | none => trivial
  | some user =>
    dsimp only
    split
    . trivial
    . next hpassed =>
      have hother : isDefaultUser cfg user.id = false := by
        simp only [Bool.or_eq_true, decide_eq_true_eq, not_or] at hpassed
        simpa using hpassed.2
      refine (issueToken_spares user hother).bind ?_ (fun _ _ _ _ => trivial)
      intro _ _ _ _
      exact ⟨.free rfl, fun _ _ => trivial⟩

theorem resetPassword_spares (dto : ResetPasswordDto)
    : (resetPassword cfg dto).Meets Answers (Spares cfg) Anyhow h := by
  have hactive : (findActiveToken dto.token).Meets Answers (Spares cfg)
      (fun h' r => ∀ tokenRow, r = .ok tokenRow → Found h' .passwordResetTokens tokenRow) h := by
    unfold findActiveToken
    rw [Api.meets_query]
    refine ⟨.free rfl, fun found _ => ?_, by simp⟩
    cases found with
    | none => simp
    | some tokenRow =>
      have hfound : Found (ran (findResetToken (hashToken dto.token)) (some tokenRow) :: h)
          .passwordResetTokens tokenRow := found_of_ran (List.mem_cons_self ..)
      dsimp only
      split
      . simp
      . rw [Api.meets_now]
        refine ⟨.free rfl, fun now => ?_⟩
        split
        . simp
        . simpa using hfound.mono (List.subset_cons_self ..)
  unfold resetPassword
  refine hactive.bind ?_ (fun _ _ _ _ => trivial)
  intro h1 tokenRow _ hfound
  refine (DefaultUserService.assertNotDefaultUser_spares _).bind ?_ (fun _ _ _ _ => trivial)
  rintro _ _ _ ⟨rfl, hother⟩
  rw [Api.meets_query]
  refine ⟨.free rfl, fun user _ => ?_, fun _ => trivial⟩
  unfold assertNotDenied
  split
  . trivial
  . rw [Prog.pure_bind, Api.meets_bcryptHash]
    refine ⟨.free rfl, fun salt => ?_⟩
    rw [Api.meets_query]
    refine ⟨.edit (hother rfl) (by simp), fun affected _ => ?_, fun _ => trivial⟩
    rw [Api.meets_now]
    refine ⟨.free rfl, fun usedAt => ?_⟩
    rw [Api.meets_query]
    refine ⟨.markUsed (hother rfl) ?_, fun _ _ => trivial, fun _ => trivial⟩
    exact (hfound tokenRow rfl).mono (List.subset_append_right [_, _, _, _] _)

end PasswordResetService

theorem AuthService.resetPassword_spares (dto : ResetPasswordDto)
    : (AuthService.resetPassword cfg dto).Meets Answers (Spares cfg) Anyhow h := by
  unfold AuthService.resetPassword TokenService.revokeUserTokens
  refine (PasswordResetService.resetPassword_spares dto).bind ?_ (fun _ _ _ _ => trivial)
  intro _ _ _ _
  rw [Api.meets_now]
  refine ⟨.free rfl, fun now => ?_⟩
  rw [Api.meets_query]
  exact ⟨.tokens, fun _ _ => trivial, fun _ => trivial⟩

namespace AdminService

theorem issueRecoveryToken_spares (user : User)
    : (issueRecoveryToken cfg user).Meets Answers (Spares cfg) Anyhow h := by
  unfold issueRecoveryToken
  refine (DefaultUserService.assertNotDefaultUser_spares _).bind ?_ (fun _ _ _ _ => trivial)
  intro _ _ _ hother
  exact PasswordResetService.issueToken_spares user (hother.2 rfl)

theorem generateRecoveryLink_spares (userId : Nat)
    : (generateRecoveryLink cfg userId).Meets Answers (Spares cfg) Anyhow h := by
  unfold generateRecoveryLink
  refine (findUserOrThrow_spares userId).bind ?_ (fun _ _ _ _ => trivial)
  intro _ user _ _
  refine (issueRecoveryToken_spares user).bind ?_ (fun _ _ _ _ => trivial)
  intro _ _ _ _
  trivial

theorem sendRecoveryEmail_spares (userId : Nat)
    : (sendRecoveryEmail cfg userId).Meets Answers (Spares cfg) Anyhow h := by
  unfold sendRecoveryEmail
  refine (findUserOrThrow_spares userId).bind ?_ (fun _ _ _ _ => trivial)
  intro _ user _ _
  refine (issueRecoveryToken_spares user).bind ?_ (fun _ _ _ _ => trivial)
  intro _ _ _ _
  exact ⟨.free rfl, fun _ _ => trivial⟩

end AdminService

theorem Call.prog_spares (call : Call)
    : (call.prog cfg).Meets Answers (Spares cfg) Anyhow [] := by
  have hmap : ∀ {α : Type} {prog : Api α} {f : α → Reply},
      prog.Meets Answers (Spares cfg) Anyhow [] → (f <$> prog).Meets Answers (Spares cfg) Anyhow [] :=
    fun hprog => hprog.map (fun _ _ _ => trivial) (fun _ _ _ => trivial)
  cases call with
  | updateAccount userId dto refreshToken =>
    cases hdefault : isDefaultUser cfg userId with
    | true => exact hmap (AccountService.updateAccount_spares userId dto refreshToken hdefault)
    | false => exact Kerghan.prog_spares (by simp [Call.edits, hdefault]) (by simp) rfl (by simp)
  | editUser userId dto =>
    cases hdefault : isDefaultUser cfg userId with
    | true => exact hmap (AdminService.editUser_spares userId dto hdefault)
    | false => exact Kerghan.prog_spares (by simp [Call.edits, hdefault]) (by simp) rfl (by simp)
  | denyUser userId callerId =>
    cases hdefault : isDefaultUser cfg userId with
    | true => exact hmap (AdminService.denyUser_spares userId callerId hdefault)
    | false => exact Kerghan.prog_spares (by simp [Call.edits]) (by simp [hdefault]) rfl (by simp)
  | recover email => exact hmap (PasswordResetService.recover_spares email)
  | generateRecoveryLink userId => exact hmap (AdminService.generateRecoveryLink_spares userId)
  | sendRecoveryEmail userId => exact hmap (AdminService.sendRecoveryEmail_spares userId)
  | resetPassword dto => exact hmap (AuthService.resetPassword_spares dto)
  | _ => exact Kerghan.prog_spares (by simp [Call.edits]) (by simp) rfl (by simp)

end Kerghan
