import Kerghan.Auth.Lemmas.Run

/-!
This module contains the proof that `updateAccount` counts a failed validation exactly once, and what it
has read when it does.
-/

namespace Kerghan

/--
The exceptions that `applyGuardedChecks` throws for a failed validation.
-/
def failsValidation : HttpError → Bool
  | .badRequest message => message == "Invalid current password"
  | .conflict code _ => code == .usernameTaken || code == .emailTaken
  | _ => false

def isLockoutWrite : (s : AuthEffect) × AuthAnswer s → Bool
  | ⟨.db s, .ok _⟩ => s.table == .accountEditLockouts && !s.isRead
  | _ => false

theorem isLockoutWrite_iff {ev : (s : AuthEffect) × AuthAnswer s}
    : isLockoutWrite ev = true ↔
        ∃ (s : AuthStmt) (a : s.Answer),
          ev = ran s a ∧ s.table = .accountEditLockouts ∧ s.isRead = false := by
  constructor
  . intro hwrite
    obtain ⟨s, r⟩ := ev
    cases s with
    | db s =>
      cases r with
      | ok a =>
        simp only [isLockoutWrite, Bool.and_eq_true, beq_iff_eq, Bool.not_eq_true'] at hwrite
        exact ⟨s, a, rfl, hwrite⟩
      | error e => simp [isLockoutWrite] at hwrite
    | _ => simp [isLockoutWrite] at hwrite
  . rintro ⟨s, a, rfl, htable, hread⟩
    simp only [isLockoutWrite]
    rw [htable, hread]
    rfl

def lastLockout : AuthHistory → Option AccountEditLockout
  | ⟨.db (.find .accountEditLockouts _ _), .ok found⟩ :: _ => found
  | _ :: h => lastLockout h
  | [] => none

theorem lastLockout_found {h : AuthHistory} {lockout : AccountEditLockout}
    (hlast : lastLockout h = some lockout)
    : Found h .accountEditLockouts lockout := by
  fun_induction lastLockout h with
  | case1 p rank found h =>
    subst hlast
    exact ⟨p, rank, List.mem_cons_self ..⟩
  | case2 ev h _ ih => exact (ih hlast).mono (List.subset_cons_self ..)
  | case3 => simp at hlast

def HasSaved (h : AuthHistory) : Prop :=
  ∃ s, ∃ a : Stmt.Answer s, s.table = .users ∧ s.isRead = false ∧ ran s a ∈ h

def Unwritten (h : AuthHistory) : Prop :=
  ∀ (s : AuthStmt) (a : s.Answer), ran s a ∈ h → s.isRead = true

section Unwritten

variable {h : AuthHistory}

@[simp]
theorem Unwritten.nil : Unwritten [] := by
  simp [Unwritten]

theorem Unwritten.append {newer : AuthHistory} (hunwritten : Unwritten h)
    (hnewer : ∀ ev ∈ newer, ev.1.writes = false)
    : Unwritten (newer ++ h) := by
  intro s a hmem
  rcases List.mem_append.mp hmem with hnew | hold
  . simpa [AuthEffect.writes] using hnewer _ hnew
  . exact hunwritten s a hold

theorem Unwritten.failed {s : AuthStmt} {e : DbError} (hunwritten : Unwritten h)
    : Unwritten (failed s e :: h) := by
  intro s' a hmem
  rcases List.mem_cons.mp hmem with heq | hold
  . obtain ⟨heffect, hresp⟩ := Sigma.mk.inj heq
    cases heffect
    exact absurd (eq_of_heq hresp) (by simp)
  . exact hunwritten s' a hold

theorem Unwritten.countP (hunwritten : Unwritten h) : h.countP isLockoutWrite = 0 := by
  rw [List.countP_eq_zero]
  intro ev hev hwrite
  obtain ⟨s, a, rfl, _, hread⟩ := isLockoutWrite_iff.mp hwrite
  exact absurd (hread.symm.trans (hunwritten s a hev)) Bool.false_ne_true

theorem Unwritten.not_saved (hunwritten : Unwritten h) : ¬HasSaved h := by
  rintro ⟨s, a, _, hread, hmem⟩
  exact absurd (hread.symm.trans (hunwritten s a hmem)) Bool.false_ne_true

end Unwritten

/--
How a part of a call ends that counts no failure: not with a failed validation.
-/
def Uncounted {α : Type} (_ : AuthHistory) (r : Except HttpError α) : Prop :=
  ∀ e, r = .error e → failsValidation e = false

section Uncounted

variable {h : AuthHistory} {α : Type}

@[simp]
theorem uncounted_ok {a : α} : Uncounted h (.ok a) := by
  simp [Uncounted]

@[simp]
theorem uncounted_error {e : HttpError}
    : Uncounted h (.error e : Except HttpError α) ↔ failsValidation e = false := by
  simp [Uncounted]

end Uncounted

def LostLockout (userId : Nat) (h : AuthHistory) : Prop :=
  ∃ attempts lockedUntil older,
    ran (findLockout userId) none ::
      failed (insertLockout userId attempts lockedUntil) .duplicateEntry :: older <:+ h

section Uncounted

variable {cfg : AuthConfig} {userId : Nat} {h : AuthHistory}

def Counted (userId : Nat) (h : AuthHistory) : Prop :=
  ¬HasSaved h ∧ (h.countP isLockoutWrite = 1 ∨ LostLockout userId h)

theorem counted_cons {s : AuthStmt} {a : s.Answer} (hunwritten : Unwritten h)
    (htable : s.table = .accountEditLockouts) (hread : s.isRead = false)
    : Counted userId (ran s a :: h) := by
  constructor
  . rintro ⟨s', a', htable', hread', hmem⟩
    rcases List.mem_cons.mp hmem with heq | hold
    . have : s' = s := AuthEffect.db.inj (congrArg Sigma.fst heq)
      rw [this, htable] at htable'
      exact absurd htable' (by simp)
    . exact hunwritten.not_saved ⟨s', a', htable', hread', hold⟩
  . left
    have hwrite : isLockoutWrite (ran s a) = true := isLockoutWrite_iff.mpr ⟨s, a, rfl, htable, hread⟩
    rw [List.countP_cons, hunwritten.countP, if_pos hwrite]

def CountedIfFailed {α : Type} (userId : Nat) (h : AuthHistory) (r : Except HttpError α) : Prop :=
  ∀ e, r = .error e → failsValidation e = true → Counted userId h

@[simp]
theorem countedIfFailed_ok {α : Type} {a : α} : CountedIfFailed userId h (.ok a) := by
  simp [CountedIfFailed]

theorem CountedIfFailed.of_uncounted {α β : Type} {h' : AuthHistory} {e : HttpError}
    (huncounted : Uncounted h' (.error e : Except HttpError α))
    : CountedIfFailed userId h (.error e : Except HttpError β) := by
  intro e' heq hfails
  rw [← Except.error.inj heq, uncounted_error.mp huncounted] at hfails
  exact absurd hfails Bool.false_ne_true

theorem assertAnyFieldPresent_reads (dto : UserFieldChangesDto)
    : (assertAnyFieldPresent dto).Meets Answers (fun _ s => s.writes = false) Uncounted h := by
  unfold assertAnyFieldPresent
  split
  . rw [Prog.meets_throw]
    simp [failsValidation]
  . simp

theorem assertNotManaged_reads (dto : UserFieldChangesDto)
    : (assertNotManaged cfg userId dto).Meets Answers (fun _ s => s.writes = false) Uncounted h := by
  unfold assertNotManaged DefaultUserService.assertNotDefaultUser
  split
  . split
    . rw [Prog.meets_throw]
      simp [failsValidation]
    . simp
  . simp

theorem assertNotLockedOut_reads
    : (AccountService.assertNotLockedOut userId).Meets Answers (fun _ s => s.writes = false) Uncounted
        h := by
  unfold AccountService.assertNotLockedOut
  have hlockedOut : (AccountEditAbuseGuardService.isLockedOut userId).Meets Answers
      (fun _ s => s.writes = false) Uncounted h := by
    unfold AccountEditAbuseGuardService.isLockedOut
    rw [Api.meets_query]
    refine ⟨rfl, fun found _ => ?_, by simp [failsValidation]⟩
    cases found with
    | none => simp
    | some lockout =>
      dsimp only
      split
      . simp
      . rw [Api.meets_now]
        exact ⟨rfl, by simp⟩
  refine hlockedOut.bind ?_ (fun _ _ _ huncounted => by simpa using huncounted)
  intro h' lockedOut _ _
  split
  . rw [Prog.meets_throw]
    simp [failsValidation]
  . simp

theorem loadUser_reads
    : (AccountService.loadUser userId).Meets Answers (fun _ s => s.writes = false)
        (fun h' r => Uncounted h' r ∧ ∀ user, r = .ok user → user.id = userId) h := by
  unfold AccountService.loadUser
  rw [Api.meets_query]
  refine ⟨rfl, fun found hfound => ?_, by simp [failsValidation]⟩
  cases found with
  | none => simp [failsValidation]
  | some user => simpa using findUserById_id hfound

end Uncounted

variable [Platform]

/--
The writes to the lockouts, and what `updateAccount` has read before it sends them.
-/
inductive LockoutWrite (cfg : AuthConfig) (userId : Nat) (h : AuthHistory) : AuthStmt → Prop where
  | first {lockedUntil : Option Date}
    (hlocked : AccountEditAbuseGuardService.maxAttempts cfg ≤ 1 → lockedUntil ≠ none)
    : LockoutWrite cfg userId h (insertLockout userId 1 lockedUntil)
  | again {lockout : AccountEditLockout} {lockedUntil : Option Date}
    (hloaded : lastLockout h = some lockout) (huser : lockout.userId = userId)
    (hlocked : AccountEditAbuseGuardService.maxAttempts cfg ≤ lockout.failedAttempts + 1 →
      lockedUntil ≠ none)
    : LockoutWrite cfg userId h (updateLockout lockout.id (lockout.failedAttempts + 1) lockedUntil)
  | reset {lockout : AccountEditLockout} (hfound : Found h .accountEditLockouts lockout)
    (huser : lockout.userId = userId) (hsaved : HasSaved h)
    : LockoutWrite cfg userId h (updateLockout lockout.id 0 none)

/--
What `updateAccount` may do next to the lockouts.
-/
inductive CountsFailures (cfg : AuthConfig) (userId : Nat) (h : AuthHistory) : AuthEffect → Prop where
  | elsewhere {s : AuthEffect}
    (hs : ∀ s' : AuthStmt, s = .db s' → s'.table = .accountEditLockouts → s'.isRead = true)
    : CountsFailures cfg userId h s
  | lockout {s : AuthStmt} (hwrite : LockoutWrite cfg userId h s) : CountsFailures cfg userId h (.db s)

def Call.editsAccount (userId : Nat) : Call → Bool
  | .updateAccount userId' _ _ => userId' == userId
  | _ => false

variable {cfg : AuthConfig} {userId : Nat} {h : AuthHistory}

theorem CountsFailures.free {s : AuthEffect} (hs : s.writes = false) : CountsFailures cfg userId h s := by
  refine .elsewhere fun s' heq _ => ?_
  subst heq
  simpa [AuthEffect.writes] using hs

theorem CountsFailures.table {s : AuthStmt} {table : AuthTable} (htable : s.table = table)
    (hne : table ≠ .accountEditLockouts)
    : CountsFailures cfg userId h (.db s) := by
  refine .elsewhere fun s' heq htable' => ?_
  rw [← AuthEffect.db.inj heq] at htable'
  exact absurd (htable.symm.trans htable') hne

section Guards

theorem reading {α : Type} {prog : Api α} {Q : AuthHistory → Except HttpError α → Prop}
    (hprog : prog.Meets Answers (fun _ s => s.writes = false) Q h) (hunwritten : Unwritten h)
    : prog.Meets Answers (CountsFailures cfg userId) (fun h' r => Q h' r ∧ Unwritten h') h := by
  refine ((hprog.added fun _ _ hs => hs).imp fun _ _ hs => .free hs).mono fun h' r _ hq => ?_
  obtain ⟨hq, newer, rfl, hnewer⟩ := hq
  exact ⟨hq, hunwritten.append hnewer⟩

theorem assertFieldAvailableIfGiven_reads (field : UserField) (value : Option String)
    (excludeUserId : Nat)
    : (assertFieldAvailableIfGiven field value excludeUserId).Meets Answers
        (fun _ s => s.writes = false) Anyhow h := by
  unfold assertFieldAvailableIfGiven
  split
  . trivial
  . unfold assertFieldAvailable
    rw [Api.meets_query]
    refine ⟨rfl, fun existing _ => ?_, fun _ => trivial⟩
    cases existing with
    | none => trivial
    | some _ => cases field <;> trivial

theorem checks_read (user : User) (dto : UpdateAccountDto)
    : (do
        AccountService.verifyCurrentPassword user dto.currentPassword
        assertNewValuesAvailable user dto.toUserFieldChangesDto : Api Unit).Meets Answers
        (fun _ s => s.writes = false) Anyhow h := by
  unfold AccountService.verifyCurrentPassword
  split
  . unfold assertNewValuesAvailable assertAvailableForUpdate
    refine (assertFieldAvailableIfGiven_reads ..).bind ?_ (fun _ _ _ _ => trivial)
    intro _ _ _ _
    exact assertFieldAvailableIfGiven_reads ..
  . trivial

end Guards

namespace AccountEditAbuseGuardService

open AuthorizationRequestAbuseGuardService in
theorem nextAttemptState_counts (currentAttempts : Int)
    : (nextAttemptState cfg currentAttempts).Meets Answers (fun _ s => s.writes = false)
        (fun h' r => lastLockout h' = lastLockout h ∧ ∃ state, r = .ok state
          ∧ state.attempts = currentAttempts + 1
          ∧ (maxAttempts cfg ≤ currentAttempts + 1 → state.lockedUntil ≠ none)) h := by
  unfold nextAttemptState computeLockoutState
  dsimp only
  split
  . rw [Api.meets_now]
    exact ⟨rfl, fun now => ⟨rfl, _, rfl, rfl, by simp⟩⟩
  . next hless => exact ⟨rfl, _, rfl, rfl, fun hle => absurd hle hless⟩

/--
How `registerFailure` ends if nothing had been written before.
-/
abbrev Registers (userId : Nat) (h : AuthHistory) (r : Except HttpError Unit) : Prop :=
  Uncounted h r ∧ (r = .ok () → Counted userId h)

theorem applyFailure_counts {lockout : AccountEditLockout} (hunwritten : Unwritten h)
    (hlast : lastLockout h = some lockout) (huser : lockout.userId = userId)
    : (applyFailure cfg lockout).Meets Answers (CountsFailures cfg userId) (Registers userId) h := by
  unfold applyFailure
  refine (reading (nextAttemptState_counts _) hunwritten).bind ?_ ?_
  . rintro h' state _ ⟨⟨hsame, state', hstate, hattempts, hlocked⟩, hunwritten'⟩
    cases hstate
    rw [hattempts, Api.meets_query]
    refine ⟨.lockout (.again (hsame.trans hlast) huser hlocked), fun affected _ => ?_, fun e => ?_⟩
    . exact ⟨uncounted_ok, fun _ => counted_cons hunwritten' rfl rfl⟩
    . exact ⟨uncounted_error.mpr rfl, by simp⟩
  . rintro h' e _ ⟨⟨_, state, hstate, _⟩, _⟩
    simp at hstate

theorem recoverFromInsertRace_counts {e : DbError} {attempts : Int} {lockedUntil : Option Date}
    (hunwritten : Unwritten h)
    : (recoverFromInsertRace cfg userId (.database e)).Meets Answers (CountsFailures cfg userId)
        (Registers userId) (failed (insertLockout userId attempts lockedUntil) e :: h) := by
  unfold recoverFromInsertRace
  split
  . exact ⟨uncounted_error.mpr rfl, by simp⟩
  . next hduplicate =>
    simp only [ne_eq, HttpError.database.injEq, Decidable.not_not] at hduplicate
    subst hduplicate
    rw [Api.meets_query]
    refine ⟨.free rfl, fun found hfound => ?_, fun e => ?_⟩
    . have hunwritten' : Unwritten (ran (findLockout userId) found ::
          failed (insertLockout userId attempts lockedUntil) .duplicateEntry :: h) :=
        @Unwritten.append _ [ran (findLockout userId) found] hunwritten.failed (by simp)
      cases found with
      | none =>
        refine ⟨uncounted_ok, fun _ => ⟨hunwritten'.not_saved, Or.inr ?_⟩⟩
        exact ⟨attempts, lockedUntil, h, List.suffix_refl _⟩
      | some lockout => exact applyFailure_counts hunwritten' rfl (beq_iff_eq.mp hfound)
    . exact ⟨uncounted_error.mpr rfl, by simp⟩

theorem insertFirstFailure_counts (hunwritten : Unwritten h)
    : (insertFirstFailure cfg userId).Meets Answers (CountsFailures cfg userId) (Registers userId) h := by
  unfold insertFirstFailure
  refine (reading (nextAttemptState_counts 0) hunwritten).bind ?_ ?_
  . rintro h' state _ ⟨⟨_, state', hstate, hattempts, hlocked⟩, hunwritten'⟩
    cases hstate
    rw [hattempts]
    refine Prog.Meets.tryCatch (Q := fun h'' r => (r = .ok () → Counted userId h'') ∧
      ∀ e, r = .error e → ∃ e', e = .database e' ∧
        h'' = failed (insertLockout userId (0 + 1) state.lockedUntil) e' :: h') ?_ ?_ ?_
    . rw [Api.meets_query]
      refine ⟨.lockout (.first hlocked), fun _ _ => ?_, fun e' => ?_⟩
      . exact ⟨fun _ => counted_cons hunwritten' rfl rfl, by simp⟩
      . refine ⟨by simp, fun e he => ⟨e', ?_, rfl⟩⟩
        exact (Except.error.inj he).symm
    . exact fun h'' _ _ hcounted => ⟨uncounted_ok, hcounted.1⟩
    . intro h'' error _ hfailed
      obtain ⟨e', rfl, rfl⟩ := hfailed.2 error rfl
      exact recoverFromInsertRace_counts hunwritten'
  . rintro h' e _ ⟨⟨_, state, hstate, _⟩, _⟩
    simp at hstate

theorem registerFailure_counts (hunwritten : Unwritten h)
    : (registerFailure cfg userId).Meets Answers (CountsFailures cfg userId) (Registers userId) h := by
  unfold registerFailure
  rw [Api.meets_query]
  refine ⟨.free rfl, fun found hfound => ?_, fun e => ⟨uncounted_error.mpr rfl, by simp⟩⟩
  have hunwritten' : Unwritten (ran (findLockout userId) found :: h) :=
    @Unwritten.append _ [ran (findLockout userId) found] hunwritten (by simp)
  cases found with
  | none => exact insertFirstFailure_counts hunwritten'
  | some lockout => exact applyFailure_counts hunwritten' rfl (beq_iff_eq.mp hfound)

theorem reset_counts (hsaved : HasSaved h)
    : (reset userId).Meets Answers (CountsFailures cfg userId) Uncounted h := by
  unfold reset
  rw [Api.meets_query]
  refine ⟨.free rfl, fun found hfound => ?_, fun e => uncounted_error.mpr rfl⟩
  cases found with
  | none => exact uncounted_ok
  | some lockout =>
    dsimp only
    rw [Api.meets_query]
    have hsaved' : HasSaved (ran (findLockout userId) (some lockout) :: h) := by
      obtain ⟨s, a, htable, hread, hmem⟩ := hsaved
      exact ⟨s, a, htable, hread, List.mem_cons_of_mem _ hmem⟩
    refine ⟨.lockout (.reset (found_of_ran (List.mem_cons_self ..)) (beq_iff_eq.mp hfound) hsaved'), ?_, ?_⟩
    . exact fun _ _ => uncounted_ok
    . exact fun e => uncounted_error.mpr rfl

end AccountEditAbuseGuardService

namespace AccountService

theorem applyGuardedChecks_counts (user : User) (dto : UpdateAccountDto) (hid : user.id = userId)
    (hunwritten : Unwritten h)
    : (applyGuardedChecks cfg user dto).Meets Answers (CountsFailures cfg userId)
        (fun h' r => CountedIfFailed userId h' r ∧ (r = .ok () → Unwritten h')) h := by
  unfold applyGuardedChecks
  refine (reading (checks_read user dto) hunwritten).tryCatch ?_ ?_
  . exact fun _ _ _ hunwritten' => ⟨countedIfFailed_ok, fun _ => hunwritten'.2⟩
  . intro h' error _ hunwritten'
    rw [hid]
    refine (AccountEditAbuseGuardService.registerFailure_counts hunwritten'.2).bind ?_ ?_
    . exact fun h'' _ _ hregistered => ⟨fun _ _ _ => hregistered.2 rfl, by simp⟩
    . exact fun h'' _ _ hregistered => ⟨.of_uncounted hregistered.1, by simp⟩

theorem applyUserUpdate_counts (user : User) (changes : UserFieldChangesDto)
    : (UserUpdateService.applyUserUpdate user changes).Meets Answers (CountsFailures cfg userId)
        (fun h' r => Uncounted h' r ∧ ∀ summary, r = .ok summary → HasSaved h') h := by
  have hhash : (UserUpdateService.hashNewPassword user changes.newPassword).Meets Answers
      (CountsFailures cfg userId) (fun h' r => ∃ digest, r = .ok digest) h := by
    unfold UserUpdateService.hashNewPassword
    cases truthy changes.newPassword with
    | none => exact ⟨_, rfl⟩
    | some given => exact ⟨.free rfl, fun salt _ => ⟨_, rfl⟩⟩
  unfold UserUpdateService.applyUserUpdate
  refine hhash.bind ?_ (by simp)
  intro h' passwordDigest _ _
  rw [Api.meets_query]
  refine ⟨.table rfl (by simp), fun affected _ => ?_, fun e => ⟨uncounted_error.mpr rfl, by simp⟩⟩
  exact ⟨uncounted_ok, fun _ _ => ⟨_, _, rfl, rfl, List.mem_cons_self ..⟩⟩

theorem revokeAfterEdit_counts (newPassword keep : Option String) (reason : RevokedReason)
    : (revokeAfterEdit userId newPassword reason keep).Meets Answers (CountsFailures cfg userId)
        Uncounted h := by
  unfold revokeAfterEdit TokenService.revokeUserTokens
  split
  . exact uncounted_ok
  . rw [Api.meets_now]
    refine ⟨.free rfl, fun now => ?_⟩
    rw [Api.meets_query]
    exact ⟨.table rfl (by simp), fun _ _ => uncounted_ok, fun e => uncounted_error.mpr rfl⟩

theorem updateAccount_counts (dto : UpdateAccountDto) (refreshToken : Option String)
    : (updateAccount cfg userId dto refreshToken).Meets Answers (CountsFailures cfg userId)
        (CountedIfFailed userId) [] := by
  unfold updateAccount
  refine (reading (assertAnyFieldPresent_reads _) .nil).bind ?_ (fun _ _ _ hq => .of_uncounted hq.1)
  intro h1 _ _ ⟨_, hunwritten1⟩
  refine (reading (assertNotManaged_reads _) hunwritten1).bind ?_ (fun _ _ _ hq => .of_uncounted hq.1)
  intro h2 _ _ ⟨_, hunwritten2⟩
  refine (reading assertNotLockedOut_reads hunwritten2).bind ?_ (fun _ _ _ hq => .of_uncounted hq.1)
  intro h3 _ _ ⟨_, hunwritten3⟩
  refine (reading loadUser_reads hunwritten3).bind ?_ (fun _ _ _ hq => .of_uncounted hq.1.1)
  intro h4 user _ ⟨⟨_, hid⟩, hunwritten4⟩
  refine (applyGuardedChecks_counts user dto (hid user rfl) hunwritten4).bind ?_ ?_
  . intro h5 _ _ _
    refine (applyUserUpdate_counts user _).bind ?_ (fun _ _ _ hq => .of_uncounted hq.1)
    intro h6 summary _ hsaved
    refine (AccountEditAbuseGuardService.reset_counts (hsaved.2 summary rfl)).bind ?_
      (fun _ _ _ hq => .of_uncounted hq)
    intro h7 _ _ _
    refine (revokeAfterEdit_counts _ _ _).bind ?_ (fun _ _ _ hq => .of_uncounted hq)
    exact fun _ _ _ _ => countedIfFailed_ok
  . intro h5 e _ hcounted
    exact fun e' he => hcounted.1 e' (by rw [← Except.error.inj he])

end AccountService

def CountsFailuresOf (cfg : AuthConfig) (call : Call) (h : AuthHistory) (s : AuthEffect) : Prop :=
  match call with
  | .updateAccount userId _ _ => CountsFailures cfg userId h s
  | _ => ∀ s' : AuthStmt, s = .db s' → s'.table = .accountEditLockouts → s'.isRead = true

/--
Only `updateAccount` writes to the lockouts.
-/
theorem prog_counts (call : Call)
    : (call.prog cfg).Meets Answers (CountsFailuresOf cfg call)
        (fun h r => ∀ userId, call.editsAccount userId = true → CountedIfFailed userId h r) [] := by
  have hother : (∀ userId dto refreshToken, call ≠ .updateAccount userId dto refreshToken) →
      (call.prog cfg).Meets Answers
        (fun _ s => ∀ s' : AuthStmt, s = .db s' → s'.table = .accountEditLockouts → s'.isRead = true)
        Anyhow [] := by
    intro hcall
    refine Prog.Meets.imp ((prog_meets cfg call).mono fun _ _ _ _ => trivial) ?_
    rintro h s hissues s' rfl htable
    cases hread : s'.isRead with
    | true => rfl
    | false =>
      cases hissues with
      | lockout heq _ => exact absurd heq (hcall _ _ _)
      | read hread' => exact absurd (hread.symm.trans hread') Bool.false_ne_true
      | token hwrite | request hwrite | reset hwrite | user hwrite _ =>
        exact absurd (hwrite.table.symm.trans htable) (by simp)
  cases call with
  | updateAccount userId dto refreshToken =>
    refine (AccountService.updateAccount_counts dto refreshToken).map ?_ ?_
    . exact fun _ _ _ _ _ => countedIfFailed_ok
    . intro h e hcounted userId' heq
      obtain rfl : userId = userId' := beq_iff_eq.mp heq
      exact fun e' he => hcounted e' (by rw [← Except.error.inj he])
  | _ => exact (hother (by simp)).mono fun _ _ _ _ _ hedits => absurd hedits Bool.false_ne_true

end Kerghan
