import Kerghan.Auth.Account.FailureCount
import Kerghan.Auth.CoolOff.Clock

/-!
This module contains what an account edit without success does to the lockout of its user, if it runs
alone.
-/

namespace Kerghan

open AccountEditAbuseGuardService

variable [Platform] {cfg : AuthConfig} {userId : Nat} {w w' : Moment}

namespace AccountService

def askToEdit (cfg : AuthConfig) (userId : Nat) (dto : UpdateAccountDto) : Api User := do
  assertAnyFieldPresent dto.toUserFieldChangesDto
  assertNotManaged cfg userId dto.toUserFieldChangesDto
  assertNotLockedOut userId
  loadUser userId

def judgeEdit (cfg : AuthConfig) (userId : Nat) (dto : UpdateAccountDto)
    (currentRefreshToken : Option String) (user : User)
    : Api AccountSummary := do
  applyGuardedChecks cfg user dto
  let result ← UserUpdateService.applyUserUpdate user dto.toUserFieldChangesDto
  reset userId
  revokeAfterEdit userId dto.newPassword .passwordChange currentRefreshToken
  pure result

theorem updateAccount_eq (dto : UpdateAccountDto) (currentRefreshToken : Option String)
    : updateAccount cfg userId dto currentRefreshToken =
        askToEdit cfg userId dto >>= judgeEdit cfg userId dto currentRefreshToken := by
  unfold updateAccount askToEdit judgeEdit
  simp only [Prog.bind_assoc]

end AccountService

def editState (db : AuthDb) (userId : Nat) : CoolOff.State :=
  match storedLockout db userId with
  | some lockout => { attempts := lockout.failedAttempts, lockedUntil := lockout.lockedUntil }
  | none => .initial

def editPolicy (cfg : AuthConfig) : CoolOff.Policy where
  maxAttempts := maxAttempts cfg
  lockMs := lockMs cfg
  store := toDatetime
  monotone := toDatetime_monotone

section Ask

theorem editState_found {db : AuthDb} {rank : AccountEditLockout → Int} {choice : Nat}
    {lockout : AccountEditLockout}
    (hfound : (db .accountEditLockouts).first (fun r => r.userId == userId) rank choice = some lockout)
    : lockout ∈ (db .accountEditLockouts).rows ∧ lockout.userId = userId ∧
        editState db userId = ⟨lockout.failedAttempts, lockout.lockedUntil⟩ := by
  obtain ⟨hmem, huser⟩ := Table.first_eq_some hfound
  rw [beq_iff_eq] at huser
  refine ⟨hmem, huser, ?_⟩
  rw [editState, storedLockout_eq hmem huser]

theorem editState_missing {db : AuthDb} {rank : AccountEditLockout → Int} {choice : Nat}
    (hmissing : (db .accountEditLockouts).first (fun r => r.userId == userId) rank choice = none)
    : (∀ r ∈ (db .accountEditLockouts).rows, r.userId ≠ userId) ∧ editState db userId = .initial := by
  have hnone : ∀ r ∈ (db .accountEditLockouts).rows, r.userId ≠ userId := by
    intro r hr huser
    refine Table.first_ne_none hr ?_ hmissing
    exact beq_iff_eq.mpr huser
  refine ⟨hnone, ?_⟩
  rw [editState, storedLockout_none hnone]

theorem isLockedOut_runs {lockedOut : Bool}
    (hruns : (isLockedOut userId).Runs AuthEffect.tick w (.ok lockedOut) w')
    : lockedOut = false → (editState w.1 userId).Unlocked w'.2 := by
  unfold isLockedOut at hruns
  rcases Prog.runs_bind.mp hruns with ⟨found, w₁, hfind, hrest⟩ | ⟨_, _, hresult⟩
  . obtain ⟨hsame, choice, hfound⟩ := tick_find hfind
    intro hpassed lockedUntil hlocked
    cases found with
    | none =>
      rw [(editState_missing hfound.symm).2] at hlocked
      simp [CoolOff.State.initial] at hlocked
    | some lockout =>
      rw [(editState_found hfound.symm).2.2] at hlocked
      dsimp only at hlocked hrest
      rw [hlocked] at hrest
      rcases Prog.runs_bind.mp hrest with ⟨now, w₂, hnow, hend⟩ | ⟨_, _, hresult⟩
      . obtain ⟨_, rfl⟩ := tick_now hnow
        obtain ⟨hresult, rfl⟩ := Prog.runs_pure.mp hend
        rw [Except.ok.injEq, hpassed] at hresult
        simpa using hresult.symm
      . simp at hresult
  . simp at hresult

omit [Platform] in
theorem askToEdit_reads (dto : UpdateAccountDto)
    : (AccountService.askToEdit cfg userId dto).Meets Answers (fun _ s => s.writes = false) Anyhow
        [] := by
  unfold AccountService.askToEdit
  refine (assertAnyFieldPresent_reads _).bind ?_ (fun _ _ _ _ => trivial)
  intro _ _ _ _
  refine (assertNotManaged_reads _).bind ?_ (fun _ _ _ _ => trivial)
  intro _ _ _ _
  refine assertNotLockedOut_reads.bind ?_ (fun _ _ _ _ => trivial)
  intro _ _ _ _
  exact loadUser_reads.mono fun _ _ _ _ => trivial

theorem askToEdit_runs {dto : UpdateAccountDto} {user : User}
    (hruns : (AccountService.askToEdit cfg userId dto).Runs AuthEffect.tick w (.ok user) w')
    : user.id = userId ∧ ∃ asked, w.2 ≤ asked ∧ asked ≤ w'.2 ∧ (editState w.1 userId).Unlocked asked := by
  unfold AccountService.askToEdit at hruns
  obtain ⟨_, w₁, hany, hruns⟩ := hruns.of_bind
  obtain ⟨_, w₂, hmanaged, hruns⟩ := hruns.of_bind
  obtain ⟨_, w₃, hlockedOut, hload⟩ := hruns.of_bind
  have hsame₁ := db_of_reads (assertAnyFieldPresent_reads (h := []) _) hany
  have hsame₂ := db_of_reads (assertNotManaged_reads (h := []) _) hmanaged
  constructor
  . obtain ⟨_, _, hid⟩ := (loadUser_reads (h := [])).runs answers_tick hload
    exact hid user rfl
  . unfold AccountService.assertNotLockedOut at hlockedOut
    obtain ⟨lockedOut, w₄, hasked, hend⟩ := hlockedOut.of_bind
    split at hend
    . simp at hend
    . next hpassed =>
      obtain ⟨_, rfl⟩ := Prog.runs_pure.mp hend
      have hunlocked := isLockedOut_runs hasked (by simpa using hpassed)
      rw [hsame₂, hsame₁] at hunlocked
      refine ⟨w₃.2, ?_, time_le hload, hunlocked⟩
      exact Int.le_trans (Int.le_trans (time_le hany) (time_le hmanaged)) (time_le hasked)

end Ask

section Judge

def OthersKept (userId : Nat) (db db' : AuthDb) : Prop :=
  ∀ other, other ≠ userId → editState db' other = editState db other

theorem OthersKept.of_rows {db db' : AuthDb}
    (hsame : ∀ r : AccountEditLockout, r.userId ≠ userId →
      (r ∈ (db' .accountEditLockouts).rows ↔ r ∈ (db .accountEditLockouts).rows))
    : OthersKept userId db db' := by
  intro other hother
  have hcongr : storedLockout db' other = storedLockout db other := by
    apply storedLockout_congr
    intro r huser
    rw [← huser] at hother
    exact hsame r hother
  rw [editState, editState, hcongr]

theorem editState_update {db db' : AuthDb} {e : DbEnv} {lockout : AccountEditLockout} {attempts : Int}
    {lockedUntil : Option Date} {affected : Nat} (hmem : lockout ∈ (db .accountEditLockouts).rows)
    (huser : lockout.userId = userId)
    (hexec : (updateLockout lockout.id attempts lockedUntil).exec e db = (.ok affected, db'))
    : editState db' userId = ⟨attempts, lockedUntil.map toDatetime⟩ ∧ OthersKept userId db db' := by
  obtain ⟨now, hrows⟩ := Stmt.mem_rows_update hexec
  constructor
  . have hmem' : { lockout with failedAttempts := attempts, lockedUntil := lockedUntil.map toDatetime } ∈
        (db' .accountEditLockouts).rows := (hrows _).mpr ⟨lockout, hmem, if_pos (by simp)⟩
    rw [editState, storedLockout_eq hmem' huser]
  . apply OthersKept.of_rows
    intro r hother
    rw [hrows]
    constructor
    . rintro ⟨r', hr', heq⟩
      split at heq
      . next hid =>
        rw [Table.eq_of_id_eq hr' hmem (beq_iff_eq.mp hid)] at heq
        rw [← heq] at hother
        exact absurd huser hother
      . rwa [← heq]
    . intro hr
      refine ⟨r, hr, if_neg fun hid => ?_⟩
      rw [Table.eq_of_id_eq hr hmem (beq_iff_eq.mp hid)] at hother
      exact hother huser

theorem editState_insert {db db' : AuthDb} {e : DbEnv} {attempts : Int} {lockedUntil : Option Date}
    {row : AccountEditLockout}
    (hexec : (insertLockout userId attempts lockedUntil).exec e db = (.ok row, db'))
    : editState db' userId = ⟨attempts, lockedUntil.map toDatetime⟩ ∧ OthersKept userId db db' := by
  obtain ⟨now, hrow, hrows, _⟩ := Stmt.exec_insert hexec
  have huser : row.userId = userId := by rw [hrow]
  constructor
  . have hmem' : row ∈ (db' .accountEditLockouts).rows := by
      rw [hrows]
      exact List.mem_append_right _ (List.mem_singleton_self _)
    rw [editState, storedLockout_eq hmem' huser, hrow]
  . apply OthersKept.of_rows
    intro r hother
    rw [hrows, List.mem_append, List.mem_singleton]
    constructor
    . rintro (hr | rfl)
      . exact hr
      . exact absurd huser hother
    . exact Or.inl

/--
The state that `computeLockoutState` computes is that of a failure now, once it is stored.
-/
theorem computeLockoutState_runs {attempts maxAttempts lockMs : Int} {state : LockoutState}
    (hruns : (computeLockoutState attempts maxAttempts lockMs).Runs AuthEffect.tick w (.ok state) w')
    : w'.1 = w.1 ∧
        ∀ lockedUntil, (⟨state.attempts, state.lockedUntil.map toDatetime⟩ : CoolOff.State) =
          CoolOff.Policy.fail ⟨maxAttempts, lockMs, toDatetime, toDatetime_monotone⟩
            ⟨attempts, lockedUntil⟩ w'.2 := by
  unfold computeLockoutState at hruns
  unfold CoolOff.Policy.fail
  dsimp only at hruns ⊢
  split at hruns
  . next hreached =>
    obtain ⟨now, w₁, hnow, hend⟩ := hruns.of_bind
    obtain ⟨hsame, rfl⟩ := tick_now hnow
    obtain ⟨hresult, rfl⟩ := Prog.runs_pure.mp hend
    rw [Except.ok.injEq] at hresult
    subst hresult
    refine ⟨hsame, fun _ => ?_⟩
    rw [if_pos hreached]
    rfl
  . next hbelow =>
    obtain ⟨hresult, rfl⟩ := Prog.runs_pure.mp hruns
    rw [Except.ok.injEq] at hresult
    subst hresult
    refine ⟨rfl, fun _ => ?_⟩
    rw [if_neg hbelow]
    rfl

structure FailureRecorded (cfg : AuthConfig) (userId : Nat) (w : Moment) (recorded : Date) (w' : Moment)
    : Prop where
  after : w.2 ≤ recorded
  before : recorded ≤ w'.2
  state : editState w'.1 userId = (editPolicy cfg).fail (editState w.1 userId) recorded
  others : OthersKept userId w.1 w'.1

theorem registerFailure_runs (hruns : (registerFailure cfg userId).Runs AuthEffect.tick w (.ok ()) w')
    : ∃ recorded, FailureRecorded cfg userId w recorded w' := by
  unfold registerFailure at hruns
  obtain ⟨found, w₁, hfind, hrest⟩ := hruns.of_bind
  obtain ⟨hsame, choice, hfound⟩ := tick_find hfind
  have htime := time_le hfind
  cases found with
  | some lockout =>
    obtain ⟨hmem, huser, hstate⟩ := editState_found hfound.symm
    dsimp only at hrest
    unfold applyFailure nextAttemptState at hrest
    obtain ⟨state, w₂, hcompute, hrest⟩ := hrest.of_bind
    obtain ⟨affected, w₃, hupdate, hend⟩ := hrest.of_bind
    obtain ⟨_, rfl⟩ := Prog.runs_pure.mp hend
    obtain ⟨hsame₂, hfail⟩ := computeLockoutState_runs hcompute
    obtain ⟨e, hexec, _⟩ := tick_query hupdate
    rw [hsame₂, hsame] at hexec
    obtain ⟨hstate', hothers⟩ := editState_update hmem huser hexec
    refine ⟨w₂.2, Int.le_trans htime (time_le hcompute), time_le hupdate, ?_, hothers⟩
    rw [hstate', hstate, editPolicy, hfail lockout.lockedUntil]
  | none =>
    obtain ⟨hnone, hstate⟩ := editState_missing hfound.symm
    dsimp only at hrest
    unfold insertFirstFailure nextAttemptState at hrest
    obtain ⟨state, w₂, hcompute, hrest⟩ := hrest.of_bind
    obtain ⟨hsame₂, hfail⟩ := computeLockoutState_runs hcompute
    rcases Prog.runs_tryCatch hrest with ⟨_, _, hinsert⟩ | ⟨err, w₃, hinsert, hrecover⟩
    . obtain ⟨row, w₃, hinsert, hend⟩ := hinsert.of_bind
      obtain ⟨_, rfl⟩ := Prog.runs_pure.mp hend
      obtain ⟨e, hexec, _⟩ := tick_query hinsert
      rw [hsame₂, hsame] at hexec
      obtain ⟨hstate', hothers⟩ := editState_insert hexec
      refine ⟨w₂.2, Int.le_trans htime (time_le hcompute), time_le hinsert, ?_, hothers⟩
      rw [hstate', hstate, editPolicy, hfail none]
      rfl
    . -- nobody else can have inserted the row since the lookup
      unfold recoverFromInsertRace at hrecover
      split at hrecover
      . simp at hrecover
      . next hduplicate =>
        rw [ne_eq, Decidable.not_not] at hduplicate
        rcases Prog.runs_bind.mp hinsert with ⟨_, _, _, hend⟩ | ⟨err', hinsert, hresult⟩
        . simp at hend
        . obtain ⟨e, dbErr, hexec, herr⟩ := tick_query_error hinsert
          rw [Except.error.injEq] at hresult
          rw [← hresult, hduplicate, HttpError.database.injEq] at herr
          rw [← herr] at hexec
          obtain ⟨_, r, hr, hclash⟩ := Stmt.exec_insert_duplicate (fun _ _ => rfl) hexec
          rw [hsame₂, hsame] at hr
          exact absurd (beq_iff_eq.mp hclash) (hnone r hr)

theorem registerFailure_errors {err : HttpError}
    (hruns : (registerFailure cfg userId).Runs AuthEffect.tick w (.error err) w')
    : ¬IsRefusal err := by
  have happly : ∀ {lockout : AccountEditLockout} {h : AuthHistory},
      (applyFailure cfg lockout).Meets Answers (fun _ _ => True) OnlyDatabase h := by
    intro lockout h
    unfold applyFailure
    refine (nextAttemptState_counts _).imp (fun _ _ _ => trivial) |>.bind ?_ ?_
    . intro h' state _ _
      rw [Api.meets_query]
      exact ⟨trivial, by simp, by simp⟩
    . rintro h' err _ ⟨_, state, hstate, _⟩
      simp at hstate
  have hprog : (registerFailure cfg userId).Meets Answers (fun _ _ => True) OnlyDatabase [] := by
    unfold registerFailure
    rw [Api.meets_query]
    refine ⟨trivial, fun found _ => ?_, by simp⟩
    cases found with
    | some lockout => exact happly
    | none =>
      dsimp only
      unfold insertFirstFailure
      refine (nextAttemptState_counts _).imp (fun _ _ _ => trivial) |>.bind ?_ ?_
      . intro h' state _ _
        refine Prog.Meets.tryCatch (Q := OnlyDatabase) ?_ ?_ ?_
        . rw [Api.meets_query]
          exact ⟨trivial, by simp, by simp⟩
        . exact fun _ _ _ h => h
        . intro h'' err _ herr
          obtain ⟨e, rfl⟩ := herr err rfl
          unfold recoverFromInsertRace
          split
          . simp
          . rw [Api.meets_query]
            refine ⟨trivial, fun found _ => ?_, by simp⟩
            cases found with
            | none => simp
            | some lockout => exact happly
      . rintro h' err _ ⟨_, state, hstate, _⟩
        simp at hstate
  obtain ⟨_, hresult⟩ := hprog.runs answers_tick hruns
  obtain ⟨e, rfl⟩ := hresult err rfl
  exact fun hrefusal => hrefusal e rfl

theorem judgeEdit_rest (dto : UpdateAccountDto) (currentRefreshToken : Option String) (user : User)
    : (do
        let result ← UserUpdateService.applyUserUpdate user dto.toUserFieldChangesDto
        reset userId
        AccountService.revokeAfterEdit userId dto.newPassword .passwordChange currentRefreshToken
        pure result : Api AccountSummary).Meets Answers (fun _ _ => True) OnlyDatabase [] := by
  have hreset : ∀ {h : AuthHistory}, (reset userId).Meets Answers (fun _ _ => True) OnlyDatabase h := by
    intro h
    unfold reset
    rw [Api.meets_query]
    refine ⟨trivial, fun found _ => ?_, by simp⟩
    cases found with
    | none => simp
    | some lockout =>
      dsimp only
      rw [Api.meets_query]
      exact ⟨trivial, by simp, by simp⟩
  have hrevoke : ∀ {h : AuthHistory}, (AccountService.revokeAfterEdit userId dto.newPassword
      .passwordChange currentRefreshToken).Meets Answers (fun _ _ => True) OnlyDatabase h := by
    intro h
    unfold AccountService.revokeAfterEdit TokenService.revokeUserTokens
    split
    . simp
    . rw [Api.meets_now]
      refine ⟨trivial, fun now => ?_⟩
      rw [Api.meets_query]
      exact ⟨trivial, by simp, by simp⟩
  have happly : (UserUpdateService.applyUserUpdate user dto.toUserFieldChangesDto).Meets Answers
      (fun _ _ => True) OnlyDatabase [] := by
    unfold UserUpdateService.applyUserUpdate UserUpdateService.hashNewPassword
    split
    . rw [Prog.pure_bind, Api.meets_query]
      exact ⟨trivial, by simp, by simp⟩
    . rw [Api.meets_bcryptHash]
      refine ⟨trivial, fun salt => ?_⟩
      rw [Api.meets_query]
      exact ⟨trivial, by simp, by simp⟩
  have hpass : ∀ {α β : Type} (h' : AuthHistory) (err : HttpError),
      OnlyDatabase h' (.error err : Except HttpError α) →
        OnlyDatabase h' (.error err : Except HttpError β) := by
    intro α β h' err herr err' heq
    exact herr err' (by rw [Except.error.inj heq])
  -- the edit, the reset and the revocation only fail with the database
  refine happly.bind ?_ (fun h' err _ => hpass h' err)
  intro _ result _ _
  refine hreset.bind ?_ (fun h' err _ => hpass h' err)
  intro _ _ _ _
  refine hrevoke.bind ?_ (fun h' err _ => hpass h' err)
  intro _ _ _ _
  simp

theorem judgeEdit_runs {dto : UpdateAccountDto} {currentRefreshToken : Option String} {user : User}
    {err : HttpError} (hid : user.id = userId) (herr : IsRefusal err)
    (hruns : (AccountService.judgeEdit cfg userId dto currentRefreshToken user).Runs AuthEffect.tick w
      (.error err) w')
    : ∃ recorded, FailureRecorded cfg userId w recorded w' := by
  unfold AccountService.judgeEdit at hruns
  rcases Prog.runs_bind.mp hruns with ⟨_, w₁, _, hrest⟩ | ⟨err', hchecks, hresult⟩
  . obtain ⟨_, hdatabase⟩ := (judgeEdit_rest dto currentRefreshToken user).runs answers_tick hrest
    obtain ⟨e, rfl⟩ := hdatabase err rfl
    exact absurd rfl (herr e)
  . rw [Except.error.injEq] at hresult
    subst hresult
    unfold AccountService.applyGuardedChecks at hchecks
    rcases Prog.runs_tryCatch hchecks with ⟨_, hok, _⟩ | ⟨err', w₁, hfailed, hhandler⟩
    . simp at hok
    . have hsame := db_of_reads (checks_read (h := []) user dto) hfailed
      rw [hid] at hhandler
      rcases Prog.runs_bind.mp hhandler with ⟨_, w₂, hregistered, hend⟩ | ⟨err'', hlost, hresult⟩
      . obtain ⟨_, rfl⟩ := Prog.runs_throw.mp hend
        obtain ⟨recorded, hle, hle', hstate, hothers⟩ := registerFailure_runs hregistered
        rw [hsame] at hstate hothers
        exact ⟨recorded, Int.le_trans (time_le hfailed) hle, hle', hstate, hothers⟩
      . rw [Except.error.injEq] at hresult
        rw [hresult] at herr
        exact absurd herr (registerFailure_errors hlost)

end Judge

/--
A sequential edit of an account that does not succeed. Only what it guesses about this user's password
counts as a guess.
-/
def EditAttempt (cfg : AuthConfig) (userId : Nat) (w : Moment) (label : Option Date) (w' : Moment)
    : Prop :=
  ∃ editedId dto currentRefreshToken guess,
    FailedAttempt (AccountService.askToEdit cfg editedId dto)
      (AccountService.judgeEdit cfg editedId dto currentRefreshToken) w guess w'
      ∧
    label = if editedId = userId then guess else none

theorem EditAttempt.of_runs {editedId : Nat} {dto : UpdateAccountDto}
    {currentRefreshToken : Option String} {err : HttpError} (herr : IsRefusal err)
    (hruns : (AccountService.updateAccount cfg editedId dto currentRefreshToken).Runs AuthEffect.tick w
      (.error err) w')
    : ∃ label, EditAttempt cfg userId w label w' := by
  rw [AccountService.updateAccount_eq] at hruns
  obtain ⟨guess, hattempt⟩ := FailedAttempt.of_runs hruns herr
  exact ⟨_, editedId, dto, currentRefreshToken, guess, hattempt, rfl⟩

theorem EditAttempt.attempt {label : Option Date} (h : EditAttempt cfg userId w label w')
    : CoolOff.Attempt (editPolicy cfg) (editState w.1 userId, w.2) label (editState w'.1 userId, w'.2)
        := by
  obtain ⟨editedId, dto, currentRefreshToken, guess, hfailed, rfl⟩ := h
  cases hfailed with
  | refused hask herr =>
    rw [db_of_reads (askToEdit_reads dto) hask, ite_self]
    exact .refused (time_le hask)
  | judged hask hguess hjudge herr =>
    obtain ⟨hid, asked, hle, hle', hunlocked⟩ := askToEdit_runs hask
    obtain ⟨recorded, hrecorded, htime, hstate, hothers⟩ := judgeEdit_runs hid herr hjudge
    have hsame := db_of_reads (askToEdit_reads dto) hask
    dsimp only at hstate hothers
    rw [hsame] at hstate hothers
    by_cases hedited : editedId = userId
    . subst hedited
      rw [if_pos rfl, hstate]
      exact .failed hle hunlocked (Int.le_trans hle' hguess) hrecorded htime
    . rw [if_neg hedited, hothers userId fun heq => hedited heq.symm]
      exact .refused (Int.le_trans (Int.le_trans (time_le hask) hguess) (time_le hjudge))

end Kerghan
