import Kerghan.Auth.CoolOff.Edits

/-!
This module contains what an authorization without success does to its request if it runs alone, and the
law of the cool-off that both guards keep to.
-/

namespace Kerghan

section

open AuthorizationRequestAbuseGuardService

variable [Platform] {cfg : AuthConfig} {uuid : String} {w w' : Moment}

namespace AuthorizationRequestService

/--
What an authorization asks for before it compares the password, or before the comparison counts.
-/
def askToAuthorize (uuid : String) (approverUserId : Nat)
    : Api (AuthorizationRequest × Option User) := do
  let request ← loadOwnedOpenRequest uuid approverUserId AUTHORIZE_FAILURE_MESSAGE
  let now ← Api.now
  if request.expiresAt < now then
    throw (.badRequest AUTHORIZE_FAILURE_MESSAGE)
  else
    let lockedOut ← isLockedOut request
    let approver ← Api.query (findUserById approverUserId)
    if lockedOut then
      throw (.badRequest AUTHORIZE_FAILURE_MESSAGE)
    else
      pure (request, approver)

def judgeAuthorize (cfg : AuthConfig) (uuid : String) (approverUserId : Nat) (password : String)
    (asked : AuthorizationRequest × Option User)
    : Api Unit :=
  if !compareOrDummy password (asked.2.map User.passwordDigest) then do
    registerAuthorizeFailure cfg asked.1
    throw (.badRequest AUTHORIZE_FAILURE_MESSAGE)
  else do
    let resolvedAt ← Api.now
    let _ ← Api.query (approveRequest asked.1.id approverUserId resolvedAt)
    Api.emit (.authorizationRequestApproved uuid approverUserId)

theorem authorize_eq (approverUserId : Nat) (password : String)
    : authorize cfg uuid approverUserId password =
        askToAuthorize uuid approverUserId >>= judgeAuthorize cfg uuid approverUserId password := by
  unfold authorize askToAuthorize approverPasswordValid judgeAuthorize
  rw [Prog.bind_assoc]
  congr 1
  funext request
  rw [Prog.bind_assoc]
  congr 1
  funext now
  split
  . rfl
  . simp only [Prog.bind_assoc, Prog.pure_bind]
    congr 1
    funext lockedOut
    congr 1
    funext approver
    cases lockedOut <;> rfl

end AuthorizationRequestService

open AuthorizationRequestService

def requestState (db : AuthDb) (uuid : String) : CoolOff.State :=
  match (db .authorizationRequests).rows.find? fun r => sameText r.uuid uuid with
  | some request =>
    { attempts := request.authorizeFailedAttempts, lockedUntil := request.authorizeLockedUntil }
  | none => .initial

def authorizePolicy (cfg : AuthConfig) : CoolOff.Policy where
  maxAttempts := authorizeMaxAttempts cfg
  lockMs := authorizeLockMs cfg
  store := toDatetime
  monotone := toDatetime_monotone

theorem requestState_eq {db : AuthDb} {request : AuthorizationRequest}
    (hmem : request ∈ (db .authorizationRequests).rows) (huuid : sameText request.uuid uuid = true)
    : requestState db uuid = ⟨request.authorizeFailedAttempts, request.authorizeLockedUntil⟩ := by
  unfold requestState
  cases hfind : (db .authorizationRequests).rows.find? fun r => sameText r.uuid uuid with
  | none => exact absurd huuid (List.find?_eq_none.mp hfind request hmem)
  | some found =>
    have hfound := List.find?_some hfind
    have hsame : sameText found.uuid request.uuid = true := by
      rw [sameText_comm] at huuid
      exact sameText_trans hfound huuid
    have hclash : Entity.clash found request = true := (Bool.or_eq_true _ _).mpr (Or.inl hsame)
    rw [Table.eq_of_clash (List.mem_of_find?_eq_some hfind) hmem hclash]

section Ask

variable {approverUserId : Nat}

theorem loadOwnedOpenRequest_reads (failureMessage : String)
    : (loadOwnedOpenRequest uuid approverUserId failureMessage).Meets Answers
        (fun _ s => s.writes = false) Anyhow [] := by
  unfold loadOwnedOpenRequest
  rw [Api.meets_query]
  refine ⟨rfl, fun found _ => ?_, fun _ => trivial⟩
  cases found with
  | none => trivial
  | some request =>
    dsimp only
    split <;> trivial

theorem askToAuthorize_reads
    : (askToAuthorize uuid approverUserId).Meets Answers (fun _ s => s.writes = false) Anyhow [] := by
  unfold askToAuthorize
  refine (loadOwnedOpenRequest_reads _).bind ?_ (fun _ _ _ _ => trivial)
  intro h request _ _
  rw [Api.meets_now]
  refine ⟨rfl, fun now => ?_⟩
  split
  . trivial
  . have hlockedOut : ∀ {h : AuthHistory}, (isLockedOut request).Meets Answers
        (fun _ s => s.writes = false) Anyhow h := by
      intro h
      unfold isLockedOut
      split
      . trivial
      . rw [Api.meets_now]
        exact ⟨rfl, fun _ => trivial⟩
    refine hlockedOut.bind ?_ (fun _ _ _ _ => trivial)
    intro h lockedOut _ _
    rw [Api.meets_query]
    refine ⟨rfl, fun approver _ => ?_, fun _ => trivial⟩
    split <;> trivial

theorem askToAuthorize_runs {asked : AuthorizationRequest × Option User}
    (hruns : (askToAuthorize uuid approverUserId).Runs AuthEffect.tick w (.ok asked) w')
    : asked.1 ∈ (w.1 .authorizationRequests).rows ∧ sameText asked.1.uuid uuid = true ∧
        ∃ now, w.2 ≤ now ∧ now ≤ w'.2 ∧ (requestState w.1 uuid).Unlocked now := by
  unfold askToAuthorize at hruns
  obtain ⟨request, w₁, hload, hrest⟩ := hruns.of_bind
  obtain ⟨now, w₂, hnow, hrest⟩ := hrest.of_bind
  split at hrest
  . simp at hrest
  . obtain ⟨lockedOut, w₃, hlockedOut, hrest⟩ := hrest.of_bind
    obtain ⟨approver, w₄, happrover, hend⟩ := hrest.of_bind
    split at hend
    . simp at hend
    . next hpassed =>
      obtain ⟨hresult, rfl⟩ := Prog.runs_pure.mp hend
      rw [Except.ok.injEq] at hresult
      subst hresult
      have hfound : request ∈ (w.1 .authorizationRequests).rows ∧ sameText request.uuid uuid = true := by
        unfold loadOwnedOpenRequest at hload
        obtain ⟨found, w₅, hfind, hload⟩ := hload.of_bind
        obtain ⟨_, choice, hfound⟩ := tick_find hfind
        cases found with
        | none => simp at hload
        | some request' =>
          dsimp only at hload
          split at hload
          . simp at hload
          . obtain ⟨hresult, _⟩ := Prog.runs_pure.mp hload
            rw [Except.ok.inj hresult]
            exact Table.first_eq_some hfound.symm
      refine ⟨hfound.1, hfound.2, w₃.2, ?_, time_le happrover, ?_⟩
      . exact Int.le_trans (Int.le_trans (time_le hload) (time_le hnow)) (time_le hlockedOut)
      . intro lockedUntil hlocked
        rw [requestState_eq hfound.1 hfound.2] at hlocked
        unfold isLockedOut at hlockedOut
        dsimp only at hlocked
        rw [hlocked] at hlockedOut
        obtain ⟨now', w₆, hnow', hend⟩ := hlockedOut.of_bind
        obtain ⟨_, rfl⟩ := tick_now hnow'
        obtain ⟨hresult, rfl⟩ := Prog.runs_pure.mp hend
        rw [Except.ok.injEq] at hresult
        rw [hresult] at hpassed
        simpa using hpassed

end Ask

section Judge

variable {approverUserId : Nat} {password : String}

theorem requestState_update {db db' : AuthDb} {e : DbEnv} {request : AuthorizationRequest}
    {attempts : Int} {lockedUntil : Option Date} {affected : Nat}
    (hmem : request ∈ (db .authorizationRequests).rows) (huuid : sameText request.uuid uuid = true)
    (hexec : (countAuthorizeFailure request.id attempts lockedUntil).exec e db = (.ok affected, db'))
    : requestState db' uuid = ⟨attempts, lockedUntil.map toDatetime⟩ := by
  obtain ⟨now, hrows⟩ := Stmt.mem_rows_update hexec
  have hmem' : { request with
      authorizeFailedAttempts := attempts
      authorizeLockedUntil := lockedUntil.map toDatetime } ∈ (db' .authorizationRequests).rows :=
    (hrows _).mpr ⟨request, hmem, if_pos (by simp)⟩
  rw [requestState_eq hmem' huuid]

theorem judgeAuthorize_runs {asked : AuthorizationRequest × Option User} {err : HttpError}
    (hmem : asked.1 ∈ (w.1 .authorizationRequests).rows) (huuid : sameText asked.1.uuid uuid = true)
    (herr : IsRefusal err)
    (hruns : (judgeAuthorize cfg uuid approverUserId password asked).Runs AuthEffect.tick w (.error err) w')
    : ∃ recorded, w.2 ≤ recorded ∧ recorded ≤ w'.2 ∧
        requestState w'.1 uuid = (authorizePolicy cfg).fail (requestState w.1 uuid) recorded := by
  unfold judgeAuthorize at hruns
  split at hruns
  . rcases Prog.runs_bind.mp hruns with ⟨_, w₁, hregistered, hend⟩ | ⟨err', hlost, hresult⟩
    . obtain ⟨_, rfl⟩ := Prog.runs_throw.mp hend
      unfold registerAuthorizeFailure at hregistered
      obtain ⟨state, w₂, hcompute, hrest⟩ := hregistered.of_bind
      obtain ⟨affected, w₃, hupdate, hend⟩ := hrest.of_bind
      obtain ⟨_, rfl⟩ := Prog.runs_pure.mp hend
      obtain ⟨hsame, hfail⟩ := computeLockoutState_runs hcompute
      obtain ⟨e, hexec, _⟩ := tick_query hupdate
      rw [hsame] at hexec
      refine ⟨w₂.2, time_le hcompute, time_le hupdate, ?_⟩
      rw [requestState_update hmem huuid hexec, requestState_eq hmem huuid, authorizePolicy,
        hfail asked.1.authorizeLockedUntil]
    . rw [Except.error.injEq] at hresult
      subst hresult
      unfold registerAuthorizeFailure at hlost
      rcases Prog.runs_bind.mp hlost with ⟨state, w₂, _, hrest⟩ | ⟨err', hcompute, hresult⟩
      . rcases Prog.runs_bind.mp hrest with ⟨_, _, _, hend⟩ | ⟨err', hupdate, hresult⟩
        . simp at hend
        . obtain ⟨_, dbErr, _, hdatabase⟩ := tick_query_error hupdate
          rw [Except.error.inj hresult] at herr
          exact absurd hdatabase (herr dbErr)
      . unfold computeLockoutState at hcompute
        dsimp only at hcompute
        split at hcompute
        . obtain ⟨_, hcompute⟩ := Prog.runs_step.mp hcompute
          exact absurd (Prog.runs_pure.mp hcompute).1 (by simp)
        . exact absurd (Prog.runs_pure.mp hcompute).1 (by simp)
  . have hprog : (do
        let resolvedAt ← Api.now
        let _ ← Api.query (approveRequest asked.1.id approverUserId resolvedAt)
        Api.emit (.authorizationRequestApproved uuid approverUserId) : Api Unit).Meets Answers
        (fun _ _ => True) OnlyDatabase [] := by
      rw [Api.meets_now]
      refine ⟨trivial, fun resolvedAt => ?_⟩
      rw [Api.meets_query]
      refine ⟨trivial, fun _ _ => ?_, by simp⟩
      exact ⟨trivial, fun _ _ => onlyDatabase_ok⟩
    obtain ⟨_, hdatabase⟩ := hprog.runs answers_tick hruns
    obtain ⟨e, rfl⟩ := hdatabase err rfl
    exact absurd rfl (herr e)

end Judge

/--
A sequential authorization of the request that does not succeed.
-/
def AuthorizeAttempt (cfg : AuthConfig) (uuid : String) (w : Moment) (label : Option Date) (w' : Moment)
    : Prop :=
  ∃ approverUserId password, FailedAttempt (askToAuthorize uuid approverUserId)
    (judgeAuthorize cfg uuid approverUserId password) w label w'

theorem AuthorizeAttempt.of_runs {approverUserId : Nat} {password : String} {err : HttpError}
    (herr : IsRefusal err)
    (hruns : (authorize cfg uuid approverUserId password).Runs AuthEffect.tick w (.error err) w')
    : ∃ label, AuthorizeAttempt cfg uuid w label w' := by
  rw [authorize_eq] at hruns
  obtain ⟨label, hattempt⟩ := FailedAttempt.of_runs hruns herr
  exact ⟨label, approverUserId, password, hattempt⟩

theorem AuthorizeAttempt.attempt {label : Option Date} (h : AuthorizeAttempt cfg uuid w label w')
    : CoolOff.Attempt (authorizePolicy cfg) (requestState w.1 uuid, w.2) label
        (requestState w'.1 uuid, w'.2) := by
  obtain ⟨approverUserId, password, hfailed⟩ := h
  cases hfailed with
  | refused hask herr =>
    rw [db_of_reads askToAuthorize_reads hask]
    exact .refused (time_le hask)
  | judged hask hguess hjudge herr =>
    rename_i w₁ asked guess err
    obtain ⟨hmem, huuid, now, hle, hle', hunlocked⟩ := askToAuthorize_runs hask
    have hsame := db_of_reads askToAuthorize_reads hask
    have hmem' : asked.1 ∈ (((w₁.1, guess) : Moment).1 .authorizationRequests).rows := hsame ▸ hmem
    obtain ⟨recorded, hrecorded, htime, hstate⟩ := judgeAuthorize_runs hmem' huuid herr hjudge
    rw [hstate, hsame]
    exact .failed hle hunlocked (Int.le_trans hle' hguess) hrecorded htime

end

end Kerghan
