import Kerghan.Auth.Lemmas.Token

/-!
This module contains the proofs that the login by authorization respects the contract.
-/

namespace Kerghan

variable [Platform] {cfg : AuthConfig} {call : Call} {h : AuthHistory}

namespace AuthorizationRequestAbuseGuardService

theorem isOverCreateLimit_meets (ip username : String)
    : (isOverCreateLimit cfg ip username).Meets Answers (Issues call) Anyhow h := by
  unfold isOverCreateLimit
  rw [Api.meets_now]
  refine ⟨.now, fun now => ?_⟩
  rw [Api.meets_query]
  refine ⟨.read rfl, fun ipCount _ => ?_, fun _ => trivial⟩
  rw [Api.meets_query]
  exact ⟨.read rfl, fun _ _ => trivial, fun _ => trivial⟩

theorem enforceOpenCapFor_meets {username ip userAgent : String} {keepSignedIn : Bool} (userId : Nat)
    (hcall : call = .create username ip userAgent keepSignedIn)
    : (enforceOpenCapFor cfg userId).Meets Answers (Issues call) Anyhow h := by
  unfold enforceOpenCapFor
  rw [Api.meets_query]
  refine ⟨.read rfl, fun openCount _ => ?_, fun _ => trivial⟩
  split
  . trivial
  . rw [Api.meets_query]
    refine ⟨.read rfl, fun oldest holdest => ?_, fun _ => trivial⟩
    cases oldest with
    | none => trivial
    | some oldest =>
      have hopened : oldest.status = .opened := by
        have hopen : isOpenOf userId oldest = true := holdest
        simp only [isOpenOf, Bool.and_eq_true, beq_iff_eq] at hopen
        exact hopen.2
      dsimp only
      rw [Api.meets_now]
      refine ⟨.now, fun now => ?_⟩
      rw [Api.meets_query]
      refine ⟨.request (.evict hcall ?_ hopened), fun _ _ => trivial, fun _ => trivial⟩
      exact (found_of_ran (List.mem_cons_self ..)).mono (List.subset_cons_self ..)

theorem isLockedOut_meets (request : AuthorizationRequest)
    : (isLockedOut request).Meets Answers (Issues call)
        (fun h' r => r = .ok false → request.authorizeLockedUntil = none ∨
          ∃ lockedUntil now, request.authorizeLockedUntil = some lockedUntil ∧ clock now ∈ h' ∧
            ¬lockedUntil > now) h := by
  unfold isLockedOut
  split
  . next hnone => simp [hnone]
  . next lockedUntil hsome =>
    rw [Api.meets_now]
    refine ⟨.now, fun now hr => ?_⟩
    refine Or.inr ⟨lockedUntil, now, hsome, List.mem_cons_self .., ?_⟩
    simpa using hr

theorem computeLockoutState_meets (currentAttempts maxAttempts lockMs : Int)
    : (computeLockoutState currentAttempts maxAttempts lockMs).Meets Answers (Issues call) Anyhow
        h := by
  unfold computeLockoutState
  dsimp only
  split
  . rw [Api.meets_now]
    exact ⟨.now, fun _ => trivial⟩
  . trivial

theorem registerAuthorizeFailure_meets {uuid : String} {approverUserId : Nat} {password : String}
    {request : AuthorizationRequest} (hcall : call = .authorize uuid approverUserId password)
    (hfound : Found h .authorizationRequests request)
    : (registerAuthorizeFailure cfg request).Meets Answers (Issues call) Anyhow h := by
  unfold registerAuthorizeFailure
  refine (computeLockoutState_meets ..).bind ?_ (fun _ _ _ _ => trivial)
  intro h' state hsub _
  rw [Api.meets_query]
  exact ⟨.request (.fail hcall (hfound.mono hsub.subset)), fun _ _ => trivial, fun _ => trivial⟩

end AuthorizationRequestAbuseGuardService

namespace AuthorizationRequestService

open AuthorizationRequestAbuseGuardService

theorem create_meets (username ip userAgent : String) (keepSignedIn : Bool)
    : (create cfg username ip userAgent keepSignedIn).Meets Answers
        (Issues (.create username ip userAgent keepSignedIn)) Anyhow h := by
  unfold create
  rw [Api.meets_query]
  refine ⟨.read rfl, fun user _ => ?_, fun _ => trivial⟩
  refine (isOverCreateLimit_meets ip username).bind ?_ (fun _ _ _ _ => trivial)
  intro h1 overLimit hsub1 _
  simp only [Api.meets_randomBytes, Api.meets_randomUUID, Api.meets_now]
  refine ⟨.randomBytes, fun pollToken => ⟨.randomUUID, fun uuid => ⟨.now, fun now => ?_⟩⟩⟩
  split
  . trivial
  . have hcap : (enforceOpenCap cfg user).Meets Answers
        (Issues (.create username ip userAgent keepSignedIn)) Anyhow
        (clock now :: ⟨.randomUUID, uuid⟩ :: ⟨.randomBytes, pollToken⟩ :: h1) := by
      cases user with
      | none => trivial
      | some user => exact enforceOpenCapFor_meets user.id rfl
    refine hcap.bind ?_ (fun _ _ _ _ => trivial)
    intro h2 _ hsub2 _
    have huser : ran (findUserByUsername username) user ∈ h2 :=
      hsub2.subset (by simp [hsub1.subset (List.mem_cons_self ..)])
    cases (ttlMs cfg).map (now + ·) with
    | none => trivial
    | some expiresAt =>
      simp only [saveRequest, Prog.bind_assoc, Prog.pure_bind]
      rw [Api.meets_query]
      refine ⟨.request (.insert rfl huser (hsub2.subset (by simp)) (hsub2.subset (by simp))), fun _ _ => ?_,
        fun _ => trivial⟩
      rw [Api.meets_emit]
      exact ⟨.emit _, trivial⟩

theorem poll_meets (uuid pollToken : String)
    : (poll cfg uuid pollToken).Meets Answers (Issues (.poll uuid pollToken)) Anyhow [] := by
  unfold poll
  rw [Api.meets_query]
  refine ⟨.read rfl, fun found _ => ?_, fun _ => trivial⟩
  cases found with
  | none => trivial
  | some request =>
    have hfound : Found [ran (findRequestForPoll uuid (hashToken pollToken)) (some request)]
        .authorizationRequests request :=
      found_of_ran (List.mem_cons_self ..)
    dsimp only
    split
    . next hopened =>
      rw [Api.meets_now]
      refine ⟨.now, fun now => ?_⟩
      split
      . unfold expire
        rw [Api.meets_now]
        refine ⟨.now, fun now' => ?_⟩
        rw [Api.meets_query]
        refine ⟨.request (.expire rfl (hfound.mono ?_) hopened), fun _ _ => trivial, fun _ => trivial⟩
        exact fun _ hx => by simp_all
      . trivial
    . unfold claim
      rw [Api.meets_query]
      refine ⟨.request (.claim rfl rfl), fun affected _ => ?_, fun _ => trivial⟩
      split
      -- only the poll whose claim has hit the row goes on to the session
      . next haffected =>
        subst haffected
        unfold issueSessionFor findOwner
        cases howner : request.userId with
        | none => trivial
        | some userId =>
          dsimp only
          rw [Api.meets_query]
          refine ⟨.read rfl, fun user _ => ?_, fun _ => trivial⟩
          cases user with
          | none => trivial
          | some user =>
            dsimp only
            split
            . next hstatus =>
              rw [Api.meets_now]
              refine ⟨.now, fun now => ?_⟩
              rw [Api.meets_query]
              exact ⟨.request (.reject rfl howner rfl hstatus), fun _ _ => trivial, fun _ => trivial⟩
            . next hstatus =>
              refine (TokenService.issueTokens_meets
                (.poll rfl howner rfl (Decidable.not_not.mp hstatus)) ?_).bind ?_
                (fun _ _ _ _ => trivial)
              . simp [Unfinished.nil]
              . intro h' authResult _ _
                rw [Api.meets_emit]
                exact ⟨.emit _, trivial⟩
      . trivial
    . trivial

theorem loadOwnedOpenRequest_meets (uuid : String) (approverUserId : Nat) (failureMessage : String)
    : (loadOwnedOpenRequest uuid approverUserId failureMessage).Meets Answers (Issues call)
        (fun h' r => ∀ request, r = .ok request →
          ran (findRequest uuid) (some request) ∈ h'
            ∧
          request.userId = some approverUserId
            ∧
          request.status = .opened) h := by
  unfold loadOwnedOpenRequest
  rw [Api.meets_query]
  refine ⟨.read rfl, fun found _ => ?_, by simp⟩
  cases found with
  | none => simp
  | some request =>
    dsimp only
    split
    . simp
    . next hchecked =>
      simp only [ne_eq, Bool.or_eq_true, decide_eq_true_eq, not_or, Decidable.not_not] at hchecked
      simp [hchecked.1, hchecked.2]

theorem authorize_meets (uuid : String) (approverUserId : Nat) (password : String)
    : (authorize cfg uuid approverUserId password).Meets Answers
        (Issues (.authorize uuid approverUserId password)) Anyhow h := by
  unfold authorize
  refine (loadOwnedOpenRequest_meets ..).bind ?_ (fun _ _ _ _ => trivial)
  intro h1 request hsub1 hloaded
  obtain ⟨hfound, howner, hopened⟩ := hloaded request rfl
  rw [Api.meets_now]
  refine ⟨.now, fun now => ?_⟩
  split
  . trivial
  . next hunexpired =>
    refine (isLockedOut_meets request).bind ?_ (fun _ _ _ _ => trivial)
    intro h2 lockedOut hsub2 hlocked
    unfold approverPasswordValid
    simp only [Prog.bind_assoc, Prog.pure_bind]
    rw [Api.meets_query]
    refine ⟨.read rfl, fun approver _ => ?_, fun _ => trivial⟩
    have hfound2 : ran (findRequest uuid) (some request) ∈
        ran (findUserById approverUserId) approver :: h2 := by
      simp [hsub2.subset (List.mem_cons_of_mem _ hfound)]
    split
    . trivial
    . next hunlocked =>
      split
      . refine (registerAuthorizeFailure_meets rfl (found_of_ran hfound2)).bind ?_
          (fun _ _ _ _ => trivial)
        intro _ _ _ _
        trivial
      . next hpassword =>
        simp only [Bool.not_eq_true] at hunlocked
        simp only [Bool.not_eq_eq_eq_not, Bool.not_true, Bool.not_eq_false] at hpassword
        have happroves : Approves (ran (findUserById approverUserId) approver :: h2) request
            approverUserId password := {
          owner := howner
          opened := hopened
          unexpired := ⟨now, by simp [hsub2.subset (List.mem_cons_self ..)], hunexpired⟩
          unlocked := by
            rcases hlocked (by rw [hunlocked]) with hnone | ⟨lockedUntil, now', hsome, hmem, hle⟩
            . exact Or.inl hnone
            . exact Or.inr ⟨lockedUntil, now', hsome, by simp [hmem], hle⟩
          password :=
            ⟨approver, [], h2, rfl, found_of_ran (hsub2.subset (List.mem_cons_of_mem _ hfound)), hpassword⟩
        }
        rw [Api.meets_now]
        refine ⟨.now, fun resolvedAt => ?_⟩
        rw [Api.meets_query]
        refine ⟨.request (.approve rfl (List.mem_cons_of_mem _ hfound2) ?_), fun _ _ => ?_,
          fun _ => trivial⟩
        . exact happroves.mono (List.suffix_cons _ _)
        . exact ⟨.emit _, fun _ _ => trivial⟩

theorem deny_meets (uuid : String) (approverUserId : Nat)
    : (deny uuid approverUserId).Meets Answers (Issues (.deny uuid approverUserId))
        (fun h' r => r = .ok () →
          ∃ (request : AuthorizationRequest) (now : Date) (affected : Nat) (newer older : AuthHistory),
            h' = newer ++ ran (resolveRequest request.id .denied now) affected :: older
              ∧
            ran (findRequest uuid) (some request) ∈ older) h := by
  unfold deny
  refine (loadOwnedOpenRequest_meets ..).bind ?_ (by simp)
  intro h1 request hsub1 hloaded
  obtain ⟨hfound, howner, hopened⟩ := hloaded request rfl
  rw [Api.meets_now]
  refine ⟨.now, fun now => ?_⟩
  rw [Api.meets_query]
  refine ⟨.request (.deny rfl (List.mem_cons_of_mem _ hfound) hopened), fun affected _ => ?_, by simp⟩
  refine ⟨.emit _, fun _ _ _ => ⟨request, now, affected, [_], clock now :: h1, rfl, ?_⟩⟩
  exact List.mem_cons_of_mem _ hfound

end AuthorizationRequestService

end Kerghan
