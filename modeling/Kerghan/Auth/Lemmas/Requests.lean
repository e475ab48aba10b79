import Kerghan.Auth.Lemmas.Run

/-!
This module contains what a single step of a run can do to the authorization requests, and what
follows from it for all requests that were ever read.
-/

namespace Kerghan

def AuthorizationRequest.identity (r : AuthorizationRequest) : AuthorizationRequest :=
  { r with
    status := .opened
    approvedByUserId := none
    resolvedAt := none
    loggedAt := none
    authorizeFailedAttempts := 0
    authorizeLockedUntil := none }

section Identity

variable {r r' : AuthorizationRequest} (h : r.identity = r'.identity)

include h

theorem id_of_identity : r.id = r'.id := by
  simpa [AuthorizationRequest.identity] using congrArg AuthorizationRequest.id h

theorem uuid_of_identity : r.uuid = r'.uuid := by
  simpa [AuthorizationRequest.identity] using congrArg AuthorizationRequest.uuid h

theorem userId_of_identity : r.userId = r'.userId := by
  simpa [AuthorizationRequest.identity] using congrArg AuthorizationRequest.userId h

theorem pollTokenHash_of_identity : r.pollTokenHash = r'.pollTokenHash := by
  simpa [AuthorizationRequest.identity] using congrArg AuthorizationRequest.pollTokenHash h

end Identity

variable [Platform] {calls : List Call} {t : List AuthEntry} {x : AuthEntry}

/--
What the step `x` can make of a request `r`.
-/
inductive RequestChange (calls : List Call) (t : List AuthEntry) (x : AuthEntry)
    (r : AuthorizationRequest) : AuthorizationRequest → Prop where
  | keep : RequestChange calls t x r r
  | fail {attempts : Int} {lockedUntil : Option Date}
    : RequestChange calls t x r
        { r with authorizeFailedAttempts := attempts, authorizeLockedUntil := lockedUntil }
  | approve {uuid : String} {approverUserId : Nat} {password : String}
    {request : AuthorizationRequest} {now : Date} {affected : Nat}
    (hcall : calls[x.call]? = some (.authorize uuid approverUserId password))
    (hran : ⟨x.effect, x.resp⟩ = ran (approveRequest request.id approverUserId now) affected)
    (hfound : ran (findRequest uuid) (some request) ∈ own x.call t)
    (happroves : Approves (own x.call t) request approverUserId password)
    (hid : r.id = request.id)
    : RequestChange calls t x r { r with
        status := .approved
        approvedByUserId := some approverUserId
        resolvedAt := some now
        authorizeFailedAttempts := 0
        authorizeLockedUntil := none }
  | resolve {request : AuthorizationRequest} {status : AuthorizationRequestStatus} {now : Date}
    {affected : Nat} (hran : ⟨x.effect, x.resp⟩ = ran (resolveRequest request.id status now) affected)
    (hstatus : status = .denied ∨ status = .expired)
    (hfound : Found (own x.call t) .authorizationRequests request) (hopened : request.status = .opened)
    (hid : r.id = request.id)
    : RequestChange calls t x r { r with status, resolvedAt := some now }
  | claim {uuid pollToken : String} {request : AuthorizationRequest} {now : Date} {affected : Nat}
    (hcall : calls[x.call]? = some (.poll uuid pollToken))
    (hran : ⟨x.effect, x.resp⟩ = ran (claimRequest request.uuid) affected)
    (hhistory : own x.call t = [ran (findRequestForPoll uuid (hashToken pollToken)) (some request)])
    (huuid : sameText r.uuid request.uuid = true) (hstatus : r.status = .approved)
    : RequestChange calls t x r { r with status := .logged, loggedAt := some now }
  | reject {uuid pollToken : String} {request : AuthorizationRequest} {userId : Nat} {user : User}
    {now : Date} {affected : Nat} (hcall : calls[x.call]? = some (.poll uuid pollToken))
    (hran : ⟨x.effect, x.resp⟩ = ran (rejectClaim request.uuid now) affected)
    (hhistory : own x.call t = [clock now, ran (findUserById userId) (some user),
      ran (claimRequest request.uuid) (1 : Nat),
      ran (findRequestForPoll uuid (hashToken pollToken)) (some request)])
    (hrefused : user.status ≠ .approved) (huuid : sameText r.uuid request.uuid = true)
    (hstatus : r.status = .logged)
    : RequestChange calls t x r { r with status := .denied, resolvedAt := some now }

/--
The step `x` has created the request `r`.
-/
inductive RequestCreated (calls : List Call) (t : List AuthEntry) (x : AuthEntry)
    (r : AuthorizationRequest) : Prop where
  | create {username ip userAgent : String} {keepSignedIn : Bool} {user : Option User}
    {uuid pollToken : String} {expiresAt : Date}
    (hcall : calls[x.call]? = some (.create username ip userAgent keepSignedIn))
    (hran : ⟨x.effect, x.resp⟩ = ran (insertRequest uuid username (user.map User.id)
      (hashToken pollToken) ip userAgent expiresAt keepSignedIn) r)
    (huser : ran (findUserByUsername username) user ∈ own x.call t)
    (huserId : r.userId = user.map User.id)
    (hstatus : r.status = .opened) (hlogged : r.loggedAt = none)

theorem RequestChange.identity {r r' : AuthorizationRequest} (h : RequestChange calls t x r r')
    : r'.identity = r.identity := by
  cases h <;> rfl

theorem Step.requests_cases (hx : Step calls t x)
    : (∃ f, (∀ r, RequestChange calls t x r (f r)) ∧
        (x.after .authorizationRequests).rows = (x.before .authorizationRequests).rows.map f)
        ∨
      ∃ r, RequestCreated calls t x r ∧
        (x.after .authorizationRequests).rows = (x.before .authorizationRequests).rows ++ [r] := by
  -- an update is described by what it makes of a single row
  have hupdate : ∀ {p : AuthorizationRequest → Bool}
      {f : Date → AuthorizationRequest → AuthorizationRequest} {e : DbEnv} {n : Nat},
      (Stmt.update .authorizationRequests p f : AuthStmt).exec e x.before = (.ok n, x.after) →
      (∀ now r, p r = true → RequestChange calls t x r (f now r)) →
      ∃ f, (∀ r, RequestChange calls t x r (f r)) ∧
        (x.after .authorizationRequests).rows = (x.before .authorizationRequests).rows.map f := by
    intro p f e n hexec hchange
    obtain ⟨now, _, hrows, _⟩ := Stmt.exec_update hexec
    refine ⟨_, fun r => ?_, hrows⟩
    split
    . next hp => exact hchange now r hp
    . exact .keep
  rcases hx.table_cases .authorizationRequests with hsame | hwritten
  . rw [hsame]
    exact Or.inl ⟨id, fun _ => .keep, (List.map_id _).symm⟩
  . obtain ⟨call, s, a, e, hcall, hran, hissues, hexec, htable, hread⟩ := hwritten
    have hwrite := hissues.write hread
    simp only [htable] at hwrite
    cases hwrite with
    | insert hcreate huser huuid hbytes =>
      subst hcreate
      obtain ⟨now, hrow, hrows, _⟩ := Stmt.exec_insert hexec
      exact Or.inr ⟨_, .create hcall hran huser (by rw [hrow]) (by rw [hrow]) (by rw [hrow]), hrows⟩
    | evict hcreate hfound hopened =>
      exact Or.inl (hupdate hexec fun now r hp =>
        .resolve hran (Or.inr rfl) hfound hopened (by simpa using hp))
    | expire hpoll hfound hopened =>
      exact Or.inl (hupdate hexec fun now r hp =>
        .resolve hran (Or.inr rfl) hfound hopened (by simpa using hp))
    | fail hauthorize hfound => exact Or.inl (hupdate hexec fun now r hp => .fail)
    | approve hauthorize hfound happroves =>
      subst hauthorize
      exact Or.inl (hupdate hexec fun now r hp => .approve hcall hran hfound happroves (by simpa using hp))
    | deny hdeny hfound hopened =>
      exact Or.inl (hupdate hexec fun now r hp =>
        .resolve hran (Or.inl rfl) (found_of_ran hfound) hopened (by simpa using hp))
    | claim hpoll hhistory =>
      subst hpoll
      refine Or.inl (hupdate hexec fun now r hp => ?_)
      simp only [Bool.and_eq_true, beq_iff_eq] at hp
      exact .claim hcall hran hhistory hp.1 hp.2
    | reject hpoll howner hhistory hstatus =>
      subst hpoll
      refine Or.inl (hupdate hexec fun now r hp => ?_)
      simp only [Bool.and_eq_true, beq_iff_eq] at hp
      exact .reject hcall hran hhistory hstatus hp.1 hp.2

theorem Step.requests (hx : Step calls t x)
    : (∀ r' ∈ (x.after .authorizationRequests).rows,
        (∃ r ∈ (x.before .authorizationRequests).rows, RequestChange calls t x r r')
          ∨ RequestCreated calls t x r')
        ∧
      (∀ r ∈ (x.before .authorizationRequests).rows,
        ∃ r' ∈ (x.after .authorizationRequests).rows, RequestChange calls t x r r') := by
  rcases hx.requests_cases with ⟨f, hchange, hrows⟩ | ⟨created, hcreated, hrows⟩
  . rw [hrows]
    refine ⟨fun r' hr' => ?_, fun r hr => ⟨f r, List.mem_map_of_mem hr, hchange r⟩⟩
    obtain ⟨r, hr, rfl⟩ := List.mem_map.mp hr'
    exact Or.inl ⟨r, hr, hchange r⟩
  . rw [hrows]
    refine ⟨fun r' hr' => ?_, fun r hr => ⟨r, List.mem_append_left _ hr, .keep⟩⟩
    rcases List.mem_append.mp hr' with hold | hnew
    . exact Or.inl ⟨r', hold, .keep⟩
    . rw [List.mem_singleton.mp hnew]
      exact Or.inr hcreated

theorem eq_of_sameText_uuid {db : AuthDb} {r r' : AuthorizationRequest}
    (hr : r ∈ (db .authorizationRequests).rows) (hr' : r' ∈ (db .authorizationRequests).rows)
    (huuid : sameText r.uuid r'.uuid = true)
    : r = r' :=
  Table.eq_of_clash hr hr' (by
    show (sameText r.uuid r'.uuid || r.pollTokenHash == r'.pollTokenHash) = true
    rw [huuid]
    rfl)

theorem eq_of_request_id {db : AuthDb} {r r' : AuthorizationRequest}
    (hr : r ∈ (db .authorizationRequests).rows) (hr' : r' ∈ (db .authorizationRequests).rows)
    (hid : r.id = r'.id)
    : r = r' :=
  Table.eq_of_id_eq hr hr' hid

/--
Every request that was ever read is still there, whatever has happened to its status.
-/
def RequestsSeen (db : AuthDb) (t : List AuthEntry) : Prop :=
  ∀ i (r : AuthorizationRequest), Found (own i t) .authorizationRequests r →
    ∃ r' ∈ (db .authorizationRequests).rows, r'.identity = r.identity

theorem RequestsSeen.step (hx : Step calls t x) (hseen : RequestsSeen x.before t)
    : RequestsSeen x.after (x :: t) := by
  intro i r ⟨p, rank, hmem⟩
  have hbefore : ∃ r' ∈ (x.before .authorizationRequests).rows, r'.identity = r.identity := by
    rcases mem_own_cons.mp hmem with ⟨_, hfind⟩ | hold
    . exact ⟨r, (hx.found_mem hfind).1, rfl⟩
    . exact hseen i r ⟨p, rank, hold⟩
  obtain ⟨r1, hr1, hidentity⟩ := hbefore
  obtain ⟨r2, hr2, hchange⟩ := hx.requests.2 r1 hr1
  exact ⟨r2, hr2, hchange.identity.trans hidentity⟩

theorem RequestsSeen.nil {db : AuthDb} : RequestsSeen db [] := by
  intro i r ⟨p, rank, hmem⟩
  simp at hmem

end Kerghan
