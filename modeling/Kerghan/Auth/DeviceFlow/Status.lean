import Kerghan.Auth.DeviceFlow.Claim

/-!
This module contains the proof that the status of an authorization request follows its state machine,
as long as the writes that do not check the status hit requests that are still open.
-/

namespace Kerghan

inductive AuthorizationRequestStatus.Next
    : AuthorizationRequestStatus → AuthorizationRequestStatus → Prop where
  | approve : Next .opened .approved
  | deny : Next .opened .denied
  | expire : Next .opened .expired
  | claim : Next .approved .logged
  | reject : Next .logged .denied

open AuthorizationRequestStatus (Next)

section

variable [Platform] {cfg : AuthConfig} {calls : List Call} {t : List AuthEntry} {x : AuthEntry}

/--
Every unguarded write of a status hits a request that is open or has this status already.
-/
def UnguardedWritesFit (t : List AuthEntry) : Prop :=
  ∀ x ∈ t, ∀ r ∈ (x.before .authorizationRequests).rows,
    (∀ approverUserId now (affected : Nat),
      ⟨x.effect, x.resp⟩ = ran (approveRequest r.id approverUserId now) affected →
        r.status = .opened ∨ r.status = .approved)
      ∧
    (∀ status now (affected : Nat),
      ⟨x.effect, x.resp⟩ = ran (resolveRequest r.id status now) affected →
        r.status = .opened ∨ r.status = status)

/--
A call has read the request with this id, and then has stored that it is denied or expired: `deny`,
the lazy expiry and the eviction do that.
-/
def Resolved (t : List AuthEntry) (requestId : Nat) : Prop :=
  ∃ i request status now, ∃ (affected : Nat) (newer older : AuthHistory),
    own i t = newer ++ ran (resolveRequest request.id status now) affected :: older
      ∧
    Found older .authorizationRequests request
      ∧
    request.id = requestId
      ∧
    (status = .denied ∨ status = .expired)

theorem Resolved.mono {t' : List AuthEntry} {requestId : Nat} (h : Resolved t requestId)
    (hsuffix : t <:+ t')
    : Resolved t' requestId := by
  obtain ⟨i, request, status, now, affected, newer, older, hown, hrest⟩ := h
  obtain ⟨new, hnew⟩ := own_suffix (i := i) hsuffix
  refine ⟨i, request, status, now, affected, new ++ newer, older, ?_, hrest⟩
  rw [← hnew, hown, List.append_assoc]

/--
The `i`-th call has claimed a request and then found that its user is not approved.
-/
def Refused (t : List AuthEntry) (i : Nat) : Prop :=
  ∃ userId user uuid pollToken request,
    user.status ≠ .approved
      ∧
    [ran (findUserById userId) (some user), ran (claimRequest request.uuid) (1 : Nat),
      ran (findRequestForPoll uuid (hashToken pollToken)) (some request)] <:+ own i t

theorem Refused.mono {t' : List AuthEntry} {i : Nat} (h : Refused t i) (hsuffix : t <:+ t')
    : Refused t' i := by
  obtain ⟨userId, user, uuid, pollToken, request, hstatus, hown⟩ := h
  exact ⟨userId, user, uuid, pollToken, request, hstatus, hown.trans (own_suffix hsuffix)⟩

theorem UnguardedWritesFit.tail (h : UnguardedWritesFit (x :: t)) : UnguardedWritesFit t :=
  fun y hy => h y (List.mem_cons_of_mem _ hy)

theorem Step.requestChange (hx : Step calls t x) {r r' : AuthorizationRequest}
    (hr : r ∈ (x.before .authorizationRequests).rows)
    (hr' : r' ∈ (x.after .authorizationRequests).rows) (hid : r.id = r'.id)
    : RequestChange calls t x r r' := by
  obtain ⟨r2, hr2, hchange⟩ := hx.requests.2 r hr
  have heq : r2 = r' := by
    apply eq_of_request_id hr2 hr'
    rw [id_of_identity hchange.identity, hid]
  rw [← heq]
  exact hchange

theorem RequestChange.next {r r' : AuthorizationRequest} (hfit : UnguardedWritesFit (x :: t))
    (hr : r ∈ (x.before .authorizationRequests).rows) (h : RequestChange calls t x r r')
    : r.status = r'.status ∨ Next r.status r'.status := by
  have ⟨happrove, hresolve⟩ := hfit x (List.mem_cons_self ..) r hr
  cases h with
  | keep => exact Or.inl rfl
  | fail => exact Or.inl rfl
  | approve hcall hran hfound happroves hid =>
    rw [← hid] at hran
    rcases happrove _ _ _ hran with hopened | hsame
    . rw [hopened]
      exact Or.inr .approve
    . exact Or.inl hsame
  | resolve hran hstatus hfound hopened hid =>
    rw [← hid] at hran
    rcases hresolve _ _ _ hran with hopened | hsame
    . rw [hopened]
      rcases hstatus with hdenied | hexpired
      . rw [hdenied]
        exact Or.inr .deny
      . rw [hexpired]
        exact Or.inr .expire
    . exact Or.inl hsame
  | claim hcall hran hhistory huuid hstatus =>
    rw [hstatus]
    exact Or.inr .claim
  | reject hcall hran hhistory hrefused huuid hstatus =>
    rw [hstatus]
    exact Or.inr .reject

/--
What ties the status of a request to what has happened to it.
-/
structure StatusInv (db : AuthDb) (t : List AuthEntry) : Prop where
  seen : RequestsSeen db t
  /-- Only the poll that has claimed a request can end it afterwards. -/
  claimed : ∀ i request, Claimed t i request →
    ∀ r ∈ (db .authorizationRequests).rows, r.id = request.id →
      r.status = .logged ∨ r.status = .denied ∧ Refused t i
  unique : ∀ i j request request', Claimed t i request → Claimed t j request' →
    request.id = request'.id → i = j
  resolved : ∀ requestId, Resolved t requestId →
    ∀ r ∈ (db .authorizationRequests).rows, r.id = requestId →
      r.status = .denied ∨ r.status = .expired

theorem StatusInv.init {db : AuthDb} : StatusInv db [] where
  seen := .nil
  claimed := by
    intro i request ⟨uuid, pollToken, hsuffix⟩
    simp at hsuffix
  unique := by
    intro i j request request' ⟨uuid, pollToken, hsuffix⟩
    simp at hsuffix
  resolved := by
    intro requestId ⟨i, request, status, now, affected, newer, older, hown, _⟩
    simp at hown

theorem StatusInv.claimed_step (hfit : UnguardedWritesFit (x :: t)) (hx : Step calls t x)
    (hinv : StatusInv x.before t) {i : Nat} {request : AuthorizationRequest}
    (hclaimed : Claimed t i request) {r' : AuthorizationRequest}
    (hr' : r' ∈ (x.after .authorizationRequests).rows) (hid : r'.id = request.id)
    : r'.status = .logged ∨ r'.status = .denied ∧ Refused (x :: t) i := by
  obtain ⟨r, hr, hidentity⟩ := hinv.seen i request hclaimed.found
  have hrid : r.id = request.id := id_of_identity hidentity
  have hchange := hx.requestChange hr hr' (by rw [hrid, hid])
  have ⟨happrove, hresolve⟩ := hfit x (List.mem_cons_self ..) r hr
  have hrejected : r.status = .denied → Refused (x :: t) i := by
    intro hdenied
    rcases hinv.claimed i request hclaimed r hr hrid with hlogged | ⟨_, hrefused⟩
    . simp [hdenied] at hlogged
    . exact hrefused.mono (List.suffix_cons _ _)
  have hstatus : r.status = .logged ∨ r.status = .denied := by
    rcases hinv.claimed i request hclaimed r hr hrid with hlogged | ⟨hdenied, _⟩
    . exact Or.inl hlogged
    . exact Or.inr hdenied
  cases hchange with
  | keep => exact hstatus.imp id fun hdenied => ⟨hdenied, hrejected hdenied⟩
  | fail => exact hstatus.imp id fun hdenied => ⟨hdenied, hrejected hdenied⟩
  | approve hcall hran hfound happroves hid' =>
    rw [← hid'] at hran
    rcases happrove _ _ _ hran with h | h <;> simp [h] at hstatus
  | resolve hran hresolved hfound hopened hid' =>
    rw [← hid'] at hran
    rcases hresolve _ _ _ hran with h | h
    . simp [h] at hstatus
    . rw [← h] at hresolved
      have hdenied : r.status = .denied := by
        rcases hstatus with hlogged | hdenied
        . simp [hlogged] at hresolved
        . exact hdenied
      exact Or.inr ⟨by rw [← h]; exact hdenied, hrejected hdenied⟩
  | claim hcall hran hhistory huuid happroved => simp [happroved] at hstatus
  | reject hcall hran hhistory hrefused huuid hlogged =>
    -- the rejecting poll has claimed the same request, so it is the same poll
    rename_i uuid pollToken request' userId user now affected
    have hclaimed' : Claimed t x.call request' := by
      refine ⟨uuid, pollToken, ?_⟩
      rw [hhistory]
      exact (List.suffix_cons _ _).trans (List.suffix_cons _ _)
    obtain ⟨r1, hr1, hidentity'⟩ := hinv.seen x.call request' hclaimed'.found
    have heq : r = r1 :=
      eq_of_sameText_uuid hr hr1 (by rw [uuid_of_identity hidentity']; exact huuid)
    subst heq
    have hcall' : x.call = i := by
      apply hinv.unique x.call i request' request hclaimed' hclaimed
      rw [← id_of_identity hidentity', hrid]
    refine Or.inr ⟨rfl, userId, user, uuid, pollToken, request', hrefused, ?_⟩
    rw [← hcall', own_cons_self, hhistory]
    exact (List.suffix_cons _ _).trans (List.suffix_cons _ _)

theorem StatusInv.step (hfit : UnguardedWritesFit (x :: t)) (hx : Step calls t x)
    (hinv : StatusInv x.before t)
    : StatusInv x.after (x :: t) where
  seen := hinv.seen.step hx
  claimed := by
    intro i request hclaimed r' hr' hid
    rcases hx.claimed hinv.seen hclaimed with hold | ⟨_, _, hnew⟩
    . exact hinv.claimed_step hfit hx hold hr' hid
    . exact Or.inl (hnew r' hr' hid).1
  unique := by
    intro i j request request' hi hj hid
    have hconflict : ∀ {i r request}, Claimed t i request →
        r ∈ (x.before .authorizationRequests).rows → r.id = request.id → r.status ≠ .approved := by
      intro i r request hold hr hid hstatus
      rcases hinv.claimed i request hold r hr hid with h | ⟨h, _⟩ <;> simp [hstatus] at h
    rcases hx.claimed hinv.seen hi with hold | ⟨hi, ⟨r, hr, hidentity, hstatus⟩, _⟩
    . rcases hx.claimed hinv.seen hj with hold' | ⟨hj, ⟨r, hr, hidentity, hstatus⟩, _⟩
      . exact hinv.unique i j request request' hold hold' hid
      . exact absurd hstatus (hconflict hold hr (by rw [id_of_identity hidentity, hid]))
    . rcases hx.claimed hinv.seen hj with hold' | ⟨hj, _⟩
      . exact absurd hstatus (hconflict hold' hr (by rw [id_of_identity hidentity, hid]))
      . rw [hi, hj]
  resolved := by
    intro requestId ⟨i, request, status, now, affected, newer, older, hown, hfound, hrequest, hstatus⟩
      r' hr' hid
    have hold : ∀ {r}, r ∈ (x.before .authorizationRequests).rows → r.id = requestId →
        r.status = .denied ∨ r.status = .expired → r'.status = .denied ∨ r'.status = .expired := by
      intro r hr hrid hended
      have hchange := hx.requestChange hr hr' (by rw [hrid, hid])
      rcases hchange.next hfit hr with hsame | hnext
      . rw [← hsame]
        exact hended
      . rcases hended with h | h <;> rw [h] at hnext <;> cases hnext
    by_cases hcall : x.call = i
    . subst hcall
      rw [own_cons_self] at hown
      cases newer with
      | nil =>
        -- the write itself: the condition leaves it an open request or one with this status
        simp only [List.nil_append, List.cons.injEq] at hown
        obtain ⟨hran, rfl⟩ := hown
        obtain ⟨now', _, hrows⟩ := hx.updated hran
        rw [hrows, List.mem_map] at hr'
        obtain ⟨r, hr, rfl⟩ := hr'
        have hrid : r.id = request.id := by
          rw [hrequest, ← hid]
          split <;> rfl
        rw [if_pos (by simpa using hrid)]
        exact hstatus
      | cons ev newer =>
        simp only [List.cons_append, List.cons.injEq] at hown
        have hresolved : Resolved t requestId :=
          ⟨x.call, request, status, now, affected, newer, older, hown.2, hfound, hrequest, hstatus⟩
        obtain ⟨r, hr, hidentity⟩ := hinv.seen x.call request
          (hfound.mono (by rw [hown.2]; exact fun _ h => by simp [h]))
        have hrid : r.id = requestId := by rw [id_of_identity hidentity, hrequest]
        exact hold hr hrid (hinv.resolved requestId hresolved r hr hrid)
    . rw [own_cons_of_ne hcall] at hown
      have hresolved : Resolved t requestId :=
        ⟨i, request, status, now, affected, newer, older, hown, hfound, hrequest, hstatus⟩
      obtain ⟨r, hr, hidentity⟩ := hinv.seen i request
        (hfound.mono (by rw [hown]; exact fun _ h => by simp [h]))
      have hrid : r.id = requestId := by rw [id_of_identity hidentity, hrequest]
      exact hold hr hrid (hinv.resolved requestId hresolved r hr hrid)

theorem resolved_of_deny {db : AuthDb} {schedule : Schedule} {i : Nat} {uuid : String}
    {approverUserId : Nat} (hcall : calls[i]? = some (.deny uuid approverUserId))
    (hreturned : (Auth.after cfg db calls schedule).pool i = .pure .done)
    : ∃ request : AuthorizationRequest,
        sameText request.uuid uuid = true
          ∧
        Found (own i (Auth.after cfg db calls schedule).trace) .authorizationRequests request
          ∧
        Resolved (Auth.after cfg db calls schedule).trace request.id := by
  have hprog : (Call.prog cfg (.deny uuid approverUserId)).Meets Answers
      (Issues (.deny uuid approverUserId))
      (fun h r => (∃ reply, r = .ok reply) →
        ∃ (request : AuthorizationRequest) (now : Date) (affected : Nat) (newer older : AuthHistory),
          h = newer ++ ran (resolveRequest request.id .denied now) affected :: older
            ∧
          ran (findRequest uuid) (some request) ∈ older) [] := by
    simp only [Call.prog, Prog.map_eq]
    apply (AuthorizationRequestService.deny_meets uuid approverUserId).bind
    . intro h a _ hdenied _
      exact hdenied rfl
    . simp
  obtain ⟨request, now, affected, newer, older, hown, hfound⟩ :=
    ended (.ok .done) hprog hcall hreturned ⟨_, rfl⟩
  have hfound' : ran (findRequest uuid) (some request) ∈
      own i (Auth.after cfg db calls schedule).trace := by
    rw [hown]
    simp [hfound]
  obtain ⟨later, x, earlier, hsplit, _, hev⟩ := split_of_mem_own hfound'
  refine ⟨request, ((step_of_split hsplit).found_mem hev).2, found_of_ran hfound', ?_⟩
  exact ⟨i, request, .denied, now, affected, newer, older, hown, found_of_ran hfound, rfl, Or.inl rfl⟩

/--
A poll that has been refused does not reach `issueTokens`.
-/
theorem MintsFor.not_refused {db : AuthDb} {schedule : Schedule} {i requestId : Nat}
    (h : MintsFor calls (Auth.after cfg db calls schedule).trace i requestId)
    : ¬Refused (Auth.after cfg db calls schedule).trace i := by
  intro ⟨userId, user, _, _, _, hrefused, hsuffix⟩
  obtain ⟨uuid, pollToken, request, user', keepSignedIn, session, hcall, _, _, hmint⟩ := h
  obtain ⟨later, x, earlier, hsplit, rfl, hev⟩ := split_of_mem_own hmint
  obtain ⟨request', userId', _, happroved, hhistory⟩ :=
    (step_of_split hsplit).poll_mints hcall (congrArg Sigma.fst hev)
  have hsuffix' : own x.call earlier <:+ own x.call (Auth.after cfg db calls schedule).trace := by
    apply own_suffix
    rw [hsplit]
    exact (List.suffix_cons _ _).trans (List.suffix_append _ _)
  rw [hhistory] at hsuffix'
  -- both histories are the first three steps of the poll
  have heq := (List.suffix_of_suffix_length_le hsuffix hsuffix' (by simp)).eq_of_length (by simp)
  simp only [List.cons.injEq] at heq
  have husers := answer_of_ran_eq heq.1
  rw [Option.some.injEq] at husers
  rw [husers] at hrefused
  exact hrefused happroved

theorem StatusInv.not_mintsFor {db : AuthDb} {schedule : Schedule} {i requestId : Nat}
    (hinv : StatusInv (Auth.after cfg db calls schedule).world
      (Auth.after cfg db calls schedule).trace)
    (hresolved : Resolved (Auth.after cfg db calls schedule).trace requestId)
    : ¬MintsFor calls (Auth.after cfg db calls schedule).trace i requestId := by
  intro hmints
  obtain ⟨request, hclaimed, hid⟩ := hmints.claimed
  obtain ⟨r, hr, hidentity⟩ := hinv.seen i request hclaimed.found
  have hrid : r.id = request.id := id_of_identity hidentity
  rcases hinv.claimed i request hclaimed r hr hrid with hlogged | ⟨_, hrefused⟩
  . have hended := hinv.resolved requestId hresolved r hr (by rw [hrid, hid])
    simp [hlogged] at hended
  . exact hmints.not_refused hrefused

structure FollowsStatusMachine (calls : List Call) (c : Auth) : Prop where
  next : ∀ later x earlier, c.trace = later ++ x :: earlier →
    ∀ r ∈ (x.before .authorizationRequests).rows, ∀ r' ∈ (x.after .authorizationRequests).rows,
      r.id = r'.id → r.status = r'.status ∨ Next r.status r'.status
  final : ∀ later x earlier, c.trace = later ++ x :: earlier →
    ∀ r ∈ (x.before .authorizationRequests).rows, ∀ r' ∈ (x.after .authorizationRequests).rows,
      r.id = r'.id → r.status = .denied ∨ r.status = .expired → r'.status = r.status
  not_approved : ∀ later x earlier requestId, c.trace = later ++ x :: earlier →
    Resolved earlier requestId →
      ∀ r ∈ (x.after .authorizationRequests).rows, r.id = requestId → r.status ≠ .approved
  not_mintsFor : ∀ requestId, Resolved c.trace requestId → ∀ i, ¬MintsFor calls c.trace i requestId
  resolved_of_deny : ∀ (i : Nat) (uuid : String) (approverUserId : Nat),
    calls[i]? = some (.deny uuid approverUserId) → c.pool i = .pure .done →
      ∃ request : AuthorizationRequest,
        sameText request.uuid uuid = true
          ∧
        Found (own i c.trace) .authorizationRequests request
          ∧
        Resolved c.trace request.id

/--
The status machine is followed in every run whose unguarded writes of a status hit requests that are
open or have this status already.
-/
theorem followsStatusMachine {db : AuthDb} {schedule : Schedule}
    (hfit : UnguardedWritesFit (Auth.after cfg db calls schedule).trace)
    : FollowsStatusMachine calls (Auth.after cfg db calls schedule) := by
  have hadm : ∀ x t, UnguardedWritesFit (x :: t) → UnguardedWritesFit t :=
    fun _ _ => UnguardedWritesFit.tail
  have hstep : ∀ x t, UnguardedWritesFit (x :: t) → Step calls t x →
      StatusInv x.before t → StatusInv x.after (x :: t) :=
    fun _ _ => StatusInv.step
  have hnext : ∀ later x earlier, (Auth.after cfg db calls schedule).trace = later ++ x :: earlier →
      ∀ r ∈ (x.before .authorizationRequests).rows, ∀ r' ∈ (x.after .authorizationRequests).rows,
        r.id = r'.id → r.status = r'.status ∨ Next r.status r'.status := by
    intro later x earlier hsplit r hr r' hr' hid
    have hfit' : UnguardedWritesFit (x :: earlier) := fun y hy r hr =>
      hfit y (by rw [hsplit]; exact List.mem_append_right _ hy) r hr
    exact ((step_of_split hsplit).requestChange hr hr' hid).next hfit' hr
  constructor
  . exact hnext
  . intro later x earlier hsplit r hr r' hr' hid hended
    rcases hnext later x earlier hsplit r hr r' hr' hid with hsame | hnext
    . exact hsame.symm
    . rcases hended with h | h <;> rw [h] at hnext <;> cases hnext
  . intro later x earlier requestId hsplit hresolved r hr hid
    have hinv := (auth_induction_split hadm hstep StatusInv.init schedule hfit hsplit).2
    have hended := hinv.resolved requestId (hresolved.mono (List.suffix_cons _ _)) r hr hid
    intro happroved
    simp [happroved] at hended
  . intro requestId hresolved i
    exact (auth_induction hadm hstep StatusInv.init schedule hfit).not_mintsFor hresolved
  . exact fun _ _ _ => resolved_of_deny

end

section Runs

open Sample

attribute [local instance] platform

/--
A request, an approval and a denial of it, and a poll for it.
-/
def denialCalls : List Call := [
  .create "ann" "ip" "agent" false,
  .authorize "uuuuu" 1 "secret",
  .deny "uuuuu" 1,
  .poll "uuuuu" "bbbb"
]

def deniedAlone : Schedule :=
  schedule [0, 0, 0, 0, 0, 0, 0, 0, 0, 0, 2, 2, 2, 2, 3]

/--
The approval has loaded the request before it is denied, and is stored afterwards.
-/
def deniedThenApproved : Schedule :=
  schedule [0, 0, 0, 0, 0, 0, 0, 0, 0, 0, 1, 1, 1, 2, 2, 2, 2, 1, 1, 1, 3, 3, 3, 3]

theorem followsStatusMachine_deniedAlone
    : FollowsStatusMachine denialCalls (Auth.after config (db ann) denialCalls deniedAlone) := by
  apply followsStatusMachine
  have hwrites : ∀ x ∈ (Auth.after config (db ann) denialCalls deniedAlone).trace,
      x.effect.writes = true →
        ∀ r ∈ (x.before .authorizationRequests).rows, r.status = .opened := by decide
  intro x hx r hr
  constructor
  . intro approverUserId now affected hran
    exact Or.inl (hwrites x hx (by rw [show x.effect = _ from congrArg Sigma.fst hran]; rfl) r hr)
  . intro status now affected hran
    exact Or.inl (hwrites x hx (by rw [show x.effect = _ from congrArg Sigma.fst hran]; rfl) r hr)

theorem not_followsStatusMachine
    : ¬FollowsStatusMachine denialCalls (Auth.after config (db ann) denialCalls deniedThenApproved) := by
  intro hfollows
  have hresolved : Resolved (Auth.after config (db ann) denialCalls deniedThenApproved).trace 0 := by
    refine ⟨2, ⟨0, "uuuuu", "ann", some 1, .opened, "bbbb", "ip", "agent", none, 8, 3600006, none, none,
      0, none, false⟩, .denied, 14, 1, [⟨.emit (.authorizationRequestDenied "uuuuu" 1), ()⟩],
      [clock 14, ran (findRequest "uuuuu") (some _)], rfl, ?_, rfl, Or.inl rfl⟩
    exact found_of_ran (List.mem_cons_of_mem _ (List.mem_cons_self ..))
  have hmints : MintsFor denialCalls
      (Auth.after config (db ann) denialCalls deniedThenApproved).trace 3 0 :=
    ⟨"uuuuu", "bbbb", ⟨0, "uuuuu", "ann", some 1, .approved, "bbbb", "ip", "agent", some 1, 8, 3600006,
      some 17, none, 0, none, false⟩, ann, false, none, rfl, rfl, rfl,
      List.mem_of_getElem? (i := 0) rfl⟩
  exact hfollows.not_mintsFor 0 hresolved 3 hmints

end Runs

end Kerghan
