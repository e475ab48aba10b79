import Mathlib.Data.Set.Subsingleton
import Kerghan.Auth.Lemmas.Requests
import Kerghan.Auth.Sample

/-!
This module contains the proof that an authorization request mints at most one session, as long as no
approval hits a request that a poll has already claimed, and a run in which one does.
-/

namespace Kerghan

section

variable [Platform] {cfg : AuthConfig} {calls : List Call} {t : List AuthEntry} {x : AuthEntry}

/--
The `i`-th call is a poll that has reached `issueTokens` for the request with this id.
-/
def MintsFor (calls : List Call) (t : List AuthEntry) (i requestId : Nat) : Prop :=
  ∃ uuid pollToken request user keepSignedIn session,
    calls[i]? = some (.poll uuid pollToken)
      ∧
    (own i t).getLast? = some (ran (findRequestForPoll uuid (hashToken pollToken)) (some request))
      ∧
    request.id = requestId
      ∧
    ⟨.issueTokens user keepSignedIn session, ()⟩ ∈ own i t

/--
Every approval hits a request that no poll has claimed so far.
-/
def ApprovesUnclaimed (t : List AuthEntry) : Prop :=
  ∀ x ∈ t, ∀ id approverUserId now (affected : Nat),
    ⟨x.effect, x.resp⟩ = ran (approveRequest id approverUserId now) affected →
      ∀ r ∈ (x.before .authorizationRequests).rows, r.id = id → r.loggedAt = none

/--
The `i`-th call has read `request` and then claimed it.
-/
def Claimed (t : List AuthEntry) (i : Nat) (request : AuthorizationRequest) : Prop :=
  ∃ uuid pollToken,
    [ran (claimRequest request.uuid) (1 : Nat),
      ran (findRequestForPoll uuid (hashToken pollToken)) (some request)] <:+ own i t

theorem Claimed.found {i : Nat} {request : AuthorizationRequest} (h : Claimed t i request)
    : Found (own i t) .authorizationRequests request := by
  obtain ⟨uuid, pollToken, hsuffix⟩ := h
  exact found_of_ran (hsuffix.subset (List.mem_cons_of_mem _ (List.mem_cons_self ..)))

/--
A step that claims a request has found it `approved`.
-/
theorem Step.claimed (hx : Step calls t x) (hseen : RequestsSeen x.before t) {i : Nat}
    {request : AuthorizationRequest} (hclaimed : Claimed (x :: t) i request)
    : Claimed t i request ∨
        i = x.call
          ∧
        (∃ r ∈ (x.before .authorizationRequests).rows,
          r.identity = request.identity ∧ r.status = .approved)
          ∧
        (∀ r' ∈ (x.after .authorizationRequests).rows,
          r'.id = request.id → r'.status = .logged ∧ r'.loggedAt ≠ none) := by
  obtain ⟨uuid, pollToken, hsuffix⟩ := hclaimed
  by_cases hcall : x.call = i
  . subst hcall
    rw [own_cons_self, List.suffix_cons_iff] at hsuffix
    rcases hsuffix with hnew | hold
    . right
      simp only [List.cons.injEq] at hnew
      obtain ⟨hran, hhistory⟩ := hnew
      obtain ⟨now, hcount, hrows⟩ := hx.updated hran.symm
      -- the row that the guarded update has matched is the request that was read
      have hpos : 0 < (x.before .authorizationRequests).rows.countP
          (fun r => sameText r.uuid request.uuid && r.status == .approved) := by
        rw [← hcount]
        exact Nat.one_pos
      obtain ⟨r, hr, hp⟩ := List.countP_pos_iff.mp hpos
      simp only [Bool.and_eq_true, beq_iff_eq] at hp
      obtain ⟨r1, hr1, hidentity⟩ := hseen x.call request
        (found_of_ran (by rw [← hhistory]; exact List.mem_cons_self ..))
      have heq : r = r1 :=
        eq_of_sameText_uuid hr hr1 (by rw [uuid_of_identity hidentity]; exact hp.1)
      subst heq
      refine ⟨rfl, ⟨r, hr, hidentity, hp.2⟩, ?_⟩
      intro r' hr' hid
      rw [hrows, List.mem_map] at hr'
      obtain ⟨r2, hr2, rfl⟩ := hr'
      have hid2 : r2.id = r.id := by
        rw [id_of_identity hidentity, ← hid]
        split <;> rfl
      have := eq_of_request_id hr2 hr hid2
      subst this
      rw [if_pos (by simp [hp.1, hp.2])]
      simp
    . exact Or.inl ⟨uuid, pollToken, hold⟩
  . rw [own_cons_of_ne hcall] at hsuffix
    exact Or.inl ⟨uuid, pollToken, hsuffix⟩

structure ClaimInv (db : AuthDb) (t : List AuthEntry) : Prop where
  seen : RequestsSeen db t
  /-- A request that can be claimed has never been claimed. -/
  unclaimed : ∀ r ∈ (db .authorizationRequests).rows, r.status = .approved → r.loggedAt = none
  /-- A claim leaves its mark on the request. -/
  marked : ∀ i request, Claimed t i request →
    ∀ r ∈ (db .authorizationRequests).rows, r.id = request.id → r.loggedAt ≠ none
  unique : ∀ i j request request', Claimed t i request → Claimed t j request' →
    request.id = request'.id → i = j

theorem ClaimInv.init {db : AuthDb} (hempty : (db .authorizationRequests).rows = [])
    : ClaimInv db [] where
  seen := .nil
  unclaimed := by simp [hempty]
  marked := by simp [hempty]
  unique := by
    intro i j request request' ⟨uuid, pollToken, hsuffix⟩
    simp at hsuffix

theorem RequestChange.loggedAt {r r' : AuthorizationRequest} (h : RequestChange calls t x r r')
    : r'.loggedAt = r.loggedAt ∨ r.status = .approved ∧ r'.status = .logged ∧ r'.loggedAt ≠ none := by
  cases h with
  | claim hcall hran hhistory huuid hstatus => exact Or.inr ⟨hstatus, rfl, by simp⟩
  | _ => exact Or.inl rfl

theorem ClaimInv.step (hunclaimed : ApprovesUnclaimed (x :: t)) (hx : Step calls t x)
    (hinv : ClaimInv x.before t)
    : ClaimInv x.after (x :: t) where
  seen := hinv.seen.step hx
  unclaimed := by
    intro r' hr' hstatus
    rcases hx.requests.1 r' hr' with ⟨r, hr, hchange⟩ | hcreated
    . cases hchange with
      | keep => exact hinv.unclaimed _ hr hstatus
      | fail => exact hinv.unclaimed r hr hstatus
      | approve hcall hran hfound happroves hid =>
        exact hunclaimed x (List.mem_cons_self ..) _ _ _ _ hran r hr hid
      | resolve hran hresolved hfound hopened hid => rcases hresolved with h | h <;> simp [h] at hstatus
      | claim => simp at hstatus
      | reject => simp at hstatus
    . exact hcreated.rec fun _ _ _ _ _ hlogged => hlogged
  marked := by
    intro i request hclaimed r' hr' hid
    rcases hx.claimed hinv.seen hclaimed with hold | ⟨_, _, hnew⟩
    . obtain ⟨r, hr, hidentity⟩ := hinv.seen i request hold.found
      obtain ⟨r2, hr2, hchange⟩ := hx.requests.2 r hr
      have heq : r' = r2 := by
        refine eq_of_request_id hr' hr2 ?_
        rw [hid, id_of_identity hchange.identity, id_of_identity hidentity]
      rcases hchange.loggedAt with hkept | ⟨_, _, hset⟩
      . rw [heq, hkept]
        exact hinv.marked i request hold r hr (id_of_identity hidentity)
      . rw [heq]
        exact hset
    . exact (hnew r' hr' hid).2
  unique := by
    intro i j request request' hi hj hid
    have hconflict : ∀ {i r request}, Claimed t i request →
        r ∈ (x.before .authorizationRequests).rows → r.id = request.id → r.status ≠ .approved := by
      intro i r request hold hr hid hstatus
      exact hinv.marked i request hold r hr hid (hinv.unclaimed r hr hstatus)
    rcases hx.claimed hinv.seen hi with hold | ⟨hi, ⟨r, hr, hidentity, hstatus⟩, _⟩
    . rcases hx.claimed hinv.seen hj with hold' | ⟨hj, ⟨r, hr, hidentity, hstatus⟩, _⟩
      . exact hinv.unique i j request request' hold hold' hid
      . exact absurd hstatus (hconflict hold hr (by rw [id_of_identity hidentity, hid]))
    . rcases hx.claimed hinv.seen hj with hold' | ⟨hj, _⟩
      . exact absurd hstatus (hconflict hold' hr (by rw [id_of_identity hidentity, hid]))
      . rw [hi, hj]

theorem ApprovesUnclaimed.tail (h : ApprovesUnclaimed (x :: t)) : ApprovesUnclaimed t :=
  fun y hy => h y (List.mem_cons_of_mem _ hy)

/--
A poll that reaches `issueTokens` has just read an approved user and has claimed its request before.
-/
theorem Step.poll_mints (hx : Step calls t x) {uuid pollToken : String} {user : User}
    {keepSignedIn : Bool} {session : Option SessionIdentity}
    (hcall : calls[x.call]? = some (.poll uuid pollToken))
    (hmint : x.effect = .issueTokens user keepSignedIn session)
    : ∃ request userId,
        request.userId = some userId
          ∧
        user.status = .approved
          ∧
        own x.call t = [ran (findUserById userId) (some user),
          ran (claimRequest request.uuid) (1 : Nat),
          ran (findRequestForPoll uuid (hashToken pollToken)) (some request)] := by
  obtain ⟨call, hcall', hissues⟩ := hx.issues
  rw [hcall, Option.some.injEq] at hcall'
  subst hcall'
  rw [hmint] at hissues
  cases hissues with
  | mint hmints =>
    cases hmints with
    | poll hpoll howner hhistory hstatus =>
      cases hpoll
      exact ⟨_, _, howner, hstatus, hhistory⟩
    | _ => simp_all

theorem MintsFor.claimed {db : AuthDb} {schedule : Schedule} {i requestId : Nat}
    (h : MintsFor calls (Auth.after cfg db calls schedule).trace i requestId)
    : ∃ request, Claimed (Auth.after cfg db calls schedule).trace i request ∧
        request.id = requestId := by
  obtain ⟨uuid, pollToken, request, user, keepSignedIn, session, hcall, hfirst, hid, hmint⟩ := h
  obtain ⟨later, x, earlier, hsplit, rfl, hev⟩ := split_of_mem_own hmint
  obtain ⟨request', userId, _, _, hhistory⟩ :=
    (step_of_split hsplit).poll_mints hcall (congrArg Sigma.fst hev)
  have hsuffix : own x.call earlier <:+ own x.call (Auth.after cfg db calls schedule).trace := by
    apply own_suffix
    rw [hsplit]
    exact (List.suffix_cons _ _).trans (List.suffix_append _ _)
  rw [hhistory] at hsuffix
  obtain ⟨newer, hown⟩ := hsuffix
  rw [← hown] at hfirst
  simp only [List.getLast?_append, List.getLast?_cons_cons, List.getLast?_singleton,
    Option.some_or, Option.some.injEq] at hfirst
  have heq := answer_of_ran_eq hfirst
  rw [Option.some.injEq] at heq
  subst heq
  refine ⟨request', ⟨uuid, pollToken, ?_⟩, hid⟩
  rw [← hown]
  exact (List.suffix_cons _ _).trans (List.suffix_append _ _)

/--
At most one poll mints a session for a request, in every run whose approvals only hit unclaimed
requests.
-/
theorem mintsFor_subsingleton {db : AuthDb} {schedule : Schedule}
    (hempty : (db .authorizationRequests).rows = [])
    (hunclaimed : ApprovesUnclaimed (Auth.after cfg db calls schedule).trace) (requestId : Nat)
    : {i | MintsFor calls (Auth.after cfg db calls schedule).trace i requestId}.Subsingleton := by
  have hinv := auth_induction (fun _ _ => ApprovesUnclaimed.tail) (fun _ _ => ClaimInv.step)
    (ClaimInv.init hempty) schedule hunclaimed
  intro i hi j hj
  obtain ⟨request, hclaimed, hid⟩ := MintsFor.claimed hi
  obtain ⟨request', hclaimed', hid'⟩ := MintsFor.claimed hj
  exact hinv.unique i j request request' hclaimed hclaimed' (by rw [hid, hid'])

end

section Runs

open Sample

attribute [local instance] platform

def approvalCalls : List Call := [
  .create "ann" "ip" "agent" false,
  .authorize "uuuuu" 1 "secret",
  .authorize "uuuuu" 1 "secret",
  .poll "uuuuu" "bbbb",
  .poll "uuuuu" "bbbb"
]

def approvedOnce : Schedule :=
  schedule [0, 0, 0, 0, 0, 0, 0, 0, 0, 0, 1, 1, 1, 1, 1, 1, 3, 3, 3, 3]

/--
The second approval has loaded the request before the first one is stored, and is stored itself after
the first poll has claimed the request.
-/
def approvedTwice : Schedule :=
  schedule [0, 0, 0, 0, 0, 0, 0, 0, 0, 0, 1, 1, 1, 2, 2, 2, 1, 1, 1, 3, 3, 3, 3, 2, 2, 2, 4, 4, 4, 4]

theorem mintsFor_subsingleton_approvedOnce
    : {i | MintsFor approvalCalls (Auth.after config (db ann) approvalCalls approvedOnce).trace i
        0}.Subsingleton := by
  refine mintsFor_subsingleton rfl ?_ 0
  have hwrites : ∀ x ∈ (Auth.after config (db ann) approvalCalls approvedOnce).trace,
      x.effect.writes = true →
        ∀ r ∈ (x.before .authorizationRequests).rows, r.loggedAt = none := by decide
  intro x hx id approverUserId now affected hran r hr _
  exact hwrites x hx (by rw [show x.effect = _ from congrArg Sigma.fst hran]; rfl) r hr

theorem not_mintsFor_subsingleton
    : ¬{i | MintsFor approvalCalls (Auth.after config (db ann) approvalCalls approvedTwice).trace i
        0}.Subsingleton := by
  intro hsubsingleton
  have h3 : MintsFor approvalCalls (Auth.after config (db ann) approvalCalls approvedTwice).trace 3
      0 :=
    ⟨"uuuuu", "bbbb", ⟨0, "uuuuu", "ann", some 1, .approved, "bbbb", "ip", "agent", some 1, 8, 3600006,
      some 16, none, 0, none, false⟩, ann, false, none, rfl, rfl, rfl,
      List.mem_of_getElem? (i := 0) rfl⟩
  have h4 : MintsFor approvalCalls (Auth.after config (db ann) approvalCalls approvedTwice).trace 4
      0 :=
    ⟨"uuuuu", "bbbb", ⟨0, "uuuuu", "ann", some 1, .approved, "bbbb", "ip", "agent", some 1, 8, 3600006,
      some 23, some 20, 0, none, false⟩, ann, false, none, rfl, rfl, rfl,
      List.mem_of_getElem? (i := 0) rfl⟩
  have := hsubsingleton h3 h4
  omega

end Runs

end Kerghan
