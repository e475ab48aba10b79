import Kerghan.Auth.DeviceFlow.Claim
import Kerghan.Auth.Lemmas.Users

/-!
This module contains the proof that a poll which gets a session presents the poll token of a request
that its user has approved with the right password.
-/

namespace Kerghan

section

variable [Platform] {cfg : AuthConfig} {calls : List Call} {t : List AuthEntry} {x : AuthEntry}

/--
A `create` call has stored the request for the user it had found under the requested username.
-/
def Created (calls : List Call) (t : List AuthEntry) (request : AuthorizationRequest) : Prop :=
  ∃ (i : Nat) (username ip userAgent uuid pollToken : String) (keepSignedIn : Bool)
    (expiresAt : Date) (user : Option User) (row : AuthorizationRequest) (older : AuthHistory),
    calls[i]? = some (.create username ip userAgent keepSignedIn)
      ∧
    ran (insertRequest uuid username (user.map User.id) (hashToken pollToken) ip userAgent expiresAt
      keepSignedIn) row :: older <:+ own i t
      ∧
    row.identity = request.identity
      ∧
    ran (findUserByUsername username) user ∈ older
      ∧
    request.userId = user.map User.id

/--
An `authorize` call of this user has read the request while it was open, unexpired and not locked,
and then has found the password to be right.
-/
def Authorized (calls : List Call) (t : List AuthEntry) (request : AuthorizationRequest)
    (approverUserId : Nat)
    : Prop :=
  ∃ (i : Nat) (uuid password : String) (loaded : AuthorizationRequest) (approver : User)
    (older : AuthHistory),
    calls[i]? = some (.authorize uuid approverUserId password)
      ∧
    ran (findRequest uuid) (some loaded) ∈ own i t
      ∧
    loaded.identity = request.identity
      ∧
    Approves (own i t) loaded approverUserId password
      ∧
    ran (findUserById approverUserId) (some approver) :: older <:+ own i t
      ∧
    Found older .authorizationRequests loaded
      ∧
    Platform.bcryptCompare password approver.passwordDigest = true

/--
The poll for `request` is entitled to a session of `user`.
-/
structure Authentic (calls : List Call) (t : List AuthEntry) (i : Nat) (uuid pollToken : String)
    (user : User) (request : AuthorizationRequest) : Prop where
  uuid : sameText request.uuid uuid = true
  pollTokenHash : request.pollTokenHash = hashToken pollToken
  userId : request.userId = some user.id
  created : Created calls t request
  authorized : Authorized calls t request user.id
  read : ∃ older, own i t = ran (findUserById user.id) (some user) :: older
  approved : user.status = .approved

theorem Created.mono {t' : List AuthEntry} {request : AuthorizationRequest}
    (h : Created calls t request) (hsuffix : t <:+ t')
    : Created calls t' request := by
  obtain ⟨i, username, ip, userAgent, uuid, pollToken, keepSignedIn, expiresAt, user, row, older, hcall,
    hinsert, hrest⟩ := h
  exact ⟨i, username, ip, userAgent, uuid, pollToken, keepSignedIn, expiresAt, user, row, older, hcall,
    hinsert.trans (own_suffix hsuffix), hrest⟩

theorem Created.congr {request request' : AuthorizationRequest} (h : Created calls t request)
    (hidentity : request.identity = request'.identity)
    : Created calls t request' := by
  obtain ⟨i, username, ip, userAgent, uuid, pollToken, keepSignedIn, expiresAt, user, row, older, hcall,
    hinsert, hrow, huser, huserId⟩ := h
  refine ⟨i, username, ip, userAgent, uuid, pollToken, keepSignedIn, expiresAt, user, row, older, hcall,
    hinsert, hrow.trans hidentity, huser, ?_⟩
  rw [← userId_of_identity hidentity]
  exact huserId

theorem Authorized.mono {t' : List AuthEntry} {request : AuthorizationRequest} {approverUserId : Nat}
    (h : Authorized calls t request approverUserId) (hsuffix : t <:+ t')
    : Authorized calls t' request approverUserId := by
  obtain ⟨i, uuid, password, loaded, approver, older, hcall, hfound, hidentity, happroves, hread,
    hrest⟩ := h
  exact ⟨i, uuid, password, loaded, approver, older, hcall, mem_own_of_suffix hsuffix hfound, hidentity,
    happroves.mono (own_suffix hsuffix), hread.trans (own_suffix hsuffix), hrest⟩

theorem Authorized.congr {request request' : AuthorizationRequest} {approverUserId : Nat}
    (h : Authorized calls t request approverUserId) (hidentity : request.identity = request'.identity)
    : Authorized calls t request' approverUserId := by
  obtain ⟨i, uuid, password, loaded, approver, older, hcall, hfound, hloaded, hrest⟩ := h
  exact ⟨i, uuid, password, loaded, approver, older, hcall, hfound, hloaded.trans hidentity, hrest⟩

theorem Authorized.owner {request : AuthorizationRequest} {approverUserId : Nat}
    (h : Authorized calls t request approverUserId)
    : request.userId = some approverUserId := by
  obtain ⟨i, uuid, password, loaded, approver, older, hcall, hfound, hidentity, happroves, _⟩ := h
  rw [← userId_of_identity hidentity]
  exact happroves.owner

structure AuthenticInv (calls : List Call) (db : AuthDb) (t : List AuthEntry) : Prop where
  seen : RequestsSeen db t
  users : UsersSeen db t
  created : ∀ r ∈ (db .authorizationRequests).rows, Created calls t r
  /-- The password of an approver is never compared with the dummy digest. -/
  known : ∀ i userId older request, ran (findUserById userId) none :: older <:+ own i t →
    Found older .authorizationRequests request → request.userId ≠ some userId
  authorized : ∀ r ∈ (db .authorizationRequests).rows, r.status = .approved →
    ∃ userId, Authorized calls t r userId
  claimed : ∀ i request, Claimed t i request → ∃ userId, Authorized calls t request userId

theorem AuthenticInv.init {db : AuthDb} (hempty : (db .authorizationRequests).rows = [])
    : AuthenticInv calls db [] where
  seen := .nil
  users := .nil
  created := by simp [hempty]
  known := by
    intro i userId older request hsuffix
    simp at hsuffix
  authorized := by simp [hempty]
  claimed := by
    intro i request ⟨uuid, pollToken, hsuffix⟩
    simp at hsuffix

theorem AuthenticInv.owner_mem {db : AuthDb} (hinv : AuthenticInv calls db t) {i userId : Nat}
    {request : AuthorizationRequest} (hfound : Found (own i t) .authorizationRequests request)
    (howner : request.userId = some userId)
    : ∃ user ∈ (db .users).rows, user.id = userId := by
  obtain ⟨r, hr, hidentity⟩ := hinv.seen i request hfound
  obtain ⟨j, username, ip, userAgent, uuid, pollToken, keepSignedIn, expiresAt, found, row, older, hcall,
    hinsert, hrow, huser, huserId⟩ := hinv.created r hr
  rw [userId_of_identity hidentity, howner] at huserId
  cases found with
  | none => simp at huserId
  | some user =>
    simp only [Option.map_some, Option.some.injEq] at huserId
    rw [huserId]
    apply hinv.users j user
    exact found_of_ran (hinsert.subset (List.mem_cons_of_mem _ huser))

theorem AuthenticInv.known_step (hx : Step calls t x) (hinv : AuthenticInv calls x.before t)
    {i userId : Nat} {older : AuthHistory} {request : AuthorizationRequest}
    (hsuffix : ran (findUserById userId) none :: older <:+ own i (x :: t))
    (hfound : Found older .authorizationRequests request)
    : request.userId ≠ some userId := by
  by_cases hcall : x.call = i
  . subst hcall
    rw [own_cons_self, List.suffix_cons_iff] at hsuffix
    rcases hsuffix with hnew | hold
    . intro howner
      simp only [List.cons.injEq] at hnew
      obtain ⟨hran, rfl⟩ := hnew
      obtain ⟨user, huser, hid⟩ := hinv.owner_mem hfound howner
      obtain ⟨choice, hfirst⟩ := hx.found hran.symm
      exact Table.first_ne_none huser (by simpa using hid) hfirst.symm
    . exact hinv.known x.call userId older request hold hfound
  . rw [own_cons_of_ne hcall] at hsuffix
    exact hinv.known i userId older request hsuffix hfound

theorem AuthenticInv.approve (hinv : AuthenticInv calls x.before t) {uuid password : String}
    {approverUserId : Nat} {request r : AuthorizationRequest}
    (hcall : calls[x.call]? = some (.authorize uuid approverUserId password))
    (hfound : ran (findRequest uuid) (some request) ∈ own x.call t)
    (happroves : Approves (own x.call t) request approverUserId password)
    (hr : r ∈ (x.before .authorizationRequests).rows) (hid : r.id = request.id)
    : Authorized calls t r approverUserId := by
  obtain ⟨r1, hr1, hidentity⟩ := hinv.seen x.call request (found_of_ran hfound)
  have heq : r = r1 := eq_of_request_id hr hr1 (by rw [hid, id_of_identity hidentity])
  rw [← heq] at hidentity
  obtain ⟨approver, newer, older, hown, hloaded, hpassword⟩ := happroves.password
  have hread : ran (findUserById approverUserId) approver :: older <:+ own x.call t := by
    rw [hown]
    exact List.suffix_append _ _
  cases approver with
  | none => exact absurd happroves.owner (hinv.known x.call approverUserId older request hread hloaded)
  | some approver =>
    exact ⟨x.call, uuid, password, request, approver, older, hcall, hfound, hidentity.symm, happroves,
      hread, hloaded, hpassword⟩

theorem AuthenticInv.step (hx : Step calls t x) (hinv : AuthenticInv calls x.before t)
    : AuthenticInv calls x.after (x :: t) where
  seen := hinv.seen.step hx
  users := hinv.users.step hx
  created := by
    intro r' hr'
    rcases hx.requests.1 r' hr' with ⟨r, hr, hchange⟩ | hcreated
    . have := (hinv.created r hr).mono (List.suffix_cons x t)
      exact this.congr hchange.identity.symm
    . cases hcreated with
      | create hcall hran huser huserId =>
        rename_i username ip userAgent keepSignedIn user uuid pollToken expiresAt _ _
        exact ⟨x.call, username, ip, userAgent, uuid, pollToken, keepSignedIn, expiresAt, user, r', _,
          hcall, cons_own_suffix hran, rfl, huser, huserId⟩
  known := fun _ _ _ _ => hinv.known_step hx
  authorized := by
    intro r' hr' hstatus
    rcases hx.requests.1 r' hr' with ⟨r, hr, hchange⟩ | hcreated
    . have hkept : r.status = .approved → ∃ userId, Authorized calls (x :: t) r' userId := by
        intro hstatus
        obtain ⟨userId, hauthorized⟩ := hinv.authorized r hr hstatus
        exact ⟨userId, (hauthorized.mono (List.suffix_cons x t)).congr hchange.identity.symm⟩
      cases hchange with
      | keep => exact hkept hstatus
      | fail => exact hkept hstatus
      | approve hcall hran hfound happroves hid =>
        have := hinv.approve hcall hfound happroves hr hid
        exact ⟨_, this.mono (List.suffix_cons x t)⟩
      | resolve hran hresolved => rcases hresolved with h | h <;> simp [h] at hstatus
      | claim => simp at hstatus
      | reject => simp at hstatus
    . cases hcreated with
      | create hcall hran huser huserId hopened => simp [hopened] at hstatus
  claimed := by
    intro i request hclaimed
    rcases hx.claimed hinv.seen hclaimed with hold | ⟨_, ⟨r, hr, hidentity, hstatus⟩, _⟩
    . obtain ⟨userId, hauthorized⟩ := hinv.claimed i request hold
      exact ⟨userId, hauthorized.mono (List.suffix_cons x t)⟩
    . obtain ⟨userId, hauthorized⟩ := hinv.authorized r hr hstatus
      exact ⟨userId, (hauthorized.mono (List.suffix_cons x t)).congr hidentity⟩

/--
Whenever a poll reaches `issueTokens`, it is entitled to the session.
-/
theorem poll_authentic {db : AuthDb} {schedule : Schedule}
    (hempty : (db .authorizationRequests).rows = []) {later earlier : List AuthEntry}
    (htrace : (Auth.after cfg db calls schedule).trace = later ++ x :: earlier)
    {uuid pollToken : String} {user : User} {keepSignedIn : Bool} {session : Option SessionIdentity}
    (hcall : calls[x.call]? = some (.poll uuid pollToken))
    (hmint : x.effect = .issueTokens user keepSignedIn session)
    : ∃ request ∈ (x.before .authorizationRequests).rows,
        Authentic calls earlier x.call uuid pollToken user request := by
  have hinv := (auth_induction_split (A := fun _ => True) (fun _ _ _ => trivial)
    (fun _ _ _ => AuthenticInv.step) (AuthenticInv.init hempty) schedule trivial htrace).1
  have hx := step_of_split htrace
  obtain ⟨request, userId, howner, happroved, hown⟩ := hx.poll_mints hcall hmint
  have hclaimed : Claimed earlier x.call request := by
    refine ⟨uuid, pollToken, ?_⟩
    rw [hown]
    exact List.suffix_cons _ _
  obtain ⟨r, hr, hidentity⟩ := hinv.seen x.call request hclaimed.found
  obtain ⟨userId', hauthorized⟩ := hinv.claimed x.call request hclaimed
  have hsuffix : own x.call earlier <:+ own x.call (Auth.after cfg db calls schedule).trace := by
    apply own_suffix
    rw [htrace]
    exact (List.suffix_cons _ _).trans (List.suffix_append _ _)
  rw [hown] at hsuffix
  have hrequest : (sameText request.uuid uuid && request.pollTokenHash == hashToken pollToken) = true :=
    @found_where _ cfg calls db schedule x.call .authorizationRequests
      (fun r => sameText r.uuid uuid && r.pollTokenHash == hashToken pollToken) (fun _ => 0) request
      (hsuffix.subset (by simp))
  have huser : (user.id == userId) = true :=
    @found_where _ cfg calls db schedule x.call .users (fun u => u.id == userId) (fun _ => 0) user
      (hsuffix.subset (by simp))
  rw [beq_iff_eq] at huser
  simp only [Bool.and_eq_true, beq_iff_eq] at hrequest
  refine ⟨r, hr, ?_⟩
  constructor
  . rw [uuid_of_identity hidentity]
    exact hrequest.1
  . rw [pollTokenHash_of_identity hidentity]
    exact hrequest.2
  . rw [userId_of_identity hidentity, huser]
    exact howner
  . exact hinv.created r hr
  . have := hauthorized.owner
    rw [howner, Option.some.injEq] at this
    rw [huser, this]
    exact hauthorized.congr hidentity.symm
  . rw [hown, huser]
    exact ⟨_, rfl⟩
  . exact happroved

end

section Runs

open Sample

attribute [local instance] platform

theorem poll_authentic_approvedOnce
    : ∃ x earlier,
        (Auth.after config (db ann) approvalCalls approvedOnce).trace = x :: earlier
          ∧
        ∃ request ∈ (x.before .authorizationRequests).rows,
          Authentic approvalCalls earlier x.call "uuuuu" "bbbb" ann request := by
  refine ⟨_, _, rfl, ?_⟩
  exact poll_authentic rfl
    (show (Auth.after config (db ann) approvalCalls approvedOnce).trace = [] ++ _ :: _ from rfl) rfl rfl

end Runs

end Kerghan
