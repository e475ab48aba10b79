import Kerghan.Auth.Lemmas.Requests
import Kerghan.Auth.Sample

/-!
This module contains the proof that the limits on new authorization requests hold: as long as the calls that
create them do not overlap, no window of time has more requests of one IP or of one username than allowed, and no
user has more open requests than allowed, whatever becomes of the requests meanwhile.
-/

namespace Kerghan

open AuthorizationRequestAbuseGuardService AuthorizationRequestService

section General

variable [Platform]

section Creates

variable (cfg : AuthConfig)

structure BelowLimit (h : AuthHistory) (ip username : String) : Prop where
  counted : ∃ now, ∃ ipCount usernameCount : Nat,
    clock now ∈ h
      ∧
    ran (countRequestsByIp ip (now - createWindowMs cfg)) ipCount ∈ h
      ∧
    ran (countRequestsByUsername username (now - createWindowMs cfg)) usernameCount ∈ h
      ∧
    (ipCount : Int) < createLimit cfg
      ∧
    (usernameCount : Int) < createLimit cfg

inductive HasRoom (userId : Nat) (h : AuthHistory) : Prop where
  | below {openCount : Nat} (hcounted : ran (countOpenRequests userId) openCount ∈ h)
    (hbelow : (openCount : Int) < maxOpenPerUser cfg)
  | noneOpen (hfound : ran (findOldestOpenRequest userId) none ∈ h)
  | evicted {oldest : AuthorizationRequest} {now : Date} {affected : Nat}
    (hfound : ran (findOldestOpenRequest userId) (some oldest) ∈ h)
    (hevicted : ran (resolveRequest oldest.id .expired now) affected ∈ h)

inductive Creates (call : Call) (h : AuthHistory) : AuthEffect → Prop where
  | free {s : AuthEffect} (hs : s.insertsInto .authorizationRequests = false) : Creates call h s
  | insert {username ip userAgent uuid pollTokenHash : String} {keepSignedIn : Bool} {userId : Option Nat}
    {expiresAt : Date} (hcall : call = .create username ip userAgent keepSignedIn)
    (hlimit : BelowLimit cfg h ip username) (hroom : ∀ id, userId = some id → HasRoom cfg id h)
    (hfirst : ∀ ev ∈ h, ev.1.insertsInto .authorizationRequests = false)
    : Creates call h
        (.db (insertRequest uuid username userId pollTokenHash ip userAgent expiresAt keepSignedIn))

variable {cfg} {call : Call} {h h' : AuthHistory}

theorem BelowLimit.mono {ip username : String} (hlimit : BelowLimit cfg h ip username) (hsub : h ⊆ h')
    : BelowLimit cfg h' ip username where
  counted := by
    obtain ⟨now, ipCount, usernameCount, hnow, hip, husername, hbelow⟩ := hlimit.counted
    exact ⟨now, ipCount, usernameCount, hsub hnow, hsub hip, hsub husername, hbelow⟩

def NoInsert (h : AuthHistory) : Prop :=
  ∀ ev ∈ h, ev.1.insertsInto .authorizationRequests = false

omit [Platform] in
theorem NoInsert.cons (hcalm : NoInsert h) {ev : (s : AuthEffect) × AuthAnswer s}
    (hev : ev.1.insertsInto .authorizationRequests = false)
    : NoInsert (ev :: h) := by
  intro ev' hev'
  rcases List.mem_cons.mp hev' with rfl | hold
  . exact hev
  . exact hcalm ev' hold

theorem isOverCreateLimit_creates {ip username : String} (hcalm : NoInsert h)
    : (isOverCreateLimit cfg ip username).Meets Answers (Creates cfg call)
        (fun h' r => NoInsert h' ∧ (r = .ok false → BelowLimit cfg h' ip username)) h := by
  unfold isOverCreateLimit
  rw [Api.meets_now]
  refine ⟨.free rfl, fun now => ?_⟩
  have hcalm₁ : NoInsert (clock now :: h) := hcalm.cons rfl
  rw [Api.meets_query]
  refine ⟨.free rfl, fun ipCount _ => ?_, fun e => ⟨hcalm₁.cons rfl, by simp⟩⟩
  rw [Api.meets_query]
  refine ⟨.free rfl, fun usernameCount _ => ⟨(hcalm₁.cons rfl).cons rfl, fun heq => ?_⟩,
    fun e => ⟨(hcalm₁.cons rfl).cons rfl, by simp⟩⟩
  simp only [Except.ok.injEq, Bool.or_eq_false_iff, decide_eq_false_iff_not, Int.not_le, ge_iff_le] at heq
  exact ⟨now, ipCount, usernameCount, by simp, by simp, by simp, heq.1, heq.2⟩

theorem enforceOpenCapFor_creates {userId : Nat} (hcalm : NoInsert h)
    : (enforceOpenCapFor cfg userId).Meets Answers (Creates cfg call)
        (fun h' r => NoInsert h' ∧ (r = .ok () → HasRoom cfg userId h')) h := by
  unfold enforceOpenCapFor
  rw [Api.meets_query]
  refine ⟨.free rfl, fun openCount _ => ?_, fun e => ⟨hcalm.cons rfl, by simp⟩⟩
  have hcalm₁ : NoInsert (ran (countOpenRequests userId) openCount :: h) := hcalm.cons rfl
  split
  . next hbelow => exact ⟨hcalm₁, fun _ => .below (List.mem_cons_self ..) hbelow⟩
  . rw [Api.meets_query]
    refine ⟨.free rfl, fun oldest _ => ?_, fun e => ⟨hcalm₁.cons rfl, by simp⟩⟩
    cases oldest with
    | none => exact ⟨hcalm₁.cons rfl, fun _ => .noneOpen (List.mem_cons_self ..)⟩
    | some oldest =>
      dsimp only
      rw [Api.meets_now]
      refine ⟨.free rfl, fun now => ?_⟩
      rw [Api.meets_query]
      refine ⟨.free rfl, fun affected _ => ⟨((hcalm₁.cons rfl).cons rfl).cons rfl, fun _ => ?_⟩,
        fun e => ⟨((hcalm₁.cons rfl).cons rfl).cons rfl, by simp⟩⟩
      exact @HasRoom.evicted _ _ _ _ oldest _ _ (by simp) (List.mem_cons_self ..)

theorem create_creates {username ip userAgent : String} {keepSignedIn : Bool}
    : (create cfg username ip userAgent keepSignedIn).Meets Answers
        (Creates cfg (.create username ip userAgent keepSignedIn)) Anyhow [] := by
  unfold create
  rw [Api.meets_query]
  refine ⟨.free rfl, fun user _ => ?_, fun _ => trivial⟩
  have hcalm : NoInsert [ran (findUserByUsername username) user] := by simp [NoInsert]
  refine (isOverCreateLimit_creates hcalm).bind ?_ (fun _ _ _ _ => trivial)
  rintro h₁ overLimit _ ⟨hcalm₁, hlimit⟩
  simp only [Api.meets_randomBytes, Api.meets_randomUUID, Api.meets_now]
  refine ⟨.free rfl, fun pollToken => ⟨.free rfl, fun uuid => ⟨.free rfl, fun now => ?_⟩⟩⟩
  split
  . trivial
  . next hunder =>
    have hcalm₂ : NoInsert (clock now :: ⟨.randomUUID, uuid⟩ :: ⟨.randomBytes, pollToken⟩ :: h₁) :=
      ((hcalm₁.cons rfl).cons rfl).cons rfl
    have hroom : (enforceOpenCap cfg user).Meets Answers (Creates cfg (.create username ip userAgent keepSignedIn))
        (fun h' r => NoInsert h' ∧ (r = .ok () → ∀ id, user.map User.id = some id → HasRoom cfg id h'))
        (clock now :: ⟨.randomUUID, uuid⟩ :: ⟨.randomBytes, pollToken⟩ :: h₁) := by
      cases user with
      | none => exact ⟨hcalm₂, fun _ _ heq => by simp at heq⟩
      | some user =>
        refine (enforceOpenCapFor_creates hcalm₂).mono ?_
        rintro h' r _ ⟨hcalm', hq⟩
        refine ⟨hcalm', fun heq id hid => ?_⟩
        cases hid
        exact hq heq
    refine hroom.bind ?_ (fun _ _ _ _ => trivial)
    rintro h₂ _ hsuffix ⟨hcalm', hmade⟩
    cases (ttlMs cfg).map (now + ·) with
    | none => trivial
    | some expiresAt =>
      have hsub : h₁ ⊆ h₂ := fun ev hev => hsuffix.subset (by simp [hev])
      have hlimit₂ : BelowLimit cfg h₂ ip username :=
        (hlimit (by rw [Bool.eq_false_of_not_eq_true hunder])).mono hsub
      simp only [saveRequest, Prog.bind_assoc, Prog.pure_bind]
      rw [Api.meets_query]
      refine ⟨.insert rfl hlimit₂ (hmade rfl) hcalm', fun _ _ => ?_, fun _ => trivial⟩
      rw [Api.meets_emit]
      exact ⟨.free rfl, trivial⟩

theorem Call.prog_creates (cfg : AuthConfig) (call : Call)
    : (call.prog cfg).Meets Answers (Creates cfg call) Anyhow [] := by
  by_cases hcreate : ∃ username ip userAgent keepSignedIn, call = .create username ip userAgent keepSignedIn
  . obtain ⟨username, ip, userAgent, keepSignedIn, rfl⟩ := hcreate
    exact create_creates.map (fun _ _ _ => trivial) (fun _ _ _ => trivial)
  . refine ((prog_meets cfg call).imp fun h s hissues => .free ?_).mono fun _ _ _ _ => trivial
    by_contra hinsert
    unfold AuthEffect.insertsInto at hinsert
    split at hinsert
    . next table mk =>
      have htable : table = .authorizationRequests := by simpa using hinsert
      subst htable
      have hwrite : RequestWrite call h (.insert .authorizationRequests mk) := hissues.write rfl
      cases hwrite with
      | insert hcall => exact hcreate ⟨_, _, _, _, hcall⟩
    . exact hinsert rfl

end Creates

section Rows

def openIds (userId : Nat) (db : AuthDb) : List Nat :=
  ((db .authorizationRequests).rows.filter (isOpenOf userId)).map AuthorizationRequest.id

/--
What happens to the requests while none is created: they stay what they are, and none is opened again.
-/
structure NoneCreated (db db' : AuthDb) : Prop where
  identities : (db' .authorizationRequests).rows.map AuthorizationRequest.identity =
    (db .authorizationRequests).rows.map AuthorizationRequest.identity
  opened : ∀ userId, (openIds userId db').Sublist (openIds userId db)

theorem NoneCreated.refl (db : AuthDb) : NoneCreated db db := ⟨rfl, fun _ => .refl _⟩

theorem NoneCreated.trans {db db' db'' : AuthDb} (hfirst : NoneCreated db db') (hsecond : NoneCreated db' db'')
    : NoneCreated db db'' where
  identities := hsecond.identities.trans hfirst.identities
  opened userId := (hsecond.opened userId).trans (hfirst.opened userId)

variable {calls : List Call} {t : List AuthEntry} {x : AuthEntry} {r r' : AuthorizationRequest}

theorem RequestChange.isOpenOf {userId : Nat} (hchange : RequestChange calls t x r r')
    (hopened : isOpenOf userId r' = true)
    : isOpenOf userId r = true := by
  have hidentity := userId_of_identity hchange.identity
  simp only [Kerghan.isOpenOf, Bool.and_eq_true, beq_iff_eq] at hopened ⊢
  rw [hidentity] at hopened
  refine ⟨hopened.1, ?_⟩
  cases hchange with
  | keep | fail => exact hopened.2
  | approve | claim | reject => simp at hopened
  | resolve _ hstatus =>
    rcases hstatus with rfl | rfl
    . simp at hopened
    . simp at hopened

theorem Step.noneCreated (hx : Step calls t x) (hinsert : x.effect.insertsInto .authorizationRequests = false)
    : NoneCreated x.before x.after := by
  rcases hx.requests_cases with ⟨f, hchange, hrows⟩ | ⟨created, hcreated, _⟩
  . constructor
    . rw [hrows, List.map_map]
      exact List.map_congr_left fun r _ => (hchange r).identity
    . intro userId
      unfold openIds
      rw [hrows, List.filter_map, List.map_map]
      have hids : ∀ r, (AuthorizationRequest.id ∘ f) r = r.id := fun r => id_of_identity (hchange r).identity
      rw [List.map_congr_left fun r _ => hids r]
      apply List.Sublist.map
      exact List.monotone_filter_right _ fun r hopened => (hchange r).isOpenOf hopened
  . cases hcreated with
    | create _ hran =>
      rw [show x.effect = _ from congrArg Sigma.fst hran] at hinsert
      simp at hinsert

theorem NoneCreated.countP_eq {db db' : AuthDb} (hnone : NoneCreated db db') {p : AuthorizationRequest → Bool}
    (hp : ∀ r : AuthorizationRequest, p r.identity = p r)
    : (db' .authorizationRequests).rows.countP p = (db .authorizationRequests).rows.countP p := by
  have hcount : ∀ rows : List AuthorizationRequest,
      rows.countP p = (rows.map AuthorizationRequest.identity).countP p := by
    intro rows
    rw [List.countP_map]
    exact List.countP_congr fun r _ => by rw [Function.comp_apply, hp]
  rw [hcount, hnone.identities, ← hcount]

theorem countP_isOpenOf {userId : Nat} (db : AuthDb)
    : (db .authorizationRequests).rows.countP (isOpenOf userId) = (openIds userId db).length := by
  rw [openIds, List.length_map, List.countP_eq_length_filter]

end Rows

section Limits

variable (cfg : AuthConfig)

/--
The request has been created in the window of the rate limit that follows `start`.
-/
def inWindow (start : Date) (r : AuthorizationRequest) : Bool :=
  decide (start < r.createdAt) && decide (r.createdAt ≤ start + createWindowMs cfg)

structure WithinLimits (db : AuthDb) : Prop where
  ip : ∀ ip start, ((db .authorizationRequests).rows.countP fun r =>
    sameText r.requestIp ip && inWindow cfg start r) ≤ createLimit cfg
  username : ∀ username start, ((db .authorizationRequests).rows.countP fun r =>
    sameText r.username username && inWindow cfg start r) ≤ createLimit cfg
  opened : ∀ userId, ((db .authorizationRequests).rows.countP (isOpenOf userId)) ≤ maxOpenPerUser cfg

variable {cfg} {db db' : AuthDb}

theorem WithinLimits.noneCreated (hwithin : WithinLimits cfg db) (hnone : NoneCreated db db')
    : WithinLimits cfg db' where
  ip ip start := by
    rw [hnone.countP_eq fun _ => rfl]
    exact hwithin.ip ip start
  username username start := by
    rw [hnone.countP_eq fun _ => rfl]
    exact hwithin.username username start
  opened userId := by
    have hle := (hnone.opened userId).length_le
    have hbefore := hwithin.opened userId
    rw [countP_isOpenOf] at hbefore ⊢
    omega

/--
One more request in the windows that it falls into, if less than `limit` have been counted since the start of the
last window that it could fall into.
-/
theorem countP_window {rows : List AuthorizationRequest} {r : AuthorizationRequest} {limit : Int} {now : Date}
    (field : AuthorizationRequest → String) {text : String}
    (hbelow : (rows.countP fun r' => sameText (field r') (field r) && decide (r'.createdAt > now - createWindowMs cfg))
      < limit) (hnow : now ≤ r.createdAt) {start : Date}
    (hwithin : (rows.countP fun r' => sameText (field r') text && inWindow cfg start r') ≤ limit)
    : ((rows ++ [r]).countP fun r' => sameText (field r') text && inWindow cfg start r') ≤ limit := by
  rw [List.countP_append, List.countP_singleton]
  split
  . next hwindow =>
    simp only [inWindow, Bool.and_eq_true, decide_eq_true_eq] at hwindow
    have hle : (rows.countP fun r' => sameText (field r') text && inWindow cfg start r') ≤
        rows.countP fun r' => sameText (field r') (field r) && decide (r'.createdAt > now - createWindowMs cfg) := by
      apply List.countP_mono_left
      intro r' _ hr'
      simp only [inWindow, Bool.and_eq_true, decide_eq_true_eq, gt_iff_lt] at hr' ⊢
      obtain ⟨htext, hstart, hend⟩ := hr'
      obtain ⟨htext', hstart', hend'⟩ := hwindow
      rw [sameText_comm] at htext'
      refine ⟨sameText_trans htext htext', ?_⟩
      have hle : now - createWindowMs cfg ≤ start := Int.sub_right_le_of_le_add (Int.le_trans hnow hend')
      exact Int.lt_of_le_of_lt hle hstart
    omega
  . omega

end Limits

section Run

variable {cfg : AuthConfig} {calls : List Call} {db : AuthDb} {schedule : Schedule}

def Call.creates : Call → Bool
  | .create .. => true
  | _ => false

def creates (calls : List Call) (i : Nat) : Bool :=
  (calls[i]?).any Call.creates

/--
Between two steps of a call that creates a request there is no step of another one.
-/
def Serial (calls : List Call) (t : List AuthEntry) : Prop :=
  ∀ i j, creates calls i = true → creates calls j = true → [i, j, i].Sublist (t.map Entry.call) → i = j

omit [Platform] in
theorem sublist_of_split {α : Type} {later front back earlier : List α} {a b c : α}
    : [a, b, c].Sublist (later ++ a :: (front ++ b :: (back ++ c :: earlier))) := by
  apply List.Sublist.trans _ (List.sublist_append_right later _)
  apply List.Sublist.cons_cons
  apply List.Sublist.trans _ (List.sublist_append_right front _)
  apply List.Sublist.cons_cons
  apply List.Sublist.trans _ (List.sublist_append_right back _)
  apply List.Sublist.cons_cons
  apply List.nil_sublist

/--
The clock is never set back.
-/
def Forward (schedule : Schedule) : Prop :=
  schedule.Pairwise fun pick pick' => pick.2.now ≤ pick'.2.now

theorem creates_of_split {later earlier : List AuthEntry} {x : AuthEntry}
    (hsplit : (Auth.after cfg db calls schedule).trace = later ++ x :: earlier)
    : ∃ call, calls[x.call]? = some call ∧ Creates cfg call (own x.call earlier) x.effect :=
  (Config.performs_of_split answers_exec (start_meets_of (Call.prog_creates cfg) db calls) rfl schedule
    hsplit).allowed

theorem createdAt_of_clock (hforward : Forward schedule) {later earlier : List AuthEntry} {x : AuthEntry}
    (hsplit : (Auth.after cfg db calls schedule).trace = later ++ x :: earlier) {now : Date}
    (hnow : clock now ∈ own x.call earlier) {uuid username pollTokenHash ip userAgent : String}
    {userId : Option Nat} {expiresAt : Date} {keepSignedIn : Bool} {r : AuthorizationRequest}
    (hran : ⟨x.effect, x.resp⟩ = ran (insertRequest uuid username userId pollTokenHash ip userAgent expiresAt
      keepSignedIn) r)
    : now ≤ r.createdAt := by
  obtain ⟨s₁, e, s₂, htrace₁, _, _, _, hexec, hschedule⟩ := Config.run_split rfl hsplit
  obtain ⟨later₁, y, earlier₁, hsplit₁, _, hclock⟩ := split_of_mem_own hnow
  obtain ⟨s₃, e', s₄, _, _, _, _, hexec', hschedule'⟩ := Config.run_split rfl (htrace₁.trans hsplit₁)
  have hle : e'.now ≤ e.now := by
    have hpairs := hforward
    rw [hschedule, hschedule'] at hpairs
    exact (List.pairwise_append.mp hpairs).2.2 (y.call, e') (by simp) (x.call, e) (by simp)
  have hnow' : now = e'.now := by
    obtain ⟨_, _, effect, resp, _⟩ := y
    cases hclock
    exact (congrArg Prod.fst hexec').symm
  have hcreated : r.createdAt = e.now := by
    obtain ⟨_, _, effect, resp, _⟩ := x
    cases hran
    have hinsert : (insertRequest uuid username userId pollTokenHash ip userAgent expiresAt keepSignedIn).exec
        e.toDbEnv _ = (.ok r, _) := hexec
    rw [(Stmt.exec_insert_eq hinsert).1]
  rw [hnow', hcreated]
  exact hle

theorem noneCreated_since (hserial : Serial calls (Auth.after cfg db calls schedule).trace)
    {later earlier : List AuthEntry} {x : AuthEntry}
    (hsplit : (Auth.after cfg db calls schedule).trace = later ++ x :: earlier)
    (hcreates : creates calls x.call = true) (hfirst : NoInsert (own x.call earlier))
    {mid earliest : List AuthEntry} {y : AuthEntry} (hearlier : earlier = mid ++ y :: earliest)
    (hcall : y.call = x.call)
    : NoneCreated y.after x.before := by
  have hmid : ∀ z ∈ mid, ∃ front back, (Auth.after cfg db calls schedule).trace = front ++ z :: back := by
    intro z hz
    obtain ⟨front, back, hmid⟩ := List.append_of_mem hz
    refine ⟨later ++ x :: front, back ++ y :: earliest, ?_⟩
    rw [hsplit, hearlier, hmid]
    simp
  have hinserts : ∀ z ∈ mid, z.effect.insertsInto .authorizationRequests = false := by
    intro z hz
    obtain ⟨front, back, hsplit'⟩ := hmid z hz
    obtain ⟨call, hcall', hcreates'⟩ := creates_of_split hsplit'
    by_cases hsame : z.call = x.call
    . have hmem : ⟨z.effect, z.resp⟩ ∈ own x.call earlier := by
        rw [hearlier]
        exact mem_own.mpr ⟨z, List.mem_append_left _ hz, hsame, rfl⟩
      exact hfirst _ hmem
    . generalize z.effect = effect at hcreates'
      cases hcreates' with
      | free hs => exact hs
      | insert hcreate =>
        have hother : creates calls z.call = true := by
          rw [creates, hcall', hcreate]
          rfl
        have hbetween : [x.call, z.call, x.call].Sublist
            ((Auth.after cfg db calls schedule).trace.map Entry.call) := by
          obtain ⟨front, back, rfl⟩ := List.append_of_mem hz
          rw [hsplit, hearlier]
          simp only [List.map_append, List.map_cons, List.append_assoc, List.cons_append, hcall]
          exact sublist_of_split
        exact absurd (hserial _ _ hcreates hother hbetween).symm hsame
  obtain ⟨s₁, _, _, htrace₁, hworld₁, _⟩ := Config.run_split rfl hsplit
  rw [← hworld₁]
  apply Config.rel_world NoneCreated.refl NoneCreated.trans rfl (htrace₁.trans hearlier)
  intro z hz
  obtain ⟨front, back, hsplit'⟩ := hmid z hz
  exact (step_of_split hsplit').noneCreated (hinserts z hz)

section Created

variable (hserial : Serial calls (Auth.after cfg db calls schedule).trace)
variable {later earlier : List AuthEntry} {x : AuthEntry}
variable (hsplit : (Auth.after cfg db calls schedule).trace = later ++ x :: earlier)
variable (hcreates : creates calls x.call = true) (hfirst : NoInsert (own x.call earlier))

include hserial hsplit hcreates hfirst

/--
What a call has seen before it creates a request has been so since no request has been created.
-/
theorem seen_since {ev : (s : AuthEffect) × AuthAnswer s} (hev : ev ∈ own x.call earlier)
    : ∃ mid y earliest, earlier = mid ++ y :: earliest ∧ y.call = x.call ∧ ⟨y.effect, y.resp⟩ = ev ∧
        Step calls earliest y ∧ NoneCreated y.before x.before := by
  obtain ⟨mid, y, earliest, hearlier, hcall, heq⟩ := split_of_mem_own hev
  have hstep : Step calls earliest y := by
    have hsplit' : (Auth.after cfg db calls schedule).trace = (later ++ x :: mid) ++ y :: earliest := by
      rw [hsplit, hearlier]
      simp
    exact step_of_split hsplit'
  have hcalm : y.effect.insertsInto .authorizationRequests = false := by
    have hnone := hfirst ev hev
    rwa [← heq] at hnone
  exact ⟨mid, y, earliest, hearlier, hcall, heq, hstep,
    (hstep.noneCreated hcalm).trans (noneCreated_since hserial hsplit hcreates hfirst hearlier hcall)⟩

theorem counted_below {p : AuthorizationRequest → Bool} (hp : ∀ r : AuthorizationRequest, p r.identity = p r)
    {n : Nat} (hcounted : ran (.count .authorizationRequests p) n ∈ own x.call earlier)
    : (x.before .authorizationRequests).rows.countP p = n := by
  obtain ⟨_, y, _, _, _, hran, hstep, hnone⟩ := seen_since hserial hsplit hcreates hfirst hcounted
  rw [hnone.countP_eq hp]
  exact (hstep.executed.counted hran).symm

theorem openIds_lt {userId : Nat} (hroom : HasRoom cfg userId (own x.call earlier))
    (hcap : 1 ≤ maxOpenPerUser cfg) (hwithin : ∀ y ∈ earlier, WithinLimits cfg y.before)
    : ((openIds userId x.before).length : Int) < maxOpenPerUser cfg := by
  cases hroom with
  | below hcounted hbelow =>
    obtain ⟨_, y, _, _, _, hran, hstep, hnone⟩ := seen_since hserial hsplit hcreates hfirst hcounted
    have hcount := hstep.executed.counted hran
    rw [show (Backed.db AuthEffect.exec y.before : AuthDb) = y.before from rfl, countP_isOpenOf] at hcount
    have hle := (hnone.opened userId).length_le
    omega
  | noneOpen hfound =>
    obtain ⟨_, y, _, _, _, hran, hstep, hnone⟩ := seen_since hserial hsplit hcreates hfirst hfound
    obtain ⟨choice, hchoice⟩ := hstep.found hran
    have hempty : openIds userId y.before = [] := by
      rw [openIds, List.map_eq_nil_iff, List.filter_eq_nil_iff]
      exact fun r hr hopened => Table.first_ne_none hr hopened hchoice.symm
    have hle := (hnone.opened userId).length_le
    rw [hempty] at hle
    simp only [List.length_nil] at hle
    omega
  | @evicted oldest now affected hfound hevicted =>
    obtain ⟨_, y, _, hearlier, _, hran, hstep, hnone⟩ := seen_since hserial hsplit hcreates hfirst hfound
    obtain ⟨_, z, _, hearlier', hcall, hran', hstep', _⟩ := seen_since hserial hsplit hcreates hfirst hevicted
    have hsince := noneCreated_since hserial hsplit hcreates hfirst hearlier' hcall
    have hy : y ∈ earlier := by
      rw [hearlier]
      exact List.mem_append_right _ (List.mem_cons_self ..)
    have hopen : oldest.id ∈ openIds userId y.before :=
      List.mem_map_of_mem (List.mem_filter.mpr (hstep.found_mem hran))
    have hclosed : oldest.id ∉ openIds userId x.before := by
      intro hmem
      obtain ⟨r', hr', hid⟩ := List.mem_map.mp ((hsince.opened userId).subset hmem)
      obtain ⟨hrow, hopened⟩ := List.mem_filter.mp hr'
      obtain ⟨_, _, hafter⟩ := hstep'.updated hran'
      rw [hafter] at hrow
      obtain ⟨r, _, rfl⟩ := List.mem_map.mp hrow
      split at hopened
      . simp [isOpenOf] at hopened
      . next hne =>
        rw [if_neg hne] at hid
        simp [hid] at hne
    have hlt : (openIds userId x.before).length < (openIds userId y.before).length := by
      apply Nat.lt_of_le_of_ne (hnone.opened userId).length_le
      intro hlength
      rw [(hnone.opened userId).eq_of_length hlength] at hclosed
      exact hclosed hopen
    have hcapped := (hwithin y hy).opened userId
    rw [countP_isOpenOf] at hcapped
    omega

theorem WithinLimits.created {username ip userAgent uuid pollTokenHash : String} {keepSignedIn : Bool}
    {userId : Option Nat} {expiresAt : Date} {r : AuthorizationRequest} (hforward : Forward schedule)
    (hcap : 1 ≤ maxOpenPerUser cfg)
    (hran : ⟨x.effect, x.resp⟩ = ran (insertRequest uuid username userId pollTokenHash ip userAgent expiresAt
      keepSignedIn) r)
    (hlimit : BelowLimit cfg (own x.call earlier) ip username)
    (hroom : ∀ id, userId = some id → HasRoom cfg id (own x.call earlier))
    (hwithin : WithinLimits cfg x.before) (hearlier : ∀ y ∈ earlier, WithinLimits cfg y.before)
    : WithinLimits cfg x.after := by
  obtain ⟨now, hrow, hrows, _⟩ := (step_of_split hsplit).inserted hran
  obtain ⟨start, ipCount, usernameCount, hclock, hip, husername, hipBelow, husernameBelow⟩ := hlimit.counted
  have hcreated : start ≤ r.createdAt := createdAt_of_clock hforward hsplit hclock hran
  have hipCount := counted_below hserial hsplit hcreates hfirst (fun _ => rfl) hip
  have husernameCount := counted_below hserial hsplit hcreates hfirst (fun _ => rfl) husername
  constructor
  . intro ip' start'
    rw [hrows]
    refine countP_window AuthorizationRequest.requestIp ?_ hcreated (hwithin.ip ip' start')
    rw [show r.requestIp = ip by rw [hrow], hipCount]
    exact hipBelow
  . intro username' start'
    rw [hrows]
    refine countP_window AuthorizationRequest.username ?_ hcreated (hwithin.username username' start')
    rw [show r.username = username by rw [hrow], husernameCount]
    exact husernameBelow
  . intro id
    rw [hrows, List.countP_append, List.countP_singleton]
    have hbefore := hwithin.opened id
    split
    . next hopened =>
      have huser : userId = some id := by
        simp only [isOpenOf, hrow, Bool.and_eq_true, beq_iff_eq] at hopened
        exact hopened.1
      have hlt := openIds_lt hserial hsplit hcreates hfirst (hroom id huser) hcap hearlier
      rw [← countP_isOpenOf] at hlt
      omega
    . omega

end Created

/--
Whatever becomes of the requests, and whatever else goes on: calls that do not overlap keep to the limits.
-/
theorem within_limits (hcap : 1 ≤ maxOpenPerUser cfg) (hforward : Forward schedule)
    (hserial : Serial calls (Auth.after cfg db calls schedule).trace) (hstart : WithinLimits cfg db)
    : WithinLimits cfg (Auth.after cfg db calls schedule).world := by
  have hrun : WithinLimits cfg (Auth.after cfg db calls schedule).world ∧
      ∀ y ∈ (Auth.after cfg db calls schedule).trace, WithinLimits cfg y.before := by
    refine Config.run_induction_trace
      (I := fun w t => WithinLimits cfg w ∧ ∀ y ∈ t, WithinLimits cfg y.before) rfl ⟨hstart, by simp⟩ ?_
    intro later x earlier hsplit ⟨hwithin, hearlier⟩
    refine ⟨?_, fun y hy => ?_⟩
    . have hx : Step calls earlier x := step_of_split hsplit
      obtain ⟨call, hcall, hallowed⟩ := creates_of_split hsplit
      generalize heffect : x.effect = effect at hallowed
      cases hallowed with
      | free hs =>
        rw [← heffect] at hs
        exact hwithin.noneCreated (hx.noneCreated hs)
      | insert hcreate hlimit hroom hfirst =>
        have hcreates : creates calls x.call = true := by
          rw [creates, hcall, hcreate]
          rfl
        rcases hx.executed.table_cases .authorizationRequests with hsame | ⟨s, r, _, hran, _⟩
        . refine hwithin.noneCreated ⟨?_, fun userId => ?_⟩
          . rw [show x.after .authorizationRequests = x.before .authorizationRequests from hsame]
          . unfold openIds
            rw [show x.after .authorizationRequests = x.before .authorizationRequests from hsame]
        . have hs : AuthEffect.db s = .db _ := (congrArg Sigma.fst hran).symm.trans heffect
          cases hs
          exact WithinLimits.created hserial hsplit hcreates hfirst hforward hcap hran hlimit hroom hwithin hearlier
    . rcases List.mem_cons.mp hy with rfl | hold
      . exact hwithin
      . exact hearlier y hold
  exact hrun.1

end Run

end General

section Runs

attribute [local instance] Sample.platform

abbrev createdInTurn : Auth :=
  Auth.after Sample.config (Sample.db Sample.ann) (List.replicate 2 (.create "ann" "10.0.0.1" "" false))
    (Sample.schedule (List.replicate 10 0 ++ List.replicate 10 1))

theorem within_limits_in_turn
    : WithinLimits Sample.config createdInTurn.world ∧
      (createdInTurn.world .authorizationRequests).rows.map AuthorizationRequest.username = ["ann", "ann"] := by
  refine ⟨within_limits (by decide) ?_ ?_ ?_, rfl⟩
  . unfold Forward
    decide
  . intro i j hi hj hbetween
    have htrace : createdInTurn.trace.map Entry.call = List.replicate 10 1 ++ List.replicate 10 0 := rfl
    have hcases : ∀ k, creates (List.replicate 2 (.create "ann" "10.0.0.1" "" false)) k = true → k = 0 ∨ k = 1 := by
      intro k hk
      simp only [creates, Option.any_eq_true, List.getElem?_eq_some_iff] at hk
      obtain ⟨_, ⟨hlength, _⟩, _⟩ := hk
      rw [List.length_replicate] at hlength
      omega
    rw [htrace] at hbetween
    rcases hcases i hi with rfl | rfl
    . rcases hcases j hj with rfl | rfl
      . rfl
      . exact absurd hbetween (by decide)
    . rcases hcases j hj with rfl | rfl
      . exact absurd hbetween (by decide)
      . rfl
  . have hcreate : 0 ≤ createLimit Sample.config := by decide
    have hopen : 0 ≤ maxOpenPerUser Sample.config := by decide
    exact ⟨fun _ _ => hcreate, fun _ _ => hcreate, fun _ => hopen⟩

end Runs

end Kerghan
