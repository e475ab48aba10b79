import Kerghan.Integrations.Rows.Isolated
import Kerghan.Integrations.Sample
import Kerghan.Integrations.Secrets.Latest

/-!
This module contains the proof that the columns on the status of an integration describe the secret that it has now,
if no two calls write one integration at the same time.
-/

namespace Kerghan.Integrations

open IntegrationConnectionTestService (undecryptableColumns)

inductive Aspect where
  | identity
  | standing
  | lastTest
  deriving DecidableEq

namespace Aspect

def isTold : Aspect → TestOutcome → Bool
  | .identity, .active .. | .lastTest, _ => true
  | .identity, _ | .standing, .transient .. => false
  | .standing, _ => true

/--
A secret that cannot be decrypted belongs to nobody.
-/
def isToldUndecryptable : Aspect → Bool
  | .identity => false
  | _ => true

def Agree : Aspect → Integration → Integration → Prop
  | .identity, r, r' => r'.githubLogin = r.githubLogin ∧ r'.expiresAt = r.expiresAt ∧ r'.metadata = r.metadata
  | .standing, r, r' => r'.status = r.status ∧ r'.statusReason = r.statusReason
  | .lastTest, r, r' => r'.lastTestResult = r.lastTestResult

variable {aspect : Aspect} {r r' r'' : Integration}

theorem Agree.of_eq (hlogin : r'.githubLogin = r.githubLogin) (hexpires : r'.expiresAt = r.expiresAt)
    (hmetadata : r'.metadata = r.metadata) (hstatus : r'.status = r.status)
    (hreason : r'.statusReason = r.statusReason) (hlast : r'.lastTestResult = r.lastTestResult)
    : aspect.Agree r r' := by
  cases aspect with
  | identity => exact ⟨hlogin, hexpires, hmetadata⟩
  | standing => exact ⟨hstatus, hreason⟩
  | lastTest => exact hlast

theorem Agree.refl (aspect : Aspect) (r : Integration) : aspect.Agree r r :=
  .of_eq rfl rfl rfl rfl rfl rfl

theorem Agree.trans (h : aspect.Agree r r') (h' : aspect.Agree r' r'') : aspect.Agree r r'' := by
  cases aspect with
  | identity => exact ⟨h'.1.trans h.1, h'.2.1.trans h.2.1, h'.2.2.trans h.2.2⟩
  | standing => exact ⟨h'.1.trans h.1, h'.2.trans h.2⟩
  | lastTest => exact Eq.trans h' h

end Aspect

section Attests

variable [Platform] [Crypto]

/--
What an integration says of its secret is what it said at the start, if it has kept its secret since, or what a call
has found out about this very secret: when it was validated, or in a test that had something to say.
-/
inductive Attests (cfg : IntegrationsConfig) (calls : List IntegrationsCall) (start : World)
    (trace : List IntegrationsEntry) (aspect : Aspect) (r : Integration) : Prop where
  | original {r₀ : Integration} (hr₀ : r₀ ∈ (start.db .integrations).rows) (hsame : SameRow r₀ r)
    (hsecret : plaintextOf cfg r = plaintextOf cfg r₀) (hagrees : aspect.Agree r₀ r)
  | validated {i : Nat} {call : IntegrationsCall} {validated : ValidatedCredential} {uuid : String}
    {credential : SealedCredential} {r' : Integration} {now : Date} (hcall : calls[i]? = some call)
    (hvalidated : Validated cfg (own i trace) call r.userId r.type validated)
    (hsealed : SealedAs cfg.keys r.type validated uuid credential)
    (hsecret : plaintextOf cfg r = some (Crypto.stringify validated.secret.toJson))
    (hagrees : aspect.Agree (credential.freshColumns now r') r)
  | tested {i userId : Nat} {uuid : String} {secret : Payload} {tested r' : Integration}
    {events : IntegrationsHistory} {outcome : TestOutcome} {changes : Integration → Integration} {now : Date}
    (hcall : calls[i]? = some (.test userId uuid)) (hsecret : decryptRow cfg.keys r.type r = some secret)
    (htested : (testSecret cfg secret tested).Returns events (.ok outcome)) (hevents : events ⊆ own i trace)
    (hrecords : Records r.type now outcome changes) (htold : aspect.isTold outcome = true)
    (hagrees : aspect.Agree (changes r') r)
  | undecryptable {i userId : Nat} {uuid : String} {r' : Integration} {now : Date}
    (hcall : calls[i]? = some (.test userId uuid)) (hsecret : decryptRow cfg.keys r.type r = none)
    (htold : aspect.isToldUndecryptable = true) (hagrees : aspect.Agree (undecryptableColumns now r') r)

variable [Locale] {cfg : IntegrationsConfig} {calls : List IntegrationsCall} {start : World}
variable {trace : List IntegrationsEntry} {x : IntegrationsEntry} {aspect : Aspect} {r r' : Integration}

omit [Locale] in
theorem Attests.later {trace' : List IntegrationsEntry} (hattests : Attests cfg calls start trace aspect r)
    (hsuffix : trace <:+ trace') (hsame : SameRow r r') (hplaintext : plaintextOf cfg r' = plaintextOf cfg r)
    (hagrees : aspect.Agree r r')
    : Attests cfg calls start trace' aspect r' := by
  have hsecret := decryptRow_congr hsame.type hplaintext
  have hlater (i : Nat) : own i trace ⊆ own i trace' := (own_suffix hsuffix).subset
  cases hattests with
  | original hr₀ hsame₀ hsecret₀ hagrees₀ =>
    exact .original hr₀ (hsame₀.trans hsame) (hplaintext.trans hsecret₀) (hagrees₀.trans hagrees)
  | @validated i call validated uuid credential r₀ now hcall hvalidated hsealed hsecret₀ hagrees₀ =>
    rw [← hsame.type] at hsealed
    rw [← hsame.type, ← hsame.userId] at hvalidated
    exact .validated hcall (hvalidated.mono cfg (hlater i)) hsealed (hplaintext.trans hsecret₀)
      (hagrees₀.trans hagrees)
  | @tested i _ _ _ _ _ _ _ _ _ hcall hsecret₀ htested hevents hrecords htold hagrees₀ =>
    rw [← hsame.type] at hrecords
    exact .tested hcall (hsecret.trans hsecret₀) htested (fun ev hev => hlater i (hevents hev)) hrecords htold
      (hagrees₀.trans hagrees)
  | undecryptable hcall hsecret₀ htold hagrees₀ =>
    exact .undecryptable hcall (hsecret.trans hsecret₀) htold (hagrees₀.trans hagrees)

omit [Platform] [Crypto] [Locale] in
theorem Records.agree {type : IntegrationType} {now : Date} {outcome : TestOutcome}
    {changes : Integration → Integration} (hrecords : Records type now outcome changes)
    (htold : aspect.isTold outcome = false) (r : Integration)
    : aspect.Agree r (changes r) := by
  cases aspect with
  | lastTest => cases htold
  | identity =>
    cases hrecords with
    | active => cases htold
    | _ => exact ⟨rfl, rfl, rfl⟩
  | standing =>
    cases hrecords with
    | transient => exact ⟨rfl, rfl⟩
    | _ => cases htold

theorem attests_update (horiginals : Originals cfg start x.before trace) (hmatching : Matching trace)
    (hisolated : Isolated cfg calls (x :: trace)) {call : IntegrationsCall} (hcall : calls[x.call]? = some call)
    {p : Integration → Bool} {f : Int → Integration → Integration}
    (heffect : x.effect = .db (.update .integrations p f))
    (hdoes : Does cfg call (own x.call trace) (.db (.update .integrations p f)))
    (hr : r ∈ (x.before.db .integrations).rows) (hp : p r = true)
    (hattests : Attests cfg calls start trace aspect r) (now : Int)
    : Attests cfg calls start (x :: trace) aspect (f now r) := by
  have hlater : own x.call trace ⊆ own x.call (x :: trace) := (own_suffix (List.suffix_cons ..)).subset
  -- only the last three say something new, each of the row that the call has found last
  cases hdoes with
  | quiet hs => simp [Effect.isQuiet, Effect.isElsewhere] at hs
  | issue hissues => cases hissues with | free hs => simp [Effect.writes] at hs
  | consume hconsumes => cases hconsumes with | free hs => simp [Effect.writes] at hs
  | offer _ _ _ _ _ hissues => cases hissues with | free hs => simp [Effect.writes] at hs
  | rename | claim =>
    refine hattests.later (List.suffix_cons ..) ⟨rfl, rfl, rfl, rfl⟩ rfl ?_
    exact .of_eq rfl rfl rfl rfl rfl rfl
  | @rewrite _ _ row plaintext iv _ hread hprevious hplaintext =>
    obtain ⟨hid, hk⟩ := Bool.and_eq_true_iff.mp hp
    have hrewritten := @Originals.rewritten _ _ _ _ _ _ horiginals _ _ _ _ iv hr hread hprevious hplaintext
      (id_eq_of_owned hid) (beq_iff_eq.mp hk)
    refine hattests.later (List.suffix_cons ..) ⟨rfl, rfl, rfl, rfl⟩ (hrewritten.2.trans hrewritten.1.symm) ?_
    exact .of_eq rfl rfl rfl rfl rfl rfl
  | @undecryptable _ _ _ row now' hlast hsecret =>
    cases htold : aspect.isToldUndecryptable with
    | false =>
      refine hattests.later (List.suffix_cons ..) ⟨rfl, rfl, rfl, rfl⟩ rfl ?_
      cases aspect with
      | identity => exact ⟨rfl, rfl, rfl⟩
      | _ => cases htold
    | true =>
      have huntouched := hisolated.untouched hcall rfl (Or.inl ⟨_, _, _, heffect⟩)
      obtain ⟨hsame, hplaintext, _⟩ := huntouched.last hlast hr (id_eq_of_owned hp)
      refine .undecryptable hcall ?_ htold (Aspect.Agree.refl _ _)
      exact (decryptRow_congr hsame.type hplaintext).trans hsecret
  | @record _ _ _ row secret encrypted events outcome changes now' hlast hsecret htested hevents hrecords =>
    have hkept := hrecords.sameRow r
    have hplaintext' : plaintextOf cfg (changes r) = plaintextOf cfg r := by
      unfold plaintextOf
      rw [hkept.1.uuid, hkept.1.type, hkept.2]
    cases htold : aspect.isTold outcome with
    | false => exact hattests.later (List.suffix_cons ..) hkept.1 hplaintext' (hrecords.agree htold r)
    | true =>
      have huntouched := hisolated.untouched hcall rfl (Or.inl ⟨_, _, _, heffect⟩)
      obtain ⟨hsame, hplaintext, _⟩ := huntouched.last hlast hr (id_eq_of_owned hp)
      have hsecret' : decryptRow cfg.keys (changes r).type (changes r) = some secret := by
        rw [decryptRow_congr hkept.1.type hplaintext', decryptRow_congr hsame.type hplaintext, hsecret]
      rw [← hsame.type, ← hkept.1.type] at hrecords
      exact .tested hcall hsecret' htested (fun ev hev => hlater (hevents hev)) hrecords htold
        (Aspect.Agree.refl _ (changes r))
  | @replace _ _ userId type uuid checked row validated credential now' hvalidated hchecked htype hloaded hlast
      hsealed =>
    have hrenames : call.renames = false := by cases hvalidated <;> rfl
    have huntouched := hisolated.untouched hcall hrenames (Or.inl ⟨_, _, _, heffect⟩)
    have hid := id_eq_of_owned hp
    have hsame := huntouched.sameRow (mem_found_of_lastLoaded hlast) hr hid
    have htype' : type = r.type :=
      htype.symm.trans (huntouched.checked hmatching hloaded hchecked hr hid).type.symm
    have huser : userId = r.userId := (hmatching _ _ _ _ hloaded).2.symm.trans hsame.userId.symm
    rw [htype'] at hvalidated hsealed
    rw [huser] at hvalidated
    refine .validated hcall (hvalidated.mono cfg hlater) hsealed ?_ (Aspect.Agree.refl _ _)
    exact hsealed.plaintext rfl hsame.uuid rfl

theorem IntegrationsStep.attests (hx : IntegrationsStep cfg calls trace x)
    (horiginals : Originals cfg start x.before trace) (hmatching : Matching trace)
    (hisolated : Isolated cfg calls (x :: trace))
    (hbefore : ∀ r ∈ (x.before.db .integrations).rows, Attests cfg calls start trace aspect r)
    (hr' : r' ∈ (x.after.db .integrations).rows)
    : Attests cfg calls start (x :: trace) aspect r' := by
  have hexecuted : x.Executed Effect.exec := hx.answered
  have ⟨call, hcall, hdoes⟩ := hx.allowed
  have hlater : own x.call trace ⊆ own x.call (x :: trace) := (own_suffix (List.suffix_cons ..)).subset
  cases hx.origin hr' with
  | kept hold => exact (hbefore r' hold).later (List.suffix_cons ..) (.refl r') rfl (Aspect.Agree.refl _ r')
  | @inserted _ _ _ _ _ _ _ credential now _ _ hcall' _ hvalidated _ hsealed hrow =>
    have hagrees : aspect.Agree (credential.freshColumns now r') r' := by
      rw [hrow]
      exact .of_eq rfl rfl rfl rfl rfl rfl
    subst hrow
    exact .validated hcall' (hvalidated.mono cfg hlater) hsealed (hsealed.plaintext rfl rfl rfl) hagrees
  | @updated _ r p changes affected _ hr hran hp _ hrow =>
    have heffect : x.effect = .db (.update .integrations p fun _ => changes) := congrArg Sigma.fst hran
    rw [heffect] at hdoes
    rw [hrow]
    exact attests_update horiginals hmatching hisolated hcall heffect hdoes hr hp (hbefore r hr) 0

/--
Whatever the order of the steps of any number of calls: if no two of them write one integration at the same time,
what the columns of an integration say has been found out about the secret that it has now.
-/
theorem status_attested {schedule : Schedule}
    (hisolated : Isolated cfg calls (Calls.after start (calls.map (IntegrationsCall.prog cfg)) schedule).trace)
    : let run := Calls.after start (calls.map (IntegrationsCall.prog cfg)) schedule
      ∀ aspect, ∀ r ∈ (run.world.db .integrations).rows, Attests cfg calls start run.trace aspect r := by
  intro run aspect
  have hinit : Originals cfg start start [] ∧ Matching [] ∧
      ∀ r ∈ (start.db .integrations).rows, Attests cfg calls start [] aspect r :=
    ⟨.init, .init, fun r hr => .original hr (.refl r) rfl (Aspect.Agree.refl aspect r)⟩
  refine (Config.run_induction (A := Isolated cfg calls) (I := fun w t => Originals cfg start w t ∧ Matching t ∧
    ∀ r ∈ (w.db .integrations).rows, Attests cfg calls start t aspect r) (fun _ _ => Isolated.tail) ?_ answers_exec
    (start_meets IntegrationsCall.prog_does start calls) hinit schedule hisolated).2.2
  intro x t hisolated hx hbefore
  exact ⟨hbefore.1.step hx, hbefore.2.1.step hx, fun r' hr' =>
    IntegrationsStep.attests hx hbefore.1 hbefore.2.1 hisolated hbefore.2.2 hr'⟩

end Attests

section Runs

attribute [local instance] Kerghan.Sample.platform Sample.crypto Sample.locale

abbrev rejecting (k : Nat) : Env :=
  { Sample.env k with
    user := .ok { status := 401, login := none, oauthScopes := none, tokenExpiration := none } }

abbrev rejected : Calls IntegrationsReply :=
  Calls.after (Sample.storing (Sample.integration ⟨[1], "k1"⟩ "ghp_a"))
    ([.test 1 Sample.integrationUuid].map (IntegrationsCall.prog Sample.config))
    (Sample.scheduleIn rejecting (List.replicate 6 0))

theorem status_attested_rejected
    : (∀ aspect, ∀ r ∈ (rejected.world.db .integrations).rows,
        Attests Sample.config [.test 1 Sample.integrationUuid]
          (Sample.storing (Sample.integration ⟨[1], "k1"⟩ "ghp_a")) rejected.trace aspect r)
        ∧
      (rejected.world.db .integrations).rows.map (fun r => (r.status, r.lastTestResult)) =
        [(.invalid, some .rejected)] :=
  ⟨status_attested (isolated_of_isolates rfl), rfl⟩

end Runs

end Kerghan.Integrations
