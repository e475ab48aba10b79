import Kerghan.Integrations.Rows.Isolated
import Kerghan.Integrations.Secrets.Latest

/-!
This module contains what becomes of the token of an OAuth App integration in a step, and in a run: it stays where it
is, a callback replaces it by another one, or it is revoked and then deleted.
-/

namespace Kerghan.Integrations

open IntegrationCredentialService IntegrationStoreService

section Callback

variable [Platform] [Crypto] [Locale] {cfg : IntegrationsConfig} {userId : Nat} {h : IntegrationsHistory}

abbrev UpdatesLast : IntegrationsHistory → Effect → Prop :=
  fun h s => UpdatedIntegration h → s.isElsewhere = true

omit [Platform] [Crypto] [Locale] in
theorem not_updated_cons {s : Effect} {a : Answer s} (hs : s.updatesIntegrations = false)
    (hnone : ¬UpdatedIntegration h)
    : ¬UpdatedIntegration (⟨s, a⟩ :: h) := by
  intro hupdated
  apply hnone
  apply hupdated.of_cons
  intro p f affected heq
  rw [show s = _ from congrArg Sigma.fst heq] at hs
  cases hs

omit [Platform] [Crypto] [Locale] in
theorem before_update {T : Type} {prog : Api T} {C : IntegrationsHistory → Effect → Prop}
    {Q : IntegrationsHistory → Except Thrown T → Prop} (hprog : prog.Meets Answers C Q h)
    (hC : ∀ h s, C h s → s.updatesIntegrations = false) (hnone : ¬UpdatedIntegration h)
    : prog.Meets Answers UpdatesLast (fun h' r => Q h' r ∧ ¬UpdatedIntegration h') h := by
  -- the contract of updates asks for nothing as long as the history has none
  induction prog generalizing h with
  | pure a => exact ⟨hprog, hnone⟩
  | throw e => exact ⟨hprog, hnone⟩
  | step s k ih =>
    refine ⟨fun hupdated => absurd hupdated hnone, fun a ha => ?_⟩
    apply ih a (hprog.2 a ha)
    exact not_updated_cons (hC h s hprog.1) hnone

omit [Platform] [Crypto] [Locale] in
theorem elsewhere_updates {s : Effect} (hs : s.isElsewhere = true) : s.updatesIntegrations = false :=
  not_updates_of_isQuiet (isQuiet_of_isElsewhere hs)

omit [Platform] [Crypto] [Locale] in
theorem revoke_updatesLast {token : String} {clientId : Option String}
    : (OauthAppRevocationService.revoke cfg token clientId).Meets Answers UpdatesLast (fun _ _ => True) h := by
  apply Prog.Meets.imp
  . exact OauthAppRevocationService.revoke_meets.mono fun _ _ _ _ => trivial
  . exact fun _ _ hs _ => hs

theorem createFrom_updatesLast {label : String} {validated : ValidatedCredential} (hnone : ¬UpdatedIntegration h)
    : (createFrom cfg .oauthApp userId label validated).Meets Answers UpdatesLast
        (fun h' _ => ¬UpdatedIntegration h') h := by
  unfold createFrom
  rw [Api.meets_randomUUID]
  refine ⟨fun hupdated => absurd hupdated hnone, fun uuid => ?_⟩
  have hnone₁ := not_updated_cons (a := uuid) (show Effect.randomUUID.updatesIntegrations = false from rfl) hnone
  apply (before_update sealCredential_meets (fun _ _ => elsewhere_updates) hnone₁).bind
  . intro h₂ credential _ hq₂
    rw [Api.meets_now]
    refine ⟨fun hupdated => absurd hupdated hq₂.2, fun now => ?_⟩
    have hnone₂ := not_updated_cons (a := now) (show Effect.now.updatesIntegrations = false from rfl) hq₂.2
    apply (before_update (C := fun _ s => s.updatesIntegrations = false) (insertWithinCap_meets cfg
      (fun _ _ => not_updates_of_isQuiet) fun _ _ => rfl) (fun _ _ hs => hs) hnone₂).bind
    . exact fun _ _ _ hq => hq.2
    . exact fun _ _ _ hq => hq.2
  . exact fun _ _ _ hq => hq.2

omit [Locale] in
theorem replace_updatesLast {uuid : String} {validated : ValidatedCredential} (hnone : ¬UpdatedIntegration h)
    : (OauthAppFlowService.replace cfg userId uuid validated).Meets Answers UpdatesLast (fun _ _ => True) h := by
  unfold OauthAppFlowService.replace
  apply (before_update findOwned_meets (fun _ _ => not_updates_of_isQuiet) hnone).bind
  . intro h₁ row _ hq₁
    apply (before_update sealCredential_meets (fun _ _ => elsewhere_updates) hq₁.2).bind
    . intro h₂ credential _ hq₂
      rw [Api.meets_now]
      refine ⟨fun hupdated => absurd hupdated hq₂.2, fun now => ?_⟩
      have hnone₂ := not_updated_cons (a := now) (show Effect.now.updatesIntegrations = false from rfl) hq₂.2
      apply (updateOwned_meets fun hupdated => absurd hupdated hnone₂).bind
      . intro h₃ updated _ _
        split
        . trivial
        . split
          . trivial
          . apply revoke_updatesLast.bind
            . exact fun _ _ _ _ => trivial
            . exact fun _ _ _ _ => trivial
      . exact fun _ _ _ _ => trivial
    . exact fun _ _ _ _ => trivial
  . exact fun _ _ _ _ => trivial

theorem storeOrRevoke_updatesLast {target : StateTarget} {validated : ValidatedCredential}
    (hnone : ¬UpdatedIntegration h)
    : (OauthAppFlowService.storeOrRevoke cfg userId target validated).Meets Answers UpdatesLast
        (fun _ _ => True) h := by
  have hstore : (OauthAppFlowService.store cfg userId target validated).Meets Answers UpdatesLast
      (fun _ _ => True) h := by
    cases target with
    | create label => exact (createFrom_updatesLast hnone).mono fun _ _ _ _ => trivial
    | replace uuid => exact replace_updatesLast hnone
  apply hstore.tryCatch
  . exact fun _ _ _ _ => trivial
  . intro h₁ e _ _
    apply revoke_updatesLast.bind
    . exact fun _ _ _ _ => trivial
    . exact fun _ _ _ _ => trivial

theorem callback_updatesLast {code state : String}
    : (OauthAppFlowService.callback cfg userId code state).Meets Answers UpdatesLast (fun _ _ => True) [] := by
  have hnone : ¬UpdatedIntegration [] := fun ⟨_, _, _, hmem⟩ => nomatch hmem
  unfold OauthAppFlowService.callback OauthAppFlowService.enabledConfig
  cases cfg.oauthApp with
  | none => trivial
  | some app =>
    dsimp only
    rw [Prog.pure_bind]
    apply (before_update OauthStateService.consume_meets (fun _ _ => not_updates_of_isQuiet) hnone).bind
    . intro h₁ consumed _ hq₁
      apply (before_update precheckTarget_meets (fun _ _ => not_updates_of_isQuiet) hq₁.2).bind
      . intro h₂ _ _ hq₂
        have hnothing : NothingObtained [] h₂ := fun t ht => hq₁.1 t (hq₂.1.1 t ht)
        apply (before_update (validate_oauthApp_meets hnothing) (fun _ _ => elsewhere_updates) hq₂.2).bind
        . exact fun _ _ _ hq₃ => storeOrRevoke_updatesLast hq₃.2
        . exact fun _ _ _ _ => trivial
      . exact fun _ _ _ _ => trivial
    . exact fun _ _ _ _ => trivial

/--
What a callback that has ended has done: it has settled what becomes of its token, and it has done nothing to the
integrations after an update.
-/
structure Disposes (cfg : IntegrationsConfig) (userId : Nat) (h : IntegrationsHistory) : Prop where
  settles : Settles cfg userId h
  updatesLast : ∀ newer ev older, h = newer ++ ev :: older → UpdatesLast older ev.1

theorem callback_disposes {code state : String}
    : (OauthAppFlowService.callback cfg userId code state).Meets Answers
        (Does cfg (.oauthAppCallback userId code state)) (fun h' _ => Disposes cfg userId h') [] := by
  have hnone : ∀ newer (ev : (s : Effect) × Answer s) older, [] = newer ++ ev :: older → UpdatesLast older ev.1 :=
    fun _ _ _ hsplit => by simp at hsplit
  apply Prog.Meets.mono
  . exact (oauthAppCallback_does.and (callback_updatesLast.allowed hnone)).imp fun _ _ hs => hs.1
  . exact fun _ _ _ hq => ⟨hq.1, hq.2.2⟩

theorem IntegrationsCall.prog_disposes (call : IntegrationsCall)
    : (call.prog cfg).Meets Answers (Does cfg call)
        (fun h' _ => ∀ userId code state, call = .oauthAppCallback userId code state → Disposes cfg userId h') [] := by
  cases call with
  | oauthAppCallback userId code state =>
    apply callback_disposes.map
    . intro h' result hq userId' code' state' heq
      cases heq
      exact hq
    . intro h' e hq userId' code' state' heq
      cases heq
      exact hq
  | _ => exact (IntegrationsCall.prog_does _).mono fun _ _ _ _ _ _ _ heq => nomatch heq

end Callback

section Bears

variable [Platform] [Crypto] {cfg : IntegrationsConfig} {app : EnabledOauthAppConfig} {token : String}
variable {h : IntegrationsHistory} {call : IntegrationsCall} {userId : Nat} {validated : ValidatedCredential}
variable {r r' : Integration}

structure Bears (cfg : IntegrationsConfig) (app : EnabledOauthAppConfig) (token : String) (r : Integration)
    : Prop where
  type : r.type = .oauthApp
  secret : decryptRow cfg.keys .oauthApp r = some (.oauthApp token)
  clientId : clientIdOf r.metadata = some app.clientId

omit [Platform] in
theorem Bears.of_same (hbears : Bears cfg app token r) (htype : r'.type = r.type)
    (hplaintext : plaintextOf cfg r' = plaintextOf cfg r) (hclientId : clientIdOf r'.metadata = clientIdOf r.metadata)
    : Bears cfg app token r' where
  type := htype.trans hbears.type
  secret := by
    have hsecret := decryptRow_congr htype hplaintext
    rw [htype, hbears.type] at hsecret
    exact hsecret.trans hbears.secret
  clientId := hclientId.trans hbears.clientId

theorem Bears.last {w : World} {row : Integration} (hbears : Bears cfg app token r) (huntouched : Untouched cfg h w)
    (hlast : lastLoaded h = some row) (hr : r ∈ (w.db .integrations).rows) (hid : r.id = row.id)
    : Bears cfg app token row := by
  obtain ⟨hsame, hplaintext, hmetadata⟩ := huntouched.last hlast hr hid
  exact hbears.of_same hsame.type.symm hplaintext.symm (by rw [hmetadata])

omit [Platform] [Crypto] in
theorem clientIdOf_described {metadata described : TypeMetadata}
    (h : describeMetadata .oauthApp metadata = .ok described)
    : clientIdOf described = clientIdOf metadata := by
  simp only [describeMetadata, describeOauthAppMetadata] at h
  split at h
  . split at h
    . cases h
      rfl
    . cases h
  . cases h

omit [Crypto] in
theorem clientIdOf_tested {clientId : String} {outcome : TestOutcome} {events : IntegrationsHistory}
    (hclientId : clientIdOf r.metadata = some clientId)
    (htested : (testSecret cfg (.oauthApp token) r).Returns events (.ok outcome))
    : ∀ login expiresAt metadata, outcome = .active login expiresAt metadata →
        clientIdOf metadata = some clientId := by
  refine Prog.Ends.of_returns (E := fun _ => True) (P := fun outcome => ∀ login expiresAt metadata,
    outcome = .active login expiresAt metadata → clientIdOf metadata = some clientId) ?_ htested
  apply (Prog.ends_true (fetchGithubUser token)).bind
  intro answer _
  cases answer with
  | ok login response =>
    intro login' expiresAt metadata heq
    dsimp only [OauthAppStrategy.activeOutcome] at heq
    split at heq
    . cases heq
      rw [hclientId]
      rfl
    . cases heq
  | _ => exact fun _ _ _ heq => nomatch heq

omit [Crypto] in
theorem Validated.obtained (hvalidated : Validated cfg h call userId .oauthApp validated)
    : ∃ code state token,
        call = .oauthAppCallback userId code state ∧ validated.secret = .oauthApp token ∧ Obtained h token := by
  cases hvalidated with
  | oauthApp _ hexchanged _ hoauthApp =>
    have ⟨_, _, _, heq⟩ := hoauthApp
    exact ⟨_, _, _, rfl, by rw [heq], _, hexchanged⟩

theorem Validated.bears (hvalidated : Validated cfg h call userId .oauthApp validated) (happ : cfg.oauthApp = some app)
    (hsecret : validated.secret = .oauthApp token) (htype : r.type = .oauthApp)
    (hplaintext : plaintextOf cfg r = some (Crypto.stringify validated.secret.toJson))
    (hdescribed : describeMetadata .oauthApp validated.metadata = .ok r.metadata)
    : Bears cfg app token r where
  type := htype
  secret := by
    rw [← htype] at hvalidated ⊢
    rw [hvalidated.decryptRow hplaintext, hsecret]
  clientId := by
    rw [clientIdOf_described hdescribed]
    cases hvalidated with
    | oauthApp happ' _ _ hoauthApp =>
      cases happ.symm.trans happ'
      have ⟨_, _, _, heq⟩ := hoauthApp
      rw [heq]
      rfl

end Bears

section Custody

variable [Platform] [Crypto] [Locale] {cfg : IntegrationsConfig} {app : EnabledOauthAppConfig} {token : String}
variable {calls : List IntegrationsCall} {trace : List IntegrationsEntry} {x : IntegrationsEntry} {start : World}

structure Supersedes (cfg : IntegrationsConfig) (calls : List IntegrationsCall) (app : EnabledOauthAppConfig)
    (token : String) (earlier : List IntegrationsEntry) (x : IntegrationsEntry) : Prop where
  callback : ∃ userId code state, calls[x.call]? = some (.oauthAppCallback userId code state)
  updated : ∃ p f, ∃ affected : Nat, ⟨x.effect, x.resp⟩ = ran (.update .integrations p f) affected
  loaded : ∃ row, lastLoaded (own x.call earlier) = some row ∧ Bears cfg app token row
  other : ∃ token', Obtained (own x.call earlier) token' ∧ token' ≠ token

theorem custody_update (horiginals : Originals cfg start x.before trace) (hmatching : Matching trace)
    (hisolated : Isolated cfg calls (x :: trace)) (happ : cfg.oauthApp = some app) {call : IntegrationsCall}
    (hcall : calls[x.call]? = some call) {p : Integration → Bool} {f : Int → Integration → Integration}
    {affected : Nat} (hran : ⟨x.effect, x.resp⟩ = ran (.update .integrations p f) affected)
    (hdoes : Does cfg call (own x.call trace) (.db (.update .integrations p f))) {r : Integration}
    (hr : r ∈ (x.before.db .integrations).rows) (hp : p r = true) (hbears : Bears cfg app token r) (now : Int)
    : Bears cfg app token (f now r) ∨ Supersedes cfg calls app token trace x := by
  have heffect : x.effect = .db (.update .integrations p f) := congrArg Sigma.fst hran
  cases hdoes with
  | quiet hs => simp [Effect.isQuiet, Effect.isElsewhere] at hs
  | issue hissues => cases hissues with | free hs => simp [Effect.writes] at hs
  | consume hconsumes => cases hconsumes with | free hs => simp [Effect.writes] at hs
  | offer _ _ _ _ _ hissues => cases hissues with | free hs => simp [Effect.writes] at hs
  | rename => exact Or.inl (hbears.of_same rfl rfl rfl)
  | claim => exact Or.inl (hbears.of_same rfl rfl rfl)
  | undecryptable => exact Or.inl (hbears.of_same rfl rfl rfl)
  | @rewrite _ _ row plaintext iv _ hread hprevious hplaintext =>
    obtain ⟨hid, hk⟩ := Bool.and_eq_true_iff.mp hp
    have hrewritten := @Originals.rewritten _ _ _ _ _ _ horiginals _ _ _ _ iv hr hread hprevious hplaintext
      (id_eq_of_owned hid) (beq_iff_eq.mp hk)
    exact Or.inl (hbears.of_same rfl (hrewritten.2.trans hrewritten.1.symm) rfl)
  | @record _ _ _ row secret encrypted events outcome changes now' hlast hsecret htested hevents hrecords =>
    have huntouched := hisolated.untouched hcall rfl (Or.inl ⟨_, _, _, heffect⟩)
    have hrow := hbears.last huntouched hlast hr (id_eq_of_owned hp)
    apply Or.inl
    cases hrecords with
    | @active login expiresAt metadata described hdescribed =>
      -- a successful test rewrites the metadata, but with the client id of the row that it has tested
      rw [hrow.type] at hsecret hdescribed
      cases hrow.secret.symm.trans hsecret
      have htested' := clientIdOf_tested (r := { row with secret := encrypted }) hrow.clientId htested _ _ _ rfl
      refine hbears.of_same rfl rfl ?_
      rw [hbears.clientId, ← htested']
      exact clientIdOf_described hdescribed
    | invalid => exact hbears.of_same rfl rfl rfl
    | expired => exact hbears.of_same rfl rfl rfl
    | transient => exact hbears.of_same rfl rfl rfl
  | @replace _ _ userId type uuid checked row validated credential now' hvalidated hchecked htype hloaded hlast
      hsealed =>
    have hrenames : call.renames = false := by cases hvalidated <;> rfl
    have huntouched := hisolated.untouched hcall hrenames (Or.inl ⟨_, _, _, heffect⟩)
    have hid := id_eq_of_owned hp
    have hsame := huntouched.sameRow (mem_found_of_lastLoaded hlast) hr hid
    have hchecked' := huntouched.checked hmatching hloaded hchecked hr hid
    have htype' : type = .oauthApp := htype.symm.trans (hchecked'.type.symm.trans hbears.type)
    rw [htype'] at hvalidated hsealed
    obtain ⟨code, state, token', hcallback, hsecret, hobtained⟩ := hvalidated.obtained
    -- GitHub may give the same token again, which is then not lost
    by_cases htoken : token' = token
    . apply Or.inl
      refine hvalidated.bears happ (htoken ▸ hsecret) hbears.type ?_ hsealed.metadata
      exact hsealed.plaintext rfl hsame.uuid hbears.type
    . apply Or.inr
      exact {
        callback := ⟨userId, code, state, hcallback ▸ hcall⟩
        updated := ⟨_, _, _, hran⟩
        loaded := ⟨row, hlast, hbears.last huntouched hlast hr hid⟩
        other := ⟨token', hobtained, htoken⟩
      }

theorem IntegrationsStep.custody (hx : IntegrationsStep cfg calls trace x)
    (horiginals : Originals cfg start x.before trace) (hmatching : Matching trace)
    (hisolated : Isolated cfg calls (x :: trace)) (happ : cfg.oauthApp = some app) {r : Integration}
    (hr : r ∈ (x.before.db .integrations).rows) (hbears : Bears cfg app token r)
    : (∃ r' ∈ (x.after.db .integrations).rows, Bears cfg app token r')
        ∨
      Supersedes cfg calls app token trace x
        ∨
      Revoked (own x.call trace) token := by
  cases hx.fate hr with
  | kept hr' => exact Or.inl ⟨r, hr', hbears⟩
  | @updated call p f affected now hcall hran hp hdoes hr' =>
    cases custody_update horiginals hmatching hisolated happ hcall hran hdoes hr hp hbears now with
    | inl hkept => exact Or.inl ⟨_, hr', hkept⟩
    | inr hsupersedes => exact Or.inr (Or.inl hsupersedes)
  | @deleted call p affected hcall hran hp hdoes =>
    apply Or.inr
    apply Or.inr
    have heffect : x.effect = .db (.delete .integrations p) := congrArg Sigma.fst hran
    cases hdoes with
    | quiet hs => simp [Effect.isQuiet, Effect.isElsewhere] at hs
    | issue hissues => cases hissues with | free hs => simp [Effect.writes] at hs
    | consume hconsumes => cases hconsumes with | free hs => simp [Effect.writes] at hs
    | offer _ _ _ _ _ hissues => cases hissues with | free hs => simp [Effect.writes] at hs
    | @delete _ userId uuid row hlast hcleaned =>
      have huntouched := hisolated.untouched hcall rfl (Or.inr ⟨_, _, heffect⟩)
      have hrow := hbears.last huntouched hlast hr (id_eq_of_owned hp)
      obtain ⟨answer, hmem⟩ := hcleaned token app hrow.type hrow.secret happ hrow.clientId
      exact ⟨_, answer, hmem, rfl⟩

def Entrusted (cfg : IntegrationsConfig) (app : EnabledOauthAppConfig) (token : String) (start : World)
    (trace : List IntegrationsEntry)
    : Prop :=
  (∃ r ∈ (start.db .integrations).rows, Bears cfg app token r)
    ∨
  ∃ x ∈ trace, ∃ r ∈ (x.after.db .integrations).rows, Bears cfg app token r

omit [Locale] in
theorem Entrusted.of_split {later earlier : List IntegrationsEntry} (hsplit : trace = later ++ x :: earlier)
    {r : Integration} (hr : r ∈ (x.after.db .integrations).rows) (hbears : Bears cfg app token r)
    : Entrusted cfg app token start trace := by
  refine Or.inr ⟨x, ?_, r, hr, hbears⟩
  rw [hsplit]
  exact List.mem_append_right _ (List.mem_cons_self ..)

/--
An integration has the token, or a callback has replaced it, or it has been sent to GitHub for revocation.
-/
def InCustody (cfg : IntegrationsConfig) (calls : List IntegrationsCall) (app : EnabledOauthAppConfig) (token : String)
    (w : World) (trace : List IntegrationsEntry)
    : Prop :=
  (∃ r ∈ (w.db .integrations).rows, Bears cfg app token r)
    ∨
  (∃ later x earlier, trace = later ++ x :: earlier ∧ Supersedes cfg calls app token earlier x)
    ∨
  ∃ i, Revoked (own i trace) token

theorem InCustody.step (hx : IntegrationsStep cfg calls trace x) (horiginals : Originals cfg start x.before trace)
    (hmatching : Matching trace) (hisolated : Isolated cfg calls (x :: trace)) (happ : cfg.oauthApp = some app)
    (hcustody : InCustody cfg calls app token x.before trace)
    : InCustody cfg calls app token x.after (x :: trace) := by
  have hlater (i : Nat) : own i trace ⊆ own i (x :: trace) := (own_suffix (List.suffix_cons ..)).subset
  rcases hcustody with ⟨r, hr, hbears⟩ | ⟨later, y, earlier, hsplit, hsupersedes⟩ | ⟨i, hrevoked⟩
  . rcases hx.custody horiginals hmatching hisolated happ hr hbears with hkept | hsupersedes | hrevoked
    . exact Or.inl hkept
    . exact Or.inr (Or.inl ⟨[], x, trace, rfl, hsupersedes⟩)
    . exact Or.inr (Or.inr ⟨x.call, hrevoked.mono (hlater x.call)⟩)
  . exact Or.inr (Or.inl ⟨x :: later, y, earlier, by rw [hsplit]; rfl, hsupersedes⟩)
  . exact Or.inr (Or.inr ⟨i, hrevoked.mono (hlater i)⟩)

/--
What an integration has had at some time has not been lost since.
-/
theorem inCustody_run {schedule : Schedule} (happ : cfg.oauthApp = some app)
    (hisolated : Isolated cfg calls (Calls.after start (calls.map (IntegrationsCall.prog cfg)) schedule).trace)
    (hentrusted : Entrusted cfg app token start
      (Calls.after start (calls.map (IntegrationsCall.prog cfg)) schedule).trace)
    : InCustody cfg calls app token (Calls.after start (calls.map (IntegrationsCall.prog cfg)) schedule).world
        (Calls.after start (calls.map (IntegrationsCall.prog cfg)) schedule).trace := by
  have hinit : Originals cfg start start [] ∧ Matching [] ∧
      (Entrusted cfg app token start [] → InCustody cfg calls app token start []) := by
    refine ⟨.init, .init, ?_⟩
    intro hentrusted
    rcases hentrusted with hstart | ⟨x, hx, _⟩
    . exact Or.inl hstart
    . exact absurd hx List.not_mem_nil
  refine (Config.run_induction (A := Isolated cfg calls) (I := fun w t => Originals cfg start w t ∧ Matching t ∧
    (Entrusted cfg app token start t → InCustody cfg calls app token w t)) (fun _ _ => Isolated.tail) ?_ answers_exec
    (start_meets IntegrationsCall.prog_does start calls) hinit schedule hisolated).2.2 hentrusted
  intro x t hisolated hx ⟨horiginals, hmatching, hcustody⟩
  refine ⟨horiginals.step hx, hmatching.step hx, ?_⟩
  intro hentrusted
  have hbefore (hentrusted : Entrusted cfg app token start t) : InCustody cfg calls app token x.after (x :: t) :=
    (hcustody hentrusted).step hx horiginals hmatching hisolated happ
  rcases hentrusted with hstart | ⟨y, hy, hafter⟩
  . exact hbefore (Or.inl hstart)
  . cases hy with
    -- the token has come into custody in this very step
    | head => exact Or.inl hafter
    | tail _ hy => exact hbefore (Or.inr ⟨y, hy, hafter⟩)

end Custody

end Kerghan.Integrations
