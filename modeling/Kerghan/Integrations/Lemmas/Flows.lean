import Kerghan.Integrations.Lemmas.Integrations

/-!
This module contains the proof that the calls of the redirect flows respect the contract, and what a callback
of the OAuth App flow does with the token it has been given.
-/

namespace Kerghan.Integrations

open IntegrationCredentialService IntegrationStoreService

variable {h h' : IntegrationsHistory}

def InsertedIntegration (h : IntegrationsHistory) : Prop :=
  ∃ mk row, ran (.insert .integrations mk) row ∈ h

variable [Platform] [Crypto] [Locale] {cfg : IntegrationsConfig} {call : IntegrationsCall} {userId : Nat}

section Shared

variable {type : IntegrationType} {validated : ValidatedCredential}

omit [Crypto] in
theorem precheckTarget_meets {target : StateTarget}
    : (precheckTarget cfg type userId target).Meets Answers Quiet
        (fun h' r => NothingObtained h h' ∧ ∀ uuid, target = .replace uuid → r = .ok () →
          ∃ row, Loaded h' userId uuid row ∧ row.type = type) h := by
  have hlocked : ∀ {h₁}, (assertNotLocked userId).Meets Answers Quiet (fun h' _ => NothingObtained h₁ h') h₁ :=
    assertNotLocked_meets.imp fun _ _ hs => isQuiet_of_isElsewhere hs
  cases target with
  | replace uuid =>
    unfold precheckTarget
    apply findOwned_meets.bind
    . intro h₁ row _ ⟨hnothing, hfound⟩
      split
      . next htype =>
        refine hlocked.mono fun h₂ _ hsuffix hnothing' => ?_
        refine ⟨fun t ht => hnothing t (hnothing' t ht), fun uuid' heq _ => ⟨row, ?_, htype⟩⟩
        cases heq
        apply hsuffix.subset
        rw [hfound row rfl]
        exact List.mem_cons_self ..
      . exact ⟨hnothing, by simp⟩
    . intro h₁ e _ ⟨hnothing, _⟩
      exact ⟨hnothing, by simp⟩
  | create label =>
    unfold precheckTarget
    apply hlocked.bind
    . intro h₁ _ _ hnothing
      refine assertCreatable_meets.mono fun h₂ _ _ hnothing' => ⟨?_, by simp⟩
      exact fun t ht => hnothing t (hnothing' t ht)
    . intro h₁ e _ hnothing
      exact ⟨hnothing, by simp⟩

theorem createFrom_does {label : String} (hvalidated : Validated cfg h call userId type validated)
    : (createFrom cfg type userId label validated).Meets Answers (Does cfg call)
        (fun h' r =>
          NothingObtained h h'
            ∧
          (∀ result, r = .ok result → InsertedIntegration h')
            ∧
          (UpdatedIntegration h' → UpdatedIntegration h)) h := by
  have hcreate : (createFrom cfg type userId label validated).Meets Answers
      (fun h s => Does cfg call h s ∧ s.updatesIntegrations = false)
      (fun h' r => NothingObtained h h' ∧ ∀ result, r = .ok result → InsertedIntegration h') h := by
    unfold createFrom
    rw [Api.meets_randomUUID]
    refine ⟨⟨.quiet rfl, rfl⟩, fun uuid => ?_⟩
    refine (sealCredential_meets.imp fun _ _ hs => ⟨.quiet (isQuiet_of_isElsewhere hs),
      not_updates_of_isQuiet (isQuiet_of_isElsewhere hs)⟩).bind ?_ ?_
    . intro h₁ credential hsuffix ⟨hnothing, hsealed⟩
      rw [Api.meets_now]
      refine ⟨⟨.quiet rfl, rfl⟩, fun now => ?_⟩
      apply (insertWithinCap_meets cfg (C := fun h s => Does cfg call h s ∧ s.updatesIntegrations = false)
        (fun _ _ hs => ⟨.quiet hs, not_updates_of_isQuiet hs⟩) ?_).bind
      . intro h₂ row _ ⟨hnothing', hinserted⟩
        obtain ⟨stored, hmem⟩ := hinserted row rfl
        refine ⟨fun t ht => ?_, fun _ _ => ⟨_, stored, hmem⟩⟩
        exact (hnothing t ((hnothing' t ht).of_cons (by simp))).of_cons (by simp)
      . intro h₂ e _ ⟨hnothing', _⟩
        refine ⟨fun t ht => ?_, by simp⟩
        exact (hnothing t ((hnothing' t ht).of_cons (by simp))).of_cons (by simp)
      . intro h₂ hsuffix'
        have hsub : h₁ ⊆ h₂ := fun ev hev => hsuffix'.subset (List.mem_cons_of_mem _ hev)
        refine ⟨.insert (hvalidated.mono cfg ?_) (hsub (hsuffix.subset (List.mem_cons_self ..)))
          (hsealed credential rfl), rfl⟩
        exact fun ev hev => hsub (hsuffix.subset (List.mem_cons_of_mem _ hev))
    . intro h₁ e _ ⟨hnothing, _⟩
      exact ⟨fun t ht => (hnothing t ht).of_cons (by simp), by simp⟩
  refine ((hcreate.added fun _ _ hs => hs.2).imp fun _ _ hs => hs.1).mono fun h' r _ hq => ?_
  obtain ⟨⟨hnothing, hinserted⟩, hadded⟩ := hq
  exact ⟨hnothing, hinserted, updatedIntegration_of_added hadded⟩

end Shared

section OauthApp

open OauthAppFlowService

omit [Crypto] [Locale] in
theorem OauthStateService.consume_meets {state : String}
    : (OauthStateService.consume userId state).Meets Answers Quiet (fun h' _ => NothingObtained h h') h := by
  unfold OauthStateService.consume
  rw [Api.meets_now]
  refine ⟨rfl, fun now => ?_⟩
  split
  . dsimp only
    rw [Api.meets_query]
    refine ⟨rfl, fun found _ => ?_, fun _ t ht => (ht.of_cons (by simp)).of_cons (by simp)⟩
    cases found with
    | none => exact fun t ht => (ht.of_cons (by simp)).of_cons (by simp)
    | some row =>
      dsimp only
      rw [Api.meets_query]
      refine ⟨rfl, fun affected _ => ?_, fun _ t ht => ?_⟩
      . split
        . exact fun t ht => ((ht.of_cons (by simp)).of_cons (by simp)).of_cons (by simp)
        . split
          . exact fun t ht => ((ht.of_cons (by simp)).of_cons (by simp)).of_cons (by simp)
          . exact fun t ht => ((ht.of_cons (by simp)).of_cons (by simp)).of_cons (by simp)
      . exact ((ht.of_cons (by simp)).of_cons (by simp)).of_cons (by simp)
  . exact fun t ht => ht.of_cons (by simp)

omit [Locale] in
theorem OauthStateService.issue_meets {target : StateTarget}
    : (OauthStateService.issue userId target).Meets Answers Quiet (fun _ _ => True) h := by
  refine (OauthStateService.issue_issues.imp fun _ s hs => ?_).mono fun _ _ _ _ => trivial
  cases hs with
  | free hs =>
    cases s with
    | db s => exact Bool.or_eq_true_iff.mpr (Or.inl (by simpa [Effect.writes] using hs))
    | _ => rfl
  | delete => rfl
  | insert => rfl

theorem startOauthApp_does {label integrationId : Option String}
    : (OauthAppFlowService.start cfg userId label integrationId).Meets Answers
        (Does cfg (.startOauthApp userId label integrationId)) (fun _ _ => True) h := by
  unfold OauthAppFlowService.start enabledConfig
  cases cfg.oauthApp with
  | none => trivial
  | some app =>
    refine ofExcept_meets.bind (fun h₁ target _ _ => ?_) (fun _ _ _ _ => trivial)
    refine (quiet_does precheckTarget_meets).bind (fun h₂ _ _ _ => ?_) (fun _ _ _ _ => trivial)
    exact (quiet_does OauthStateService.issue_meets).bind (fun _ _ _ _ => trivial) (fun _ _ _ _ => trivial)

/--
The token of the integration that a callback has found last has been revoked, unless it is `token`.
-/
def Superseded (cfg : IntegrationsConfig) (h : IntegrationsHistory) (token : String) : Prop :=
  ∀ row previous app, lastLoaded h = some row →
    decryptRow cfg.keys .oauthApp row = some (.oauthApp previous) → cfg.oauthApp = some app →
    clientIdOf row.metadata = some app.clientId → Revoked h previous ∨ previous = token

variable {validated : ValidatedCredential} {token : String}

theorem replace_does {uuid : String} {checked : Integration}
    (hvalidated : Validated cfg h call userId .oauthApp validated) (hchecked : Loaded h userId uuid checked)
    (htype : checked.type = .oauthApp) (htoken : validated.secret = .oauthApp token)
    : (replace cfg userId uuid validated).Meets Answers (Does cfg call)
        (fun h' r =>
          NothingObtained h h'
            ∧
          (∀ result, r = .ok result → UpdatedIntegration h' ∧ Superseded cfg h' token)
            ∧
          (∀ e, r = .error e → UpdatedIntegration h' → UpdatedIntegration h)) h := by
  unfold replace
  refine (quiet_does (quiet_keeps findOwned_meets)).bind ?_ ?_
  . intro h₁ row hsuffix₁ ⟨⟨hnothing₁, hfound⟩, hupdated₁⟩
    have hh₁ := hfound row rfl
    refine (elsewhere_does (elsewhere_keeps sealCredential_meets)).bind ?_ ?_
    . intro h₂ credential hsuffix₂ ⟨⟨hnothing₂, hsealed⟩, hlast₂, hupdated₂⟩
      -- sealing the credential looks up nothing, so `row` is still what has been found last
      have hlast : lastLoaded (h₂) = some row := by
        rw [hlast₂, hh₁]
        rfl
      have hloaded : Loaded h₁ userId uuid row := by
        rw [hh₁]
        exact List.mem_cons_self ..
      have hnothing : NothingObtained h h₂ := fun t ht => hnothing₁ t (hnothing₂ t ht)
      rw [Api.meets_now]
      refine ⟨.quiet rfl, fun now => ?_⟩
      have hsub₁ : h₁ ⊆ clock now :: h₂ := fun ev hev => List.mem_cons_of_mem _ (hsuffix₂.subset hev)
      have hsub : h ⊆ clock now :: h₂ := fun ev hev => hsub₁ (hsuffix₁.subset hev)
      apply (updateOwned_meets (.replace (hvalidated.mono cfg hsub) (hsub hchecked) htype (hsub₁ hloaded)
        hlast (hsealed credential rfl))).bind
      -- the new token is stored: what is left is the one that it has replaced
      . intro h₃ updated _ hq
        obtain ⟨affected, rfl, _⟩ | ⟨_, _, _, heq⟩ := hq
        . have hnothing₃ : NothingObtained h (ran (updateIntegration row.id row.userId
              (credential.freshColumns (toDatetime now))) affected :: clock now :: h₂) :=
            fun t ht => hnothing t ((ht.of_cons (by simp)).of_cons (by simp))
          have hupdated : UpdatedIntegration (ran (updateIntegration row.id row.userId
              (credential.freshColumns (toDatetime now))) affected :: clock now :: h₂) :=
            ⟨_, _, affected, List.mem_cons_self ..⟩
          split
          . next hprevious =>
            refine ⟨hnothing₃, fun _ _ => ⟨hupdated, ?_⟩, by simp⟩
            intro row' previous app hlast' hsecret
            cases hlast.symm.trans hlast'
            rw [hsecret] at hprevious
            simp [tokenOf] at hprevious
          . next previous hprevious =>
            have hsame : ∀ previous', decryptRow cfg.keys .oauthApp row = some (.oauthApp previous') →
                previous' = previous := by
              intro previous' hsecret
              rw [hsecret] at hprevious
              exact Option.some.inj hprevious
            split
            . next hkept =>
              refine ⟨hnothing₃, fun _ _ => ⟨hupdated, ?_⟩, by simp⟩
              intro row' previous' app hlast' hsecret _ _
              cases hlast.symm.trans hlast'
              rw [htoken] at hkept
              exact Or.inr ((hsame previous' hsecret).trans (Option.some.inj hkept))
            . apply (elsewhere_does (elsewhere_keeps OauthAppRevocationService.revoke_meets)).bind
              . intro h₄ _ hsuffix₄ ⟨⟨_, hnothing₄, hrevoked⟩, hlast₄, _⟩
                refine ⟨fun t ht => hnothing₃ t (hnothing₄ t ht), fun _ _ => ⟨?_, ?_⟩, by simp⟩
                . exact ⟨_, _, affected, hsuffix₄.subset (List.mem_cons_self ..)⟩
                . intro row' previous' app hlast' hsecret happ hclient
                  cases hlast.symm.trans (hlast₄.symm.trans hlast')
                  obtain ⟨answer, hmem⟩ := hrevoked app happ hclient
                  exact Or.inl ⟨_, answer, hmem, (hsame previous' hsecret).symm⟩
              . intro _ _ _ ⟨⟨heq, _⟩, _⟩
                simp at heq
        . simp at heq
      . intro h₃ e _ hq
        obtain ⟨_, _, heq⟩ | ⟨_, _, rfl, _⟩ := hq
        . simp at heq
        . refine ⟨fun t ht => hnothing t ((ht.of_cons (by simp)).of_cons (by simp)), by simp, ?_⟩
          intro _ _ hupdated
          refine hupdated₁ (hupdated₂ ((hupdated.of_cons fun _ _ _ => ?_).of_cons (by simp)))
          exact failed_ne_ran
    . intro h₂ e _ ⟨⟨hnothing₂, _⟩, _, hupdated₂⟩
      exact ⟨fun t ht => hnothing₁ t (hnothing₂ t ht), by simp, fun _ _ hu => hupdated₁ (hupdated₂ hu)⟩
  . intro h₁ e _ ⟨⟨hnothing₁, _⟩, hupdated₁⟩
    exact ⟨hnothing₁, by simp, fun _ _ => hupdated₁⟩

theorem storeOrRevoke_does {target : StateTarget} {app : EnabledOauthAppConfig}
    (happ : cfg.oauthApp = some app) (hvalidated : Validated cfg h call userId .oauthApp validated)
    (hchecked : ∀ uuid, target = .replace uuid →
      ∃ checked, Loaded h userId uuid checked ∧ checked.type = .oauthApp)
    (htoken : validated.secret = .oauthApp token) (hclient : clientIdOf validated.metadata = some app.clientId)
    (hnone : ¬UpdatedIntegration h)
    : (storeOrRevoke cfg userId target validated).Meets Answers (Does cfg call)
        (fun h' _ =>
          NothingObtained h h'
            ∧
          (Revoked h' token ∨ InsertedIntegration h' ∨ UpdatedIntegration h')
            ∧
          (UpdatedIntegration h' → Superseded cfg h' token)) h := by
  unfold storeOrRevoke
  have hstore : (store cfg userId target validated).Meets Answers (Does cfg call)
      (fun h' r =>
        NothingObtained h h'
          ∧
        (∀ result, r = .ok result → InsertedIntegration h' ∨ UpdatedIntegration h')
          ∧
        (UpdatedIntegration h' → Superseded cfg h' token)
          ∧
        (∀ e, r = .error e → ¬UpdatedIntegration h')) h := by
    cases target with
    | create label =>
      refine (createFrom_does hvalidated).mono fun h' r _ ⟨hnothing, hinserted, hupdated⟩ => ?_
      refine ⟨hnothing, fun result heq => Or.inl (hinserted result heq), ?_, ?_⟩
      . exact fun hu => absurd (hupdated hu) hnone
      . exact fun _ _ hu => hnone (hupdated hu)
    | replace uuid =>
      obtain ⟨checked, hloaded, htype⟩ := hchecked uuid rfl
      refine (replace_does hvalidated hloaded htype htoken).mono
        fun h' r _ ⟨hnothing, hupdated, hfailed⟩ => ?_
      refine ⟨hnothing, fun result heq => Or.inr (hupdated result heq).1, ?_, ?_⟩
      . intro hu
        cases r with
        | ok result => exact (hupdated result rfl).2
        | error e => exact absurd (hfailed e rfl hu) hnone
      . exact fun e heq hu => hnone (hfailed e heq hu)
  refine hstore.tryCatch ?_ ?_
  . intro h' result _ ⟨hnothing, hstored, hsuperseded, _⟩
    exact ⟨hnothing, Or.inr (hstored result rfl), hsuperseded⟩
  -- what could not be stored is revoked
  . intro h₁ e _ ⟨hnothing, _, _, hfailed⟩
    apply (elsewhere_does (elsewhere_keeps OauthAppRevocationService.revoke_meets)).bind
    . intro h₂ _ _ ⟨⟨_, hnothing', hrevoked⟩, _, hupdated⟩
      obtain ⟨answer, hmem⟩ := hrevoked app happ hclient
      refine ⟨fun t ht => hnothing t (hnothing' t ht), Or.inl ⟨_, answer, hmem, ?_⟩, fun hu => ?_⟩
      . rw [htoken]
        rfl
      . exact absurd (hupdated hu) (hfailed e rfl)
    . intro _ _ _ ⟨⟨heq, _⟩, _⟩
      simp at heq

/--
What a callback has done with the token it has been given, once it has ended.
-/
structure Settles (cfg : IntegrationsConfig) (userId : Nat) (h : IntegrationsHistory) : Prop where
  settled : ∀ token, Obtained h token →
    Revoked h token
      ∨
    (∃ e, failed (resetLockout userId) e ∈ h)
      ∨
    (InsertedIntegration h ∨ UpdatedIntegration h) ∧ ∀ token', Obtained h token' → token' = token
  superseded : ∀ token, Obtained h token → UpdatedIntegration h → Superseded cfg h token

omit [Platform] [Locale] in
theorem Settles.of_nothing (hnothing : NothingObtained [] h) : Settles cfg userId h := by
  have hnone : ∀ token, ¬Obtained h token := by
    intro token ht
    obtain ⟨_, _, hmem, _⟩ := hnothing token ht
    exact absurd hmem List.not_mem_nil
  exact ⟨fun token ht => absurd ht (hnone token), fun token ht => absurd ht (hnone token)⟩

/--
What a call that had been given no token has been given by a validation: the token of the credential that
the validation returns, or one that has been revoked.
-/
structure Grants (cfg : IntegrationsConfig) (code codeVerifier : String) (h : IntegrationsHistory)
    (r : Except Thrown ValidatedCredential) : Prop where
  obtained : ∀ token, Obtained h token → (∃ validated, r = .ok validated ∧ validated.secret = .oauthApp token)
    ∨ (∃ e, r = .error e) ∧ Revoked h token
  validated : ∀ validated, r = .ok validated → ∃ app token,
    cfg.oauthApp = some app
      ∧
    Exchanged h
      { clientId := app.clientId, code, codeVerifier := some codeVerifier, redirectUri := app.callbackUrl }
      token
      ∧
    isOauthAppToken token = true
      ∧
    IsOauthApp h app token validated

omit [Crypto] [Locale] in
theorem validate_oauthApp_meets {code codeVerifier : String} (hnothing : NothingObtained [] h)
    : (validate cfg userId (.oauthApp code codeVerifier)).Meets Answers Elsewhere
        (fun h' r => Attempted userId (fun _ => true) (Grants cfg code codeVerifier) h h' r) h := by
  unfold validate
  refine attempt_meets fun h₁ _ hnothing₁ => OauthAppStrategy.validate_meets.mono fun h₂ r _ hq => ⟨?_, hq.2⟩
  intro token ht
  rcases hq.1 token ht with hold | hnew
  . obtain ⟨_, _, hmem, _⟩ := hnothing token (hnothing₁ token hold)
    exact absurd hmem List.not_mem_nil
  . exact hnew

theorem oauthAppCallback_does {code state : String}
    : (OauthAppFlowService.callback cfg userId code state).Meets Answers
        (Does cfg (.oauthAppCallback userId code state)) (fun h' _ => Settles cfg userId h') [] := by
  unfold OauthAppFlowService.callback enabledConfig
  cases happ : cfg.oauthApp with
  | none => exact .of_nothing fun _ ht => ht
  | some app =>
    dsimp only
    rw [Prog.pure_bind]
    refine (quiet_does (quiet_keeps OauthStateService.consume_meets)).bind ?_ ?_
    . intro h₁ consumed _ ⟨hnothing₁, hupdated₁⟩
      refine (quiet_does (quiet_keeps precheckTarget_meets)).bind ?_ ?_
      -- up to the exchange of the code there is no token to account for
      . intro h₂ _ _ ⟨⟨hnothing₂, hchecked⟩, hupdated₂⟩
        have hnothing : NothingObtained [] h₂ := fun t ht => hnothing₁ t (hnothing₂ t ht)
        have hnone : ¬UpdatedIntegration h₂ := by
          intro hu
          obtain ⟨_, _, _, hmem⟩ := hupdated₁ (hupdated₂ hu)
          exact absurd hmem List.not_mem_nil
        refine (elsewhere_does (elsewhere_keeps (validate_oauthApp_meets hnothing))).bind ?_ ?_
        . intro h₃ validated hsuffix₃ ⟨hattempted, _, hupdated₃⟩
          cases hattempted with
          | returned hgrants hsuffix hsame =>
            obtain ⟨app', token, happ', hexchanged, hwellFormed, hoauthApp⟩ := hgrants.validated validated rfl
            cases happ.symm.trans happ'
            have htoken : validated.secret = .oauthApp token := by
              obtain ⟨_, _, _, rfl⟩ := hoauthApp
              rfl
            have hclient : clientIdOf validated.metadata = some app.clientId := by
              obtain ⟨_, _, _, rfl⟩ := hoauthApp
              rfl
            have honly : ∀ t, Obtained h₃ t → t = token := by
              intro t ht
              rcases hgrants.obtained t (hsame t ht) with ⟨validated', heq, hsecret⟩ | ⟨⟨_, heq⟩, _⟩
              . cases heq
                exact (Payload.oauthApp.inj (htoken.symm.trans hsecret)).symm
              . simp at heq
            have hvalidated : Validated cfg h₃ (.oauthAppCallback userId code state) userId .oauthApp
                validated :=
              .oauthApp happ (hexchanged.mono hsuffix.subset) hwellFormed (hoauthApp.mono hsuffix.subset)
            refine (storeOrRevoke_does happ hvalidated ?_ htoken hclient fun hu => hnone (hupdated₃ hu)).mono
              fun h₄ r _ ⟨hnothing₄, hstored, hsuperseded⟩ => ?_
            . intro uuid heq
              obtain ⟨checked, hloaded, htype⟩ := hchecked uuid heq rfl
              exact ⟨checked, hsuffix₃.subset hloaded, htype⟩
            . constructor
              . intro t ht
                rw [honly t (hnothing₄ t ht)]
                rcases hstored with hrevoked | hstored
                . exact Or.inl hrevoked
                . exact Or.inr (Or.inr ⟨hstored, fun t' ht' => honly t' (hnothing₄ t' ht')⟩)
              . intro t ht
                rw [honly t (hnothing₄ t ht)]
                exact hsuperseded
        . intro h₃ e _ ⟨hattempted, _, hupdated₃⟩
          have hnone₃ : ¬UpdatedIntegration h₃ := fun hu => hnone (hupdated₃ hu)
          cases hattempted with
          | refused hsame => exact .of_nothing fun t ht => hnothing t (hsame t ht)
          | threw hgrants hsuffix hsame =>
            have hrevoked : ∀ t, Obtained h₃ t → Revoked h₃ t := by
              intro t ht
              rcases hgrants.obtained t (hsame t ht) with ⟨_, heq, _⟩ | ⟨_, hrevoked⟩
              . simp at heq
              . exact hrevoked.mono hsuffix.subset
            exact ⟨fun t ht => Or.inl (hrevoked t ht), fun _ _ hu => absurd hu hnone₃⟩
          | unsettled hgrants hsuffix hsame hfailed =>
            exact ⟨fun t _ => Or.inr (Or.inl ⟨_, hfailed⟩), fun _ _ hu => absurd hu hnone₃⟩
      . intro h₂ e _ ⟨⟨hnothing₂, _⟩, _⟩
        exact .of_nothing fun t ht => hnothing₁ t (hnothing₂ t ht)
    . intro h₁ e _ ⟨hnothing₁, _⟩
      exact .of_nothing hnothing₁

end OauthApp

section GithubApp

variable {type : IntegrationType} {validated : ValidatedCredential}

theorem save_does {target : StateTarget} (hvalidated : Validated cfg h call userId .githubApp validated)
    (hchecked : ∀ uuid, target = .replace uuid →
      ∃ checked, Loaded h userId uuid checked ∧ checked.type = .githubApp)
    : (GithubAppStore.save cfg userId target validated).Meets Answers (Does cfg call)
        (fun _ _ => True) h := by
  cases target with
  | create label => exact (createFrom_does hvalidated).mono fun _ _ _ _ => trivial
  | replace uuid =>
    obtain ⟨checked, hloaded, htype⟩ := hchecked uuid rfl
    unfold GithubAppStore.save
    refine (quiet_does findOwned_meets).bind (fun h₁ row hsuffix₁ ⟨_, hfound⟩ => ?_) (fun _ _ _ _ => trivial)
    have hh₁ := hfound row rfl
    refine (elsewhere_does (elsewhere_keeps sealCredential_meets)).bind
      (fun h₂ credential hsuffix₂ ⟨⟨_, hsealed⟩, hlast₂, _⟩ => ?_) (fun _ _ _ _ => trivial)
    rw [Api.meets_now]
    refine ⟨.quiet rfl, fun now => ?_⟩
    have hsub₁ : h₁ ⊆ clock now :: h₂ := fun ev hev => List.mem_cons_of_mem _ (hsuffix₂.subset hev)
    have hsub : h ⊆ clock now :: h₂ := fun ev hev => hsub₁ (hsuffix₁.subset hev)
    have hlast : lastLoaded (clock now :: h₂) = some row := by
      rw [show lastLoaded (clock now :: h₂) = lastLoaded h₂ from rfl, hlast₂, hh₁]
      rfl
    have hrow : Loaded (clock now :: h₂) userId uuid row := by
      apply hsub₁
      rw [hh₁]
      exact List.mem_cons_self ..
    refine (updateOwned_meets (.replace (hvalidated.mono cfg hsub) (hsub hloaded) htype hrow hlast
      (hsealed credential rfl))).bind (fun _ _ _ _ => trivial) (fun _ _ _ _ => trivial)

omit [Crypto] [Locale] in
theorem GithubAppStateService.consume_presents {state : String} {stage : GithubAppStateStage}
    : (GithubAppStateService.consume userId state stage).Meets Answers (Consumes .githubAppStates)
        (fun h' r => ∀ consumed, r = .ok consumed → ∃ row,
          Presented h' userId row
            ∧
          row.stage = stage
            ∧
          GithubAppStateService.toConsumed row = some consumed) h := by
  refine GithubAppStateService.consume_consumes.mono fun h' r _ hq consumed heq => ?_
  obtain ⟨row, htaken, hstage, hconsumed⟩ := hq consumed heq
  exact ⟨row, ⟨htaken.found, htaken.user⟩, hstage, hconsumed⟩

theorem startGithubApp_does {label integrationId : Option String} {mode : Option GithubAppMode}
    : (GithubAppFlowService.start cfg userId label integrationId mode).Meets Answers
        (Does cfg (.startGithubApp userId label integrationId mode)) (fun _ _ => True) h := by
  unfold GithubAppFlowService.start GithubAppSelectionService.enabledConfig
  cases cfg.githubApp with
  | none => trivial
  | some app =>
    refine ofExcept_meets.bind (fun h₁ target _ _ => ?_) (fun _ _ _ _ => trivial)
    refine (quiet_does precheckTarget_meets).bind (fun h₂ _ _ _ => ?_) (fun _ _ _ _ => trivial)
    refine (GithubAppStateService.issue_issues.imp fun _ _ hissues => Does.issue hissues).bind
      (fun _ _ _ _ => trivial) (fun _ _ _ _ => trivial)

namespace GithubAppSelectionService

omit [Platform] [Crypto] [Locale] in
theorem validateCandidate_meets {app : EnabledGithubAppConfig} {consumed : ConsumedGithubAppState}
    {installationId : Int}
    : (validateCandidate app consumed installationId).Meets Answers Elsewhere
        (fun h' r => ∀ validated, r = .ok validated → installationId ∈ consumed.candidates ∧
          IsGithubApp h' app installationId (consumed.verifiedBy.getD "") validated) h := by
  unfold validateCandidate
  split
  . next hcandidate =>
    exact GithubAppStrategy.validateInstallation_meets.mono fun _ _ _ hq validated heq =>
      ⟨hcandidate, hq validated heq⟩
  . simp

theorem select_does {input : GithubAppSelectInput}
    : (select cfg userId input).Meets Answers (Does cfg (.selectInstallation userId input))
        (fun _ _ => True) h := by
  unfold select enabledConfig
  cases happ : cfg.githubApp with
  | none => trivial
  | some app =>
    dsimp only
    rw [Prog.pure_bind]
    refine (GithubAppStateService.consume_presents.imp fun _ _ hs => Does.consume hs).bind
      (fun h₁ consumed hsuffix₁ hpresented => ?_) (fun _ _ _ _ => trivial)
    obtain ⟨row, hpresented, hstage, hconsumed⟩ := hpresented consumed rfl
    refine (quiet_does precheckTarget_meets).bind (fun h₂ _ hsuffix₂ ⟨_, hchecked⟩ => ?_)
      (fun _ _ _ _ => trivial)
    refine (elsewhere_does (attempt_meets fun h₃ _ _ => validateCandidate_meets)).bind
      (fun h₃ validated hsuffix₃ hattempted => ?_) (fun _ _ _ _ => trivial)
    cases hattempted with
    | returned hrun hsuffix _ =>
      obtain ⟨hcandidate, hgithubApp⟩ := hrun validated rfl
      refine save_does (.selected happ (hpresented.mono (hsuffix₂.trans hsuffix₃).subset) hstage hconsumed
        hcandidate (hgithubApp.mono hsuffix.subset)) fun uuid heq => ?_
      obtain ⟨checked, hloaded, htype⟩ := hchecked uuid heq rfl
      exact ⟨checked, hsuffix₃.subset hloaded, htype⟩

omit [Platform] [Crypto] in
theorem mem_selectionEntries {installations : List GithubUserInstallation}
    {entry : GithubAppSelectionEntry} (hmem : entry ∈ selectionEntries installations)
    : entry.installationId ∈ installations.map GithubUserInstallation.installationId := by
  have hfold : ∀ (installations : List GithubUserInstallation) (unique : List GithubAppSelectionEntry),
      entry ∈ installations.foldl addEntry unique → entry ∈ unique ∨
        entry.installationId ∈ installations.map GithubUserInstallation.installationId := by
    intro installations
    induction installations with
    | nil => exact fun _ hmem => Or.inl hmem
    | cons installation installations ih =>
      intro unique hmem
      rcases ih _ hmem with hunique | hlater
      . unfold addEntry at hunique
        split at hunique
        . exact Or.inl hunique
        . rcases List.mem_append.mp hunique with hold | heq
          . exact Or.inl hold
          . rw [List.mem_singleton.mp heq]
            exact Or.inr (List.mem_cons_self ..)
      . exact Or.inr (List.mem_cons_of_mem _ hlater)
  rcases hfold installations [] ((List.mem_insertionSort _).mp (List.mem_of_mem_take hmem)) with hnil | hfound
  . exact absurd hnil List.not_mem_nil
  . exact hfound

end GithubAppSelectionService

namespace GithubAppFlowService

open GithubAppSelectionService

inductive Verifies (app : EnabledGithubAppConfig) (input : GithubAppCallbackInput) (h : IntegrationsHistory)
    : Verified → Prop where
  | validated {user : VerifiedGithubUser} {installationId : Int} {validated : ValidatedCredential}
    (hverified : Integrations.Verified h app input.code user)
    (hpicked : pickInstallation user.installations input.installationId = .ok (some installationId))
    (hgithubApp : IsGithubApp h app installationId user.login validated)
    : Verifies app input h (.validated validated)
  | several {user : VerifiedGithubUser} (hverified : Integrations.Verified h app input.code user)
    : Verifies app input h (.several user)

omit [Crypto] [Locale] [Platform] in
theorem verify_meets {app : EnabledGithubAppConfig} {input : GithubAppCallbackInput}
    : (verify app input).Meets Answers Elsewhere
        (fun h' r => ∀ verified, r = .ok verified → Verifies app input h' verified) h := by
  unfold verify
  apply GithubAppUserVerificationService.verify_meets.bind
  . intro h₁ user _ hverified
    apply ofExcept_meets.bind
    . intro h₂ picked _ ⟨hsame, hpicked⟩
      subst hsame
      cases picked with
      | none =>
        intro verified heq
        cases heq
        exact .several (hverified user rfl)
      | some installationId =>
        apply GithubAppStrategy.validateInstallation_meets.bind
        . intro h₃ validated hsuffix₃ hgithubApp verified heq
          cases heq
          exact .validated ((hverified user rfl).mono hsuffix₃.subset) hpicked.symm
            (hgithubApp validated rfl)
        . intro _ _ _ _ _ heq
          simp at heq
    . intro _ _ _ _ _ heq
      simp at heq
  . intro _ _ _ _ _ heq
    simp at heq

theorem callback_does {input : GithubAppCallbackInput}
    : (callback cfg userId input).Meets Answers (Does cfg (.githubAppCallback userId input))
        (fun _ _ => True) h := by
  unfold callback enabledConfig
  cases happ : cfg.githubApp with
  | none => trivial
  | some app =>
    dsimp only
    rw [Prog.pure_bind]
    refine (GithubAppStateService.consume_presents.imp fun _ _ hs => Does.consume hs).bind
      (fun h₁ consumed hsuffix₁ hpresented => ?_) (fun _ _ _ _ => trivial)
    obtain ⟨row, hpresented, hstage, hconsumed⟩ := hpresented consumed rfl
    refine (quiet_does precheckTarget_meets).bind (fun h₂ _ hsuffix₂ ⟨_, hchecked⟩ => ?_)
      (fun _ _ _ _ => trivial)
    refine (elsewhere_does (attempt_meets fun h₃ _ _ => verify_meets)).bind
      (fun h₃ verified hsuffix₃ hattempted => ?_) (fun _ _ _ _ => trivial)
    have hpresented₃ : Presented h₃ userId row := hpresented.mono (hsuffix₂.trans hsuffix₃).subset
    cases hattempted with
    | returned hrun hsuffix _ =>
      cases hrun verified rfl with
      | several hverified =>
        dsimp only
        unfold offer
        simp only [Prog.bind_assoc]
        refine (GithubAppStateService.issue_issues.imp_of_suffix fun h₄ s hsuffix₄ hissues => ?_).bind
          (fun _ _ _ _ => trivial) (fun _ _ _ _ => trivial)
        refine .offer happ (hpresented₃.mono hsuffix₄.subset) hstage
          (hverified.mono (hsuffix.trans hsuffix₄).subset) ?_ hissues
        intro id hid
        obtain ⟨entry, hentry, rfl⟩ := List.mem_map.mp (List.mem_of_mem_take hid)
        exact mem_selectionEntries hentry
      | validated hverified hpicked hgithubApp =>
        refine (save_does (.picked happ hpresented₃ hstage (hverified.mono hsuffix.subset) hpicked
          (hgithubApp.mono hsuffix.subset)) fun uuid heq => ?_).bind
          (fun _ _ _ _ => trivial) (fun _ _ _ _ => trivial)
        obtain ⟨checked, hloaded, htype⟩ := hchecked uuid heq rfl
        exact ⟨checked, hsuffix₃.subset hloaded, htype⟩

end GithubAppFlowService

end GithubApp

def IntegrationsCall.Promises (cfg : IntegrationsConfig) (call : IntegrationsCall) (h : IntegrationsHistory)
    : Prop :=
  match call with
  | .oauthAppCallback userId _ _ => Settles cfg userId h
  | _ => True

theorem IntegrationsCall.prog_does (call : IntegrationsCall)
    : (call.prog cfg).Meets Answers (Does cfg call) (fun h' _ => call.Promises cfg h') [] := by
  have hmap : ∀ {T : Type} {prog : Api T} {f : T → IntegrationsReply} {P : IntegrationsHistory → Prop},
      prog.Meets Answers (Does cfg call) (fun h' _ => P h') [] →
      (f <$> prog).Meets Answers (Does cfg call) (fun h' _ => P h') [] := by
    intro T prog f P hprog
    exact hprog.map (fun _ _ hp => hp) (fun _ _ hp => hp)
  cases call with
  | create => exact hmap IntegrationsService.create_does
  | rename => exact hmap IntegrationsService.rename_does
  | replaceCredential => exact hmap IntegrationsService.replaceCredential_does
  | test => exact hmap IntegrationConnectionTestService.test_does
  | delete => exact hmap IntegrationsService.delete_does
  | reencrypt => exact hmap IntegrationsKeyRotationService.reencryptFrom_does
  | startOauthApp => exact hmap startOauthApp_does
  | oauthAppCallback => exact hmap oauthAppCallback_does
  | startGithubApp => exact hmap startGithubApp_does
  | githubAppCallback => exact hmap GithubAppFlowService.callback_does
  | selectInstallation => exact hmap GithubAppSelectionService.select_does

end Kerghan.Integrations
