import Kerghan.Integrations.Lemmas.Github

/-!
This module contains what a call has seen once a strategy has validated a credential.
-/

namespace Kerghan.Integrations

variable {h : IntegrationsHistory}

section Outcome

variable {T : Type} {C : IntegrationsHistory → Effect → Prop} {Q : IntegrationsHistory → Except Thrown T → Prop}

theorem outcome_meets {run : Api T} (hrun : run.Meets Answers C Q h)
    : (IntegrationCredentialService.outcome run).Meets Answers C
        (fun h' r => ∃ result, r = .ok result ∧ Q h' result) h := by
  unfold IntegrationCredentialService.outcome
  refine Prog.Meets.tryCatch (Q := fun h' r => (∀ result, r = .ok result → Q h' result) ∧
    ∀ e, r = .error e → Q h' (.error e)) ?_ ?_ ?_
  . refine hrun.map ?_ ?_
    . intro h' v hq
      refine ⟨fun result heq => ?_, by simp⟩
      cases heq
      exact hq
    . intro h' e hq
      refine ⟨by simp, fun e' heq => ?_⟩
      cases heq
      exact hq
  . intro h' result _ hq
    exact ⟨result, rfl, hq.1 result rfl⟩
  . intro h' e _ hq
    exact ⟨.error e, rfl, hq.2 e rfl⟩

theorem ofExcept_meets {result : Except Thrown T}
    : (Prog.ofExcept result : Api T).Meets Answers C (fun h' r => h' = h ∧ r = result) h := by
  cases result with
  | ok v => exact ⟨rfl, rfl⟩
  | error e => exact ⟨rfl, rfl⟩

end Outcome

variable [Platform]

section Pat

theorem PatStrategy.validate_meets {token : String}
    : (PatStrategy.validate token).Meets Answers Elsewhere
        (fun h' r => (∀ t, Obtained h' t → Obtained h t) ∧
          ∀ validated, r = .ok validated → IsPat h' token validated) h := by
  unfold PatStrategy.validate
  apply fetchGithubUser_meets.bind
  . intro h' answer _ ⟨hobtained, hidentified⟩
    split
    . next login response =>
      dsimp only
      split
      . refine ⟨hobtained, fun validated heq => ?_⟩
        cases heq
        exact ⟨login, response, hidentified login response rfl, rfl⟩
      . exact ⟨hobtained, by simp⟩
    . exact ⟨hobtained, by simp⟩
  . intro h' e _ ⟨hobtained, _⟩
    exact ⟨hobtained, by simp⟩

end Pat

section OauthApp

variable {cfg : IntegrationsConfig}

omit [Platform] in
theorem OauthAppRevocationService.revoke_meets {token : String} {clientId : Option String}
    : (OauthAppRevocationService.revoke cfg token clientId).Meets Answers Elsewhere
        (fun h' r =>
          r = .ok ()
            ∧
          (∀ t, Obtained h' t → Obtained h t)
            ∧
          ∀ app, cfg.oauthApp = some app → clientId = some app.clientId →
            ∃ answer, ⟨.revokeOauthToken { clientId := app.clientId, token }, answer⟩ ∈ h') h := by
  unfold OauthAppRevocationService.revoke
  split
  . next hnone => exact ⟨rfl, fun _ ht => ht, by simp [hnone]⟩
  . next app happ =>
    split
    . next hother =>
      refine ⟨rfl, fun _ ht => ht, fun app' happ' hclient => ?_⟩
      cases happ.symm.trans happ'
      exact absurd hclient hother
    . refine ⟨rfl, fun answer _ => ⟨rfl, fun t ht => ht.of_cons (by simp), fun app' happ' _ => ?_⟩⟩
      cases happ.symm.trans happ'
      exact ⟨answer, List.mem_cons_self ..⟩

omit [Platform] in
theorem OauthAppCodeExchangeService.exchange_meets {app : EnabledOauthAppConfig} {code codeVerifier : String}
    (happ : cfg.oauthApp = some app)
    : (OauthAppCodeExchangeService.exchange cfg app code codeVerifier).Meets Answers Elsewhere
        (fun h' r =>
          (∀ t, Obtained h' t → Obtained h t ∨ r = .ok t ∨ (∃ e, r = .error e) ∧ Revoked h' t)
            ∧
          ∀ token, r = .ok token → isOauthAppToken token = true ∧ Exchanged h'
            { clientId := app.clientId, code, codeVerifier := some codeVerifier,
              redirectUri := app.callbackUrl } token) h := by
  unfold OauthAppCodeExchangeService.exchange
  apply exchangeOauthCode_meets.bind
  . intro h' answer _ ⟨hobtained, hexchanged⟩
    split
    . next token htoken =>
      have honly : ∀ t, Obtained h' t → Obtained h t ∨ t = token := by
        intro t ht
        refine (hobtained t ht).imp_right fun ⟨answer', heq, ht'⟩ => ?_
        cases heq
        exact Option.some.inj (ht'.symm.trans htoken)
      split
      . next hvalid =>
        refine ⟨fun t ht => (honly t ht).imp_right fun heq => Or.inl (by rw [heq]), ?_⟩
        intro token' heq
        cases heq
        exact ⟨hvalid.2, hexchanged answer token rfl htoken⟩
      -- a malformed token is revoked before the error is thrown
      . apply OauthAppRevocationService.revoke_meets.bind
        . intro h₁ _ _ ⟨_, hsame, hrevoked⟩
          obtain ⟨answer', hmem⟩ := hrevoked app happ rfl
          apply exchangeErrorFor_meets.bind
          . intro h₂ e hsuffix ⟨hsame', _⟩
            refine ⟨fun t ht => ?_, by simp⟩
            refine (honly t (hsame t (hsame' t ht))).imp_right fun heq => Or.inr ⟨⟨_, rfl⟩, ?_⟩
            exact ⟨_, answer', hsuffix.subset hmem, heq.symm⟩
          . intro _ _ _ ⟨_, _, heq⟩
            simp at heq
        . intro _ _ _ ⟨heq, _⟩
          simp at heq
    . next hnone =>
      have hnothing : ∀ t, Obtained h' t → Obtained h t := by
        intro t ht
        rcases hobtained t ht with hold | ⟨answer', heq, ht'⟩
        . exact hold
        . cases heq
          exact absurd (ht'.symm.trans hnone) (by simp)
      apply exchangeErrorFor_meets.bind
      . intro h₁ e _ ⟨hsame, _⟩
        exact ⟨fun t ht => Or.inl (hnothing t (hsame t ht)), by simp⟩
      . intro _ _ _ ⟨_, _, heq⟩
        simp at heq
  . intro h' e _ ⟨hobtained, _⟩
    refine ⟨fun t ht => (hobtained t ht).imp_right fun ⟨_, heq, _⟩ => ?_, by simp⟩
    simp at heq

omit [Platform] in
theorem OauthAppStrategy.identify_meets {app : EnabledOauthAppConfig} {token : String}
    : (OauthAppStrategy.identify token app.clientId).Meets Answers Elsewhere
        (fun h' r => (∀ t, Obtained h' t → Obtained h t) ∧
          ∀ validated, r = .ok validated → IsOauthApp h' app token validated) h := by
  unfold OauthAppStrategy.identify
  apply fetchGithubUser_meets.bind
  . intro h' answer _ ⟨hobtained, hidentified⟩
    split
    . next login response =>
      dsimp only
      split
      . refine ⟨hobtained, fun validated heq => ?_⟩
        cases heq
        exact ⟨login, response, hidentified login response rfl, rfl⟩
      . exact ⟨hobtained, by simp⟩
    . exact ⟨hobtained, by simp⟩
  . intro h' e _ ⟨hobtained, _⟩
    exact ⟨hobtained, by simp⟩

omit [Platform] in
theorem OauthAppStrategy.validate_meets {code codeVerifier : String}
    : (OauthAppStrategy.validate cfg code codeVerifier).Meets Answers Elsewhere
        (fun h' r =>
          (∀ t, Obtained h' t → Obtained h t
            ∨ (∃ validated, r = .ok validated ∧ validated.secret = .oauthApp t)
            ∨ (∃ e, r = .error e) ∧ Revoked h' t)
            ∧
          ∀ validated, r = .ok validated → ∃ app token,
            cfg.oauthApp = some app
              ∧
            Exchanged h'
              { clientId := app.clientId, code, codeVerifier := some codeVerifier,
                redirectUri := app.callbackUrl } token
              ∧
            isOauthAppToken token = true
              ∧
            IsOauthApp h' app token validated) h := by
  unfold OauthAppStrategy.validate
  split
  . exact ⟨fun _ ht => Or.inl ht, by simp⟩
  . next app happ =>
    apply (OauthAppCodeExchangeService.exchange_meets happ).bind
    . intro h₁ token hsuffix ⟨hobtained, hexchanged⟩
      obtain ⟨hwellFormed, hexchanged⟩ := hexchanged token rfl
      -- identifying the user obtains nothing, so the exchanged token is all there is
      have honly : ∀ {h₂}, (∀ t, Obtained h₂ t → Obtained h₁ t) →
          ∀ t, Obtained h₂ t → Obtained h t ∨ t = token := by
        intro h₂ hsame t ht
        rcases hobtained t (hsame t ht) with hold | heq | ⟨⟨_, heq⟩, _⟩
        . exact Or.inl hold
        . cases heq
          exact Or.inr rfl
        . simp at heq
      refine OauthAppStrategy.identify_meets.tryCatch ?_ ?_
      . intro h₂ validated hsuffix' ⟨hsame, hidentified⟩
        have hvalidated := hidentified validated rfl
        have hsecret : validated.secret = .oauthApp token := by
          obtain ⟨_, _, _, rfl⟩ := hvalidated
          rfl
        constructor
        . intro t ht
          refine (honly hsame t ht).imp_right fun heq => Or.inl ?_
          exact ⟨validated, rfl, by rw [hsecret, heq]⟩
        . intro validated' heq
          cases heq
          exact ⟨app, token, happ, hexchanged.mono hsuffix'.subset, hwellFormed, hvalidated⟩
      . intro h₂ e hsuffix' ⟨hsame, _⟩
        apply OauthAppRevocationService.revoke_meets.bind
        . intro h₃ _ hsuffix'' ⟨_, hsame', hrevoked⟩
          obtain ⟨answer, hmem⟩ := hrevoked app happ rfl
          refine ⟨fun t ht => ?_, by simp⟩
          refine (honly hsame t (hsame' t ht)).imp_right fun heq => Or.inr ⟨⟨e, rfl⟩, ?_⟩
          exact ⟨_, answer, hmem, heq.symm⟩
        . intro _ _ _ ⟨heq, _⟩
          simp at heq
    . intro h₁ e _ ⟨hobtained, _⟩
      refine ⟨fun t ht => (hobtained t ht).imp_right fun hobtained => Or.inr ?_, by simp⟩
      rcases hobtained with heq | hrevoked
      . simp at heq
      . exact ⟨⟨e, rfl⟩, hrevoked.2⟩

end OauthApp

section GithubApp

variable {app : EnabledGithubAppConfig}

omit [Platform] in
theorem GithubAppRevocationService.revoke_meets {token : String}
    : (GithubAppRevocationService.revoke app token).Meets Answers Elsewhere (fun _ r => r = .ok ()) h :=
  ⟨rfl, fun _ _ => rfl⟩

namespace GithubAppUserVerificationService

omit [Platform] in
theorem exchange_meets {code : String}
    : (exchange app code).Meets Answers Elsewhere
        (fun h' r => ∀ token, r = .ok token → Exchanged h'
          { clientId := app.clientId, code, codeVerifier := none, redirectUri := app.callbackUrl } token)
        h := by
  unfold exchange
  apply exchangeOauthCode_meets.bind
  . intro h' answer _ ⟨_, hexchanged⟩
    have hfails : ∀ {h₁}, (exchangeErrorFor answer >>= fun e => throw e : Api String).Meets Answers Elsewhere
        (fun h' r => ∀ token, r = .ok token → Exchanged h'
          { clientId := app.clientId, code, codeVerifier := none, redirectUri := app.callbackUrl } token)
        h₁ := by
      intro h₁
      exact exchangeErrorFor_meets.bind (fun _ _ _ _ _ heq => by simp at heq)
        (fun _ _ _ _ _ heq => by simp at heq)
    split
    . next token htoken =>
      split
      . intro token' heq
        cases heq
        exact hexchanged answer token rfl htoken
      . exact GithubAppRevocationService.revoke_meets.bind (fun _ _ _ _ => hfails)
          (fun _ _ _ heq => by simp at heq)
    . exact hfails
  . intro _ _ _ _ _ heq
    simp at heq

omit [Platform] in
theorem loginOf_meets {token : String}
    : (loginOf token).Meets Answers Elsewhere (fun _ _ => True) h := by
  unfold loginOf
  apply fetchGithubUser_meets.bind
  . intro _ answer _ _
    split
    . split <;> trivial
    . trivial
  . intro _ _ _ _
    trivial

omit [Platform] in
theorem fetchPage_meets {token : String} {pageUrl : Option String}
    : (fetchPage token pageUrl).Meets Answers Elsewhere
        (fun h' r => ∀ entries nextUrl, r = .ok (entries, nextUrl) →
          ∀ installation ∈ entries, Listed h' token installation) h := by
  unfold fetchPage
  rw [Prog.perform_bind]
  refine ⟨rfl, fun answer _ => ?_⟩
  cases answer with
  | error e =>
    cases e with
    | githubClientError reason => exact fun _ _ heq => by simp at heq
    | unexpected => exact fun _ _ heq => by simp at heq
  | ok page =>
    dsimp only
    split
    . next installations hstatus hinstallations =>
      intro entries nextUrl heq installation hmem
      cases heq
      exact ⟨pageUrl, page, installations, List.mem_cons_self .., beq_iff_eq.mp hstatus, hinstallations,
        (List.mem_filter.mp hmem).1⟩
    . unfold pageErrorFor
      split
      . exact fun _ _ heq => by simp at heq
      . split
        . simp only [Prog.bind_assoc]
          rw [Api.meets_now]
          exact ⟨rfl, fun _ _ _ heq => by simp at heq⟩
        . exact fun _ _ heq => by simp at heq

omit [Platform] in
theorem mem_setFound {found : List GithubUserInstallation} {entry installation : GithubUserInstallation}
    (hmem : installation ∈ setFound found entry)
    : installation ∈ found ∨ installation = entry := by
  unfold setFound at hmem
  split at hmem
  . obtain ⟨old, hold, heq⟩ := List.mem_map.mp hmem
    split at heq
    . exact Or.inr heq.symm
    . exact Or.inl (heq ▸ hold)
  . rcases List.mem_append.mp hmem with hold | hnew
    . exact Or.inl hold
    . exact Or.inr (List.mem_singleton.mp hnew)

omit [Platform] in
theorem mem_foldl_setFound {found entries : List GithubUserInstallation} {installation : GithubUserInstallation}
    (hmem : installation ∈ entries.foldl setFound found)
    : installation ∈ found ∨ installation ∈ entries := by
  induction entries generalizing found with
  | nil => exact Or.inl hmem
  | cons entry entries ih =>
    rcases ih hmem with hfound | hentries
    . rcases mem_setFound hfound with hold | hnew
      . exact Or.inl hold
      . exact Or.inr (hnew ▸ List.mem_cons_self ..)
    . exact Or.inr (List.mem_cons_of_mem _ hentries)

omit [Platform] in
theorem mem_addFound {appId : Int} {found entries : List GithubUserInstallation}
    {installation : GithubUserInstallation} (hmem : installation ∈ addFound appId found entries)
    : installation ∈ found ∨ installation ∈ entries ∧ installation.appId = appId := by
  rcases mem_foldl_setFound hmem with hfound | hentries
  . exact Or.inl hfound
  . obtain ⟨hentries, hnew⟩ := List.mem_filter.mp hentries
    rw [Bool.and_eq_true, decide_eq_true_eq] at hnew
    exact Or.inr ⟨hentries, hnew.1⟩

omit [Platform] in
theorem installationsFrom_meets {token : String} {appId : Int} {pages : Nat}
    {found : List GithubUserInstallation} {pageUrl : Option String}
    (hfound : ∀ installation ∈ found, Listed h token installation ∧ installation.appId = appId)
    : (installationsFrom token appId found pages pageUrl).Meets Answers Elsewhere
        (fun h' r => ∀ installations, r = .ok installations →
          ∀ installation ∈ installations, Listed h' token installation ∧ installation.appId = appId) h := by
  induction pages generalizing h found pageUrl with
  | zero =>
    intro installations heq
    cases heq
    exact hfound
  | succ pages ih =>
    unfold installationsFrom
    apply fetchPage_meets.bind
    . intro h' ⟨entries, nextUrl⟩ hsuffix hlisted
      have hfound' : ∀ installation ∈ addFound appId found entries,
          Listed h' token installation ∧ installation.appId = appId := by
        intro installation hmem
        rcases mem_addFound hmem with hold | ⟨hentries, happ⟩
        . exact ⟨(hfound installation hold).1.mono hsuffix.subset, (hfound installation hold).2⟩
        . exact ⟨hlisted entries nextUrl rfl installation hentries, happ⟩
      dsimp only
      split
      . intro installations heq
        cases heq
        exact hfound'
      . exact ih hfound'
    . intro _ _ _ _ _ heq
      simp at heq

omit [Platform] in
theorem verify_meets {code : String}
    : (verify app code).Meets Answers Elsewhere
        (fun h' r => ∀ user, r = .ok user → Verified h' app code user) h := by
  unfold verify
  apply exchange_meets.bind
  . intro h₁ token _ hexchanged
    have hlisted : (do
        let login ← loginOf token
        let installations ← installationsOf token app.appId
        pure { login, installations : VerifiedGithubUser } : Api VerifiedGithubUser).Meets Answers Elsewhere
        (fun h' r => ∀ user, r = .ok user → ∀ installation ∈ user.installations,
          Listed h' token installation ∧ installation.appId = app.appId) h₁ := by
      apply loginOf_meets.bind
      . intro h₂ login _ _
        unfold installationsOf
        apply (installationsFrom_meets (by simp)).bind
        . intro h₃ installations _ hlisted user heq
          cases heq
          exact hlisted installations rfl
        . intro _ _ _ _ _ heq
          simp at heq
      . intro _ _ _ _ _ heq
        simp at heq
    apply (outcome_meets hlisted).bind
    . intro h₂ verified hsuffix ⟨result, heq, hresult⟩
      cases heq
      apply GithubAppRevocationService.revoke_meets.bind
      . intro h₃ _ hsuffix' _
        refine ofExcept_meets.mono fun h' r _ ⟨hsame, hr⟩ user huser => ?_
        subst hsame
        subst hr
        refine ⟨token, (hexchanged token rfl).mono (hsuffix.trans hsuffix').subset, fun i hi => ?_⟩
        obtain ⟨hi, happ⟩ := hresult user huser i hi
        exact ⟨hi.mono hsuffix'.subset, happ⟩
      . intro _ _ _ heq
        simp at heq
    . intro _ _ _ ⟨_, heq, _⟩
      simp at heq
  . intro _ _ _ _ _ heq
    simp at heq

end GithubAppUserVerificationService

end GithubApp

end Kerghan.Integrations
