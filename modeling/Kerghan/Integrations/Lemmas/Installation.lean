import Kerghan.Integrations.Lemmas.Validate

/-!
This module contains what a call has seen once an installation has been confirmed, and that tests leave the
integrations alone.
-/

namespace Kerghan.Integrations

variable {h : IntegrationsHistory}

namespace GithubAppInstallationService

theorem classifyFailure_meets {answer : GithubRateLimitFields}
    : (classifyFailure answer).Meets Answers Elsewhere
        (fun _ r => ∀ installation, r ≠ .ok (.ok installation)) h := by
  unfold classifyFailure
  split
  . simp
  . split
    . rw [Api.meets_now]
      exact ⟨rfl, by simp⟩
    . simp

theorem classifyLookup_meets {answer : GithubAppInstallationResponse} {appId : Int}
    : (classifyLookup answer appId).Meets Answers Elsewhere
        (fun _ r => ∀ installation, r = .ok (.ok installation) →
          answer.status = 200
            ∧
          answer.installation = some installation
            ∧
          installation.appId = appId
            ∧
          installation.suspended = false
            ∧
          hasRequiredPermissions installation.permissions = true) h := by
  unfold classifyLookup
  split
  . exact classifyFailure_meets.mono fun _ _ _ hnever i heq => absurd heq (hnever i)
  . next hstatus =>
    split
    . simp
    . next installation hinstallation =>
      split
      . simp
      . next happ =>
        split
        . simp
        . next hactive =>
          split
          . next hpermitted =>
            intro installation' heq
            cases heq
            exact ⟨not_not.mp hstatus, hinstallation, not_not.mp happ, by simpa using hactive, hpermitted⟩
          . simp

theorem classifyMint_meets {answer : GithubRateLimitFields} {looked : InstallationCheck}
    : (classifyMint answer looked).Meets Answers Elsewhere
        (fun _ r => ∀ installation, r = .ok (.ok installation) →
          answer.status = 201 ∧ looked = .ok installation) h := by
  unfold classifyMint
  split
  . next hstatus =>
    intro installation heq
    exact ⟨hstatus, Except.ok.inj heq⟩
  . split
    . simp
    . exact classifyFailure_meets.mono fun _ _ _ hnever i heq => absurd heq (hnever i)

theorem check_meets {app : EnabledGithubAppConfig} {installationId : Int}
    : (check app installationId).Meets Answers Elsewhere
        (fun h' r => ∀ installation, r = .ok (.ok installation) →
          Confirmed h' app installationId installation) h := by
  unfold check getAppInstallation
  rw [Prog.bind_assoc, Prog.perform_bind]
  refine ⟨rfl, fun lookup _ => ?_⟩
  cases lookup with
  | error e => cases e <;> simp
  | ok answer =>
    dsimp only
    rw [Prog.pure_bind]
    apply classifyLookup_meets.bind
    . intro h' looked hsuffix hlooked
      cases looked with
      | ok installation =>
        obtain ⟨hstatus, hinstallation, happ, hactive, hpermitted⟩ := hlooked installation rfl
        obtain ⟨hinstallation, hwellFormed⟩ := Option.filter_eq_some_iff.mp hinstallation
        dsimp only
        rw [Prog.perform_bind]
        refine ⟨rfl, fun minted _ => ?_⟩
        cases minted with
        | error e => cases e <;> simp
        | ok minted =>
          refine classifyMint_meets.mono fun h'' r hsuffix' hminted installation' heq => ?_
          obtain ⟨hminted, hsame⟩ := hminted installation' heq
          cases hsame
          have hmem : ∀ ev ∈ h', ev ∈ h'' := fun ev hev =>
            hsuffix'.subset (List.mem_cons_of_mem _ hev)
          exact ⟨⟨answer, hmem _ (hsuffix.subset (List.mem_cons_self ..)), hstatus, hinstallation⟩,
            hwellFormed, happ, hactive, hpermitted,
            ⟨minted, hsuffix'.subset (List.mem_cons_self ..), hminted⟩⟩
      | _ => simp
    . simp

theorem verify_meets {app : EnabledGithubAppConfig} {installationId : Int}
    : (verify app installationId).Meets Answers Elsewhere
        (fun h' r => ∀ installation, r = .ok installation →
          Confirmed h' app installationId installation) h := by
  unfold verify
  apply check_meets.bind
  . intro h' looked _ hlooked
    cases looked with
    | ok installation =>
      intro installation' heq
      cases heq
      exact hlooked installation rfl
    | _ => simp
  . simp

end GithubAppInstallationService

theorem GithubAppStrategy.validateInstallation_meets {app : EnabledGithubAppConfig} {installationId : Int}
    {verifiedBy : String}
    : (GithubAppStrategy.validateInstallation app installationId verifiedBy).Meets Answers Elsewhere
        (fun h' r => ∀ validated, r = .ok validated →
          IsGithubApp h' app installationId verifiedBy validated) h := by
  unfold GithubAppStrategy.validateInstallation
  apply GithubAppInstallationService.verify_meets.bind
  . intro h' installation _ hconfirmed
    apply ofExcept_meets.bind
    . intro h'' metadata _ ⟨hsame, hmetadata⟩ validated heq
      subst hsame
      cases heq
      exact ⟨installation, metadata, hconfirmed installation rfl, hmetadata.symm, rfl⟩
    . intro _ _ _ _ _ heq
      simp at heq
  . intro _ _ _ _ _ heq
    simp at heq

section Test

variable [Platform]

theorem PatStrategy.test_meets {token : String} {row : Integration}
    : (PatStrategy.test token row).Meets Answers Elsewhere (fun _ _ => True) h := by
  unfold PatStrategy.test
  apply fetchGithubUser_meets.bind
  . intro h' answer _ _
    split
    . trivial
    . have hpast : (isPast row.expiresAt).Meets Answers Elsewhere (fun _ _ => True) h' := by
        unfold isPast
        split
        . trivial
        . rw [Api.meets_now]
          exact ⟨rfl, fun _ => trivial⟩
      refine hpast.bind (fun _ _ _ _ => ?_) (fun _ _ _ _ => trivial)
      split <;> trivial
    . trivial
    . trivial
  . intro _ _ _ _
    trivial

omit [Platform] in
theorem OauthAppStrategy.test_meets {cfg : IntegrationsConfig} {token : String} {row : Integration}
    : (OauthAppStrategy.test cfg token row).Meets Answers Elsewhere (fun _ _ => True) h := by
  unfold OauthAppStrategy.test
  apply fetchGithubUser_meets.bind
  . intro h' answer _ _
    split <;> trivial
  . intro _ _ _ _
    trivial

omit [Platform] in
theorem GithubAppStrategy.test_meets {cfg : IntegrationsConfig} {installationId : Int} {row : Integration}
    : (GithubAppStrategy.test cfg installationId row).Meets Answers Elsewhere (fun _ _ => True) h := by
  unfold GithubAppStrategy.test
  split
  . trivial
  . have hprobe : ∀ app, (GithubAppInstallationService.probe app installationId).Meets Answers Elsewhere
        (fun _ _ => True) h := by
      intro app
      unfold GithubAppInstallationService.probe
      refine GithubAppInstallationService.check_meets.bind (fun _ looked _ _ => ?_) (fun _ _ _ _ => trivial)
      cases looked <;> trivial
    refine (hprobe _).bind (fun _ probed _ _ => ?_) (fun _ _ _ _ => trivial)
    cases probed with
    | error outcome => trivial
    | ok installation => exact ofExcept_meets.bind (fun _ _ _ _ => trivial) (fun _ _ _ _ => trivial)

theorem testSecret_meets [Crypto] {cfg : IntegrationsConfig} {secret : Payload} {row : Integration}
    : (testSecret cfg secret row).Meets Answers Elsewhere (fun _ _ => True) h := by
  cases secret with
  | pat token => exact PatStrategy.test_meets
  | oauthApp token => exact OauthAppStrategy.test_meets
  | githubApp installationId => exact GithubAppStrategy.test_meets

end Test

end Kerghan.Integrations
