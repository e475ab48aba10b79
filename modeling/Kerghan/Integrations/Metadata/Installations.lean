import Kerghan.Integrations.Metadata.Describe

/-!
This module contains the proof that what is validated of an installation of a GitHub App can be described,
whichever way the installation has been found.
-/

namespace Kerghan.Integrations

variable {cfg : IntegrationsConfig}

def ChecksUsable : GithubAppInstallationService.InstallationCheck → Prop
  | .ok installation => Usable installation
  | _ => True

namespace GithubAppInstallationService

theorem classifyFailure_fits (answer : GithubRateLimitFields) : Fits ChecksUsable (classifyFailure answer) := by
  unfold classifyFailure
  split
  . exact fits_pure trivial
  . split
    . apply fits_perform
      intro now
      exact fits_pure trivial
    . exact fits_pure trivial

theorem classifyMint_fits (minted : GithubRateLimitFields) {looked : InstallationCheck}
    (hlooked : ChecksUsable looked)
    : Fits ChecksUsable (classifyMint minted looked) := by
  unfold classifyMint
  split
  . exact fits_pure hlooked
  . split
    . exact fits_pure trivial
    . exact classifyFailure_fits _

theorem classifyLookup_fits {lookup : GithubAppInstallationResponse} (appId : Int)
    (hlookup : ∀ installation, lookup.installation = some installation →
      isWellFormed installation.toGithubUserInstallation = true)
    : Fits ChecksUsable (classifyLookup lookup appId) := by
  unfold classifyLookup
  split
  . exact classifyFailure_fits _
  . split
    . exact fits_pure trivial
    . next installation hinstallation =>
      split
      . exact fits_pure trivial
      . split
        . exact fits_pure trivial
        . split
          . next hpermitted => exact fits_pure ⟨hlookup installation hinstallation, hpermitted⟩
          . exact fits_pure trivial

def AnswersWellFormed : Except ClientError GithubAppInstallationResponse → Prop
  | .ok lookup => ∀ installation, lookup.installation = some installation →
    isWellFormed installation.toGithubUserInstallation = true
  | .error _ => True

theorem getAppInstallation_fits (installationId : Int)
    : Fits AnswersWellFormed (getAppInstallation installationId) := by
  unfold getAppInstallation
  apply fits_perform
  intro answer
  cases answer with
  | error reason => exact fits_pure trivial
  | ok answer =>
    apply fits_pure
    intro installation hinstallation
    simp only [Option.filter_eq_some_iff] at hinstallation
    exact hinstallation.2

theorem check_fits (app : EnabledGithubAppConfig) (installationId : Int)
    : Fits ChecksUsable (check app installationId) := by
  apply (getAppInstallation_fits installationId).bind
  intro answer hanswer
  cases answer with
  | error e =>
    cases e with
    | githubClientError reason => exact fits_pure trivial
    | unexpected => exact fits_unexpected
  | ok lookup =>
    apply (classifyLookup_fits app.appId hanswer).bind
    intro looked hlooked
    cases looked with
    | ok installation =>
      apply fits_perform
      intro minted
      cases minted with
      | error e =>
        cases e with
        | githubClientError reason => exact fits_pure trivial
        | unexpected => exact fits_unexpected
      | ok minted => exact classifyMint_fits minted hlooked
    | _ => exact fits_pure hlooked

theorem verify_fits (app : EnabledGithubAppConfig) (installationId : Int)
    : Fits Usable (verify app installationId) := by
  apply (check_fits app installationId).bind
  intro check hcheck
  cases check with
  | ok installation => exact fits_pure hcheck
  | _ => exact fits_credential _

/--
A probe yields an outcome to record or an installation that can be described.
-/
def ProbesUsable : Except TestOutcome GithubAppInstallation → Prop
  | .ok installation => Usable installation
  | .error outcome => RecordsDescribed .githubApp outcome

theorem probe_fits (app : EnabledGithubAppConfig) (installationId : Int)
    : Fits ProbesUsable (probe app installationId) := by
  apply (check_fits app installationId).bind
  intro check hcheck
  cases check with
  | ok installation => exact fits_pure hcheck
  | _ => exact fits_pure trivial

end GithubAppInstallationService

namespace GithubAppStrategy

theorem validateInstallation_fits (app : EnabledGithubAppConfig) (installationId : Int) {verifiedBy : String}
    (hverifiedBy : isGithubLogin (some verifiedBy) = true)
    : Fits (fun validated => Described .githubApp validated.metadata)
        (validateInstallation app installationId verifiedBy) := by
  apply (GithubAppInstallationService.verify_fits app installationId).bind
  intro installation husable
  have ⟨metadata, hbuild, hdescribed⟩ := describe_githubApp husable hverifiedBy
  rw [hbuild]
  exact fits_pure hdescribed

theorem verifiedBy_test {installation : GithubAppInstallation} (husable : Usable installation)
    (verifiedBy : Option String)
    : isGithubLogin (some (if isGithubLogin verifiedBy then verifiedBy.getD "" else installation.accountLogin)) =
        true := by
  split
  . next hlogin =>
    cases verifiedBy with
    | none => cases hlogin
    | some login => exact hlogin
  . have hwellFormed := husable.wellFormed
    simp only [isWellFormed, Bool.and_eq_true] at hwellFormed
    exact hwellFormed.2

theorem test_fits (installationId : Int) (current : Integration)
    : Fits (RecordsDescribed .githubApp) (test cfg installationId current) := by
  unfold test
  split
  . exact fits_pure trivial
  . next app happ =>
    apply (GithubAppInstallationService.probe_fits app installationId).bind
    intro probed hprobed
    cases probed with
    | error outcome => exact fits_pure hprobed
    | ok installation =>
      have husable : Usable installation := hprobed
      have ⟨metadata, hbuild, hdescribed⟩ :=
        describe_githubApp husable (verifiedBy_test husable (verifiedByOf current.metadata))
      dsimp only
      rw [hbuild]
      exact fits_pure hdescribed

end GithubAppStrategy

namespace GithubAppUserVerificationService

theorem revoke_fits (app : EnabledGithubAppConfig) (token : String)
    : Fits (fun _ => True) (GithubAppRevocationService.revoke app token) := by
  apply fits_perform
  intro answer
  exact fits_pure trivial

theorem exchange_fits (app : EnabledGithubAppConfig) (code : String)
    : Fits (fun _ => True) (exchange app code) := by
  apply (exchangeOauthCode_fits _).bind
  intro answer _
  split
  . split
    . exact fits_pure trivial
    . apply (revoke_fits app _).bind
      intro _ _
      exact exchangeFails_fits answer
  . exact exchangeFails_fits answer

theorem loginOf_fits (token : String)
    : Fits (fun login => isGithubLogin (some login) = true) (loginOf token) := by
  apply (fetchGithubUser_fits token).bind
  intro answer _
  cases answer with
  | ok login response =>
    dsimp only
    split
    . next hlogin => exact fits_pure hlogin
    . exact fits_credential _
  | _ => exact fits_credential _

theorem pageErrorFor_fits (page : GithubInstallationsPage) : Fits NotMetadata (pageErrorFor page) := by
  unfold pageErrorFor
  split
  . exact fits_pure trivial
  . split
    . apply fits_perform
      intro now
      exact fits_pure trivial
    . exact fits_pure trivial

theorem fetchPage_fits (token : String) (pageUrl : Option String)
    : Fits (fun _ => True) (fetchPage token pageUrl) := by
  unfold fetchPage
  apply fits_perform
  intro answer
  cases answer with
  | error e =>
    cases e with
    | githubClientError reason => exact fits_credential _
    | unexpected => exact fits_unexpected
  | ok page =>
    dsimp only
    split
    . exact fits_pure trivial
    . apply (pageErrorFor_fits page).bind
      intro e he
      exact fits_throw he

theorem installationsFrom_fits (token : String) (appId : Int) (found : List GithubUserInstallation)
    (pages : Nat) (pageUrl : Option String)
    : Fits (fun _ => True) (installationsFrom token appId found pages pageUrl) := by
  induction pages generalizing found pageUrl with
  | zero => exact fits_pure trivial
  | succ pages ih =>
    apply (fetchPage_fits token pageUrl).bind
    intro page _
    dsimp only
    split
    . exact fits_pure trivial
    . exact ih _ _

def MayEnd {T : Type} (P : T → Prop) : Except Thrown T → Prop
  | .ok value => P value
  | .error e => NotMetadata e

theorem outcome_fits {T : Type} {P : T → Prop} {run : Api T} (hrun : Fits P run)
    : Fits (MayEnd P) (IntegrationCredentialService.outcome run) := by
  have hok : Fits (MayEnd P) (Except.ok <$> run) := by
    rw [Prog.map_eq]
    apply hrun.bind
    intro value hvalue
    exact fits_pure hvalue
  apply hok.tryCatch
  intro e he
  exact fits_pure he

theorem verify_fits (app : EnabledGithubAppConfig) (code : String)
    : Fits (fun user => isGithubLogin (some user.login) = true) (verify app code) := by
  apply (exchange_fits app code).bind
  intro token _
  have hrun : Fits (fun user : VerifiedGithubUser => isGithubLogin (some user.login) = true) (do
      let login ← loginOf token
      let installations ← installationsOf token app.appId
      pure { login, installations : VerifiedGithubUser }) := by
    apply (loginOf_fits token).bind
    intro login hlogin
    apply (installationsFrom_fits token app.appId [] _ none).bind
    intro installations _
    exact fits_pure hlogin
  apply (outcome_fits hrun).bind
  intro verified hverified
  apply (revoke_fits app token).bind
  intro _ _
  cases verified with
  | ok user => exact fits_pure hverified
  | error e => exact fits_throw hverified

end GithubAppUserVerificationService

namespace GithubAppFlowService

theorem pickInstallation_fits (installations : List GithubUserInstallation) (claimed : Option Int)
    : Fits (fun _ => True) (Prog.ofExcept (pickInstallation installations claimed)) := by
  apply fits_ofExcept
  . exact fun _ _ => trivial
  . intro e he
    unfold pickInstallation at he
    split at he
    . split at he
      . cases he
      . cases he
        trivial
    . split at he
      . cases he
        trivial
      . cases he
      . cases he

def VerifiesDescribed : Verified → Prop
  | .validated validated => Described .githubApp validated.metadata
  | .several _ => True

theorem verify_fits (app : EnabledGithubAppConfig) (input : GithubAppCallbackInput)
    : Fits VerifiesDescribed (verify app input) := by
  apply (GithubAppUserVerificationService.verify_fits app input.code).bind
  intro user hlogin
  apply (pickInstallation_fits user.installations input.installationId).bind
  intro picked _
  cases picked with
  | none => exact fits_pure trivial
  | some picked =>
    apply (GithubAppStrategy.validateInstallation_fits app picked hlogin).bind
    intro validated hdescribed
    exact fits_pure hdescribed

end GithubAppFlowService

theorem verifiedBy_toConsumed {row : IntegrationGithubAppState} {consumed : ConsumedGithubAppState}
    (hstage : row.stage = .select) (hconsumed : GithubAppStateService.toConsumed row = some consumed)
    : isGithubLogin (some (consumed.verifiedBy.getD "")) = true := by
  unfold GithubAppStateService.toConsumed at hconsumed
  rw [hstage] at hconsumed
  split at hconsumed
  . cases hconsumed
  . dsimp only at hconsumed
    split at hconsumed
    . next hchecked =>
      cases hconsumed
      rw [Bool.and_eq_true] at hchecked
      cases hverified : row.verifiedBy with
      | none =>
        rw [hverified] at hchecked
        cases hchecked.2
      | some login =>
        rw [hverified] at hchecked
        exact hchecked.2
    . cases hconsumed

theorem GithubAppSelectionService.validateCandidate_fits (app : EnabledGithubAppConfig)
    {row : IntegrationGithubAppState} {consumed : ConsumedGithubAppState} (hstage : row.stage = .select)
    (hconsumed : GithubAppStateService.toConsumed row = some consumed) (installationId : Int)
    : Fits (fun validated => Described .githubApp validated.metadata)
        (GithubAppSelectionService.validateCandidate app consumed installationId) := by
  unfold GithubAppSelectionService.validateCandidate
  split
  . exact GithubAppStrategy.validateInstallation_fits app installationId (verifiedBy_toConsumed hstage hconsumed)
  . exact fits_credential _

end Kerghan.Integrations
