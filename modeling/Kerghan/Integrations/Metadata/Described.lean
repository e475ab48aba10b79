import Kerghan.Integrations.Metadata.Installations

/-!
This module contains the proof that the metadata that is built for a credential is accepted by the type that
describes it, whatever GitHub answers.
-/

namespace Kerghan.Integrations

section Recorded

variable {cfg : IntegrationsConfig}

theorem sealCredential_fits [Crypto] {keys : IntegrationsKey} {type : IntegrationType} {validated : ValidatedCredential}
    (hdescribed : Described type validated.metadata) (uuid : String)
    : Fits (fun credential => credential.metadata = validated.metadata)
        (IntegrationCredentialService.sealCredential keys type validated uuid) := by
  intro iv
  rw [Described] at hdescribed
  have hrest (encrypted : EncryptedSecret)
      : Fits (fun credential : SealedCredential => credential.metadata = validated.metadata) (do
      let metadata ← Prog.ofExcept (describeMetadata type validated.metadata)
      pure {
        githubLogin := validated.githubLogin
        expiresAt := validated.expiresAt
        metadata
        secretHint := some (mask validated.secret)
        secret := encrypted
      } : Api SealedCredential) := by
    rw [hdescribed]
    exact fits_pure rfl
  exact hrest _

theorem updateOwned_fits (row : Integration) (changes : (Date → Date) → Integration → Integration)
    : Fits (fun _ => True) (IntegrationStoreService.updateOwned row changes) := by
  have hquery : Fits (fun _ => True) (Api.query (updateIntegration row.id row.userId (changes toDatetime))) := by
    unfold Api.query
    apply fits_perform
    intro answer
    cases answer with
    | ok affected => exact fits_pure trivial
    | error e => exact fits_throw trivial
  have hguarded : Fits (fun _ => True)
      (IntegrationStoreService.guardLabelRace
        (Api.query (updateIntegration row.id row.userId (changes toDatetime)))) := by
    apply hquery.tryCatch
    intro e he
    split
    . exact fits_throw trivial
    . exact fits_throw he
  apply hguarded.bind
  intro _ _
  exact fits_pure trivial

theorem record_fits {row : Integration} {outcome : TestOutcome} (hdescribed : RecordsDescribed row.type outcome)
    (now : Date)
    : Fits (fun _ => True) (IntegrationConnectionTestService.record row outcome now) := by
  unfold IntegrationConnectionTestService.record
  cases outcome with
  | active githubLogin expiresAt metadata =>
    have hmetadata : describeMetadata row.type metadata = .ok metadata := hdescribed
    dsimp only
    rw [hmetadata]
    exact updateOwned_fits row fun keep =>
      IntegrationConnectionTestService.activeColumns githubLogin expiresAt metadata (keep now)
  | invalid reason => exact updateOwned_fits _ _
  | expired => exact updateOwned_fits _ _
  | transient error retryAfterSeconds =>
    apply (updateOwned_fits _ _).bind
    intro _ _
    cases error with
    | rateLimited => exact fits_throw trivial
    | unavailable => exact fits_throw trivial

theorem testSecret_fits [Platform] {secret : Payload} {row : Integration} {payload : Json}
    (hsecret : parseSecretPayload row.type payload = some secret) (hrow : Described row.type row.metadata)
    : Fits (RecordsDescribed row.type) (testSecret cfg secret row) := by
  cases htype : row.type with
  | pat =>
    rw [htype] at hsecret
    simp only [parseSecretPayload, parsePatPayload] at hsecret
    split at hsecret
    . cases hsecret
      exact PatStrategy.test_fits _ row
    . cases hsecret
  | oauthApp =>
    rw [htype] at hsecret hrow
    simp only [parseSecretPayload, parseOauthAppPayload] at hsecret
    have ⟨metadata, hmetadata, hclientId⟩ : ∃ metadata, row.metadata = .oauthApp metadata ∧
        OAUTH_APP_CLIENT_ID_PATTERN metadata.clientId = true := by
      simp only [Described, describeMetadata, describeOauthAppMetadata] at hrow
      split at hrow
      . next metadata hmetadata =>
        split at hrow
        . next hvalid =>
          rw [Bool.and_eq_true] at hvalid
          exact ⟨metadata, hmetadata, hvalid.2⟩
        . cases hrow
      . cases hrow
    split at hsecret
    . split at hsecret
      . cases hsecret
        exact OauthAppStrategy.test_fits _ hmetadata hclientId
      . cases hsecret
    . cases hsecret
  | githubApp =>
    rw [htype] at hsecret
    simp only [parseSecretPayload, parseGithubAppPayload] at hsecret
    split at hsecret
    . split at hsecret
      . cases hsecret
        exact GithubAppStrategy.test_fits _ row
      . cases hsecret
    . cases hsecret

end Recorded

section Parsed

def GithubAppInstallation.raw (installation : GithubAppInstallation) : Json :=
  .object [
    ("id", .number installation.installationId),
    ("app_id", .number installation.appId),
    ("account", .object [
      ("login", .string installation.accountLogin),
      ("type", .string (match installation.accountType with | .user => "User" | .organization => "Organization"))]),
    ("repository_selection", .string (match installation.repositorySelection with
      | .all => "all"
      | .selected => "selected")),
    ("permissions", .object [
      ("issues", (installation.permissions.issues.map Json.string).getD .null),
      ("metadata", (installation.permissions.metadata.map Json.string).getD .null)]),
    ("suspended_at", if installation.suspended then .string "" else .null)]

theorem parse_raw {installation : GithubAppInstallation}
    (hwellFormed : isWellFormed installation.toGithubUserInstallation = true)
    : parseAppInstallation installation.raw = some installation := by
  have ⟨⟨installationId, appId, accountLogin, accountType⟩, repositorySelection, ⟨issues, metadata⟩, suspended⟩ :=
    installation
  have hbase : parseInstallation
      (GithubAppInstallation.raw ⟨⟨installationId, appId, accountLogin, accountType⟩, repositorySelection,
        ⟨issues, metadata⟩, suspended⟩) = some ⟨installationId, appId, accountLogin, accountType⟩ := by
    cases accountType with
    | user => exact if_pos hwellFormed
    | organization => exact if_pos hwellFormed
  have hissues : ∀ level : Option String, stringOrNull ((level.map Json.string).getD .null) = level := by
    intro level
    cases level with
    | none => rfl
    | some level => rfl
  have hselection : parseRepositorySelection ((GithubAppInstallation.raw ⟨⟨installationId, appId, accountLogin,
      accountType⟩, repositorySelection, ⟨issues, metadata⟩, suspended⟩).field "repository_selection") =
        some repositorySelection := by
    cases repositorySelection with
    | all => rfl
    | selected => rfl
  have hsuspended : parseSuspended ((GithubAppInstallation.raw ⟨⟨installationId, appId, accountLogin,
      accountType⟩, repositorySelection, ⟨issues, metadata⟩, suspended⟩).field "suspended_at") = some suspended := by
    cases suspended with
    | false => rfl
    | true => rfl
  have hpermissions : (GithubAppInstallation.raw ⟨⟨installationId, appId, accountLogin, accountType⟩,
      repositorySelection, ⟨issues, metadata⟩, suspended⟩).field "permissions" = .object [
        ("issues", (issues.map Json.string).getD .null), ("metadata", (metadata.map Json.string).getD .null)] := rfl
  unfold parseAppInstallation
  rw [hbase, hselection, hsuspended, hpermissions]
  dsimp only
  have hfields (first second : Json)
      : (Json.object [("issues", first), ("metadata", second)]).field "issues" = first ∧
          (Json.object [("issues", first), ("metadata", second)]).field "metadata" = second := ⟨rfl, rfl⟩
  rw [(hfields _ _).1, (hfields _ _).2, hissues, hissues]

/--
The client answers an installation of some body if and only if it is well formed.
-/
theorem isWellFormed_iff {installation : GithubAppInstallation}
    : isWellFormed installation.toGithubUserInstallation = true ↔
        ∃ raw, parseAppInstallation raw = some installation := by
  constructor
  . intro hwellFormed
    exact ⟨installation.raw, parse_raw hwellFormed⟩
  . intro ⟨raw, hraw⟩
    exact isWellFormed_of_parseApp hraw

end Parsed

/--
For all types: what has been validated or tested can be sealed and recorded, whatever GitHub answers.
-/
structure MetadataFits [Platform] [Crypto] (cfg : IntegrationsConfig) : Prop where
  parsed : ∀ installation : GithubAppInstallation, isWellFormed installation.toGithubUserInstallation = true ↔
    ∃ raw, parseAppInstallation raw = some installation
  pat : ∀ token, Fits (fun validated => Described .pat validated.metadata) (PatStrategy.validate token)
  oauthApp : ∀ code codeVerifier,
    Fits (fun validated => Described .oauthApp validated.metadata) (OauthAppStrategy.validate cfg code codeVerifier)
  picked : ∀ app input,
    Fits GithubAppFlowService.VerifiesDescribed (GithubAppFlowService.verify app input)
  selected : ∀ app row consumed installationId, row.stage = .select →
    GithubAppStateService.toConsumed row = some consumed →
    Fits (fun validated => Described .githubApp validated.metadata)
      (GithubAppSelectionService.validateCandidate app consumed installationId)
  tested : ∀ secret row payload, parseSecretPayload row.type payload = some secret →
    Described row.type row.metadata → Fits (RecordsDescribed row.type) (testSecret cfg secret row)
  sealed : ∀ type validated uuid, Described type validated.metadata →
    Fits (fun credential => credential.metadata = validated.metadata)
      (IntegrationCredentialService.sealCredential cfg.keys type validated uuid)
  recorded : ∀ row outcome now, RecordsDescribed row.type outcome →
    Fits (fun _ => True) (IntegrationConnectionTestService.record row outcome now)

/--
In every configuration that boots.
-/
theorem metadataFits [Platform] [Crypto] {cfg : IntegrationsConfig} {parseUrl : String → Option Url}
    {get : String → Option String} (hboots : buildOauthAppConfig parseUrl get = .ok cfg.oauthApp)
    : MetadataFits cfg := by
  have hchecked : ClientIdChecked cfg := by
    intro app happ
    rw [happ] at hboots
    exact clientId_of_buildOauthAppConfig parseUrl hboots
  exact {
    parsed := fun _ => isWellFormed_iff
    pat := PatStrategy.validate_fits
    oauthApp := OauthAppStrategy.validate_fits hchecked
    picked := GithubAppFlowService.verify_fits
    selected := fun app row consumed installationId hstage hconsumed =>
      GithubAppSelectionService.validateCandidate_fits app hstage hconsumed installationId
    tested := fun secret row payload hsecret hrow => testSecret_fits hsecret hrow
    sealed := fun type validated uuid hdescribed => sealCredential_fits hdescribed uuid
    recorded := fun row outcome now hdescribed => record_fits hdescribed now
  }

section Examples

attribute [local instance] Kerghan.Sample.platform Sample.crypto

def oauthAppEnv (key : String) : Option String :=
  if key == OAUTH_APP_CLIENT_ID_VAR then
    some "client"
  else if key == OAUTH_APP_CLIENT_SECRET_VAR then
    some "secret"
  else
    none

theorem metadataFits_oauthAppEnv
    : MetadataFits { Sample.config with
        oauthApp := some ⟨"client", "https://kerghan.example/integrations/oauth_app/callback"⟩ } :=
  @metadataFits _ _ { Sample.config with
    oauthApp := some ⟨"client", "https://kerghan.example/integrations/oauth_app/callback"⟩ }
      (fun _ => some ⟨"https:", "kerghan.example", "https://kerghan.example"⟩) oauthAppEnv (by decide +kernel)

end Examples

end Kerghan.Integrations
