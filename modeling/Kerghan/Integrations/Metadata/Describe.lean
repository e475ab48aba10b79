import Kerghan.Integrations.Impl.Flows
import Kerghan.Integrations.Metadata.Scopes

/-!
This module contains when the metadata of a credential is accepted by its type, and the proof that pats and OAuth
Apps only build metadata of this kind.
-/

namespace Kerghan.Integrations

def Described (type : IntegrationType) (metadata : TypeMetadata) : Prop :=
  describeMetadata type metadata = .ok metadata

/--
No `InvalidMetadataError`.
-/
def NotMetadata : Thrown → Prop
  | .invalidMetadata _ => False
  | _ => True

section Builders

theorem isScopeList_parseScopes (header : Option String) : isScopeList (parseScopes header) = true := by
  have hscope : ∀ scope ∈ parseScopes header, scope ≠ "" ∧ utf16Length scope ≤ MAX_SCOPE_LENGTH := by
    intro scope hscope
    have hkeepable := (List.mem_insertionSort _).mp (List.mem_of_mem_take hscope)
    exact (mem_keepableScopes.mp hkeepable).2
  have hlength : (parseScopes header).length ≤ MAX_SCOPES := by
    rw [parseScopes_eq, List.length_take]
    exact Nat.min_le_left _ _
  simpa [isScopeList, hlength] using hscope

theorem describe_pat (tokenKind : PatTokenKind) (header : Option String)
    : Described .pat (.pat (buildPatMetadata tokenKind header)) := by
  have hconsistent : (buildPatMetadata tokenKind header).isConsistent = true := by
    cases tokenKind with
    | classic => simp [buildPatMetadata, PatMetadata.isConsistent, isScopeList_parseScopes]
    | fineGrained => rfl
  simp [Described, describeMetadata, describePatMetadata, hconsistent]

theorem normalize_parseScopes (header : Option String)
    : (parseScopes header).eraseDups.insertionSort (fun a b => utf16 a ≤ utf16 b) = parseScopes header := by
  have hnodup : (parseScopes header).Nodup := by
    have hperm := List.perm_insertionSort (fun a b => utf16 a ≤ utf16 b) (keepableScopes header)
    exact (hperm.nodup_iff.mpr (Sorted.nodup_eraseDups _)).sublist (List.take_sublist _ _)
  rw [Sorted.eraseDups_of_nodup hnodup]
  exact Sorted.insertionSort_of_take _ _ _

theorem describe_oauthApp (header : Option String) {clientId : String}
    (hclientId : OAUTH_APP_CLIENT_ID_PATTERN clientId = true)
    : Described .oauthApp (.oauthApp (buildOauthAppMetadata header clientId)) := by
  simp [Described, describeMetadata, describeOauthAppMetadata, buildOauthAppMetadata, isScopeList_parseScopes,
    hclientId, normalize_parseScopes]

/--
An installation that the client has not dropped, and that grants what is required.
-/
structure Usable (installation : GithubAppInstallation) : Prop where
  wellFormed : isWellFormed installation.toGithubUserInstallation = true
  permitted : hasRequiredPermissions installation.permissions = true

theorem describe_githubApp {installation : GithubAppInstallation} {verifiedBy : String}
    (husable : Usable installation) (hverifiedBy : isGithubLogin (some verifiedBy) = true)
    : ∃ metadata, buildGithubAppMetadata installation verifiedBy = .ok metadata ∧ Described .githubApp metadata := by
  have hwellFormed := husable.wellFormed
  simp only [isWellFormed, Bool.and_eq_true] at hwellFormed
  have ⟨⟨hid, happId⟩, hlogin⟩ := hwellFormed
  have hlogin' : isGithubLogin (some installation.accountLogin) = true := hlogin
  have hbuild : buildGithubAppMetadata installation verifiedBy = .ok (.githubApp {
      installationId := installation.installationId
      appId := installation.appId
      accountLogin := installation.accountLogin
      accountType := installation.accountType
      repositorySelection := installation.repositorySelection
      permissions := installation.permissions
      verifiedBy }) := by
    simp [buildGithubAppMetadata, describeGithubAppMetadata, hid, happId, hlogin', hverifiedBy, husable.permitted]
  exact ⟨_, hbuild, hbuild⟩

end Builders

section Fits

variable {T U : Type} {P Q : T → Prop}

/--
Whatever GitHub answers: the call does not fail with an `InvalidMetadataError`, and its result satisfies `P`.
-/
def Fits (P : T → Prop) (prog : Api T) : Prop :=
  prog.Ends NotMetadata P

theorem fits_pure {value : T} (h : P value) : Fits P (pure value) := h

theorem fits_throw {e : Thrown} (h : NotMetadata e) : Fits P (throw e) := h

theorem fits_credential (e : IntegrationCredentialError) : Fits P (throw (.credential e)) :=
  fits_throw trivial

theorem fits_unexpected : Fits P (throw .unexpected) :=
  fits_throw trivial

theorem fits_perform {s : Effect} {f : Answer s → Api T} (h : ∀ answer, Fits P (f answer))
    : Fits P (Prog.perform s >>= f) :=
  h

theorem Fits.mono {prog : Api T} (hprog : Fits P prog) (h : ∀ value, P value → Q value) : Fits Q prog :=
  Prog.Ends.mono hprog h

theorem Fits.bind {P' : U → Prop} {prog : Api T} {f : T → Api U} (hprog : Fits P prog)
    (hf : ∀ value, P value → Fits P' (f value))
    : Fits P' (prog >>= f) :=
  Prog.Ends.bind hprog hf

theorem Fits.tryCatch {prog : Api T} {handler : Thrown → Api T} (hprog : Fits P prog)
    (hhandler : ∀ e, NotMetadata e → Fits P (handler e))
    : Fits P (tryCatch prog handler) :=
  Prog.Ends.tryCatch hprog hhandler

theorem fits_ofExcept {result : Except Thrown T} (hok : ∀ value, result = .ok value → P value)
    (herror : ∀ e, result = .error e → NotMetadata e)
    : Fits P (Prog.ofExcept result) :=
  Prog.Ends.ofExcept hok herror

end Fits

section Strategies

variable {cfg : IntegrationsConfig}

def RecordsDescribed (type : IntegrationType) : TestOutcome → Prop
  | .active _ _ metadata => Described type metadata
  | _ => True

theorem fetchGithubUser_fits (token : String) : Fits (fun _ => True) (fetchGithubUser token) := by
  unfold fetchGithubUser
  apply fits_perform
  intro now
  apply fits_perform
  intro answer
  cases answer with
  | ok response => exact fits_pure trivial
  | error e =>
    cases e with
    | githubClientError reason => exact fits_pure trivial
    | unexpected => exact fits_unexpected

section PatStrategy

variable [Platform]

theorem PatStrategy.validate_fits (token : String)
    : Fits (fun validated => Described .pat validated.metadata) (PatStrategy.validate token) := by
  apply (fetchGithubUser_fits token).bind
  intro answer _
  cases answer with
  | ok login response =>
    dsimp only
    split
    . exact fits_pure (describe_pat _ _)
    . exact fits_credential _
  | _ => exact fits_credential _

theorem PatStrategy.activeOutcome_described (token login : String) (response : GithubUserResponse)
    : RecordsDescribed .pat (PatStrategy.activeOutcome token login response) := by
  dsimp only [PatStrategy.activeOutcome]
  split
  . exact describe_pat _ _
  . trivial

theorem PatStrategy.test_fits (token : String) (current : Integration)
    : Fits (RecordsDescribed .pat) (PatStrategy.test token current) := by
  apply (fetchGithubUser_fits token).bind
  intro answer _
  cases answer with
  | ok login response => exact fits_pure (PatStrategy.activeOutcome_described token login response)
  | unauthorized =>
    have hpast : Fits (fun _ => True) (PatStrategy.isPast current.expiresAt) := by
      unfold PatStrategy.isPast
      split
      . exact fits_pure trivial
      . apply fits_perform
        intro now
        exact fits_pure trivial
    apply hpast.bind
    intro past _
    split
    . exact fits_pure trivial
    . exact fits_pure trivial
  | rateLimited retryAfterSeconds => exact fits_pure trivial
  | unavailable => exact fits_pure trivial

end PatStrategy

theorem exchangeErrorFor_fits (answer : OauthCodeExchangeResponse) : Fits NotMetadata (exchangeErrorFor answer) := by
  unfold exchangeErrorFor
  split
  . apply fits_perform
    intro now
    exact fits_pure trivial
  . split
    . exact fits_pure trivial
    . split
      . exact fits_pure trivial
      . exact fits_pure trivial

theorem OauthAppRevocationService.revoke_fits (token : String) (clientId : Option String)
    : Fits (fun _ => True) (OauthAppRevocationService.revoke cfg token clientId) := by
  unfold OauthAppRevocationService.revoke
  split
  . exact fits_pure trivial
  . split
    . exact fits_pure trivial
    . apply fits_perform
      intro answer
      exact fits_pure trivial

theorem exchangeOauthCode_fits (request : OauthCodeExchangeRequest)
    : Fits (fun _ => True) (exchangeOauthCode request) := by
  unfold exchangeOauthCode
  apply fits_perform
  intro answer
  cases answer with
  | ok answer => exact fits_pure trivial
  | error e =>
    cases e with
    | githubClientError reason => exact fits_credential _
    | unexpected => exact fits_unexpected

theorem exchangeFails_fits {T : Type} {P : T → Prop} (answer : OauthCodeExchangeResponse)
    : Fits P (exchangeErrorFor answer >>= fun e => (throw e : Api T)) :=
  (exchangeErrorFor_fits answer).bind fun _ he => fits_throw he

theorem OauthAppCodeExchangeService.exchange_fits (app : EnabledOauthAppConfig) (code codeVerifier : String)
    : Fits (fun _ => True) (OauthAppCodeExchangeService.exchange cfg app code codeVerifier) := by
  apply (exchangeOauthCode_fits _).bind
  intro answer _
  split
  . split
    . exact fits_pure trivial
    . apply (OauthAppRevocationService.revoke_fits _ _).bind
      intro _ _
      exact exchangeFails_fits answer
  . exact exchangeFails_fits answer

theorem OauthAppStrategy.identify_fits (token : String) {clientId : String}
    (hclientId : OAUTH_APP_CLIENT_ID_PATTERN clientId = true)
    : Fits (fun validated => Described .oauthApp validated.metadata) (OauthAppStrategy.identify token clientId) := by
  apply (fetchGithubUser_fits token).bind
  intro answer _
  cases answer with
  | ok login response =>
    dsimp only
    split
    . exact fits_pure (describe_oauthApp _ hclientId)
    . exact fits_credential _
  | _ => exact fits_credential _

def ClientIdChecked (cfg : IntegrationsConfig) : Prop :=
  ∀ app, cfg.oauthApp = some app → OAUTH_APP_CLIENT_ID_PATTERN app.clientId = true

theorem OauthAppStrategy.validate_fits (hchecked : ClientIdChecked cfg) (code codeVerifier : String)
    : Fits (fun validated => Described .oauthApp validated.metadata)
        (OauthAppStrategy.validate cfg code codeVerifier) := by
  unfold OauthAppStrategy.validate
  split
  . exact fits_credential _
  . next app happ =>
    apply (OauthAppCodeExchangeService.exchange_fits app code codeVerifier).bind
    intro token _
    apply (OauthAppStrategy.identify_fits token (hchecked app happ)).tryCatch
    intro e he
    apply (OauthAppRevocationService.revoke_fits _ _).bind
    intro _ _
    exact fits_throw he

theorem OauthAppStrategy.activeOutcome_described {metadata : OauthAppMetadata} (login : String)
    (response : GithubUserResponse) (hclientId : OAUTH_APP_CLIENT_ID_PATTERN metadata.clientId = true)
    : RecordsDescribed .oauthApp
        (OauthAppStrategy.activeOutcome cfg login response (clientIdOf (.oauthApp metadata))) := by
  dsimp only [OauthAppStrategy.activeOutcome, clientIdOf, Option.getD_some]
  split
  . exact describe_oauthApp _ hclientId
  . trivial

theorem OauthAppStrategy.test_fits (token : String) {current : Integration} {metadata : OauthAppMetadata}
    (hmetadata : current.metadata = .oauthApp metadata)
    (hclientId : OAUTH_APP_CLIENT_ID_PATTERN metadata.clientId = true)
    : Fits (RecordsDescribed .oauthApp) (OauthAppStrategy.test cfg token current) := by
  apply (fetchGithubUser_fits token).bind
  intro answer _
  cases answer with
  | ok login response =>
    dsimp only
    rw [hmetadata]
    exact fits_pure (OauthAppStrategy.activeOutcome_described login response hclientId)
  | _ => exact fits_pure trivial

end Strategies

end Kerghan.Integrations
