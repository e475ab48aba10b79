import Kerghan.Integrations.Call
import Kerghan.Integrations.FlowStates.Contract

/-!
This module contains the contract of the calls to the Integrations module: what a call writes to the
integrations and to the states of the GitHub App flow, and what it has seen before it does so.
-/

namespace Kerghan.Integrations

open IntegrationStoreService IntegrationCredentialService

/--
Effects that have nothing to do with the integrations, with who may add one, and with the states of the GitHub
App flow.
-/
def Effect.isElsewhere : Effect → Bool
  | .db s => s.table == .credentialLockouts || s.table == .oauthStates
  | .lockOwner _ | .unlockOwner _ => false
  | _ => true

/--
Effects that leave the integrations and the states of the GitHub App flow alone.
-/
def Effect.isQuiet : Effect → Bool
  | .db s => s.isRead || (Effect.db s).isElsewhere
  | _ => true

def lastLoaded : IntegrationsHistory → Option Integration
  | [] => none
  | ⟨.db (.find .integrations _ _), .ok (some row)⟩ :: _ => some row
  | _ :: h => lastLoaded h

def Exchanged (h : IntegrationsHistory) (request : OauthCodeExchangeRequest) (token : String) : Prop :=
  ∃ answer : OauthCodeExchangeResponse,
    ⟨.exchangeOauthCode request, .ok answer⟩ ∈ h ∧ answer.accessToken = some token ∧ token ≠ ""

def Identified (h : IntegrationsHistory) (token login : String) (response : GithubUserResponse) : Prop :=
  ⟨.getUser token, .ok response⟩ ∈ h ∧ response.status = 200 ∧ usableLogin response.login = some login

/--
GitHub has listed the installation for the user of the token.
-/
def Listed (h : IntegrationsHistory) (token : String) (installation : GithubUserInstallation) : Prop :=
  ∃ pageUrl, ∃ page : GithubInstallationsPage, ∃ installations,
    ⟨.listUserInstallations token pageUrl, .ok page⟩ ∈ h
      ∧
    page.status = 200
      ∧
    page.installations = some installations
      ∧
    installation ∈ installations

/--
GitHub has confirmed the installation to the app: it is the app's, it is not suspended, it grants what is
required, and a token has been minted for it.
-/
structure Confirmed (h : IntegrationsHistory) (app : EnabledGithubAppConfig) (installationId : Int)
    (installation : GithubAppInstallation) : Prop where
  lookedUp : ∃ answer : GithubAppInstallationResponse,
    ⟨.getAppInstallation installationId, .ok answer⟩ ∈ h
      ∧
    answer.status = 200
      ∧
    answer.installation = some installation
  wellFormed : isWellFormed installation.toGithubUserInstallation = true
  appId : installation.appId = app.appId
  active : installation.suspended = false
  permitted : hasRequiredPermissions installation.permissions = true
  minted : ∃ answer : GithubRateLimitFields,
    ⟨.createInstallationToken installationId, .ok answer⟩ ∈ h ∧ answer.status = 201

/--
The user of the code, and the installations of the app that GitHub has listed for them.
-/
structure Verified (h : IntegrationsHistory) (app : EnabledGithubAppConfig) (code : String)
    (user : VerifiedGithubUser) : Prop where
  listed : ∃ token,
    Exchanged h
        { clientId := app.clientId, code, codeVerifier := none, redirectUri := app.callbackUrl } token
      ∧
    ∀ installation ∈ user.installations, Listed h token installation ∧ installation.appId = app.appId

/--
What a user has presented is the state `row`.
-/
structure Presented (h : IntegrationsHistory) (userId : Nat) (row : IntegrationGithubAppState) : Prop where
  found : ∃ p rank, ran (.find .githubAppStates p rank) (some row) ∈ h
  user : row.userId = userId

section Monotone

variable {h h' : IntegrationsHistory} (hsub : h ⊆ h')

include hsub

theorem Exchanged.mono {request : OauthCodeExchangeRequest} {token : String}
    (hexchanged : Exchanged h request token)
    : Exchanged h' request token := by
  obtain ⟨answer, hmem, htoken⟩ := hexchanged
  exact ⟨answer, hsub hmem, htoken⟩

theorem Identified.mono {token login : String} {response : GithubUserResponse}
    (hidentified : Identified h token login response)
    : Identified h' token login response :=
  ⟨hsub hidentified.1, hidentified.2⟩

theorem Listed.mono {token : String} {installation : GithubUserInstallation}
    (hlisted : Listed h token installation)
    : Listed h' token installation := by
  obtain ⟨pageUrl, page, installations, hmem, hlisted⟩ := hlisted
  exact ⟨pageUrl, page, installations, hsub hmem, hlisted⟩

theorem Confirmed.mono {app : EnabledGithubAppConfig} {installationId : Int}
    {installation : GithubAppInstallation} (hconfirmed : Confirmed h app installationId installation)
    : Confirmed h' app installationId installation where
  lookedUp := by
    obtain ⟨answer, hmem, hanswer⟩ := hconfirmed.lookedUp
    exact ⟨answer, hsub hmem, hanswer⟩
  wellFormed := hconfirmed.wellFormed
  appId := hconfirmed.appId
  active := hconfirmed.active
  permitted := hconfirmed.permitted
  minted := by
    obtain ⟨answer, hmem, hanswer⟩ := hconfirmed.minted
    exact ⟨answer, hsub hmem, hanswer⟩

theorem Verified.mono {app : EnabledGithubAppConfig} {code : String} {user : VerifiedGithubUser}
    (hverified : Verified h app code user)
    : Verified h' app code user where
  listed := by
    obtain ⟨token, hexchanged, hlisted⟩ := hverified.listed
    exact ⟨token, hexchanged.mono hsub, fun i hi => ⟨(hlisted i hi).1.mono hsub, (hlisted i hi).2⟩⟩

theorem Presented.mono {userId : Nat} {row : IntegrationGithubAppState} (hpresented : Presented h userId row)
    : Presented h' userId row where
  found := by
    obtain ⟨p, rank, hmem⟩ := hpresented.found
    exact ⟨p, rank, hsub hmem⟩
  user := hpresented.user

end Monotone

variable [Platform]

section Validated

variable [Crypto] (cfg : IntegrationsConfig)

def IsPat (h : IntegrationsHistory) (token : String) (validated : ValidatedCredential) : Prop :=
  ∃ login response,
    Identified h token login response
      ∧
    validated = {
      secret := .pat token
      githubLogin := (PatStrategy.identityFrom token login response).githubLogin
      expiresAt := (PatStrategy.identityFrom token login response).expiresAt
      metadata := .pat (PatStrategy.identityFrom token login response).metadata
    }

def IsOauthApp (h : IntegrationsHistory) (app : EnabledOauthAppConfig) (token : String)
    (validated : ValidatedCredential)
    : Prop :=
  ∃ login response,
    Identified h token login response
      ∧
    validated = {
      secret := .oauthApp token
      githubLogin := login
      expiresAt := none
      metadata := .oauthApp (buildOauthAppMetadata response.oauthScopes app.clientId)
    }

def IsGithubApp (h : IntegrationsHistory) (app : EnabledGithubAppConfig) (installationId : Int)
    (verifiedBy : String) (validated : ValidatedCredential)
    : Prop :=
  ∃ installation metadata,
    Confirmed h app installationId installation
      ∧
    buildGithubAppMetadata installation verifiedBy = .ok metadata
      ∧
    validated = {
      secret := .githubApp installation.installationId
      githubLogin := installation.accountLogin
      expiresAt := none
      metadata
    }

inductive Validated (h : IntegrationsHistory)
    : IntegrationsCall → Nat → IntegrationType → ValidatedCredential → Prop where
  | created {userId : Nat} {dto : IntegrationsService.CreateIntegrationDto} {token : String}
    {validated : ValidatedCredential} (htype : dto.type = .pat)
    (hparsed : checkCredential dto.credential = .ok token) (hpat : IsPat h token validated)
    : Validated h (.create userId dto) userId .pat validated
  | replaced {userId : Nat} {uuid : String} {credential : Json} {token : String}
    {validated : ValidatedCredential} (hparsed : checkCredential credential = .ok token)
    (hpat : IsPat h token validated)
    : Validated h (.replaceCredential userId uuid credential) userId .pat validated
  | oauthApp {userId : Nat} {code state codeVerifier token : String} {app : EnabledOauthAppConfig}
    {validated : ValidatedCredential} (happ : cfg.oauthApp = some app)
    (hexchanged : Exchanged h
      { clientId := app.clientId, code, codeVerifier := some codeVerifier, redirectUri := app.callbackUrl }
      token)
    (hwellFormed : isOauthAppToken token = true) (hoauthApp : IsOauthApp h app token validated)
    : Validated h (.oauthAppCallback userId code state) userId .oauthApp validated
  | picked {userId : Nat} {input : GithubAppCallbackInput} {app : EnabledGithubAppConfig}
    {user : VerifiedGithubUser} {installationId : Int} {row : IntegrationGithubAppState}
    {validated : ValidatedCredential} (happ : cfg.githubApp = some app)
    (hpresented : Presented h userId row) (hstage : row.stage = .redirect)
    (hverified : Verified h app input.code user)
    (hpicked : GithubAppFlowService.pickInstallation user.installations input.installationId =
      .ok (some installationId))
    (hgithubApp : IsGithubApp h app installationId user.login validated)
    : Validated h (.githubAppCallback userId input) userId .githubApp validated
  | selected {userId : Nat} {input : GithubAppSelectInput} {app : EnabledGithubAppConfig}
    {row : IntegrationGithubAppState} {consumed : ConsumedGithubAppState} {verifiedBy : String}
    {validated : ValidatedCredential} (happ : cfg.githubApp = some app)
    (hpresented : Presented h userId row) (hstage : row.stage = .select)
    (hconsumed : GithubAppStateService.toConsumed row = some consumed)
    (hcandidate : input.installationId ∈ consumed.candidates)
    (hgithubApp : IsGithubApp h app input.installationId verifiedBy validated)
    : Validated h (.selectInstallation userId input) userId .githubApp validated

section Monotone

variable {h h' : IntegrationsHistory} (hsub : h ⊆ h')

include hsub

omit [Crypto] in
theorem IsPat.mono {token : String} {validated : ValidatedCredential} (hpat : IsPat h token validated)
    : IsPat h' token validated := by
  obtain ⟨login, response, hidentified, heq⟩ := hpat
  exact ⟨login, response, hidentified.mono hsub, heq⟩

omit [Platform] [Crypto] in
theorem IsOauthApp.mono {app : EnabledOauthAppConfig} {token : String} {validated : ValidatedCredential}
    (hoauthApp : IsOauthApp h app token validated)
    : IsOauthApp h' app token validated := by
  obtain ⟨login, response, hidentified, heq⟩ := hoauthApp
  exact ⟨login, response, hidentified.mono hsub, heq⟩

omit [Platform] [Crypto] in
theorem IsGithubApp.mono {app : EnabledGithubAppConfig} {installationId : Int} {verifiedBy : String}
    {validated : ValidatedCredential} (hgithubApp : IsGithubApp h app installationId verifiedBy validated)
    : IsGithubApp h' app installationId verifiedBy validated := by
  obtain ⟨installation, metadata, hconfirmed, hvalidated⟩ := hgithubApp
  exact ⟨installation, metadata, hconfirmed.mono hsub, hvalidated⟩

omit [Crypto] in
theorem Validated.mono {call : IntegrationsCall} {userId : Nat} {type : IntegrationType}
    {validated : ValidatedCredential} (hvalidated : Validated cfg h call userId type validated)
    : Validated cfg h' call userId type validated := by
  cases hvalidated with
  | created htype hparsed hpat => exact .created htype hparsed (hpat.mono hsub)
  | replaced hparsed hpat => exact .replaced hparsed (hpat.mono hsub)
  | oauthApp happ hexchanged hwellFormed hoauthApp =>
    exact .oauthApp happ (hexchanged.mono hsub) hwellFormed (hoauthApp.mono hsub)
  | picked happ hpresented hstage hverified hpicked hgithubApp =>
    exact .picked happ (hpresented.mono hsub) hstage (hverified.mono hsub) hpicked (hgithubApp.mono hsub)
  | selected happ hpresented hstage hconsumed hcandidate hgithubApp =>
    exact .selected happ (hpresented.mono hsub) hstage hconsumed hcandidate (hgithubApp.mono hsub)

end Monotone

def encryptedAs (keys : IntegrationsKey) (plaintext uuid : String) (type : IntegrationType) (iv : Buffer)
    : EncryptedSecret where
  keyId := keys.current.keyId
  iv
  authTag :=
    (Crypto.encrypt keys.current.key iv (IntegrationsEncryptionService.aadFor uuid type) plaintext).2
  ciphertext :=
    (Crypto.encrypt keys.current.key iv (IntegrationsEncryptionService.aadFor uuid type) plaintext).1

def plaintextOf (cfg : IntegrationsConfig) (row : Integration) : Option String :=
  IntegrationsEncryptionService.decryptBuffer cfg.keys row.secret row.uuid row.type

structure SealedAs (keys : IntegrationsKey) (type : IntegrationType) (validated : ValidatedCredential)
    (uuid : String) (credential : SealedCredential) : Prop where
  secret : ∃ iv, credential.secret =
    encryptedAs keys (Crypto.stringify validated.secret.toJson) uuid type iv
  githubLogin : credential.githubLogin = validated.githubLogin
  expiresAt : credential.expiresAt = validated.expiresAt
  metadata : describeMetadata type validated.metadata = .ok credential.metadata

end Validated

inductive Records (type : IntegrationType) (now : Date) : TestOutcome → (Integration → Integration) → Prop where
  | active {githubLogin : String} {expiresAt : Option Date} {metadata described : TypeMetadata}
    (hdescribed : describeMetadata type metadata = .ok described)
    : Records type now (.active githubLogin expiresAt metadata)
        (IntegrationConnectionTestService.activeColumns githubLogin expiresAt described now)
  | invalid {reason : String}
    : Records type now (.invalid reason)
        (IntegrationConnectionTestService.rejectedColumns .invalid (some reason) now)
  | expired
    : Records type now .expired (IntegrationConnectionTestService.rejectedColumns .expired none now)
  | transient {error : TransientError} {retryAfterSeconds : Option Int}
    : Records type now (.transient error retryAfterSeconds)
        (IntegrationConnectionTestService.transientColumns now)

abbrev Loaded (h : IntegrationsHistory) (userId : Nat) (uuid : String) (row : Integration) : Prop :=
  ran (findIntegration uuid userId) (some row) ∈ h

/--
The integration has been read, with its current secret at this time.
-/
def Read (h : IntegrationsHistory) (row : Integration) : Prop :=
  (∃ p rank, ran (.find .integrations p rank) (some row) ∈ h)
    ∨
  ∃ p rows, ran (.all .integrations p) rows ∈ h ∧ row ∈ rows

/--
The token of an OAuth App integration has been sent to GitHub for revocation, if it is the app's.
-/
def CleanedUp [Crypto] (cfg : IntegrationsConfig) (h : IntegrationsHistory) (row : Integration) : Prop :=
  ∀ token app, row.type = .oauthApp → decryptRow cfg.keys .oauthApp row = some (.oauthApp token) →
    cfg.oauthApp = some app → clientIdOf row.metadata = some app.clientId →
    ∃ answer, ⟨.revokeOauthToken { clientId := app.clientId, token }, answer⟩ ∈ h

variable [Crypto] [Locale]

inductive Does (cfg : IntegrationsConfig) : IntegrationsCall → IntegrationsHistory → Effect → Prop where
  | quiet {call : IntegrationsCall} {h : IntegrationsHistory} {s : Effect} (hs : s.isQuiet = true)
    : Does cfg call h s
  | insert {call : IntegrationsCall} {h : IntegrationsHistory} {userId : Nat} {type : IntegrationType}
    {provider label uuid : String} {validated : ValidatedCredential} {credential : SealedCredential}
    {now : Date} (hvalidated : Validated cfg h call userId type validated)
    (huuid : ⟨.randomUUID, uuid⟩ ∈ h) (hsealed : SealedAs cfg.keys type validated uuid credential)
    : Does cfg call h (.db (insertIntegration
        (IntegrationsService.createdRow userId provider type label uuid credential now)))
  | replace {call : IntegrationsCall} {h : IntegrationsHistory} {userId : Nat} {type : IntegrationType}
    {uuid : String} {checked row : Integration} {validated : ValidatedCredential}
    {credential : SealedCredential} {now : Date} (hvalidated : Validated cfg h call userId type validated)
    (hchecked : Loaded h userId uuid checked) (htype : checked.type = type)
    (hloaded : Loaded h userId uuid row) (hlast : lastLoaded h = some row)
    (hsealed : SealedAs cfg.keys type validated row.uuid credential)
    : Does cfg call h (.db (updateIntegration row.id row.userId (credential.freshColumns now)))
  | rename {h : IntegrationsHistory} {userId id owner : Nat} {uuid label labelNormalized : String}
    : Does cfg (.rename userId uuid label) h (.db (updateIntegration id owner fun row =>
        { row with label, labelNormalized }))
  | claim {h : IntegrationsHistory} {userId : Nat} {uuid rowUuid : String} {now threshold : Date}
    : Does cfg (.test userId uuid) h (.db (claimTest rowUuid userId now threshold))
  | undecryptable {h : IntegrationsHistory} {userId : Nat} {uuid : String} {row : Integration} {now : Date}
    (hlast : lastLoaded h = some row) (hsecret : decryptRow cfg.keys row.type row = none)
    : Does cfg (.test userId uuid) h (.db (updateIntegration row.id row.userId
        (IntegrationConnectionTestService.undecryptableColumns now)))
  | record {h : IntegrationsHistory} {userId : Nat} {uuid : String} {row : Integration} {secret : Payload}
    {encrypted : EncryptedSecret} {events : IntegrationsHistory} {outcome : TestOutcome}
    {changes : Integration → Integration} {now : Date} (hlast : lastLoaded h = some row)
    (hsecret : decryptRow cfg.keys row.type row = some secret)
    (htested : (testSecret cfg secret { row with secret := encrypted }).Returns events (.ok outcome))
    (hevents : events ⊆ h) (hrecords : Records row.type now outcome changes)
    : Does cfg (.test userId uuid) h (.db (updateIntegration row.id row.userId changes))
  | rewrite {call : IntegrationsCall} {h : IntegrationsHistory} {row : Integration} {plaintext : String}
    {iv : Buffer} (hcall : (∃ userId uuid, call = .test userId uuid) ∨ ∃ batches, call = .reencrypt batches)
    (hread : Read h row) (hprevious : row.secret.keyId ≠ cfg.keys.current.keyId)
    (hplaintext : IntegrationsEncryptionService.decryptBuffer cfg.keys row.secret row.uuid row.type =
      some plaintext)
    : Does cfg call h (.db (rewriteSecretSql row.id row.userId row.secret.keyId
        (encryptedAs cfg.keys plaintext row.uuid row.type iv)))
  | delete {h : IntegrationsHistory} {userId : Nat} {uuid : String} {row : Integration}
    (hlast : lastLoaded h = some row) (hcleaned : CleanedUp cfg h row)
    : Does cfg (.delete userId uuid) h (.db (deleteIntegration row.id row.userId))
  | issue {h : IntegrationsHistory} {userId : Nat} {label integrationId : Option String}
    {mode : Option GithubAppMode} {target : StateTarget} {start : IntegrationsHistory} {s : Effect}
    (hissues : IssuesGithubApp start userId .redirect target ⟨none, none⟩ h s)
    : Does cfg (.startGithubApp userId label integrationId mode) h s
  | consume {call : IntegrationsCall} {h : IntegrationsHistory} {s : Effect}
    (hconsumes : Consumes .githubAppStates h s)
    : Does cfg call h s
  | offer {h : IntegrationsHistory} {userId : Nat} {input : GithubAppCallbackInput}
    {app : EnabledGithubAppConfig} {user : VerifiedGithubUser} {row : IntegrationGithubAppState}
    {target : StateTarget} {start : IntegrationsHistory} {candidates : List Int} {s : Effect}
    (happ : cfg.githubApp = some app) (hpresented : Presented h userId row) (hstage : row.stage = .redirect)
    (hverified : Verified h app input.code user)
    (hcandidates : ∀ id ∈ candidates, id ∈ user.installations.map GithubUserInstallation.installationId)
    (hissues : IssuesGithubApp start userId .select target ⟨some candidates, some user.login⟩ h s)
    : Does cfg (.githubAppCallback userId input) h s

end Kerghan.Integrations
