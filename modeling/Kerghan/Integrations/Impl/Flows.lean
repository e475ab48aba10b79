import Kerghan.Integrations.Impl.Integrations

/-!
This module contains the redirect flows: `OauthAppFlowService`, `GithubAppFlowService` with `GithubAppStore`,
and `GithubAppSelectionService`.
-/

namespace Kerghan.Integrations

open IntegrationStoreService IntegrationCredentialService IntegrationsService

def exactlyOneTarget (label integrationId : Option String) : Except Thrown StateTarget :=
  match label, integrationId with
  | some label, none => .ok (.create label)
  | none, some integrationUuid => .ok (.replace integrationUuid)
  | _, _ => .error (validationFailed "exactly one of label and integrationId must be given")

structure FlowResult where
  created : Bool
  integration : Integration
  deriving DecidableEq, Repr

variable [Platform] [Crypto] [Locale] (cfg : IntegrationsConfig)

/--
The check that both flows make before anything is asked from GitHub: `GithubAppStore.precheck`, which
`OauthAppFlowService` has twice.
-/
def precheckTarget (type : IntegrationType) (userId : Nat) (target : StateTarget) : Api Unit :=
  match target with
  | .replace integrationUuid => do
    let row ← findOwned userId integrationUuid
    if row.type = type then
      assertNotLocked userId
    else
      throw flowUnsupported
  | .create label => do
    assertNotLocked userId
    assertCreatable cfg userId label

/--
The `create` of both flows.
-/
def createFrom (type : IntegrationType) (userId : Nat) (label : String) (validated : ValidatedCredential)
    : Api FlowResult := do
  let uuid ← Api.randomUUID
  let credential ← sealCredential cfg.keys type validated uuid
  let now ← Api.now
  let row ← insertWithinCap userId
    (fun keep => createdRow userId "github" type label uuid credential (keep now)) (maxPerUser cfg)
  pure { created := true, integration := row }

namespace OauthAppFlowService

def enabledConfig : Api EnabledOauthAppConfig :=
  match cfg.oauthApp with
  | none => throw notEnabled
  | some app => pure app

/--
The query of the URL.
-/
def authorizeUrl (app : EnabledOauthAppConfig) (state codeChallenge : String) : List (String × String) :=
  [("client_id", app.clientId), ("redirect_uri", app.callbackUrl), ("scope", "repo"), ("state", state),
    ("code_challenge", codeChallenge), ("code_challenge_method", "S256"), ("allow_signup", "false"),
    ("prompt", "select_account")]

def start (userId : Nat) (label integrationId : Option String) : Api (List (String × String)) := do
  let app ← enabledConfig cfg
  let target ← Prog.ofExcept (exactlyOneTarget label integrationId)
  precheckTarget cfg .oauthApp userId target
  let issued ← OauthStateService.issue userId target
  pure (authorizeUrl app issued.state issued.codeChallenge)

def tokenOf : Payload → Option String
  | .oauthApp token => some token
  | _ => none

def replace (userId : Nat) (uuid : String) (validated : ValidatedCredential) : Api FlowResult := do
  let row ← findOwned userId uuid
  let previous := (decryptRow cfg.keys .oauthApp row).bind tokenOf
  let previousClientId := clientIdOf row.metadata
  let credential ← sealCredential cfg.keys .oauthApp validated row.uuid
  let now ← Api.now
  let updated ← updateOwned row fun keep => credential.freshColumns (keep now)
  match previous with
  | none => pure { created := false, integration := updated }
  | some previous =>
    if some previous = tokenOf validated.secret then
      pure { created := false, integration := updated }
    else
      OauthAppRevocationService.revoke cfg previous previousClientId
      pure { created := false, integration := updated }

/--
What `storeOrRevoke` tries.
-/
def store (userId : Nat) (target : StateTarget) (validated : ValidatedCredential) : Api FlowResult :=
  match target with
  | .create label => createFrom cfg .oauthApp userId label validated
  | .replace integrationUuid => replace cfg userId integrationUuid validated

def storeOrRevoke (userId : Nat) (target : StateTarget) (validated : ValidatedCredential)
    : Api FlowResult :=
  tryCatch (store cfg userId target validated)
    fun error => do
      OauthAppRevocationService.revoke cfg ((tokenOf validated.secret).getD "")
        (clientIdOf validated.metadata)
      throw error

def callback (userId : Nat) (code state : String) : Api FlowResult := do
  let _ ← enabledConfig cfg
  let consumed ← OauthStateService.consume userId state
  precheckTarget cfg .oauthApp userId consumed.target
  let validated ← validate cfg userId (.oauthApp code consumed.codeVerifier)
  storeOrRevoke cfg userId consumed.target validated

end OauthAppFlowService

namespace GithubAppStore

def precheck (userId : Nat) (target : StateTarget) : Api Unit :=
  precheckTarget cfg .githubApp userId target

def save (userId : Nat) (target : StateTarget) (validated : ValidatedCredential) : Api FlowResult :=
  match target with
  | .create label => createFrom cfg .githubApp userId label validated
  | .replace integrationUuid => do
    let row ← findOwned userId integrationUuid
    let credential ← sealCredential cfg.keys .githubApp validated row.uuid
    let now ← Api.now
    let updated ← updateOwned row fun keep => credential.freshColumns (keep now)
    pure { created := false, integration := updated }

end GithubAppStore

inductive GithubAppMode where
  | install
  | connect
  deriving DecidableEq, Repr

structure GithubAppCallbackInput where
  code : String
  state : String
  installationId : Option Int

structure GithubAppSelectionEntry where
  installationId : Int
  accountLogin : String
  accountType : GithubAccountType
  deriving DecidableEq, Repr

structure GithubAppSelection where
  state : String
  installations : List GithubAppSelectionEntry
  deriving DecidableEq, Repr

structure GithubAppSelectInput where
  state : String
  installationId : Int

inductive GithubAppCallbackResult where
  | stored (result : FlowResult)
  | selection (selection : GithubAppSelection)
  deriving DecidableEq, Repr

namespace GithubAppSelectionService

open GithubAppStateService (GITHUB_APP_MAX_CANDIDATES)

/--
`unique`, with an entry for `installation` unless its id is there already.
-/
def addEntry (unique : List GithubAppSelectionEntry) (installation : GithubUserInstallation)
    : List GithubAppSelectionEntry :=
  if installation.installationId ∈ unique.map GithubAppSelectionEntry.installationId then
    unique
  else
    unique ++ [⟨installation.installationId, installation.accountLogin, installation.accountType⟩]

def compareEntries (a b : GithubAppSelectionEntry) : Int :=
  let order := Locale.localeCompare (Locale.toLowerCase a.accountLogin) (Locale.toLowerCase b.accountLogin)
  if order ≠ 0 then order else a.installationId - b.installationId

def selectionEntries (installations : List GithubUserInstallation) : List GithubAppSelectionEntry :=
  ((installations.foldl addEntry []).insertionSort fun a b => compareEntries a b ≤ 0).take
    GITHUB_APP_MAX_CANDIDATES

def offer (userId : Nat) (target : StateTarget) (installations : List GithubUserInstallation)
    (verifiedBy : String)
    : Api GithubAppSelection := do
  let entries := selectionEntries installations
  let state ← GithubAppStateService.issueSelect userId target
    (entries.map GithubAppSelectionEntry.installationId) verifiedBy
  pure { state, installations := entries }

def enabledConfig : Api EnabledGithubAppConfig :=
  match cfg.githubApp with
  | none => throw notEnabled
  | some app => pure app

def validateCandidate (app : EnabledGithubAppConfig) (consumed : ConsumedGithubAppState)
    (installationId : Int)
    : Api ValidatedCredential :=
  if installationId ∈ consumed.candidates then
    GithubAppStrategy.validateInstallation app installationId (consumed.verifiedBy.getD "")
  else
    throw (.credential .installationNotAccessible)

def select (userId : Nat) (input : GithubAppSelectInput) : Api FlowResult := do
  let app ← enabledConfig cfg
  let consumed ← GithubAppStateService.consume userId input.state .select
  GithubAppStore.precheck cfg userId consumed.target
  let validated ← attempt cfg userId (validateCandidate app consumed input.installationId) fun _ => true
  GithubAppStore.save cfg userId consumed.target validated

end GithubAppSelectionService

namespace GithubAppFlowService

open GithubAppSelectionService

/--
The URL without its query, and the query.
-/
def githubAppRedirectUrl (app : EnabledGithubAppConfig) (mode : GithubAppMode) (state : String)
    : String × List (String × String) :=
  match mode with
  | .install => ("https://github.com/apps/" ++ app.slug ++ "/installations/new", [("state", state)])
  | .connect =>
    ("https://github.com/login/oauth/authorize",
      [("client_id", app.clientId), ("redirect_uri", app.callbackUrl), ("state", state),
        ("allow_signup", "false"), ("prompt", "select_account")])

def start (userId : Nat) (label integrationId : Option String) (mode : Option GithubAppMode)
    : Api (String × List (String × String)) := do
  let app ← enabledConfig cfg
  let target ← Prog.ofExcept (exactlyOneTarget label integrationId)
  GithubAppStore.precheck cfg userId target
  let state ← GithubAppStateService.issueRedirect userId target
  pure (githubAppRedirectUrl app (mode.getD .install) state)

/--
The installation that the user has claimed or the only one there is, nothing if there are several.
-/
def pickInstallation (installations : List GithubUserInstallation) (claimed : Option Int)
    : Except Thrown (Option Int) :=
  match claimed with
  | some claimed =>
    if claimed ∈ installations.map GithubUserInstallation.installationId then
      .ok (some claimed)
    else
      .error (.credential .installationNotAccessible)
  | none =>
    match installations with
    | [] => .error (.credential .installationNotAccessible)
    | [installation] => .ok (some installation.installationId)
    | _ => .ok none

inductive Verified where
  | validated (validated : ValidatedCredential)
  | several (user : VerifiedGithubUser)

def Verified.isValidated : Verified → Bool
  | .validated _ => true
  | .several _ => false

def verify (app : EnabledGithubAppConfig) (input : GithubAppCallbackInput) : Api Verified := do
  let user ← GithubAppUserVerificationService.verify app input.code
  match ← Prog.ofExcept (pickInstallation user.installations input.installationId) with
  | none => pure (.several user)
  | some picked => pure (.validated (← GithubAppStrategy.validateInstallation app picked user.login))

def callback (userId : Nat) (input : GithubAppCallbackInput) : Api GithubAppCallbackResult := do
  let app ← enabledConfig cfg
  let consumed ← GithubAppStateService.consume userId input.state .redirect
  GithubAppStore.precheck cfg userId consumed.target
  match ← attempt cfg userId (verify app input) Verified.isValidated with
  | .several user =>
    pure (.selection (← offer userId consumed.target user.installations user.login))
  | .validated validated =>
    pure (.stored (← GithubAppStore.save cfg userId consumed.target validated))

end GithubAppFlowService

end Kerghan.Integrations
