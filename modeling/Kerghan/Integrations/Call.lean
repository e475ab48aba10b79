import Kerghan.Integrations.Impl.Flows
import Kerghan.Integrations.Run

/-!
This module contains the calls that the controllers and the operator make to the Integrations module.
-/

namespace Kerghan.Integrations

open IntegrationsService IntegrationsKeyRotationService

inductive IntegrationsCall where
  | create (userId : Nat) (dto : CreateIntegrationDto)
  | rename (userId : Nat) (uuid label : String)
  | replaceCredential (userId : Nat) (uuid : String) (credential : Json)
  | test (userId : Nat) (uuid : String)
  | delete (userId : Nat) (uuid : String)
  | reencrypt (batches : Nat)
  | startOauthApp (userId : Nat) (label integrationId : Option String)
  | oauthAppCallback (userId : Nat) (code state : String)
  | startGithubApp (userId : Nat) (label integrationId : Option String) (mode : Option GithubAppMode)
  | githubAppCallback (userId : Nat) (input : GithubAppCallbackInput)
  | selectInstallation (userId : Nat) (input : GithubAppSelectInput)

inductive IntegrationsReply where
  | integration (row : Integration)
  | deleted
  | reencrypted (result : ReencryptResult)
  | authorizeUrl (query : List (String × String))
  | redirectUrl (url : String × List (String × String))
  | stored (result : FlowResult)
  | githubApp (result : GithubAppCallbackResult)
  deriving DecidableEq, Repr

variable [Platform] [Crypto] [Locale]

def IntegrationsCall.prog (cfg : IntegrationsConfig) : IntegrationsCall → Api IntegrationsReply
  | .create userId dto => .integration <$> IntegrationsService.create cfg userId dto
  | .rename userId uuid label => .integration <$> IntegrationsService.rename userId uuid label
  | .replaceCredential userId uuid credential =>
    .integration <$> IntegrationsService.replaceCredential cfg userId uuid credential
  | .test userId uuid => .integration <$> IntegrationConnectionTestService.test cfg userId uuid
  | .delete userId uuid => (fun _ => .deleted) <$> IntegrationsService.delete cfg userId uuid
  | .reencrypt batches => .reencrypted <$> IntegrationsKeyRotationService.reencrypt cfg batches
  | .startOauthApp userId label integrationId =>
    .authorizeUrl <$> OauthAppFlowService.start cfg userId label integrationId
  | .oauthAppCallback userId code state => .stored <$> OauthAppFlowService.callback cfg userId code state
  | .startGithubApp userId label integrationId mode =>
    .redirectUrl <$> GithubAppFlowService.start cfg userId label integrationId mode
  | .githubAppCallback userId input => .githubApp <$> GithubAppFlowService.callback cfg userId input
  | .selectInstallation userId input => .stored <$> GithubAppSelectionService.select cfg userId input

end Kerghan.Integrations
