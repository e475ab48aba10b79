import Mathlib.Algebra.Group.Int.Defs
import Kerghan.Auth.Entities

/-!
This module contains the tables of the Integrations module, and the cryptography and the JSON codec that
it takes from its platform. The latter are not part of the repository: what is required of them is what
their documentation says.
-/

namespace Kerghan.Integrations

/--
The bytes of a `Buffer`.
-/
abbrev Buffer := List UInt8

inductive Json where
  | null
  | bool (b : Bool)
  | number (n : Int)
  | string (s : String)
  | array (items : List Json)
  | object (fields : List (String × Json))

/--
`Number.isSafeInteger(value) && value > 0`
-/
def isPositiveId (id : Int) : Bool :=
  0 < id && id < 2 ^ 53

class Crypto where
  /-- AES-256-GCM with the given key, IV, AAD and plaintext: the ciphertext and its tag. -/
  encrypt : (key iv : Buffer) → (aad plaintext : String) → Buffer × Buffer
  /-- Without a result if the tag is wrong. -/
  decrypt : (key iv : Buffer) → (aad : String) → (ciphertext authTag : Buffer) → Option String
  decrypt_encrypt : ∀ key iv aad plaintext,
    decrypt key iv aad (encrypt key iv aad plaintext).1 (encrypt key iv aad plaintext).2 = some plaintext
  sha256Hex : Buffer → String
  /-- The SHA-256 of a text in base64url. -/
  sha256Base64url : String → String
  /-- `JSON.stringify` -/
  stringify : Json → String
  /-- `JSON.parse`, without a result for a text that is not JSON. -/
  parse : String → Option Json
  parse_token : ∀ token,
    parse (stringify (.object [("token", .string token)])) = some (.object [("token", .string token)])
  parse_installationId : ∀ id, isPositiveId id = true →
    parse (stringify (.object [("installationId", .number id)])) =
      some (.object [("installationId", .number id)])

class Locale where
  /-- `text.toLowerCase()` -/
  toLowerCase : String → String
  /-- `a.localeCompare(b)` -/
  localeCompare : String → String → Int

inductive IntegrationType where
  | pat
  | oauthApp
  | githubApp
  deriving DecidableEq, Repr

def IntegrationType.name : IntegrationType → String
  | .pat => "pat"
  | .oauthApp => "oauth_app"
  | .githubApp => "github_app"

inductive IntegrationStatus where
  | active
  | invalid
  | expired
  | undecryptable
  deriving DecidableEq, Repr

inductive IntegrationTestResult where
  | success
  | rejected
  | transientError
  | undecryptable
  deriving DecidableEq, Repr

inductive PatTokenKind where
  | classic
  | fineGrained
  deriving DecidableEq, Repr

structure PatMetadata where
  tokenKind : PatTokenKind
  scopes : Option (List String)
  permissionsVerified : Bool
  deriving DecidableEq, Repr

structure OauthAppMetadata where
  scopes : List String
  clientId : String
  deriving DecidableEq, Repr

inductive GithubAccountType where
  | user
  | organization
  deriving DecidableEq, Repr

inductive GithubRepositorySelection where
  | all
  | selected
  deriving DecidableEq, Repr

/--
What an installation grants the app, as far as it is asked for.
-/
structure GithubPermissions where
  issues : Option String
  metadata : Option String
  deriving DecidableEq, Repr

structure GithubAppMetadata where
  installationId : Int
  appId : Int
  accountLogin : String
  accountType : GithubAccountType
  repositorySelection : GithubRepositorySelection
  permissions : GithubPermissions
  verifiedBy : String
  deriving DecidableEq, Repr

/--
The `metadata` column holds what the type of the row describes.
-/
inductive TypeMetadata where
  | pat (metadata : PatMetadata)
  | oauthApp (metadata : OauthAppMetadata)
  | githubApp (metadata : GithubAppMetadata)
  deriving DecidableEq, Repr

structure EncryptedSecret where
  keyId : String
  iv : Buffer
  authTag : Buffer
  ciphertext : Buffer
  deriving DecidableEq, Repr

structure Integration where
  id : Nat
  uuid : String
  userId : Nat
  provider : String
  type : IntegrationType
  label : String
  labelNormalized : String
  status : IntegrationStatus
  statusReason : Option String
  githubLogin : String
  expiresAt : Option Date
  lastTestedAt : Option Date
  lastTestResult : Option IntegrationTestResult
  metadata : TypeMetadata
  secretHint : Option String
  secret : EncryptedSecret
  deriving DecidableEq, Repr

structure IntegrationCredentialLockout where
  id : Nat
  userId : Nat
  failedAttempts : Int
  lockedUntil : Option Date
  deriving DecidableEq, Repr

inductive StatePurpose where
  | create
  | replace
  deriving DecidableEq, Repr

structure IntegrationOauthState where
  id : Nat
  uuid : String
  userId : Nat
  secretHash : String
  purpose : StatePurpose
  label : Option String
  integrationUuid : Option String
  codeVerifier : String
  expiresAt : Date
  deriving DecidableEq, Repr

inductive GithubAppStateStage where
  | redirect
  | select
  deriving DecidableEq, Repr

structure IntegrationGithubAppState where
  id : Nat
  uuid : String
  userId : Nat
  secretHash : String
  stage : GithubAppStateStage
  purpose : StatePurpose
  label : Option String
  integrationUuid : Option String
  candidateInstallationIds : Option (List Int)
  verifiedBy : Option String
  expiresAt : Date
  deriving DecidableEq, Repr

inductive IntegrationsTable where
  | integrations
  | credentialLockouts
  | oauthStates
  | githubAppStates
  deriving DecidableEq

abbrev Row : IntegrationsTable → Type
  | .integrations => Integration
  | .credentialLockouts => IntegrationCredentialLockout
  | .oauthStates => IntegrationOauthState
  | .githubAppStates => IntegrationGithubAppState

section Entities

variable [Platform]

instance : Entity Integration where
  id := Integration.id
  clash a b := sameText a.uuid b.uuid
    || a.userId == b.userId && sameText a.labelNormalized b.labelNormalized
  clash_comm a b := by
    rw [@sameText_comm _ a.uuid, @sameText_comm _ a.labelNormalized, @Bool.beq_comm _ _ _ a.userId]

instance : Entity IntegrationCredentialLockout where
  id := IntegrationCredentialLockout.id
  clash a b := a.userId == b.userId
  clash_comm _ _ := Bool.beq_comm

instance : Entity IntegrationOauthState where
  id := IntegrationOauthState.id
  clash a b := sameText a.uuid b.uuid
  clash_comm _ _ := sameText_comm

instance : Entity IntegrationGithubAppState where
  id := IntegrationGithubAppState.id
  clash a b := sameText a.uuid b.uuid
  clash_comm _ _ := sameText_comm

instance : (t : IntegrationsTable) → Entity (Row t)
  | .integrations => inferInstanceAs (Entity Integration)
  | .credentialLockouts => inferInstanceAs (Entity IntegrationCredentialLockout)
  | .oauthStates => inferInstanceAs (Entity IntegrationOauthState)
  | .githubAppStates => inferInstanceAs (Entity IntegrationGithubAppState)

end Entities

end Kerghan.Integrations
