import Kerghan.Integrations.Impl.GithubApp
import Kerghan.Integrations.Impl.OauthApp

/-!
This module contains `IntegrationStoreService`, and how a credential is sealed for the columns of a row and
read back from them.
-/

namespace Kerghan.Integrations

open IntegrationCredentialAbuseGuardService

section Strategies

/--
The `parseSecretPayload` of the strategy of a type.
-/
def parseSecretPayload : IntegrationType → Json → Option Payload
  | .pat => parsePatPayload
  | .oauthApp => parseOauthAppPayload
  | .githubApp => parseGithubAppPayload

def describeMetadata : IntegrationType → TypeMetadata → Except Thrown TypeMetadata
  | .pat => describePatMetadata
  | .oauthApp => describeOauthAppMetadata
  | .githubApp => describeGithubAppMetadata

def mask : Payload → String
  | .pat token => maskPatToken token
  | .oauthApp token => maskOauthAppToken token
  | .githubApp installationId => maskInstallationId installationId

end Strategies

section Pattern

def isHexDigit (c : Char) : Bool :=
  c.isDigit || ('a' ≤ c && c ≤ 'f') || ('A' ≤ c && c ≤ 'F')

/--
`/^[0-9a-f]{8}-[0-9a-f]{4}-[0-9a-f]{4}-[0-9a-f]{4}-[0-9a-f]{12}$/i`
-/
def UUID_PATTERN (uuid : String) : Bool :=
  uuid.toList.length == 36
    && (uuid.toList.zipIdx).all fun (c, i) =>
      if i ∈ [8, 13, 18, 23] then c == '-' else isHexDigit c

end Pattern

structure SealedCredential where
  githubLogin : String
  expiresAt : Option Date
  metadata : TypeMetadata
  secretHint : Option String
  secret : EncryptedSecret

/--
The columns of a `SealedCredential` and of a credential that has just been validated:
`freshCredentialColumns` of the flows, and what `IntegrationsService` writes.
-/
def SealedCredential.freshColumns (credential : SealedCredential) (now : Date) (row : Integration)
    : Integration :=
  { row with
    githubLogin := credential.githubLogin
    expiresAt := credential.expiresAt
    metadata := credential.metadata
    secretHint := credential.secretHint
    secret := credential.secret
    status := .active
    statusReason := none
    lastTestedAt := some now
    lastTestResult := some .success }

variable [Platform]

namespace IntegrationStoreService

def findOwned (userId : Nat) (uuid : String) : Api Integration := do
  if UUID_PATTERN uuid then
    match ← Api.query (findIntegration uuid userId) with
    | some row => pure row
    | none => throw integrationNotFound
  else
    throw integrationNotFound

def countOwned (userId : Nat) : Api Nat :=
  Api.query (countIntegrations userId)

def assertLabelFree (userId : Nat) (labelNormalized : String) (exceptId : Option Nat) : Api Unit := do
  match ← Api.query (findByLabel userId labelNormalized) with
  | none => pure ()
  | some (holder : Integration) =>
    if some holder.id = exceptId then
      pure ()
    else
      throw labelTaken

def guardLabelRace {T : Type} (write : Api T) : Api T :=
  tryCatch write fun error => if error = .database .duplicateEntry then throw labelTaken else throw error

/--
`LOCK_OWNER_ROW_SQL`
-/
def lockOwner (userId : Nat) : Api Unit := do
  match ← Prog.perform (Effect.lockOwner userId) with
  | .ok _ => pure ()
  | .error e => throw (.database e)

/--
A transaction that locks the owner before `body`, until it is committed or rolled back.
-/
def transaction {T : Type} (userId : Nat) (body : Api T) : Api T := do
  ensureLockoutRow userId
  lockOwner userId
  let result ← IntegrationCredentialService.outcome body
  Prog.perform (Effect.unlockOwner userId)
  Prog.ofExcept result

/--
The answer is the row as it has been sent, while the columns of what is stored keep times to the second.
-/
def insertWithinCap (userId : Nat) (mk : (Date → Date) → Nat → Integration) (maxPerUser : Int)
    : Api Integration :=
  guardLabelRace (transaction userId do
    if (← countOwned userId) ≥ maxPerUser then
      throw limitReached
    else
      let row : Integration ← Api.query (insertIntegration (mk toDatetime))
      pure (mk id row.id))

/--
The same goes for what is merged with the row.
-/
def updateOwned (row : Integration) (changes : (Date → Date) → Integration → Integration)
    : Api Integration := do
  let _ ← guardLabelRace (Api.query (updateIntegration row.id row.userId (changes toDatetime)))
  pure (changes id row)

/--
The row with its new secret if it has been rewritten.
-/
def rewriteSecret (row : Integration) (encrypted : EncryptedSecret) (expectedKeyId : String)
    : Api (Option Integration) := do
  let affected : Nat ← Api.query (rewriteSecretSql row.id row.userId expectedKeyId encrypted)
  if affected = 0 then
    pure none
  else
    pure (some { row with secret := encrypted })

def findBySecretKeyIdsForOperator (keyIds : List String) (afterId limit : Nat) : Api (List Integration) :=
  if keyIds.length = 0 then
    pure []
  else do
    let rows : List Integration ← Api.query (allBySecretKeyIds keyIds afterId)
    pure ((rows.insertionSort fun a b => a.id ≤ b.id).take limit)

def deleteOwned (row : Integration) : Api Unit := do
  let _ ← Api.query (deleteIntegration row.id row.userId)

end IntegrationStoreService

section Credential

variable [Crypto]

/--
The payload of a row, as the strategy of `type` parses it.
-/
def decryptRow (keys : IntegrationsKey) (type : IntegrationType) (row : Integration) : Option Payload :=
  (IntegrationsEncryptionService.decrypt keys row.secret row.uuid row.type).bind (parseSecretPayload type)

namespace IntegrationCredentialService

/--
`seal`
-/
def sealCredential (keys : IntegrationsKey) (type : IntegrationType) (validated : ValidatedCredential)
    (uuid : String)
    : Api SealedCredential := do
  let encrypted ← IntegrationsEncryptionService.encrypt keys validated.secret uuid type
  let metadata ← Prog.ofExcept (describeMetadata type validated.metadata)
  pure {
    githubLogin := validated.githubLogin
    expiresAt := validated.expiresAt
    metadata
    secretHint := some (mask validated.secret)
    secret := encrypted
  }

/--
What a strategy validates: a token, or the code that it exchanges for one.
-/
inductive ParsedCredential where
  | pat (token : String)
  | oauthApp (code codeVerifier : String)

def parse (type : IntegrationType) (credential : Json) : Except Thrown ParsedCredential :=
  match type with
  | .pat => .pat <$> parsePatCredential credential
  | .oauthApp | .githubApp => .error flowUnsupported

def validate (cfg : IntegrationsConfig) (userId : Nat) (parsed : ParsedCredential)
    : Api ValidatedCredential :=
  attempt cfg userId
    (match parsed with
      | .pat token => PatStrategy.validate token
      | .oauthApp code codeVerifier => OauthAppStrategy.validate cfg code codeVerifier)
    fun _ => true

end IntegrationCredentialService

/--
`strategy.test(secret, toIntegrationView(row))` of the strategy of the row.
-/
def testSecret (cfg : IntegrationsConfig) (secret : Payload) (row : Integration) : Api TestOutcome :=
  match secret with
  | .pat token => PatStrategy.test token row
  | .oauthApp token => OauthAppStrategy.test cfg token row
  | .githubApp installationId => GithubAppStrategy.test cfg installationId row

end Credential

end Kerghan.Integrations
