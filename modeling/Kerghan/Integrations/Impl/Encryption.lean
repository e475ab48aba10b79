import Kerghan.Integrations.Impl.AbuseGuard

/-!
This module contains the secrets of the three types of integrations and `IntegrationsEncryptionService`.
-/

namespace Kerghan.Integrations

/--
What a `Secret` of a type reveals.
-/
inductive Payload where
  | pat (token : String)
  | oauthApp (token : String)
  | githubApp (installationId : Int)
  deriving DecidableEq, Repr

namespace Payload

def type : Payload → IntegrationType
  | .pat _ => .pat
  | .oauthApp _ => .oauthApp
  | .githubApp _ => .githubApp

def toJson : Payload → Json
  | .pat token | .oauthApp token => .object [("token", .string token)]
  | .githubApp installationId => .object [("installationId", .number installationId)]

end Payload

structure ValidatedCredential where
  secret : Payload
  githubLogin : String
  expiresAt : Option Date
  metadata : TypeMetadata
  deriving DecidableEq, Repr

namespace IntegrationsEncryptionService

def byId (keys : IntegrationsKey) (keyId : String) : Option Buffer :=
  ((keys.current :: keys.previous).find? fun entry => entry.keyId == keyId).map KeyEntry.key

def isDecryptableKeyId (keys : IntegrationsKey) (keyId : String) : Bool :=
  (byId keys keyId).isSome

def isCurrentKeyId (keys : IntegrationsKey) (keyId : String) : Bool :=
  keyId == keys.current.keyId

def isPreviousKeyId (keys : IntegrationsKey) (keyId : String) : Bool :=
  isDecryptableKeyId keys keyId && !isCurrentKeyId keys keyId

def previousKeyIds (keys : IntegrationsKey) : List String :=
  keys.previous.map KeyEntry.keyId

def aadFor (uuid : String) (type : IntegrationType) : String :=
  uuid ++ ":" ++ type.name

variable [Crypto]

def encryptBuffer (keys : IntegrationsKey) (plaintext uuid : String) (type : IntegrationType)
    : Api EncryptedSecret := do
  let iv ← Api.randomIv
  let (ciphertext, authTag) := Crypto.encrypt keys.current.key iv (aadFor uuid type) plaintext
  pure { keyId := keys.current.keyId, iv, authTag, ciphertext }

def decryptBuffer (keys : IntegrationsKey) (secret : EncryptedSecret) (uuid : String)
    (type : IntegrationType)
    : Option String :=
  match byId keys secret.keyId with
  | none => none
  | some key => Crypto.decrypt key secret.iv (aadFor uuid type) secret.ciphertext secret.authTag

def encrypt (keys : IntegrationsKey) (secret : Payload) (uuid : String) (type : IntegrationType)
    : Api EncryptedSecret :=
  encryptBuffer keys (Crypto.stringify secret.toJson) uuid type

def decrypt (keys : IntegrationsKey) (secret : EncryptedSecret) (uuid : String) (type : IntegrationType)
    : Option Json :=
  (decryptBuffer keys secret uuid type).bind Crypto.parse

def reencrypt (keys : IntegrationsKey) (secret : EncryptedSecret) (uuid : String) (type : IntegrationType)
    : Api (Option EncryptedSecret) :=
  match decryptBuffer keys secret uuid type with
  | none => pure none
  | some plaintext => some <$> encryptBuffer keys plaintext uuid type

end IntegrationsEncryptionService

end Kerghan.Integrations
