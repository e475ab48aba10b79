import Mathlib.Data.List.Lex
import Mathlib.Data.List.Sort
import Kerghan.Integrations.Impl.Encryption
import Kerghan.Integrations.Impl.Github

/-!
This module contains `PatStrategy`, with the rules for personal access tokens and for their metadata, and
what all strategies have in common.
-/

namespace Kerghan.Integrations

inductive TransientError where
  | unavailable
  | rateLimited
  deriving DecidableEq, Repr

inductive TestOutcome where
  | active (githubLogin : String) (expiresAt : Option Date) (metadata : TypeMetadata)
  | invalid (reason : String)
  | expired
  | transient (error : TransientError) (retryAfterSeconds : Option Int)
  deriving DecidableEq, Repr

def STATUS_REASON_INSUFFICIENT_PERMISSIONS : String :=
  "insufficient_permissions"

def ELLIPSIS : String :=
  "…"

def HINT_SUFFIX_LENGTH : Nat := 4

section Credential

def PREFIXES : List (String × PatTokenKind) :=
  [("github_pat_", .fineGrained), ("ghp_", .classic)]

def MAX_TOKEN_LENGTH : Nat := 255

def TOKEN_CHARSET (token : String) : Bool :=
  0 < token.toList.length && token.toList.all fun c => isAlphanumeric c || c == '_'

def tokenKindOf (token : String) : Option PatTokenKind :=
  (PREFIXES.find? fun entry => startsWith token entry.1).map Prod.snd

def checkToken (value : Json) : Except String String :=
  match value with
  | .string value =>
    let token := trim value
    if utf16Length token < 1 ∨ utf16Length token > MAX_TOKEN_LENGTH then
      .error s!"credential.token must be between 1 and {MAX_TOKEN_LENGTH} characters"
    else if TOKEN_CHARSET token = false then
      .error "credential.token must only contain letters, digits and underscores"
    else if tokenKindOf token = none then
      .error "credential.token must be a GitHub personal access token"
    else
      .ok token
  | _ => .error "credential.token must be a string"

def checkCredential (raw : Json) : Except String String :=
  match raw with
  | .object [("token", token)] => checkToken token
  | .object _ => .error "credential must contain exactly one field, token"
  | _ => .error "credential must be an object"

def parsePatCredential (raw : Json) : Except Thrown String :=
  (checkCredential raw).mapError validationFailed

def parsePatPayload (payload : Json) : Option Payload :=
  match checkCredential payload with
  | .ok token => some (.pat token)
  | .error _ => none

def maskPatToken (token : String) : String :=
  let start := ((PREFIXES.find? fun entry => startsWith token entry.1).map Prod.fst).getD ""
  start ++ ELLIPSIS ++ lastChars HINT_SUFFIX_LENGTH token

end Credential

section Metadata

def MAX_SCOPES : Nat := 50

def MAX_SCOPE_LENGTH : Nat := 64

def parseScopes (header : Option String) : List String :=
  let scopes := ((split ',' (header.getD "")).map trim).filter fun scope =>
    scope ≠ "" ∧ utf16Length scope ≤ MAX_SCOPE_LENGTH
  (scopes.eraseDups.insertionSort fun a b => utf16 a ≤ utf16 b).take MAX_SCOPES

def isScopeList (scopes : List String) : Bool :=
  scopes.length ≤ MAX_SCOPES
    && scopes.all fun scope => scope ≠ "" && decide (utf16Length scope ≤ MAX_SCOPE_LENGTH)

/--
Whether `chars` are `shape`, where `d` stands for a digit.
-/
def matchesShape (shape chars : List Char) : Bool :=
  shape.length == chars.length
    && (shape.zip chars).all fun (s, c) => if s == 'd' then c.isDigit else s == c

/--
The date, the time and the zone of
`/^(\d{4}-\d{2}-\d{2}) (\d{2}:\d{2}:\d{2}) (UTC|[+-]\d{2}\d{2})$/`.
-/
def matchExpiration (text : String) : Option (String × String × String) :=
  let chars := text.toList
  let zone := chars.drop 20
  if matchesShape "dddd-dd-dd dd:dd:dd ".toList (chars.take 20) = true
      ∧ (zone = "UTC".toList ∨ matchesShape "+dddd".toList zone = true
        ∨ matchesShape "-dddd".toList zone = true) then
    some (String.ofList (chars.take 10), String.ofList ((chars.drop 11).take 8), String.ofList zone)
  else
    none

/--
The expiration, `null` if there is none, and no result for a text that cannot be parsed.
-/
def parseExpiration [Platform] (header : Option String) : Option (Option Date) :=
  match header with
  | none => some none
  | some header =>
    if trim header = "" then
      some none
    else
      match matchExpiration (trim header) with
      | none => none
      | some (date, time, zone) =>
        let offset := if zone = "UTC" then "Z" else
          String.ofList (zone.toList.take 3) ++ ":" ++ String.ofList (zone.toList.drop 3)
        (Platform.dateOf (date ++ "T" ++ time ++ offset)).map some

def buildPatMetadata (tokenKind : PatTokenKind) (scopesHeader : Option String) : PatMetadata :=
  match tokenKind with
  | .classic => { tokenKind, scopes := some (parseScopes scopesHeader), permissionsVerified := true }
  | .fineGrained => { tokenKind, scopes := none, permissionsVerified := false }

def PatMetadata.isConsistent (metadata : PatMetadata) : Bool :=
  match metadata.tokenKind with
  | .classic => metadata.permissionsVerified && metadata.scopes.any isScopeList
  | .fineGrained => !metadata.permissionsVerified && metadata.scopes.isNone

def describePatMetadata (metadata : TypeMetadata) : Except Thrown TypeMetadata :=
  match metadata with
  | .pat metadata =>
    if metadata.isConsistent then
      .ok (.pat metadata)
    else
      .error (.invalidMetadata .pat)
  | _ => .error (.invalidMetadata .pat)

end Metadata

namespace PatStrategy

variable [Platform]

def PAT_REASON_BAD_CREDENTIALS : String :=
  "bad_credentials"

def REQUIRED_CLASSIC_SCOPE : String :=
  "repo"

def hasRequiredPermissions (metadata : PatMetadata) : Bool :=
  metadata.tokenKind ≠ .classic || (metadata.scopes.getD []).contains REQUIRED_CLASSIC_SCOPE

structure PatIdentity where
  githubLogin : String
  expiresAt : Option Date
  metadata : PatMetadata

/--
A token that has been parsed has a kind.
-/
def identityFrom (token login : String) (response : GithubUserResponse) : PatIdentity where
  githubLogin := login
  expiresAt := (parseExpiration response.tokenExpiration).getD none
  metadata := buildPatMetadata ((tokenKindOf token).getD .fineGrained) response.oauthScopes

def validate (token : String) : Api ValidatedCredential := do
  match ← fetchGithubUser token with
  | .ok login response =>
    let identity := identityFrom token login response
    if hasRequiredPermissions identity.metadata then
      pure {
        secret := .pat token
        githubLogin := identity.githubLogin
        expiresAt := identity.expiresAt
        metadata := .pat identity.metadata
      }
    else
      throw (.credential (.insufficientPermissions "The classic token lacks the repo scope"))
  | answer => throw (.credential (validationErrorFor answer))

def activeOutcome (token login : String) (response : GithubUserResponse) : TestOutcome :=
  let identity := identityFrom token login response
  if hasRequiredPermissions identity.metadata then
    .active identity.githubLogin identity.expiresAt (.pat identity.metadata)
  else
    .invalid STATUS_REASON_INSUFFICIENT_PERMISSIONS

def isPast (date : Option Date) : Api Bool := do
  match date with
  | none => pure false
  | some date =>
    let now ← Api.now
    pure (date < now)

def test (token : String) (current : Integration) : Api TestOutcome := do
  match ← fetchGithubUser token with
  | .ok login response => pure (activeOutcome token login response)
  | .unauthorized =>
    if ← isPast current.expiresAt then
      pure .expired
    else
      pure (.invalid PAT_REASON_BAD_CREDENTIALS)
  | .rateLimited retryAfterSeconds => pure (.transient .rateLimited retryAfterSeconds)
  | .unavailable => pure (.transient .unavailable none)

end PatStrategy

end Kerghan.Integrations
