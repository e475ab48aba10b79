import Kerghan.Auth.Sample
import Kerghan.Integrations.Impl.Encryption
import Kerghan.Integrations.Run

/-!
This module contains a configuration, databases and an environment that concrete runs can be evaluated with.
-/

namespace Kerghan.Integrations

namespace Sample

section Crypto

/--
Every character as three bytes.
-/
def encode (s : String) : Buffer :=
  s.toList.flatMap fun c =>
    [UInt8.ofNat c.toNat, UInt8.ofNat (c.toNat / 256), UInt8.ofNat (c.toNat / 65536)]

def decodeChars : Buffer → Option (List Char)
  | [] => some []
  | a :: b :: c :: rest =>
    (decodeChars rest).map fun chars =>
      Char.ofNat (a.toNat + 256 * b.toNat + 65536 * c.toNat) :: chars
  | _ => none

theorem decodeChars_encode (chars : List Char)
    : decodeChars (chars.flatMap fun c =>
        [UInt8.ofNat c.toNat, UInt8.ofNat (c.toNat / 256), UInt8.ofNat (c.toNat / 65536)]) = some chars := by
  induction chars with
  | nil => rfl
  | cons c chars ih =>
    have hlt : c.toNat < 0x110000 := by
      rcases c.valid with h | h
      . exact Nat.lt_of_lt_of_le h (by decide)
      . exact h.2
    have hnat : (UInt8.ofNat c.toNat).toNat + 256 * (UInt8.ofNat (c.toNat / 256)).toNat +
        65536 * (UInt8.ofNat (c.toNat / 65536)).toNat = c.toNat := by
      simp only [UInt8.toNat_ofNat']
      omega
    simp only [List.flatMap_cons, List.cons_append, List.nil_append, decodeChars, ih, hnat,
      Option.map_some, Char.ofNat_toNat]

/--
A tag that says which key and which text it is for.
-/
def tag (key : Buffer) (aad : String) : Buffer :=
  List.replicate key.length 1 ++ 0 :: key ++ encode aad

def encrypt (key _iv : Buffer) (aad plaintext : String) : Buffer × Buffer :=
  (encode plaintext, tag key aad)

def decrypt (key iv : Buffer) (aad : String) (ciphertext authTag : Buffer) : Option String :=
  ((decodeChars ciphertext).map String.ofList).filter fun plaintext =>
    encrypt key iv aad plaintext = (ciphertext, authTag)

theorem decrypt_encrypt (key iv : Buffer) (aad plaintext : String)
    : decrypt key iv aad (encrypt key iv aad plaintext).1 (encrypt key iv aad plaintext).2 =
        some plaintext := by
  simp [decrypt, encrypt, encode, decodeChars_encode]

/--
The two payloads that there are, and nothing else.
-/
def stringify : Json → String
  | .object [("token", .string token)] => String.ofList ('t' :: token.toList)
  | .object [("installationId", .number id)] => String.ofList ('i' :: List.replicate id.toNat 'x')
  | _ => ""

def parse (text : String) : Option Json :=
  match text.toList with
  | 't' :: token => some (.object [("token", .string (String.ofList token))])
  | 'i' :: digits => some (.object [("installationId", .number digits.length)])
  | _ => none

abbrev crypto : Crypto where
  encrypt := encrypt
  decrypt := decrypt
  decrypt_encrypt := decrypt_encrypt
  sha256Hex _ := ""
  sha256Base64url text := text
  stringify := stringify
  parse := parse
  parse_token _ := by simp [stringify, parse]
  parse_installationId id hid := by
    have hpos : 0 < id := by
      simp only [isPositiveId, Bool.and_eq_true, decide_eq_true_eq] at hid
      exact hid.1
    simp only [stringify, parse, String.toList_ofList, List.length_replicate]
    rw [Int.toNat_of_nonneg (Int.le_of_lt hpos)]

end Crypto

abbrev locale : Locale where
  toLowerCase text := text
  localeCompare _ _ := 0

/--
Nothing is configured but what has to be.
-/
abbrev config : IntegrationsConfig where
  toAuthConfig := Kerghan.Sample.config
  keys := { current := ⟨[1], "k1"⟩, previous := [⟨[0], "k0"⟩], distinct := by decide }
  oauthApp := some ⟨"client", "https://kerghan.example/callback"⟩
  githubApp := some ⟨7, "app-client", "kerghan", "https://kerghan.example/app"⟩

/--
The `k`-th step happens at time `k`, and draws values that no other step draws. GitHub does not answer.
-/
abbrev env (k : Nat) : Env where
  now := k
  choice := 0
  fault := false
  uuid := String.ofList (List.replicate k 'u')
  bytes := String.ofList (List.replicate k 'b')
  iv := List.replicate k 0
  user := .error (.githubClientError .timeout)
  exchange := .error (.githubClientError .timeout)
  revocation := .error (.githubClientError .timeout)
  page := .error (.githubClientError .timeout)
  installation := .error (.githubClientError .timeout)
  minted := .error (.githubClientError .timeout)

/--
The schedule that lets the calls `order` move one after the other, with an environment for every step.
-/
abbrev scheduleIn (env : Nat → Env) (order : List Nat) : Schedule :=
  order.mapIdx fun k i => (i, env k)

abbrev schedule (order : List Nat) : Schedule :=
  scheduleIn env order

attribute [local instance] Kerghan.Sample.platform

abbrev world : World where
  db _ := Table.empty
  locked _ := false

abbrev failing (failedAttempts : Int) : World where
  db
    | .credentialLockouts => .single { id := 1, userId := 1, failedAttempts, lockedUntil := none }
    | _ => Table.empty
  locked _ := false

abbrev integrationUuid : String :=
  "00000000-0000-0000-0000-000000000001"

/--
A personal access token of user `1`, with its secret under the key of `entry`.
-/
abbrev integration (entry : KeyEntry) (token : String) : Integration where
  id := 1
  uuid := integrationUuid
  userId := 1
  provider := "github"
  type := .pat
  label := "work"
  labelNormalized := "work"
  status := .active
  statusReason := none
  githubLogin := "ann"
  expiresAt := none
  lastTestedAt := none
  lastTestResult := none
  metadata := .pat ⟨.classic, some ["repo"], true⟩
  secretHint := none
  secret :=
    let sealed := encrypt entry.key [] (IntegrationsEncryptionService.aadFor integrationUuid .pat)
      (stringify (.object [("token", .string token)]))
    { keyId := entry.keyId, iv := [], authTag := sealed.2, ciphertext := sealed.1 }

abbrev storing (row : Integration) : World where
  db
    | .integrations => ⟨[row], row.id + 1, by simp [Entity.id], by simp⟩
    | _ => Table.empty
  locked _ := false

abbrev answering (k : Nat) : Env :=
  { env k with
    user := .ok { status := 200, login := some "ann", oauthScopes := some "repo", tokenExpiration := none } }

end Sample

end Kerghan.Integrations
