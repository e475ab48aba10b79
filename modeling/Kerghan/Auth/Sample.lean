import Kerghan.Auth.Call

/-!
This module contains a platform, a configuration and an environment that concrete runs can be
evaluated with.
-/

namespace Kerghan

namespace Sample

/--
Tokens are their own hashes and passwords their own digests.
-/
abbrev platform : Platform where
  sha256Hex token := token
  bcryptHash _ password := password
  bcryptCompare password digest := password == digest
  jwtSign payload _ := payload.sid
  collation text := text
  number _ := none
  dateOf _ := none

abbrev config : AuthConfig where
  get _ := none
  isIpAllowed _ := false
  defaultUserId := none

/--
The `k`-th step happens at time `k`, and draws values that no other step draws.
-/
abbrev env (k : Nat) : AuthEnv where
  now := k
  choice := 0
  fault := false
  uuid := String.ofList (List.replicate k 'u')
  bytes := String.ofList (List.replicate k 'b')
  salt := ""
  mail := .sent

/--
The `k`-th step, if the database fails at the step `n`.
-/
abbrev faultAt (n k : Nat) : AuthEnv :=
  { env k with fault := k == n }

/--
The schedule that lets the calls `order` move one after the other.
-/
abbrev schedule (order : List Nat) : Schedule :=
  order.mapIdx fun k i => (i, env k)

abbrev ann : User where
  id := 1
  username := "ann"
  email := "ann@example.com"
  passwordDigest := "secret"
  isAdmin := false
  status := .approved

attribute [local instance] platform

abbrev db (user : User) : AuthDb
  | .users => ⟨[user], user.id + 1, by simp [Entity.id], by simp⟩
  | _ => Table.empty

abbrev annsToken : RefreshToken where
  id := 1
  tokenHash := "token"
  userId := 1
  expiresAt := 1000
  issuedAt := 0
  revokedAt := none
  revokedReason := none
  keepSignedIn := false
  sessionUuid := "session"
  startedAt := 0

abbrev signedIn : AuthDb
  | .users => .single ann
  | .refreshTokens => .single annsToken
  | _ => Table.empty

end Sample

end Kerghan
