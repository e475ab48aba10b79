import Kerghan.Integrations.Effect

/-!
This module contains the statements that the repositories of the Integrations module send to the database.
-/

namespace Kerghan.Integrations

abbrev Statement := Stmt Row

section CredentialLockouts

abbrev findLockout (userId : Nat) : Statement :=
  .find .credentialLockouts (fun r => r.userId == userId) fun _ => 0

/--
The `INSERT` of `ENSURE_LOCKOUT_ROW_SQL`. Its `ON DUPLICATE KEY UPDATE` changes nothing.
-/
abbrev insertLockoutRow (userId : Nat) : Statement :=
  .insert .credentialLockouts fun id _ => { id, userId, failedAttempts := 0, lockedUntil := none }

/--
`RESERVE_ATTEMPT_SQL`: `locked_until` is assigned before `failed_attempts` is incremented.
-/
abbrev reserveAttemptSql (maxAttempts : Int) (lockedUntil : Date) (userId : Nat) (now : Date)
    : Statement :=
  .update .credentialLockouts
    (fun r => r.userId == userId && r.lockedUntil.all fun lockedUntil => decide (lockedUntil ≤ now))
    fun _ r => { r with
      lockedUntil := if r.failedAttempts + 1 ≥ maxAttempts then some lockedUntil else none
      failedAttempts := r.failedAttempts + 1 }

/--
`RELEASE_ATTEMPT_SQL`
-/
abbrev releaseAttemptSql (userId : Nat) : Statement :=
  .update .credentialLockouts (fun r => r.userId == userId) fun _ r =>
    { r with failedAttempts := max (r.failedAttempts - 1) 0, lockedUntil := none }

abbrev resetLockout (userId : Nat) : Statement :=
  .update .credentialLockouts (fun r => r.userId == userId) fun _ r =>
    { r with failedAttempts := 0, lockedUntil := none }

end CredentialLockouts

section OauthStates

abbrev purgeOauthStates (now : Date) : Statement :=
  .delete .oauthStates fun r => decide (r.expiresAt ≤ now)

abbrev allOauthStates (userId : Nat) : Statement :=
  .all .oauthStates fun r => r.userId == userId

abbrev deleteOauthStates (ids : List Nat) : Statement :=
  .delete .oauthStates fun r => ids.contains r.id

abbrev insertOauthState (mk : Nat → IntegrationOauthState) : Statement :=
  .insert .oauthStates fun id _ => mk id

abbrev findOauthState [Platform] (uuid : String) (userId : Nat) : Statement :=
  .find .oauthStates (fun r => sameText r.uuid uuid && r.userId == userId) fun _ => 0

abbrev deleteOauthState (id : Nat) : Statement :=
  .delete .oauthStates fun r => r.id == id

end OauthStates

section GithubAppStates

abbrev purgeGithubAppStates (now : Date) : Statement :=
  .delete .githubAppStates fun r => decide (r.expiresAt ≤ now)

abbrev allGithubAppStates (userId : Nat) : Statement :=
  .all .githubAppStates fun r => r.userId == userId

abbrev deleteGithubAppStates (ids : List Nat) : Statement :=
  .delete .githubAppStates fun r => ids.contains r.id

abbrev insertGithubAppState (mk : Nat → IntegrationGithubAppState) : Statement :=
  .insert .githubAppStates fun id _ => mk id

abbrev findGithubAppState [Platform] (uuid : String) (userId : Nat) : Statement :=
  .find .githubAppStates (fun r => sameText r.uuid uuid && r.userId == userId) fun _ => 0

abbrev deleteGithubAppState (id : Nat) : Statement :=
  .delete .githubAppStates fun r => r.id == id

end GithubAppStates

section Integrations

variable [Platform]

abbrev findIntegration (uuid : String) (userId : Nat) : Statement :=
  .find .integrations (fun r => sameText r.uuid uuid && r.userId == userId) fun _ => 0

abbrev countIntegrations (userId : Nat) : Statement :=
  .count .integrations fun r => r.userId == userId

abbrev findByLabel (userId : Nat) (labelNormalized : String) : Statement :=
  .find .integrations (fun r => r.userId == userId && sameText r.labelNormalized labelNormalized)
    fun _ => 0

abbrev insertIntegration (mk : Nat → Integration) : Statement :=
  .insert .integrations fun id _ => mk id

/--
`repository.update({ id, userId }, changes)`
-/
abbrev updateIntegration (id userId : Nat) (changes : Integration → Integration) : Statement :=
  .update .integrations (fun r => r.id == id && r.userId == userId) fun _ r => changes r

abbrev rewriteSecretSql (id userId : Nat) (expectedKeyId : String) (encrypted : EncryptedSecret)
    : Statement :=
  .update .integrations
    (fun r => r.id == id && r.userId == userId && r.secret.keyId == expectedKeyId)
    fun _ r => { r with secret := encrypted }

abbrev deleteIntegration (id userId : Nat) : Statement :=
  .delete .integrations fun r => r.id == id && r.userId == userId

/--
The `UPDATE` of `IntegrationTestCooldownService.claim`.
-/
abbrev claimTest (uuid : String) (userId : Nat) (now threshold : Date) : Statement :=
  .update .integrations
    (fun r => sameText r.uuid uuid && r.userId == userId
      && r.lastTestedAt.all fun lastTestedAt => decide (lastTestedAt < threshold))
    fun _ r => { r with lastTestedAt := some (toDatetime now) }

abbrev allBySecretKeyIds (keyIds : List String) (afterId : Nat) : Statement :=
  .all .integrations fun r => keyIds.contains r.secret.keyId && decide (r.id > afterId)

end Integrations

end Kerghan.Integrations
