import Kerghan.Integrations.Contract

/-!
This module contains the proof that the payload of a validated credential is read back from its JSON text by
the strategy that has written it.
-/

namespace Kerghan.Integrations

section Token

theorem trim_of_charset {token : String} (h : TOKEN_CHARSET token = true) : trim token = token := by
  apply trim_eq_self
  intro c hc
  have hchars := (Bool.and_eq_true_iff.mp h).2
  exact isSpace_of_isAlphanumeric (List.all_eq_true.mp hchars c hc)

theorem checkToken_ok {value : Json} {token : String} (h : checkToken value = .ok token)
    : checkToken (.string token) = .ok token := by
  unfold checkToken at h
  split at h
  . next text =>
    dsimp only at h
    split at h
    . simp at h
    . next hlength =>
      split at h
      . simp at h
      . next hcharset =>
        split at h
        . simp at h
        . next hkind =>
          obtain rfl : trim text = token := Except.ok.inj h
          have htrim : trim (trim text) = trim text := trim_of_charset (Bool.eq_true_of_not_eq_false hcharset)
          unfold checkToken
          simp only [htrim]
          rw [if_neg hlength, if_neg hcharset, if_neg hkind]
  . simp at h

theorem checkCredential_ok {raw : Json} {token : String} (h : checkCredential raw = .ok token)
    : parsePatPayload (Payload.pat token).toJson = some (.pat token) := by
  have htoken : checkToken (.string token) = .ok token := by
    unfold checkCredential at h
    split at h
    . exact checkToken_ok h
    . simp at h
    . simp at h
  unfold parsePatPayload
  rw [show checkCredential (Payload.pat token).toJson = .ok token from htoken]

theorem parseOauthAppPayload_toJson {token : String} (h : isOauthAppToken token = true)
    : parseOauthAppPayload (Payload.oauthApp token).toJson = some (.oauthApp token) := by
  simp only [Payload.toJson, parseOauthAppPayload, h, if_true]

theorem parseGithubAppPayload_toJson {installationId : Int} (h : isPositiveId installationId = true)
    : parseGithubAppPayload (Payload.githubApp installationId).toJson = some (.githubApp installationId) := by
  simp only [Payload.toJson, parseGithubAppPayload, h, if_true]

end Token

section Validated

variable [Platform] [Crypto] {cfg : IntegrationsConfig} {h : IntegrationsHistory} {call : IntegrationsCall}
variable {userId : Nat} {type : IntegrationType} {validated : ValidatedCredential}

omit [Platform] [Crypto] in
theorem Confirmed.isPositiveId {app : EnabledGithubAppConfig} {installationId : Int}
    {installation : GithubAppInstallation} (hconfirmed : Confirmed h app installationId installation)
    : isPositiveId installation.installationId = true := by
  have hwellFormed := hconfirmed.wellFormed
  unfold isWellFormed at hwellFormed
  exact (Bool.and_eq_true_iff.mp (Bool.and_eq_true_iff.mp hwellFormed).1).1

omit [Crypto] in
theorem Validated.parseSecretPayload (hvalidated : Validated cfg h call userId type validated)
    : parseSecretPayload type validated.secret.toJson = some validated.secret := by
  cases hvalidated with
  | created _ hparsed hpat =>
    obtain ⟨_, _, _, rfl⟩ := hpat
    have haccepted := checkCredential_ok hparsed
    dsimp only [Integrations.parseSecretPayload]
    rw [haccepted]
  | replaced hparsed hpat =>
    obtain ⟨_, _, _, rfl⟩ := hpat
    have haccepted := checkCredential_ok hparsed
    dsimp only [Integrations.parseSecretPayload]
    rw [haccepted]
  | oauthApp _ _ hwellFormed hoauthApp =>
    obtain ⟨_, _, _, rfl⟩ := hoauthApp
    exact parseOauthAppPayload_toJson hwellFormed
  | picked _ _ _ _ _ hgithubApp =>
    obtain ⟨_, _, hconfirmed, _, rfl⟩ := hgithubApp
    exact parseGithubAppPayload_toJson hconfirmed.isPositiveId
  | selected _ _ _ _ _ hgithubApp =>
    obtain ⟨_, _, hconfirmed, _, rfl⟩ := hgithubApp
    exact parseGithubAppPayload_toJson hconfirmed.isPositiveId

theorem parse_stringify (hvalidated : Validated cfg h call userId type validated)
    : Crypto.parse (Crypto.stringify validated.secret.toJson) = some validated.secret.toJson := by
  have haccepted := hvalidated.parseSecretPayload
  cases hsecret : validated.secret with
  | pat token => exact Crypto.parse_token token
  | oauthApp token => exact Crypto.parse_token token
  | githubApp installationId =>
    apply Crypto.parse_installationId
    rw [hsecret] at haccepted
    cases type with
    | pat => simp [Integrations.parseSecretPayload, Payload.toJson, parsePatPayload, checkCredential] at haccepted
    | oauthApp => simp [Integrations.parseSecretPayload, Payload.toJson, parseOauthAppPayload] at haccepted
    | githubApp =>
      by_contra hfalse
      simp [Integrations.parseSecretPayload, Payload.toJson, parseGithubAppPayload, hfalse] at haccepted

theorem Validated.decryptRow (hvalidated : Validated cfg h call userId type validated)
    {keys : IntegrationsKey} {row : Integration}
    (hplaintext : IntegrationsEncryptionService.decryptBuffer keys row.secret row.uuid row.type =
      some (Crypto.stringify validated.secret.toJson))
    : decryptRow keys type row = some validated.secret := by
  unfold Integrations.decryptRow IntegrationsEncryptionService.decrypt
  rw [hplaintext, Option.bind_some, parse_stringify hvalidated, Option.bind_some]
  exact hvalidated.parseSecretPayload

end Validated

end Kerghan.Integrations
