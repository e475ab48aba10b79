import Kerghan.Integrations.Contract

/-!
This module contains what a call has seen once GitHub has answered: who the user of a token is, which token
a code has been exchanged for, and what has been verified of an installation.
-/

namespace Kerghan.Integrations

/--
The contract of programs that have nothing to do with the integrations.
-/
abbrev Elsewhere : IntegrationsHistory → Effect → Prop :=
  fun _ s => s.isElsewhere = true

def Obtained (h : IntegrationsHistory) (token : String) : Prop :=
  ∃ request, Exchanged h request token

def Revoked (h : IntegrationsHistory) (token : String) : Prop :=
  ∃ request answer, ⟨.revokeOauthToken request, answer⟩ ∈ h ∧ request.token = token

section Events

variable {h h' : IntegrationsHistory} {ev : (s : Effect) × Answer s} {token : String}

theorem Obtained.of_cons (hev : ∀ request, ev.1 ≠ .exchangeOauthCode request)
    (hobtained : Obtained (ev :: h) token)
    : Obtained h token := by
  obtain ⟨request, answer, hmem, htoken⟩ := hobtained
  rcases List.mem_cons.mp hmem with heq | hold
  . exact absurd (congrArg Sigma.fst heq).symm (hev request)
  . exact ⟨request, answer, hold, htoken⟩

theorem Revoked.mono (hsub : h ⊆ h') (hrevoked : Revoked h token) : Revoked h' token := by
  obtain ⟨request, answer, hmem, htoken⟩ := hrevoked
  exact ⟨request, answer, hsub hmem, htoken⟩

end Events

section Answers

theorem classifyGithubUser_ok {response response' : GithubUserResponse} {now : Date} {login : String}
    (h : classifyGithubUser response now = .ok login response')
    : response' = response ∧ response.status = 200 ∧ usableLogin response.login = some login := by
  unfold classifyGithubUser at h
  split at h
  . next hstatus hlogin =>
    cases h
    exact ⟨rfl, beq_iff_eq.mp hstatus, hlogin⟩
  . split at h
    . simp at h
    . split at h <;> simp at h

variable {h : IntegrationsHistory}

theorem fetchGithubUser_meets {token : String}
    : (fetchGithubUser token).Meets Answers Elsewhere
        (fun h' r => (∀ t, Obtained h' t → Obtained h t) ∧ ∀ login response,
          r = .ok (.ok login response) → Identified h' token login response) h := by
  unfold fetchGithubUser
  rw [Api.meets_now]
  refine ⟨rfl, fun now => ⟨rfl, fun answer _ => ?_⟩⟩
  have hobtained : ∀ t, Obtained (⟨.getUser token, answer⟩ :: clock now :: h) t → Obtained h t := by
    intro t ht
    exact (ht.of_cons (by simp)).of_cons (by simp)
  cases answer with
  | error e =>
    cases e with
    | githubClientError reason => exact ⟨hobtained, by simp⟩
    | unexpected => exact ⟨hobtained, by simp⟩
  | ok response =>
    refine ⟨hobtained, fun login response' heq => ?_⟩
    obtain ⟨rfl, hstatus, hlogin⟩ := classifyGithubUser_ok (Except.ok.inj heq)
    exact ⟨List.mem_cons_self .., hstatus, hlogin⟩

theorem exchangeOauthCode_meets {request : OauthCodeExchangeRequest}
    : (exchangeOauthCode request).Meets Answers Elsewhere
        (fun h' r =>
          (∀ t, Obtained h' t → Obtained h t ∨ ∃ answer, r = .ok answer ∧ answer.accessToken = some t)
            ∧
          ∀ answer token, r = .ok answer → answer.accessToken = some token →
            Exchanged h' request token) h := by
  unfold exchangeOauthCode
  refine ⟨rfl, fun answer _ => ?_⟩
  cases answer with
  | error e =>
    have hobtained : ∀ t, Obtained (⟨.exchangeOauthCode request, .error e⟩ :: h) t → Obtained h t := by
      intro t ⟨request', answer, hmem, htoken⟩
      cases List.mem_cons.mp hmem with
      | inl heq => cases heq
      | inr hold => exact ⟨request', answer, hold, htoken⟩
    cases e with
    | githubClientError reason => exact ⟨fun t ht => Or.inl (hobtained t ht), by simp⟩
    | unexpected => exact ⟨fun t ht => Or.inl (hobtained t ht), by simp⟩
  | ok raw =>
    constructor
    . intro t ⟨request', answer, hmem, htoken, hne⟩
      rcases List.mem_cons.mp hmem with heq | hold
      . cases heq
        refine Or.inr ⟨_, rfl, ?_⟩
        simp [htoken, hne]
      . exact Or.inl ⟨request', answer, hold, htoken, hne⟩
    . intro answer token heq htoken
      cases heq
      obtain ⟨hraw, hne⟩ := Option.filter_eq_some_iff.mp htoken
      exact ⟨raw, List.mem_cons_self .., hraw, by simpa using hne⟩

theorem exchangeErrorFor_meets {answer : OauthCodeExchangeResponse}
    : (exchangeErrorFor answer).Meets Answers Elsewhere
        (fun h' r => (∀ t, Obtained h' t → Obtained h t) ∧ ∃ e, r = .ok e) h := by
  unfold exchangeErrorFor
  split
  . rw [Api.meets_now]
    exact ⟨rfl, fun now => ⟨fun t ht => ht.of_cons (by simp), _, rfl⟩⟩
  . split
    . exact ⟨fun _ ht => ht, _, rfl⟩
    . split
      . exact ⟨fun _ ht => ht, _, rfl⟩
      . exact ⟨fun _ ht => ht, _, rfl⟩

end Answers

end Kerghan.Integrations
