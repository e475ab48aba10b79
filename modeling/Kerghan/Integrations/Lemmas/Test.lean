import Kerghan.Integrations.Lemmas.Integrations

/-!
This module contains what a connection test writes, and that it asks GitHub only once it has claimed the
integration.
-/

namespace Kerghan.Integrations

open IntegrationStoreService IntegrationConnectionTestService IntegrationTestCooldownService

def Effect.callsGithub : Effect → Bool
  | .getUser _ | .exchangeOauthCode _ | .revokeOauthToken _ | .listUserInstallations ..
  | .getAppInstallation _ | .createInstallationToken _ => true
  | _ => false

/--
An update of a test that has no verdict on the secret: the claim, the re-encryption and the record of a
transient outcome.
-/
inductive IsPassing [Platform] : Statement → Prop where
  | claim {uuid : String} {userId : Nat} {now threshold : Date} : IsPassing (claimTest uuid userId now threshold)
  | rewrite {id userId : Nat} {keyId : String} {encrypted : EncryptedSecret}
    : IsPassing (rewriteSecretSql id userId keyId encrypted)
  | transient {id userId : Nat} {now : Date} : IsPassing (updateIntegration id userId (transientColumns now))

def Passing [Platform] (h : IntegrationsHistory) : Prop :=
  ∀ p f, ∀ affected : Nat, ran (.update .integrations p f) affected ∈ h → IsPassing (.update .integrations p f)

section Passing

variable [Platform] {h h' : IntegrationsHistory}

theorem Passing.cons {ev : (s : Effect) × Answer s} (hpassing : Passing h)
    (hev : ∀ p f, ∀ affected : Nat, ev = ran (.update .integrations p f) affected →
      IsPassing (.update .integrations p f))
    : Passing (ev :: h) := by
  intro p f affected hmem
  rcases List.mem_cons.mp hmem with heq | hold
  . exact hev p f affected heq.symm
  . exact hpassing p f affected hold

theorem Passing.of_added (hpassing : Passing h)
    (hadded : ∃ newer, h' = newer ++ h ∧ ∀ ev ∈ newer, ev.1.updatesIntegrations = false)
    : Passing h' := by
  obtain ⟨newer, rfl, hnewer⟩ := hadded
  intro p f affected hmem
  rcases List.mem_append.mp hmem with hnew | hold
  . exact absurd (hnewer _ hnew) (by simp [Effect.updatesIntegrations])
  . exact hpassing p f affected hold

theorem elsewhere_passes {T : Type} {prog : Api T} {Q : IntegrationsHistory → Except Thrown T → Prop}
    (hprog : prog.Meets Answers Elsewhere Q h) (hpassing : Passing h)
    : prog.Meets Answers Elsewhere (fun h' r => Q h' r ∧ Passing h') h := by
  refine (hprog.added fun _ _ hs => not_updates_of_isQuiet (isQuiet_of_isElsewhere hs)).mono ?_
  exact fun h' r _ ⟨hq, hadded⟩ => ⟨hq, hpassing.of_added hadded⟩

end Passing

variable [Platform] [Crypto] {cfg : IntegrationsConfig} {userId : Nat} {uuid : String} {h : IntegrationsHistory}

section Tests

variable (cfg) (userId) (uuid)

/--
The call has claimed the integration `row` that it has found, at the time `now` that it has read.
-/
def ClaimedAt (h : IntegrationsHistory) (row : Integration) (now : Date) : Prop :=
  ∃ newer older,
    h = newer ++ ran (claimTest row.uuid userId now (now - cooldownMs cfg)) (1 : Nat) :: older
      ∧
    Loaded older userId uuid row
      ∧
    clock now ∈ older

inductive Tests (h : IntegrationsHistory) : Effect → Prop where
  | free {s : Effect} (hs : s.updatesIntegrations = false) (hgithub : s.callsGithub = false) : Tests h s
  | github {s : Effect} {row : Integration} {now : Date} (hs : s.updatesIntegrations = false)
    (hclaimed : ClaimedAt cfg userId uuid h row now)
    : Tests h s
  | claim {row : Integration} {now : Date} (hloaded : Loaded h userId uuid row) (hread : clock now ∈ h)
    : Tests h (.db (claimTest row.uuid userId now (now - cooldownMs cfg)))
  | rewrite {id owner : Nat} {keyId : String} {encrypted : EncryptedSecret}
    : Tests h (.db (rewriteSecretSql id owner keyId encrypted))
  | undecryptable {id owner : Nat} {now : Date}
    : Tests h (.db (updateIntegration id owner (undecryptableColumns now)))
  | record {id owner : Nat} {type : IntegrationType} {now : Date} {outcome : TestOutcome}
    {changes : Integration → Integration} (hrecords : Records type now outcome changes)
    : Tests h (.db (updateIntegration id owner changes))

end Tests

omit [Crypto] in
theorem ClaimedAt.mono {h' : IntegrationsHistory} {row : Integration} {now : Date} (hsuffix : h <:+ h')
    (hclaimed : ClaimedAt cfg userId uuid h row now)
    : ClaimedAt cfg userId uuid h' row now := by
  obtain ⟨added, rfl⟩ := hsuffix
  obtain ⟨newer, older, rfl, hloaded, hread⟩ := hclaimed
  exact ⟨added ++ newer, older, by simp, hloaded, hread⟩

omit [Crypto] in
theorem elsewhere_tests {T : Type} {prog : Api T} {Q : IntegrationsHistory → Except Thrown T → Prop}
    {row : Integration} {now : Date} (hprog : prog.Meets Answers Elsewhere Q h)
    (hclaimed : ClaimedAt cfg userId uuid h row now)
    : prog.Meets Answers (fun h s => Tests cfg userId uuid h s) Q h := by
  refine hprog.imp_of_suffix fun h' s hsuffix hs => ?_
  exact .github (not_updates_of_isQuiet (isQuiet_of_isElsewhere hs)) (hclaimed.mono hsuffix)

namespace IntegrationConnectionTestService

omit [Crypto] in
theorem record_tests {row : Integration} {outcome : TestOutcome} {now : Date} (hpassing : Passing h)
    : (record row outcome now).Meets Answers (Tests cfg userId uuid)
        (fun h' r => ∀ e, r = .error e → Passing h') h := by
  have hupdate : ∀ changes : (Date → Date) → Integration → Integration,
      Records row.type (toDatetime now) outcome (changes toDatetime) →
      (updateOwned row changes).Meets Answers (Tests cfg userId uuid)
        (fun h' r =>
          (∃ affected : Nat, h' = ran (updateIntegration row.id row.userId (changes toDatetime)) affected :: h ∧
            r = .ok (changes id row)) ∨
          (Passing h' ∧ ∃ e, r = .error e)) h := by
    intro changes hrecords
    refine (updateOwned_meets (.record hrecords)).mono fun h' r _ hq => ?_
    rcases hq with hran | ⟨e, e', heq, herror⟩
    . exact Or.inl hran
    . refine Or.inr ⟨?_, e', herror⟩
      rw [heq]
      exact hpassing.cons fun _ _ _ heq => absurd heq failed_ne_ran
  have hverdict : ∀ changes : (Date → Date) → Integration → Integration,
      Records row.type (toDatetime now) outcome (changes toDatetime) →
      (updateOwned row changes).Meets Answers (Tests cfg userId uuid)
        (fun h' r => ∀ e, r = .error e → Passing h') h := by
    intro changes hrecords
    refine (hupdate changes hrecords).mono fun h' r _ hq => ?_
    rcases hq with ⟨_, _, heq⟩ | ⟨hpassing', _⟩
    . simp [heq]
    . exact fun _ _ => hpassing'
  unfold record
  split
  . apply ofExcept_meets.bind
    . intro h₁ described _ ⟨hsame, hdescribed⟩
      subst hsame
      exact hverdict _ (.active hdescribed.symm)
    . intro h₁ e _ ⟨hsame, _⟩
      subst hsame
      exact fun _ _ => hpassing
  . exact hverdict _ .invalid
  . exact hverdict _ .expired
  . apply (hupdate _ .transient).bind
    . intro h₁ updated _ hq
      have hpassing' : Passing h₁ := by
        rcases hq with ⟨affected, heq, _⟩ | ⟨hpassing', _⟩
        . rw [heq]
          refine hpassing.cons fun p f affected' hran => ?_
          cases hran
          exact .transient
        . exact hpassing'
      split
      . exact fun _ _ => hpassing'
      . exact fun _ _ => hpassing'
    . intro h₁ e _ hq
      rcases hq with ⟨_, _, heq⟩ | ⟨hpassing', _⟩
      . simp at heq
      . exact fun _ _ => hpassing'

theorem reencryptIfPrevious_tests {row : Integration} {now : Date}
    (hclaimed : ClaimedAt cfg userId uuid h row now) (hpassing : Passing h)
    : (reencryptIfPrevious cfg row).Meets Answers (Tests cfg userId uuid) (fun h' _ => Passing h') h := by
  unfold reencryptIfPrevious
  dsimp only
  split
  . apply (elsewhere_tests (elsewhere_passes reencrypt_meets hpassing) hclaimed).bind
    . intro h₁ encrypted _ ⟨_, hpassing₁⟩
      cases encrypted with
      | none => exact hpassing₁
      | some encrypted =>
        dsimp only
        unfold rewriteSecret
        rw [Prog.bind_assoc, Api.meets_query]
        refine ⟨.rewrite, fun affected _ => ?_, fun _ => ?_⟩
        . have hpassing₂ : Passing (ran (rewriteSecretSql row.id row.userId row.secret.keyId encrypted)
              affected :: h₁) := by
            refine hpassing₁.cons fun p f affected' hran => ?_
            cases hran
            exact .rewrite
          split
          . exact hpassing₂
          . exact hpassing₂
        . exact hpassing₁.cons fun _ _ _ heq => absurd heq failed_ne_ran
    . intro h₁ _ _ ⟨_, hpassing₁⟩
      exact hpassing₁
  . exact hpassing

theorem test_tests
    : (test cfg userId uuid).Meets Answers (Tests cfg userId uuid)
        (fun h' r => ∀ e, r = .error e → Passing h') [] := by
  have hnil : Passing [] := fun _ _ _ hmem => absurd hmem List.not_mem_nil
  unfold test
  have hfind : (findOwned userId uuid).Meets Answers (Tests cfg userId uuid)
      (fun h' r => Passing h' ∧ ∀ row, r = .ok row → Loaded h' userId uuid row) [] := by
    unfold findOwned
    split
    . rw [Api.meets_query]
      refine ⟨.free rfl rfl, fun found _ => ?_, fun _ => ?_⟩
      . have hpassing : Passing [ran (findIntegration uuid userId) found] :=
          hnil.cons fun _ _ _ heq => by cases heq
        cases found with
        | none => exact ⟨hpassing, by simp⟩
        | some row =>
          refine ⟨hpassing, fun row' heq => ?_⟩
          cases heq
          exact List.mem_cons_self ..
      . exact ⟨hnil.cons fun _ _ _ heq => absurd heq failed_ne_ran, by simp⟩
    . exact ⟨hnil, by simp⟩
  -- the claim comes after the lookup, and GitHub after the claim
  apply hfind.bind
  . intro h₁ row _ ⟨hpassing, hfound⟩
    have hloaded : Loaded h₁ userId uuid row := hfound row rfl
    rw [Api.meets_now]
    refine ⟨.free rfl rfl, fun now => ?_⟩
    have hpassing₁ : Passing (clock now :: h₁) := hpassing.cons fun _ _ _ heq => by cases heq
    unfold claim
    rw [Prog.bind_assoc, Api.meets_query]
    refine ⟨.claim (List.mem_cons_of_mem _ hloaded) (List.mem_cons_self ..), fun affected _ => ?_,
      fun _ _ _ => ?_⟩
    . have hpassing₂ : Passing (ran (claimTest row.uuid userId now (now - cooldownMs cfg)) affected ::
          clock now :: h₁) := by
        refine hpassing₁.cons fun p f affected' hran => ?_
        cases hran
        exact .claim
      split
      . next hone =>
        have hclaimed : ClaimedAt cfg userId uuid (ran (claimTest row.uuid userId now (now - cooldownMs cfg))
            affected :: clock now :: h₁) row now := by
          rw [hone]
          exact ⟨[], clock now :: h₁, rfl, List.mem_cons_of_mem _ hloaded, List.mem_cons_self ..⟩
        rw [Prog.pure_bind]
        dsimp only
        split
        . refine (updateOwned_meets .undecryptable).mono fun h' r _ hq => ?_
          rcases hq with ⟨_, _, heq⟩ | ⟨_, _, heq, _⟩
          . simp [heq]
          . rw [heq]
            exact fun _ _ => hpassing₂.cons fun _ _ _ heq => absurd heq failed_ne_ran
        . apply (reencryptIfPrevious_tests hclaimed hpassing₂).bind
          . intro h₂ row' hsuffix hpassing₃
            apply (elsewhere_tests (elsewhere_passes testSecret_meets hpassing₃)
              (hclaimed.mono hsuffix)).bind
            . intro h₃ outcome _ ⟨_, hpassing₄⟩
              exact record_tests hpassing₄
            . intro h₃ _ _ ⟨_, hpassing₄⟩
              exact fun _ _ => hpassing₄
          . intro h₂ _ _ hpassing₃
            exact fun _ _ => hpassing₃
      . unfold remainingSeconds
        simp only [Prog.bind_assoc]
        rw [Api.meets_query]
        have hfound : ∀ found, Passing (ran (findIntegration row.uuid userId) found ::
            ran (claimTest row.uuid userId now (now - cooldownMs cfg)) affected :: clock now :: h₁) :=
          fun found => hpassing₂.cons fun _ _ _ heq => by cases heq
        refine ⟨.free rfl rfl, fun found _ => ?_, fun _ _ _ => ?_⟩
        . cases found with
          | none => exact fun _ _ => hfound none
          | some row' => exact fun _ _ => hfound (some row')
        . exact hpassing₂.cons fun _ _ _ heq => absurd heq failed_ne_ran
    . exact hpassing₁.cons fun _ _ _ heq => absurd heq failed_ne_ran
  . intro h₁ _ _ ⟨hpassing, _⟩
    exact fun _ _ => hpassing

end IntegrationConnectionTestService

end Kerghan.Integrations
