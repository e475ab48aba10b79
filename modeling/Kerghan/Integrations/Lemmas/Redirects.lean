import Kerghan.Integrations.Lemmas.Calls
import Kerghan.Integrations.Lemmas.Flows

/-!
This module contains the proof that the reply of every callback of the redirect flows says what it has seen
and written.
-/

namespace Kerghan.Integrations

open IntegrationCredentialService IntegrationStoreService

abbrev Calm : IntegrationsHistory → Effect → Prop :=
  fun _ s => s.isOnIntegrations = false ∧ s.isCapped = false

def FlowResult.replaced (result : FlowResult) : Option Integration :=
  if result.created then none else some result.integration

def GithubAppCallbackResult.replaced : GithubAppCallbackResult → Option Integration
  | .stored result => result.replaced
  | .selection _ => none

section States

variable [Platform] {userId : Nat} {state : String} {h : IntegrationsHistory}

theorem OauthStateService.consume_calm
    : (OauthStateService.consume userId state).Meets Answers Calm (fun _ _ => True) h := by
  unfold OauthStateService.consume
  rw [Api.meets_now]
  refine ⟨⟨rfl, rfl⟩, fun now => ?_⟩
  split
  . dsimp only
    rw [Api.meets_query]
    refine ⟨⟨rfl, rfl⟩, fun found _ => ?_, fun _ => trivial⟩
    cases found with
    | none => trivial
    | some row =>
      dsimp only
      rw [Api.meets_query]
      refine ⟨⟨rfl, rfl⟩, fun affected _ => ?_, fun _ => trivial⟩
      split
      . trivial
      . split <;> trivial
  . trivial

theorem OauthStateService.issue_calm [Crypto] {target : StateTarget}
    : (OauthStateService.issue userId target).Meets Answers Calm (fun _ _ => True) h := by
  have hprune : ∀ h₁, (OauthStateService.prunePending userId).Meets Answers Calm (fun _ _ => True) h₁ := by
    intro h₁
    unfold OauthStateService.prunePending
    rw [Api.meets_query]
    refine ⟨⟨rfl, rfl⟩, fun pending _ => ?_, fun _ => trivial⟩
    dsimp only
    split
    . rw [Api.meets_query]
      exact ⟨⟨rfl, rfl⟩, fun _ _ => trivial, fun _ => trivial⟩
    . trivial
  unfold OauthStateService.issue
  rw [Api.meets_now]
  refine ⟨⟨rfl, rfl⟩, fun now => ?_⟩
  rw [Api.meets_query]
  refine ⟨⟨rfl, rfl⟩, fun purged _ => ?_, fun _ => trivial⟩
  refine (hprune _).bind (fun h₁ _ _ _ => ?_) (fun _ _ _ _ => trivial)
  rw [Api.meets_randomUUID]
  refine ⟨⟨rfl, rfl⟩, fun uuid => ?_⟩
  rw [Api.meets_randomBytes]
  refine ⟨⟨rfl, rfl⟩, fun secret => ?_⟩
  rw [Api.meets_randomBytes]
  refine ⟨⟨rfl, rfl⟩, fun codeVerifier => ?_⟩
  rw [Api.meets_query]
  exact ⟨⟨rfl, rfl⟩, fun _ _ => trivial, fun _ => trivial⟩

namespace GithubAppStateService

theorem consume_calm {stage : GithubAppStateStage}
    : (consume userId state stage).Meets Answers Calm (fun _ _ => True) h := by
  unfold consume
  rw [Api.meets_now]
  refine ⟨⟨rfl, rfl⟩, fun now => ?_⟩
  split
  . dsimp only
    rw [Api.meets_query]
    refine ⟨⟨rfl, rfl⟩, fun found _ => ?_, fun _ => trivial⟩
    cases found with
    | none => trivial
    | some row =>
      dsimp only
      rw [Api.meets_query]
      refine ⟨⟨rfl, rfl⟩, fun affected _ => ?_, fun _ => trivial⟩
      split
      . split <;> trivial
      . trivial
  . trivial

theorem issue_calm {stage : GithubAppStateStage} {target : StateTarget} {result : SelectResult}
    : (issue userId stage target result).Meets Answers Calm (fun _ _ => True) h := by
  have hprune : ∀ h₁, (prunePending userId).Meets Answers Calm (fun _ _ => True) h₁ := by
    intro h₁
    unfold prunePending
    rw [Api.meets_query]
    refine ⟨⟨rfl, rfl⟩, fun pending _ => ?_, fun _ => trivial⟩
    dsimp only
    split
    . rw [Api.meets_query]
      exact ⟨⟨rfl, rfl⟩, fun _ _ => trivial, fun _ => trivial⟩
    . trivial
  unfold issue
  rw [Api.meets_now]
  refine ⟨⟨rfl, rfl⟩, fun now => ?_⟩
  rw [Api.meets_query]
  refine ⟨⟨rfl, rfl⟩, fun purged _ => ?_, fun _ => trivial⟩
  refine (hprune _).bind (fun h₁ _ _ _ => ?_) (fun _ _ _ _ => trivial)
  rw [Api.meets_randomUUID]
  refine ⟨⟨rfl, rfl⟩, fun uuid => ?_⟩
  rw [Api.meets_randomBytes]
  refine ⟨⟨rfl, rfl⟩, fun secret => ?_⟩
  rw [Api.meets_query]
  exact ⟨⟨rfl, rfl⟩, fun _ _ => trivial, fun _ => trivial⟩

end GithubAppStateService

end States

variable [Platform] [Crypto] [Locale] {cfg : IntegrationsConfig} {h : IntegrationsHistory} {userId : Nat}

theorem createFrom_replies {type : IntegrationType} {label : String} {validated : ValidatedCredential}
    (hfresh : Fresh (Decides cfg) h)
    : (createFrom cfg type userId label validated).Meets Answers Any
        (Replied (Decides cfg) FlowResult.replaced) h := by
  unfold createFrom
  rw [Api.meets_randomUUID]
  refine ⟨trivial, fun uuid => ?_⟩
  refine (elsewhere_fresh sealCredential_meets decides_isOnIntegrations (hfresh.cons_calm rfl)).bind
    (fun h₁ credential _ ⟨_, hfresh₁, _⟩ => ?_) (fun _ _ _ hq => hq.2.1.replied)
  rw [Api.meets_now]
  refine ⟨trivial, fun now => ?_⟩
  refine (insertWithinCap_replies FlowResult.replaced (hfresh₁.cons_calm rfl)).bind (fun h₂ row _ hq => ?_)
    (fun h₂ e _ hq => hq.1 e rfl)
  exact .of_ok (hq.2 row rfl) (by simp [FlowResult.replaced])

variable (hcollation : ∃ a b, sameText a b = false)

include hcollation

omit [Crypto] in
theorem precheckTarget_replies {T : Type} (updated : T → Option Integration) {type : IntegrationType}
    {target : StateTarget} (hlast : lastLoaded h = none) (hfresh : Fresh (Decides cfg) h)
    : (precheckTarget cfg type userId target).Meets Answers Any
        (fun h' r =>
          (∀ e, r = .error e → Replied (Decides cfg) updated h' (.error e))
            ∧
          ∀ v, r = .ok v → Fresh (Decides cfg) h') h := by
  cases target with
  | replace uuid =>
    unfold precheckTarget
    refine (findOwned_replies hcollation hfresh).bind (fun h₁ row _ hq => ?_)
      (fun h₁ e _ hq => ⟨fun e' heq => by cases heq; exact hq.1 e rfl, by simp⟩)
    obtain ⟨hfresh₁, _⟩ := hq.2 row rfl
    split
    . exact (elsewhere_fresh assertNotLocked_meets decides_isOnIntegrations hfresh₁).mono
        fun h' r _ hq => ⟨fun e heq => hq.2.1.replied, fun _ _ => hq.2.1⟩
    . exact ⟨fun e _ => hfresh₁.replied, by simp⟩
  | create label =>
    unfold precheckTarget
    refine (elsewhere_fresh assertNotLocked_meets decides_isOnIntegrations hfresh).bind
      (fun h₁ _ _ ⟨_, hfresh₁, hlast₁⟩ => ?_)
      (fun h₁ e _ hq => ⟨fun e' _ => hq.2.1.replied, by simp⟩)
    exact assertCreatable_replies hcollation (hlast₁.trans hlast) hfresh₁

namespace OauthAppFlowService

omit [Locale] in
theorem replace_replies {uuid : String} {validated : ValidatedCredential} (hfresh : Fresh (Decides cfg) h)
    : (replace cfg userId uuid validated).Meets Answers Any (Replied (Decides cfg) FlowResult.replaced) h := by
  unfold replace
  refine (findOwned_replies hcollation hfresh).bind (fun h₁ row _ hq => ?_) (fun h₁ e _ hq => hq.1 e rfl)
  obtain ⟨hfresh₁, _, hloaded⟩ := hq.2 row rfl
  refine (elsewhere_fresh sealCredential_meets decides_isOnIntegrations hfresh₁).bind
    (fun h₂ credential hsuffix₂ ⟨_, hfresh₂, _⟩ => ?_) (fun _ _ _ hq => hq.2.1.replied)
  rw [Api.meets_now]
  refine ⟨trivial, fun now => ?_⟩
  have hinHand : InHand (clock now :: h₂) row := .loaded (List.mem_cons_of_mem _ (hsuffix₂.subset hloaded))
  refine (updateOwned_replies FlowResult.replaced hinHand ⟨rfl, Or.inr rfl⟩ (hfresh₂.cons_calm rfl)).bind
    (fun h₃ updated _ hq => ?_) (fun h₃ e _ hq => hq.1 e rfl)
  obtain ⟨hundecided, hwritten⟩ := hq.2 updated rfl
  have hreplied : Replied (Decides cfg) FlowResult.replaced h₃ (.ok { created := false, integration := updated }) := by
    refine .of_ok hundecided fun row heq => ?_
    cases heq
    exact hwritten
  split
  . exact hreplied
  . split
    . exact hreplied
    . refine ((OauthAppRevocationService.revoke_meets.added fun _ _ hs => hs).imp fun _ _ _ => trivial).bind
        (fun h₄ _ hsuffix ⟨_, newer, heq, hnewer⟩ => ?_) (fun _ _ _ ⟨⟨heq, _⟩, _⟩ => by simp at heq)
      have hcalmly : Calmly h₃ h₄ :=
        ⟨newer, heq, fun ev hev => not_isOnIntegrations_of_isElsewhere (hnewer ev hev)⟩
      refine .of_ok (hcalmly.undecided decides_isOnIntegrations hundecided) fun row heq => ?_
      cases heq
      exact hwritten.mono hsuffix

theorem storeOrRevoke_replies {target : StateTarget} {validated : ValidatedCredential}
    (hfresh : Fresh (Decides cfg) h)
    : (storeOrRevoke cfg userId target validated).Meets Answers Any
        (Replied (Decides cfg) FlowResult.replaced) h := by
  have hstore : (store cfg userId target validated).Meets Answers Any
      (Replied (Decides cfg) FlowResult.replaced) h := by
    cases target with
    | create label => exact createFrom_replies hfresh
    | replace uuid => exact replace_replies hcollation hfresh
  unfold storeOrRevoke
  refine hstore.tryCatch (fun _ _ _ hq => hq) fun h₁ e _ hreplied => ?_
  refine ((OauthAppRevocationService.revoke_meets.added fun _ _ hs => hs).imp fun _ _ _ => trivial).bind
    (fun h₂ _ _ ⟨_, newer, heq, hnewer⟩ => ?_) (fun _ _ _ ⟨⟨heq, _⟩, _⟩ => by simp at heq)
  have hcalmly : Calmly h₁ h₂ :=
    ⟨newer, heq, fun ev hev => not_isOnIntegrations_of_isElsewhere (hnewer ev hev)⟩
  exact hcalmly.replied decides_isOnIntegrations hreplied

theorem callback_replies {code state : String} (hlast : lastLoaded h = none) (hfresh : Fresh (Decides cfg) h)
    : (callback cfg userId code state).Meets Answers Any (Replied (Decides cfg) FlowResult.replaced) h := by
  unfold callback enabledConfig
  cases cfg.oauthApp with
  | none => exact hfresh.replied
  | some app =>
    dsimp only
    rw [Prog.pure_bind]
    refine (calm_fresh OauthStateService.consume_calm (fun _ _ hs => hs.1) decides_isOnIntegrations hfresh).bind
      (fun h₁ consumed _ ⟨_, hfresh₁, hlast₁⟩ => ?_) (fun _ _ _ hq => hq.2.1.replied)
    refine (precheckTarget_replies hcollation FlowResult.replaced (hlast₁.trans hlast) hfresh₁).bind
      (fun h₂ _ _ hq => ?_) (fun _ e _ hq => hq.1 e rfl)
    have hvalidate : (validate cfg userId (.oauthApp code consumed.codeVerifier)).Meets Answers Elsewhere
        (fun _ _ => True) h₂ := by
      unfold validate
      exact (attempt_meets (Q := fun _ _ => True) fun h₃ _ _ =>
        OauthAppStrategy.validate_meets.mono fun _ _ _ _ => trivial).mono fun _ _ _ _ => trivial
    exact (elsewhere_fresh hvalidate decides_isOnIntegrations (hq.2 () rfl)).bind
      (fun h₃ validated _ ⟨_, hfresh₃, _⟩ => storeOrRevoke_replies hcollation hfresh₃)
      (fun _ _ _ hq => hq.2.1.replied)

end OauthAppFlowService

theorem GithubAppStore.save_replies {target : StateTarget} {validated : ValidatedCredential}
    (hfresh : Fresh (Decides cfg) h)
    : (GithubAppStore.save cfg userId target validated).Meets Answers Any
        (Replied (Decides cfg) FlowResult.replaced) h := by
  cases target with
  | create label => exact createFrom_replies hfresh
  | replace uuid =>
    unfold GithubAppStore.save
    refine (findOwned_replies hcollation hfresh).bind (fun h₁ row _ hq => ?_) (fun h₁ e _ hq => hq.1 e rfl)
    obtain ⟨hfresh₁, _, hloaded⟩ := hq.2 row rfl
    refine (elsewhere_fresh sealCredential_meets decides_isOnIntegrations hfresh₁).bind
      (fun h₂ credential hsuffix₂ ⟨_, hfresh₂, _⟩ => ?_) (fun _ _ _ hq => hq.2.1.replied)
    rw [Api.meets_now]
    refine ⟨trivial, fun now => ?_⟩
    have hinHand : InHand (clock now :: h₂) row := .loaded (List.mem_cons_of_mem _ (hsuffix₂.subset hloaded))
    refine (updateOwned_replies FlowResult.replaced hinHand ⟨rfl, Or.inr rfl⟩ (hfresh₂.cons_calm rfl)).bind
      (fun h₃ updated _ hq => ?_) (fun h₃ e _ hq => hq.1 e rfl)
    obtain ⟨hundecided, hwritten⟩ := hq.2 updated rfl
    refine .of_ok hundecided fun row heq => ?_
    cases heq
    exact hwritten

namespace GithubAppSelectionService

theorem select_replies {input : GithubAppSelectInput} (hlast : lastLoaded h = none)
    (hfresh : Fresh (Decides cfg) h)
    : (select cfg userId input).Meets Answers Any (Replied (Decides cfg) FlowResult.replaced) h := by
  unfold select enabledConfig
  cases cfg.githubApp with
  | none => exact hfresh.replied
  | some app =>
    dsimp only
    rw [Prog.pure_bind]
    refine (calm_fresh GithubAppStateService.consume_calm (fun _ _ hs => hs.1) decides_isOnIntegrations
      hfresh).bind (fun h₁ consumed _ ⟨_, hfresh₁, hlast₁⟩ => ?_) (fun _ _ _ hq => hq.2.1.replied)
    refine (precheckTarget_replies hcollation FlowResult.replaced (hlast₁.trans hlast) hfresh₁).bind
      (fun h₂ _ _ hq => ?_) (fun _ e _ hq => hq.1 e rfl)
    exact (elsewhere_fresh (attempt_meets fun h₃ _ _ => validateCandidate_meets) decides_isOnIntegrations
      (hq.2 () rfl)).bind (fun h₃ validated _ ⟨_, hfresh₃, _⟩ => GithubAppStore.save_replies hcollation hfresh₃)
      (fun _ _ _ hq => hq.2.1.replied)

end GithubAppSelectionService

theorem GithubAppFlowService.callback_replies {input : GithubAppCallbackInput} (hlast : lastLoaded h = none)
    (hfresh : Fresh (Decides cfg) h)
    : (GithubAppFlowService.callback cfg userId input).Meets Answers Any
        (Replied (Decides cfg) GithubAppCallbackResult.replaced) h := by
  unfold GithubAppFlowService.callback GithubAppSelectionService.enabledConfig
  cases cfg.githubApp with
  | none => exact hfresh.replied
  | some app =>
    dsimp only
    rw [Prog.pure_bind]
    refine (calm_fresh GithubAppStateService.consume_calm (fun _ _ hs => hs.1) decides_isOnIntegrations
      hfresh).bind (fun h₁ consumed _ ⟨_, hfresh₁, hlast₁⟩ => ?_) (fun _ _ _ hq => hq.2.1.replied)
    refine (precheckTarget_replies hcollation GithubAppCallbackResult.replaced (hlast₁.trans hlast)
      hfresh₁).bind (fun h₂ _ _ hq => ?_) (fun _ e _ hq => hq.1 e rfl)
    refine (elsewhere_fresh (attempt_meets fun h₃ _ _ => verify_meets) decides_isOnIntegrations
      (hq.2 () rfl)).bind (fun h₃ verified _ ⟨_, hfresh₃, _⟩ => ?_) (fun _ _ _ hq => hq.2.1.replied)
    cases verified with
    | several user =>
      dsimp only
      unfold GithubAppSelectionService.offer
      simp only [Prog.bind_assoc]
      refine (calm_fresh GithubAppStateService.issue_calm (fun _ _ hs => hs.1) decides_isOnIntegrations
        hfresh₃).bind (fun h₄ _ _ ⟨_, hfresh₄, _⟩ => ?_) (fun _ _ _ hq => hq.2.1.replied)
      exact .of_ok hfresh₄.undecided (by simp [GithubAppCallbackResult.replaced])
    | validated validated =>
      refine (GithubAppStore.save_replies hcollation hfresh₃).bind (fun h₄ result _ hreplied => ?_)
        (fun _ _ _ hreplied => hreplied.error)
      exact .of_ok hreplied.decided.undecided fun row heq => hreplied.written result row rfl heq

/--
The integration that a call has written over, if it is what the call answers.
-/
def IntegrationsReply.changed : IntegrationsReply → Option Integration
  | .integration row => some row
  | .stored result => result.replaced
  | .githubApp result => result.replaced
  | _ => none

namespace IntegrationsCall

def changedBy (call : IntegrationsCall) (reply : IntegrationsReply) : Option Integration :=
  match call with
  | .create .. => none
  | _ => reply.changed

/--
Calls that create an integration or write over one once they know all there is to know.
-/
def replies : IntegrationsCall → Bool
  | .create .. | .rename .. | .replaceCredential .. | .oauthAppCallback .. | .githubAppCallback ..
  | .selectInstallation .. => true
  | _ => false

theorem prog_replies (call : IntegrationsCall) (hcall : call.replies = true)
    : (call.prog cfg).Meets Answers Any (Replied (Decides cfg) call.changedBy) [] := by
  have hfresh : Fresh (Decides cfg) [] := ⟨.nil, not_changed_nil⟩
  have hmap : ∀ {T : Type} {prog : Api T} {f : T → IntegrationsReply} {updated : T → Option Integration},
      prog.Meets Answers Any (Replied (Decides cfg) updated) [] → (∀ v, call.changedBy (f v) = updated v) →
      (f <$> prog).Meets Answers Any (Replied (Decides cfg) call.changedBy) [] := by
    intro T prog f updated hprog hf
    refine hprog.map (fun h' v hreplied => ?_) fun h' e hreplied => hreplied.error
    exact .of_ok hreplied.decided.undecided fun row hrow => hreplied.written v row rfl (hf v ▸ hrow)
  cases call with
  | create => exact hmap (IntegrationsService.create_replies hcollation rfl hfresh) fun _ => rfl
  | rename => exact hmap (IntegrationsService.rename_replies hcollation hfresh) fun _ => rfl
  | replaceCredential =>
    exact hmap (IntegrationsService.replaceCredential_replies hcollation hfresh) fun _ => rfl
  | oauthAppCallback =>
    exact hmap (OauthAppFlowService.callback_replies hcollation rfl hfresh) fun _ => rfl
  | githubAppCallback =>
    exact hmap (GithubAppFlowService.callback_replies hcollation rfl hfresh) fun _ => rfl
  | selectInstallation =>
    exact hmap (GithubAppSelectionService.select_replies hcollation rfl hfresh) fun _ => rfl
  | _ => simp [replies] at hcall

end IntegrationsCall

end Kerghan.Integrations
