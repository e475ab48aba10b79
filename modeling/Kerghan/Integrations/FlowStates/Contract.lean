import Kerghan.Integrations.Impl.State
import Kerghan.Integrations.Run

/-!
This module contains the contracts of `OauthStateService` and `GithubAppStateService`: what they write to
their tables, and what a state that has been consumed was stored as.
-/

namespace Kerghan.Integrations

/--
`secret` has been drawn after `uuid`, and the time before both.
-/
structure Drawn (h : IntegrationsHistory) (now : Date) (uuid secret : String) : Prop where
  drawn : ∃ h', h = ⟨.randomBytes, secret⟩ :: ⟨.randomUUID, uuid⟩ :: h' ∧ capturedNow h' = some now

class FlowState (α : Type) where
  uuid : α → String
  userId : α → Nat
  secretHash : α → String
  expiresAt : α → Date

instance : FlowState (Row .oauthStates) where
  uuid := IntegrationOauthState.uuid
  userId := IntegrationOauthState.userId
  secretHash := IntegrationOauthState.secretHash
  expiresAt := IntegrationOauthState.expiresAt

instance : FlowState (Row .githubAppStates) where
  uuid := IntegrationGithubAppState.uuid
  userId := IntegrationGithubAppState.userId
  secretHash := IntegrationGithubAppState.secretHash
  expiresAt := IntegrationGithubAppState.expiresAt

/--
`row` has been inserted.
-/
def Stores (t : IntegrationsTable) (h : IntegrationsHistory) (row : Row t) : Prop :=
  ∃ mk, ran (.insert t mk) row ∈ h

theorem Stores.of_cons {t : IntegrationsTable} {h : IntegrationsHistory} {ev : (s : Effect) × Answer s}
    {row : Row t} (hev : ∀ mk, ev ≠ ran (.insert t mk) row) (hstores : Stores t (ev :: h) row)
    : Stores t h row := by
  obtain ⟨mk, hmem⟩ := hstores
  rcases List.mem_cons.mp hmem with heq | hold
  . exact absurd heq.symm (hev mk)
  . exact ⟨mk, hold⟩

variable [Platform]

section Rows

/--
The row that `OauthStateService.issue` stores.
-/
def oauthRow (userId : Nat) (target : StateTarget) (uuid secret codeVerifier : String) (now : Date)
    (id : Nat) : IntegrationOauthState where
  id
  uuid
  userId
  secretHash := Platform.sha256Hex secret
  purpose := target.purpose
  label := target.label?
  integrationUuid := target.integrationUuid?
  codeVerifier
  expiresAt := now + OauthStateService.OAUTH_STATE_TTL_MS

/--
The row that `GithubAppStateService.issue` stores.
-/
def githubAppRow (userId : Nat) (stage : GithubAppStateStage) (target : StateTarget)
    (result : GithubAppStateService.SelectResult) (uuid secret : String) (now : Date) (id : Nat)
    : IntegrationGithubAppState where
  id
  uuid
  userId
  secretHash := Platform.sha256Hex secret
  stage
  purpose := target.purpose
  label := target.label?
  integrationUuid := target.integrationUuid?
  candidateInstallationIds := result.candidates
  verifiedBy := result.verifiedBy
  expiresAt := now + GithubAppStateService.GITHUB_APP_STATE_TTL_MS

theorem toConsumed_oauthRow {userId id : Nat} {target : StateTarget} {uuid secret codeVerifier : String}
    {now : Date}
    : OauthStateService.toConsumed (oauthRow userId target uuid secret codeVerifier now id) =
        some ⟨target, codeVerifier⟩ := by
  cases target <;> rfl

theorem targetOf_githubAppRow {userId id : Nat} {stage : GithubAppStateStage} {target : StateTarget}
    {result : GithubAppStateService.SelectResult} {uuid secret : String} {now : Date}
    : GithubAppStateService.targetOf (githubAppRow userId stage target result uuid secret now id) =
        some target := by
  cases target <;> rfl

end Rows

section Issues

variable (start : IntegrationsHistory) (userId : Nat)

/--
What may be done to issue an OAuth App state after `start`.
-/
inductive IssuesOauth (target : StateTarget) (h : IntegrationsHistory) : Effect → Prop where
  | free {s : Effect} (hs : s.writes = false) : IssuesOauth target h s
  | delete {p : IntegrationOauthState → Bool} : IssuesOauth target h (.db (.delete .oauthStates p))
  | insert {h' : IntegrationsHistory} {now : Date} {uuid secret codeVerifier : String}
    (hverifier : h = ⟨.randomBytes, codeVerifier⟩ :: h') (hdrawn : Drawn h' now uuid secret)
    (hfirst : ∀ row, Stores .oauthStates h row → Stores .oauthStates start row)
    : IssuesOauth target h
        (.db (insertOauthState (oauthRow userId target uuid secret codeVerifier now)))

/--
What may be done to issue a GitHub App state after `start`.
-/
inductive IssuesGithubApp (stage : GithubAppStateStage) (target : StateTarget)
    (result : GithubAppStateService.SelectResult) (h : IntegrationsHistory) : Effect → Prop where
  | free {s : Effect} (hs : s.writes = false) : IssuesGithubApp stage target result h s
  | delete {p : IntegrationGithubAppState → Bool}
    : IssuesGithubApp stage target result h (.db (.delete .githubAppStates p))
  | insert {now : Date} {uuid secret : String} (hdrawn : Drawn h now uuid secret)
    (hfirst : ∀ row, Stores .githubAppStates h row → Stores .githubAppStates start row)
    : IssuesGithubApp stage target result h
        (.db (insertGithubAppState (githubAppRow userId stage target result uuid secret now)))

end Issues

/--
What may be done to consume a state: the table `t` only loses rows.
-/
inductive Consumes (t : IntegrationsTable) (h : IntegrationsHistory) : Effect → Prop where
  | free {s : Effect} (hs : s.writes = false) : Consumes t h s
  | delete {p : Row t → Bool} : Consumes t h (.db (.delete t p))

/--
`row` has been found by `state` and removed, before it has expired.
-/
structure Taken (t : IntegrationsTable) [FlowState (Row t)] (userId : Nat) (state : String) (row : Row t)
    (h : IntegrationsHistory) : Prop where
  found : ∃ p rank, ran (.find t p rank) (some row) ∈ h
  removed : ran (.delete t fun r => Entity.id r == Entity.id row) (1 : Nat) ∈ h
  user : FlowState.userId row = userId
  uuid : sameText (FlowState.uuid row) (splitState state).1 = true
  secret : Platform.sha256Hex (splitState state).2 = FlowState.secretHash row
  unexpired : ∃ now, capturedNow h = some now ∧ now < FlowState.expiresAt row

variable {userId : Nat} {state : String} {target : StateTarget} {start h : IntegrationsHistory}

namespace OauthStateService

theorem prunePending_issues
    : (prunePending userId).Meets Answers (IssuesOauth start userId target)
        (fun h' _ => capturedNow h' = capturedNow h ∧
          ∀ row, Stores .oauthStates h' row → Stores .oauthStates h row) h := by
  unfold prunePending
  rw [Api.meets_query]
  refine ⟨.free rfl, fun pending _ => ?_, fun _ => ⟨rfl, fun row => Stores.of_cons (by simp)⟩⟩
  dsimp only
  split
  . rw [Api.meets_query]
    refine ⟨.delete, fun _ _ => ⟨rfl, fun row hrow => ?_⟩, fun _ => ⟨rfl, fun row hrow => ?_⟩⟩
    . exact Stores.of_cons (by simp) (Stores.of_cons (by simp) hrow)
    . exact Stores.of_cons (by simp) (Stores.of_cons (by simp) hrow)
  . exact ⟨rfl, fun row => Stores.of_cons (by simp)⟩

theorem issue_issues [Crypto]
    : (issue userId target).Meets Answers (IssuesOauth h userId target)
        (fun h' r => ∀ issued, r = .ok issued → ∀ row : IntegrationOauthState,
          Stores .oauthStates h' row → Stores .oauthStates h row ∨ ∃ secret now,
            ⟨.randomBytes, secret⟩ ∈ h'
              ∧
            row = oauthRow userId target row.uuid secret row.codeVerifier now row.id
              ∧
            issued = ⟨row.uuid ++ "." ++ secret, pkceChallenge row.codeVerifier⟩) h := by
  unfold issue
  rw [Api.meets_now]
  refine ⟨.free rfl, fun now => ?_⟩
  rw [Api.meets_query]
  refine ⟨.delete, fun purged _ => ?_, by simp⟩
  apply prunePending_issues.bind
  . intro h' _ _ ⟨hnow, hstores⟩
    rw [Api.meets_randomUUID]
    refine ⟨.free rfl, fun uuid => ?_⟩
    rw [Api.meets_randomBytes]
    refine ⟨.free rfl, fun secret => ?_⟩
    rw [Api.meets_randomBytes]
    refine ⟨.free rfl, fun codeVerifier => ?_⟩
    have hold : ∀ row, Stores .oauthStates (⟨.randomBytes, codeVerifier⟩ :: ⟨.randomBytes, secret⟩ ::
        ⟨.randomUUID, uuid⟩ :: h') row → Stores .oauthStates h row := by
      intro row hrow
      have hbefore := hstores row
        (Stores.of_cons (by simp) (Stores.of_cons (by simp) (Stores.of_cons (by simp) hrow)))
      exact Stores.of_cons (by simp) (Stores.of_cons (by simp) hbefore)
    rw [Api.meets_query]
    refine ⟨.insert rfl ⟨h', rfl, hnow⟩ hold, fun stored hstored => ?_, by simp⟩
    rw [Prog.meets_pure]
    intro issued heq row ⟨mk, hmem⟩
    cases heq
    rcases List.mem_cons.mp hmem with hnew | hbefore
    . obtain ⟨heffect, hresp⟩ := Sigma.mk.inj hnew
      cases heffect
      cases hresp
      obtain ⟨id, _, rfl⟩ := hstored
      exact Or.inr ⟨secret, now, by simp, rfl, rfl⟩
    . exact Or.inl (hold row ⟨mk, hbefore⟩)
  . intro _ _ _ _ _ heq
    simp at heq

theorem consume_consumes
    : (consume userId state).Meets Answers (Consumes .oauthStates)
        (fun h' r => ∀ consumed, r = .ok consumed → ∃ row : IntegrationOauthState,
          Taken .oauthStates userId state row h' ∧ toConsumed row = some consumed) h := by
  unfold consume
  rw [Api.meets_now]
  refine ⟨.free rfl, fun now => ?_⟩
  split
  . dsimp only
    rw [Api.meets_query]
    refine ⟨.free rfl, fun found hfound => ?_, by simp⟩
    cases found with
    | none => simp
    | some row =>
      dsimp only
      rw [Api.meets_query]
      refine ⟨.delete, fun affected _ => ?_, by simp⟩
      split
      . simp
      . next hvalid =>
        obtain ⟨hone, hsecret, hexpires⟩ := (not_or.mp hvalid).imp_right not_or.mp
        rw [ne_eq, Decidable.not_not] at hone
        subst hone
        obtain ⟨huuid, huser⟩ := Bool.and_eq_true_iff.mp hfound
        cases hconsumed : toConsumed row with
        | none => simp
        | some consumed =>
          rw [Prog.meets_pure]
          intro consumed' heq
          cases heq
          have hmem : ran (findOauthState (splitState state).1 userId) (some row) ∈
              (ran (deleteOauthState row.id) (1 : Nat) ::
                ran (findOauthState (splitState state).1 userId) (some row) :: clock now :: h) :=
            List.mem_cons_of_mem _ (List.mem_cons_self ..)
          have hmatches : Platform.sha256Hex (splitState state).2 = row.secretHash := by
            simpa [secretMatches] using hsecret
          exact ⟨row, ⟨⟨_, _, hmem⟩, List.mem_cons_self .., beq_iff_eq.mp huser, huuid, hmatches,
            ⟨now, rfl, Int.not_le.mp hexpires⟩⟩, hconsumed⟩
  . simp

end OauthStateService

namespace GithubAppStateService

variable {stage : GithubAppStateStage} {result : SelectResult}

theorem prunePending_issues
    : (prunePending userId).Meets Answers (IssuesGithubApp start userId stage target result)
        (fun h' _ => capturedNow h' = capturedNow h ∧
          ∀ row, Stores .githubAppStates h' row → Stores .githubAppStates h row) h := by
  unfold prunePending
  rw [Api.meets_query]
  refine ⟨.free rfl, fun pending _ => ?_, fun _ => ⟨rfl, fun row => Stores.of_cons (by simp)⟩⟩
  dsimp only
  split
  . rw [Api.meets_query]
    refine ⟨.delete, fun _ _ => ⟨rfl, fun row hrow => ?_⟩, fun _ => ⟨rfl, fun row hrow => ?_⟩⟩
    . exact Stores.of_cons (by simp) (Stores.of_cons (by simp) hrow)
    . exact Stores.of_cons (by simp) (Stores.of_cons (by simp) hrow)
  . exact ⟨rfl, fun row => Stores.of_cons (by simp)⟩

theorem issue_issues
    : (issue userId stage target result).Meets Answers (IssuesGithubApp h userId stage target result)
        (fun h' r => ∀ state, r = .ok state → ∀ row : IntegrationGithubAppState,
          Stores .githubAppStates h' row → Stores .githubAppStates h row ∨ ∃ secret now,
            ⟨.randomBytes, secret⟩ ∈ h'
              ∧
            row = githubAppRow userId stage target result row.uuid secret now row.id
              ∧
            state = row.uuid ++ "." ++ secret) h := by
  unfold issue
  rw [Api.meets_now]
  refine ⟨.free rfl, fun now => ?_⟩
  rw [Api.meets_query]
  refine ⟨.delete, fun purged _ => ?_, by simp⟩
  apply prunePending_issues.bind
  . intro h' _ _ ⟨hnow, hstores⟩
    rw [Api.meets_randomUUID]
    refine ⟨.free rfl, fun uuid => ?_⟩
    rw [Api.meets_randomBytes]
    refine ⟨.free rfl, fun secret => ?_⟩
    have hold : ∀ row, Stores .githubAppStates (⟨.randomBytes, secret⟩ :: ⟨.randomUUID, uuid⟩ :: h') row →
        Stores .githubAppStates h row := by
      intro row hrow
      have hbefore := hstores row (Stores.of_cons (by simp) (Stores.of_cons (by simp) hrow))
      exact Stores.of_cons (by simp) (Stores.of_cons (by simp) hbefore)
    rw [Api.meets_query]
    refine ⟨.insert ⟨h', rfl, hnow⟩ hold, fun stored hstored => ?_, by simp⟩
    rw [Prog.meets_pure]
    intro state heq row ⟨mk, hmem⟩
    cases heq
    rcases List.mem_cons.mp hmem with hnew | hbefore
    . obtain ⟨heffect, hresp⟩ := Sigma.mk.inj hnew
      cases heffect
      cases hresp
      obtain ⟨id, _, rfl⟩ := hstored
      exact Or.inr ⟨secret, now, by simp, rfl, rfl⟩
    . exact Or.inl (hold row ⟨mk, hbefore⟩)
  . intro _ _ _ _ _ heq
    simp at heq

theorem consume_consumes
    : (consume userId state stage).Meets Answers (Consumes .githubAppStates)
        (fun h' r => ∀ consumed, r = .ok consumed → ∃ row : IntegrationGithubAppState,
          Taken .githubAppStates userId state row h' ∧ row.stage = stage ∧
            toConsumed row = some consumed) h := by
  unfold consume
  rw [Api.meets_now]
  refine ⟨.free rfl, fun now => ?_⟩
  split
  . dsimp only
    rw [Api.meets_query]
    refine ⟨.free rfl, fun found hfound => ?_, by simp⟩
    cases found with
    | none => simp
    | some row =>
      dsimp only
      rw [Api.meets_query]
      refine ⟨.delete, fun affected _ => ?_, by simp⟩
      split
      . next hvalid =>
        simp only [Bool.and_eq_true, beq_iff_eq, decide_eq_true_eq] at hvalid
        obtain ⟨⟨⟨hone, hsecret⟩, hexpires⟩, hstage⟩ := hvalid
        obtain ⟨huuid, huser⟩ := Bool.and_eq_true_iff.mp hfound
        cases hconsumed : toConsumed row with
        | none => simp
        | some consumed =>
          rw [Prog.meets_pure]
          intro consumed' heq
          cases heq
          have hmem : ran (findGithubAppState (splitState state).1 userId) (some row) ∈
              (ran (deleteGithubAppState row.id) affected ::
                ran (findGithubAppState (splitState state).1 userId) (some row) :: clock now :: h) :=
            List.mem_cons_of_mem _ (List.mem_cons_self ..)
          have hremoved : ran (deleteGithubAppState row.id) (1 : Nat) ∈
              (ran (deleteGithubAppState row.id) affected ::
                ran (findGithubAppState (splitState state).1 userId) (some row) :: clock now :: h) := by
            rw [← hone]
            exact List.mem_cons_self ..
          exact ⟨row, ⟨⟨_, _, hmem⟩, hremoved, beq_iff_eq.mp huser, huuid, beq_iff_eq.mp hsecret,
            ⟨now, rfl, hexpires⟩⟩, hstage, hconsumed⟩
      . simp
  . simp

end GithubAppStateService

end Kerghan.Integrations
