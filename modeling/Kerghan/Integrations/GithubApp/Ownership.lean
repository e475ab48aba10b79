import Kerghan.Integrations.Secrets.Latest

/-!
This module contains the proof that a GitHub App integration refers to an installation that its user has shown
to be accessible, in a flow of their own.
-/

namespace Kerghan.Integrations

section Proven

variable [Platform] (cfg : IntegrationsConfig) (calls : List IntegrationsCall) (trace : List IntegrationsEntry)

/--
The call `i` has been shown the state of a flow that the user has started.
-/
def Started (i userId : Nat) : Prop :=
  ∃ row k label integrationId mode,
    Presented (own i trace) userId row
      ∧
    row.stage = .redirect
      ∧
    calls[k]? = some (.startGithubApp userId label integrationId mode)
      ∧
    Stores .githubAppStates (own k trace) row

/--
The callback `i` of such a flow has exchanged its code for a token, and GitHub has listed the installation for this
token as one of the app's.
-/
def Lists (app : EnabledGithubAppConfig) (i userId : Nat) (installationId : Int) : Prop :=
  ∃ input user,
    calls[i]? = some (.githubAppCallback userId input)
      ∧
    Started calls trace i userId
      ∧
    Verified (own i trace) app input.code user
      ∧
    installationId ∈ user.installations.map GithubUserInstallation.installationId

inductive Proven (userId : Nat) (installation : GithubAppInstallation) : Prop where
  | picked {app : EnabledGithubAppConfig} {i : Nat} {installationId : Int} (happ : cfg.githubApp = some app)
    (hlists : Lists calls trace app i userId installationId)
    (hconfirmed : Confirmed (own i trace) app installationId installation)
  | selected {app : EnabledGithubAppConfig} {i j : Nat} {input : GithubAppSelectInput}
    {row : IntegrationGithubAppState} (happ : cfg.githubApp = some app)
    (hcall : calls[i]? = some (.selectInstallation userId input)) (hpresented : Presented (own i trace) userId row)
    (hoffered : Stores .githubAppStates (own j trace) row)
    (hlists : Lists calls trace app j userId input.installationId)
    (hconfirmed : Confirmed (own i trace) app input.installationId installation)

structure Issued (row : IntegrationGithubAppState) : Prop where
  redirect : row.stage = .redirect → ∃ k label integrationId mode,
    calls[k]? = some (.startGithubApp row.userId label integrationId mode)
      ∧
    Stores .githubAppStates (own k trace) row
  select : row.stage = .select → ∃ j app,
    cfg.githubApp = some app
      ∧
    Stores .githubAppStates (own j trace) row
      ∧
    ∀ installationId ∈ row.candidateInstallationIds.getD [], Lists calls trace app j row.userId installationId

/--
All states come from a flow, those in the table and those that have been read.
-/
structure AllIssued (w : World) : Prop where
  stored : ∀ row ∈ (w.db .githubAppStates).rows, Issued cfg calls trace row
  found : ∀ i p rank row, ran (.find .githubAppStates p rank) (some row) ∈ own i trace → Issued cfg calls trace row

end Proven

section Monotone

variable [Platform] {cfg : IntegrationsConfig} {calls : List IntegrationsCall} {trace trace' : List IntegrationsEntry}
variable (hsuffix : trace <:+ trace')

include hsuffix

theorem own_subset (i : Nat) : own i trace ⊆ own i trace' :=
  (own_suffix hsuffix).subset

theorem Stores.later {t : IntegrationsTable} {i : Nat} {row : Row t} (hstores : Stores t (own i trace) row)
    : Stores t (own i trace') row := by
  obtain ⟨mk, hmem⟩ := hstores
  exact ⟨mk, own_subset hsuffix i hmem⟩

theorem Started.later {i userId : Nat} (hstarted : Started calls trace i userId)
    : Started calls trace' i userId := by
  obtain ⟨row, k, label, integrationId, mode, hpresented, hstage, hcall, hstores⟩ := hstarted
  exact ⟨row, k, label, integrationId, mode, hpresented.mono (own_subset hsuffix i), hstage, hcall,
    hstores.later hsuffix⟩

theorem Lists.later {app : EnabledGithubAppConfig} {i userId : Nat} {installationId : Int}
    (hlists : Lists calls trace app i userId installationId)
    : Lists calls trace' app i userId installationId := by
  obtain ⟨input, user, hcall, hstarted, hverified, hmem⟩ := hlists
  exact ⟨input, user, hcall, hstarted.later hsuffix, hverified.mono (own_subset hsuffix i), hmem⟩

theorem Issued.later {row : IntegrationGithubAppState} (hissued : Issued cfg calls trace row)
    : Issued cfg calls trace' row where
  redirect := by
    intro hstage
    obtain ⟨k, label, integrationId, mode, hcall, hstores⟩ := hissued.redirect hstage
    exact ⟨k, label, integrationId, mode, hcall, hstores.later hsuffix⟩
  select := by
    intro hstage
    obtain ⟨j, app, happ, hstores, hlists⟩ := hissued.select hstage
    exact ⟨j, app, happ, hstores.later hsuffix, fun id hid => (hlists id hid).later hsuffix⟩

end Monotone

section States

variable [Platform] [Crypto] [Locale] {cfg : IntegrationsConfig} {calls : List IntegrationsCall}
variable {trace : List IntegrationsEntry} {x : IntegrationsEntry}

theorem Does.not_update_state {call : IntegrationsCall} {h : IntegrationsHistory}
    {p : IntegrationGithubAppState → Bool} {f : Int → IntegrationGithubAppState → IntegrationGithubAppState}
    (hdoes : Does cfg call h (.db (.update .githubAppStates p f)))
    : False := by
  cases hdoes with
  | quiet hs => simp [Effect.isQuiet, Effect.isElsewhere] at hs
  | issue hissues => cases hissues with | free hs => simp [Effect.writes] at hs
  | consume hconsumes => cases hconsumes with | free hs => simp [Effect.writes] at hs
  | offer _ _ _ _ _ hissues => cases hissues with | free hs => simp [Effect.writes] at hs

/--
A state that is inserted belongs to a flow that starts, or to one that offers a selection.
-/
inductive Inserts (cfg : IntegrationsConfig) (h : IntegrationsHistory) (row : IntegrationGithubAppState)
    : IntegrationsCall → Prop where
  | start {label integrationId : Option String} {mode : Option GithubAppMode} (hstage : row.stage = .redirect)
    : Inserts cfg h row (.startGithubApp row.userId label integrationId mode)
  | offer {input : GithubAppCallbackInput} {app : EnabledGithubAppConfig} {user : VerifiedGithubUser}
    {presented : IntegrationGithubAppState} (happ : cfg.githubApp = some app)
    (hpresented : Presented h row.userId presented) (hpresentedStage : presented.stage = .redirect)
    (hverified : Verified h app input.code user) (hstage : row.stage = .select)
    (hcandidates : ∀ id ∈ row.candidateInstallationIds.getD [],
      id ∈ user.installations.map GithubUserInstallation.installationId)
    : Inserts cfg h row (.githubAppCallback row.userId input)

theorem Does.inserts {call : IntegrationsCall} {h : IntegrationsHistory}
    {mk : Nat → Int → IntegrationGithubAppState} (hdoes : Does cfg call h (.db (.insert .githubAppStates mk)))
    (id : Nat) (now : Int)
    : Inserts cfg h (mk id now) call := by
  cases hdoes with
  | quiet hs => simp [Effect.isQuiet, Effect.isElsewhere] at hs
  | consume hconsumes => cases hconsumes with | free hs => simp [Effect.writes] at hs
  | issue hissues =>
    cases hissues with
    | free hs => simp [Effect.writes] at hs
    | insert => exact .start rfl
  | offer happ hpresented hstage hverified hcandidates hissues =>
    cases hissues with
    | free hs => simp [Effect.writes] at hs
    | insert => exact .offer happ hpresented hstage hverified rfl hcandidates

theorem AllIssued.step (hx : IntegrationsStep cfg calls trace x) (hissued : AllIssued cfg calls trace x.before)
    : AllIssued cfg calls (x :: trace) x.after := by
  have hexecuted : x.Executed Effect.exec := hx.answered
  have ⟨call, hcall, hdoes⟩ := hx.allowed
  have hlater : trace <:+ x :: trace := List.suffix_cons ..
  have hupdate : ∀ (p : IntegrationGithubAppState → Bool) f (affected : Nat),
      ⟨x.effect, x.resp⟩ ≠ ran (.update .githubAppStates p f) affected := by
    intro p f affected hran
    rw [show x.effect = .db (.update .githubAppStates p f) from congrArg Sigma.fst hran] at hdoes
    exact hdoes.not_update_state
  constructor
  . intro row hrow
    cases hexecuted.rows_cases hupdate hrow with
    | inl hold => exact (hissued.stored row hold).later hlater
    | inr hinserted =>
      have ⟨make, hran⟩ := hinserted
      have hstores : Stores .githubAppStates (own x.call (x :: trace)) row :=
        ⟨make, mem_own_cons.mpr (Or.inl ⟨rfl, hran⟩)⟩
      rw [show x.effect = .db (.insert .githubAppStates make) from congrArg Sigma.fst hran] at hdoes
      have ⟨now, hmake, _⟩ := hexecuted.inserted hran
      have hinserts : Inserts cfg (own x.call trace) row call := by
        rw [hmake]
        exact hdoes.inserts _ now
      cases hinserts with
      | start hstage =>
        constructor
        . intro _
          exact ⟨x.call, _, _, _, hcall, hstores⟩
        . intro hselect
          cases hstage.symm.trans hselect
      | @offer input app user presented happ hpresented hpresentedStage hverified hstage hcandidates =>
        constructor
        . intro hredirect
          cases hstage.symm.trans hredirect
        . intro _
          have ⟨p, rank, hfound⟩ := hpresented.found
          have ⟨k, label, integrationId, mode, hstart, hstarts⟩ :=
            (hissued.found x.call p rank presented hfound).redirect hpresentedStage
          rw [hpresented.user] at hstart
          have hstarted : Started calls trace x.call row.userId :=
            ⟨presented, k, label, integrationId, mode, hpresented, hpresentedStage, hstart, hstarts⟩
          refine ⟨x.call, app, happ, hstores, ?_⟩
          intro installationId hmem
          apply Lists.later hlater
          exact ⟨input, user, hcall, hstarted, hverified, hcandidates installationId hmem⟩
  . intro i p rank row hmem
    cases mem_own_cons.mp hmem with
    | inl hnow => exact (hissued.stored row (hexecuted.found_mem hnow.2).1).later hlater
    | inr hbefore => exact (hissued.found i p rank row hbefore).later hlater

end States

section Picked

open GithubAppStateService (toConsumed)

theorem mem_of_pickInstallation {installations : List GithubUserInstallation} {claimed : Option Int}
    {installationId : Int}
    (h : GithubAppFlowService.pickInstallation installations claimed = .ok (some installationId))
    : installationId ∈ installations.map GithubUserInstallation.installationId := by
  unfold GithubAppFlowService.pickInstallation at h
  split at h
  . split at h
    . next hmem =>
      cases h
      exact hmem
    . cases h
  . split at h
    . cases h
    . cases h
      exact List.mem_singleton_self _
    . cases h

theorem candidates_of_toConsumed {row : IntegrationGithubAppState} {consumed : ConsumedGithubAppState}
    (hstage : row.stage = .select) (h : toConsumed row = some consumed)
    : consumed.candidates = row.candidateInstallationIds.getD [] := by
  unfold toConsumed at h
  split at h
  . cases h
  . rw [hstage] at h
    dsimp only at h
    split at h
    . cases h
      rfl
    . cases h

end Picked

section Ownership

variable [Platform] [Crypto] [Locale] {cfg : IntegrationsConfig} {calls : List IntegrationsCall} {w : World}

theorem allIssued_run (hstates : (w.db .githubAppStates).rows = []) (schedule : Schedule)
    : AllIssued cfg calls (Calls.after w (calls.map (IntegrationsCall.prog cfg)) schedule).trace
        (Calls.after w (calls.map (IntegrationsCall.prog cfg)) schedule).world := by
  have hinit : AllIssued cfg calls [] w := ⟨by simp [hstates], by simp⟩
  exact Config.run_induction (A := fun _ => True) (I := fun w t => AllIssued cfg calls t w) (fun _ _ _ => trivial)
    (fun _ _ _ hx hissued => hissued.step hx) answers_exec (start_meets IntegrationsCall.prog_does w calls) hinit
    schedule trivial

theorem latest_run (schedule : Schedule)
    (hnew : NewUuids (Calls.after w (calls.map (IntegrationsCall.prog cfg)) schedule).trace)
    : ∀ r ∈ ((Calls.after w (calls.map (IntegrationsCall.prog cfg)) schedule).world.db .integrations).rows,
        Latest cfg calls w (Calls.after w (calls.map (IntegrationsCall.prog cfg)) schedule).trace r := by
  let I : World → List IntegrationsEntry → Prop := fun w' t =>
    Identities w' t ∧ KnownByUuid w' t ∧ Originals cfg w w' t ∧
      ∀ r ∈ (w'.db .integrations).rows, Latest cfg calls w t r
  have hstep : ∀ x t, NewUuids (x :: t) → IntegrationsStep cfg calls t x → I x.before t → I x.after (x :: t) := by
    intro x t hnew hx ⟨hidentities, hknown, horiginals, hlatest⟩
    refine ⟨hidentities.step hx, hknown.step hx hnew, horiginals.step hx, fun r' hr' => ?_⟩
    exact Latest.step hx hidentities hknown horiginals hlatest hr'
  have hinit : I w [] := ⟨.init, .init, .init, fun _ hr => .init hr⟩
  exact (Config.run_induction (A := NewUuids) (fun _ _ => NewUuids.tail) hstep answers_exec
    (start_meets IntegrationsCall.prog_does w calls) hinit schedule hnew).2.2.2

omit [Crypto] [Locale] in
theorem AllIssued.proven {trace earlier : List IntegrationsEntry} (hissued : AllIssued cfg calls trace w)
    (hearlier : earlier <:+ trace) {i userId : Nat} {call : IntegrationsCall} (hcall : calls[i]? = some call)
    {validated : ValidatedCredential}
    (hvalidated : Validated cfg (own i earlier) call userId .githubApp validated)
    : ∃ installation, Proven cfg calls trace userId installation
        ∧ validated.secret = .githubApp installation.installationId := by
  have hlater := hvalidated.mono cfg (own_subset hearlier i)
  cases hlater with
  | @picked _ input app user installationId row _ happ hpresented hstage hverified hpicked hgithubApp =>
    have ⟨installation, metadata, hconfirmed, _, heq⟩ := hgithubApp
    have ⟨p, rank, hfound⟩ := hpresented.found
    have ⟨k, label, integrationId, mode, hstart, hstarts⟩ := (hissued.found i p rank row hfound).redirect hstage
    rw [hpresented.user] at hstart
    have hstarted : Started calls trace i userId :=
      ⟨row, k, label, integrationId, mode, hpresented, hstage, hstart, hstarts⟩
    have hlists : Lists calls trace app i userId installationId :=
      ⟨input, user, hcall, hstarted, hverified, mem_of_pickInstallation hpicked⟩
    exact ⟨installation, .picked happ hlists hconfirmed, by rw [heq]⟩
  | @selected _ input app row consumed verifiedBy _ happ hpresented hstage hconsumed hcandidate hgithubApp =>
    have ⟨installation, metadata, hconfirmed, _, heq⟩ := hgithubApp
    have ⟨p, rank, hfound⟩ := hpresented.found
    have ⟨j, app', happ', hstores, hlists⟩ := (hissued.found i p rank row hfound).select hstage
    cases happ.symm.trans happ'
    rw [hpresented.user] at hlists
    rw [candidates_of_toConsumed hstage hconsumed] at hcandidate
    have hselected : Proven cfg calls trace userId installation :=
      .selected happ hcall hpresented hstores (hlists _ hcandidate) hconfirmed
    exact ⟨installation, hselected, by rw [heq]⟩

/--
Whatever the order of the steps of any number of calls, an integration of a GitHub App still has the secret that it
had at the start, or one for an installation that has been proved accessible in flows of its user.
-/
theorem installations_proven {calls : List IntegrationsCall} (hstates : (w.db .githubAppStates).rows = [])
    (schedule : Schedule)
    (hnew : (∀ call ∈ calls, call.deletes = false) ∨
      NewUuids (Calls.after w (calls.map (IntegrationsCall.prog cfg)) schedule).trace)
    : let run := Calls.after w (calls.map (IntegrationsCall.prog cfg)) schedule
      ∀ r ∈ (run.world.db .integrations).rows, r.type = .githubApp →
        (∃ installation, Proven cfg calls run.trace r.userId installation
          ∧ decryptRow cfg.keys .githubApp r = some (.githubApp installation.installationId))
            ∨
        ∃ r₀ ∈ (w.db .integrations).rows, SameRow r₀ r ∧ plaintextOf cfg r = plaintextOf cfg r₀ := by
  intro run r hr htype
  have hlatest := latest_run schedule (hnew.elim (newUuids_run · schedule) id) r hr
  cases hlast : run.trace.find? (writesCredential calls r.id) with
  | none =>
    apply Or.inr
    apply hlatest.original
    intro x hx
    simpa using List.find?_eq_none.mp hlast x hx
  | some x =>
    apply Or.inl
    have ⟨hwrites, later, earlier, hsplit, hlater⟩ := List.find?_eq_some_iff_append.mp hlast
    have ⟨call, validated, r', _, hcall, hvalidated, _, _, hsecret⟩ :=
      hlatest.written later x earlier hsplit hwrites fun y hy => by simpa using hlater y hy
    rw [htype] at hvalidated hsecret
    have hearlier : earlier <:+ run.trace := by
      rw [hsplit]
      exact (List.suffix_cons ..).trans (List.suffix_append ..)
    have ⟨installation, hproven, heq⟩ := (allIssued_run hstates schedule).proven hearlier hcall hvalidated
    rw [heq] at hsecret
    exact ⟨installation, hproven, hsecret⟩

end Ownership

section Runs

attribute [local instance] Kerghan.Sample.platform Sample.crypto Sample.locale

abbrev granting (k : Nat) : Env :=
  let installation : GithubUserInstallation := ⟨5, 7, "acme", .organization⟩
  { Sample.answering k with
    uuid := String.ofList (List.replicate 36 'a')
    bytes := String.ofList (List.replicate 43 'b')
    exchange := .ok { status := 200, accessToken := some "ghu_a", error := none }
    page := .ok { status := 200, installations := some [installation], nextUrl := none }
    installation := .ok { status := 200, installation := some {
      toGithubUserInstallation := installation
      repositorySelection := .all
      permissions := ⟨some "write", some "read"⟩
      suspended := false
    } }
    minted := .ok { status := 201 } }

abbrev connecting : List IntegrationsCall :=
  [
    .startGithubApp 1 (some "work") none none,
    .githubAppCallback 1 ⟨"code", String.ofList (List.replicate 36 'a' ++ '.' :: List.replicate 43 'b'), some 5⟩
  ]

abbrev connected : Calls IntegrationsReply :=
  Calls.after Sample.world (connecting.map (IntegrationsCall.prog Sample.config))
    (Sample.scheduleIn granting (List.replicate 20 0 ++ List.replicate 40 1))

set_option maxRecDepth 4000 in
theorem installations_proven_connected
    : (connected.world.db .integrations).rows.map (decryptRow Sample.config.keys .githubApp) = [some (.githubApp 5)]
        ∧
      ∀ r ∈ (connected.world.db .integrations).rows, r.type = .githubApp →
        (∃ installation, Proven Sample.config connecting connected.trace r.userId installation
          ∧ decryptRow Sample.config.keys .githubApp r = some (.githubApp installation.installationId))
            ∨
        ∃ r₀ ∈ (Sample.world.db .integrations).rows, SameRow r₀ r
          ∧ plaintextOf Sample.config r = plaintextOf Sample.config r₀ :=
  ⟨rfl, installations_proven rfl _ (Or.inl (by decide))⟩

end Runs

end Kerghan.Integrations
