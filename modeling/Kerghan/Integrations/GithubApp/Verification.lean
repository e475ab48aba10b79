import Kerghan.Integrations.Lemmas.Validate

/-!
This module contains the proof that the verification of a user revokes the token that it has been given,
however it ends, and finds the installations of the app in the order in which GitHub lists them.
-/

namespace Kerghan.Integrations

abbrev Events := List ((s : Effect) × Answer s)

theorem Api.returns_now {α : Type} {f : Date → Api α} {events : Events} {result : Except Thrown α}
    (h : (Api.now >>= f).Returns events result)
    : ∃ now rest, events = ⟨.now, now⟩ :: rest ∧ (f now).Returns rest result :=
  Prog.returns_step h

theorem Api.returns_query {α : Type} {s : Stmt Row} {f : s.Answer → Api α} {events : Events}
    {result : Except Thrown α} (h : (Api.query s >>= f).Returns events result)
    : (∃ a rest, events = ⟨.db s, .ok a⟩ :: rest ∧ (f a).Returns rest result) ∨
        ∃ e, events = [⟨.db s, .error e⟩] ∧ result = .error (.database e) := by
  have ⟨answer, rest, hevents, hrest⟩ := Prog.returns_step h
  cases answer with
  | ok a => exact Or.inl ⟨a, rest, hevents, hrest⟩
  | error e =>
    have ⟨hrest, hresult⟩ := Prog.returns_throw hrest
    subst hrest
    exact Or.inr ⟨e, hevents, hresult⟩

namespace GithubAppUserVerificationService

section

def tokenOf : (s : Effect) × Answer s → Option String
  | ⟨.exchangeOauthCode _, .ok answer⟩ => answer.accessToken.filter (· ≠ "")
  | _ => none

/--
The user access tokens that code exchanges have answered with.
-/
def obtained (events : Events) : List String :=
  events.filterMap tokenOf

def revoked (events : Events) : List String :=
  events.filterMap fun event =>
    match event with
    | ⟨.revokeOauthToken request, _⟩ => some request.token
    | _ => none

/--
The answers to the pages of installations that have been fetched.
-/
def pages (events : Events) : List (Except ClientError GithubInstallationsPage) :=
  events.filterMap fun event =>
    match event with
    | ⟨.listUserInstallations _ _, answer⟩ => some answer
    | _ => none

def entriesOf : Except ClientError GithubInstallationsPage → List GithubUserInstallation
  | .ok page => (page.installations.getD []).filter isWellFormed
  | .error _ => []

/--
The installations of the app that the fetched pages list, in their order.
-/
def listed (appId : Int) (events : Events) : List GithubUserInstallation :=
  ((pages events).flatMap entriesOf).filter fun installation => installation.appId == appId

structure RevokesTokens (app : EnabledGithubAppConfig) (events : Events)
    (result : Except Thrown VerifiedGithubUser) : Prop where
  revoked_once : ∀ token ∈ obtained events, (revoked events).count token = 1
  pages_le : (pages events).length ≤ 10
  installations_eq : ∀ verified, result = .ok verified →
    verified.installations.map GithubUserInstallation.installationId =
      ((listed app.appId events).map GithubUserInstallation.installationId).eraseDups
  installations_mem : ∀ verified, result = .ok verified →
    ∀ installation ∈ verified.installations, installation ∈ listed app.appId events

end

section Events

variable {events events' : Events} {appId : Int}

theorem obtained_append : obtained (events ++ events') = obtained events ++ obtained events' :=
  List.filterMap_append

theorem revoked_append : revoked (events ++ events') = revoked events ++ revoked events' :=
  List.filterMap_append

theorem pages_append : pages (events ++ events') = pages events ++ pages events' :=
  List.filterMap_append

theorem listed_append : listed appId (events ++ events') = listed appId events ++ listed appId events' := by
  unfold listed
  rw [pages_append, List.flatMap_append, List.filter_append]

structure Aside (events : Events) : Prop where
  obtained_nil : obtained events = []
  revoked_nil : revoked events = []
  pages_nil : pages events = []

theorem Aside.nil : Aside [] := ⟨rfl, rfl, rfl⟩

theorem Aside.append (h : Aside events) (h' : Aside events') : Aside (events ++ events') where
  obtained_nil := by rw [obtained_append, h.obtained_nil, h'.obtained_nil, List.append_nil]
  revoked_nil := by rw [revoked_append, h.revoked_nil, h'.revoked_nil, List.append_nil]
  pages_nil := by rw [pages_append, h.pages_nil, h'.pages_nil, List.append_nil]

theorem Aside.now {t : Date} (h : Aside events) : Aside (⟨.now, t⟩ :: events) :=
  ⟨h.obtained_nil, h.revoked_nil, h.pages_nil⟩

theorem Aside.getUser {token : String} {answer : Except ClientError GithubUserResponse} (h : Aside events)
    : Aside (⟨.getUser token, answer⟩ :: events) :=
  ⟨h.obtained_nil, h.revoked_nil, h.pages_nil⟩

end Events

section Steps

variable {app : EnabledGithubAppConfig} {code token : String} {events : Events}

theorem exchangeErrorFor_aside {answer : OauthCodeExchangeResponse} {result : Except Thrown Thrown}
    (h : (exchangeErrorFor answer).Returns events result)
    : Aside events := by
  unfold exchangeErrorFor at h
  split at h
  . have ⟨now, rest, hevents, hrest⟩ := Api.returns_now h
    have ⟨hrest, _⟩ := Prog.returns_pure hrest
    subst hevents hrest
    exact Aside.nil.now
  . split at h
    . exact (Prog.returns_pure h).1 ▸ Aside.nil
    . split at h
      . exact (Prog.returns_pure h).1 ▸ Aside.nil
      . exact (Prog.returns_pure h).1 ▸ Aside.nil

theorem revoke_returns {result : Except Thrown Unit}
    (h : (GithubAppRevocationService.revoke app token).Returns events result)
    : obtained events = [] ∧ revoked events = [token] ∧ pages events = [] := by
  unfold GithubAppRevocationService.revoke at h
  have ⟨answer, rest, hevents, hrest⟩ := Prog.returns_step h
  have ⟨hrest, _⟩ := Prog.returns_pure hrest
  subst hevents hrest
  exact ⟨rfl, rfl, rfl⟩

theorem throwing_aside {α : Type} {prog : Api Thrown} {result : Except Thrown α}
    (hprog : ∀ {events result}, prog.Returns events result → Aside events)
    (h : (prog >>= fun e => (throw e : Api α)).Returns events result)
    : Aside events ∧ ∃ e, result = .error e := by
  cases Prog.returns_bind h with
  | inl hthrow =>
    have ⟨e, first, rest, hevents, hfirst, hrest⟩ := hthrow
    have ⟨hrest, hresult⟩ := Prog.returns_throw hrest
    subst hevents hrest
    rw [List.append_nil]
    exact ⟨hprog hfirst, e, hresult⟩
  | inr herror =>
    have ⟨e, hresult, herror⟩ := herror
    exact ⟨hprog herror, e, hresult⟩

theorem exchangeOauthCode_returns {request : OauthCodeExchangeRequest}
    {result : Except Thrown OauthCodeExchangeResponse}
    (h : (exchangeOauthCode request).Returns events result)
    : pages events = [] ∧ revoked events = [] ∧
        ((∃ answer, result = .ok answer ∧ obtained events = answer.accessToken.toList) ∨
          (∃ e, result = .error e) ∧ obtained events = []) := by
  unfold exchangeOauthCode at h
  have ⟨answer, rest, hevents, hrest⟩ := Prog.returns_step h
  subst hevents
  cases answer with
  | error e =>
    cases e with
    | githubClientError reason =>
      have ⟨hrest, hresult⟩ := Prog.returns_throw hrest
      subst hrest
      exact ⟨rfl, rfl, Or.inr ⟨⟨_, hresult⟩, rfl⟩⟩
    | unexpected =>
      have ⟨hrest, hresult⟩ := Prog.returns_throw hrest
      subst hrest
      exact ⟨rfl, rfl, Or.inr ⟨⟨_, hresult⟩, rfl⟩⟩
  | ok answer =>
    have ⟨hrest, hresult⟩ := Prog.returns_pure hrest
    subst hrest
    refine ⟨rfl, rfl, Or.inl ⟨_, hresult, ?_⟩⟩
    dsimp only
    cases htoken : answer.accessToken.filter (· ≠ "") with
    | none => exact List.filterMap_cons_none htoken
    | some token => exact List.filterMap_cons_some htoken

theorem exchange_returns {result : Except Thrown String} (h : (exchange app code).Returns events result)
    : pages events = [] ∧
        ((∃ token, result = .ok token ∧ obtained events = [token] ∧ revoked events = []) ∨
          (∃ e, result = .error e) ∧ (obtained events).length ≤ 1 ∧ revoked events = obtained events) := by
  unfold exchange at h
  cases Prog.returns_bind h with
  | inr herror =>
    have ⟨e, hresult, herror⟩ := herror
    have ⟨hpages, hrevoked, hend⟩ := exchangeOauthCode_returns herror
    cases hend with
    | inl hok =>
      have ⟨_, hok, _⟩ := hok
      cases hok
    | inr hfailed =>
      rw [hfailed.2, hrevoked]
      exact ⟨hpages, Or.inr ⟨⟨e, hresult⟩, Nat.zero_le 1, rfl⟩⟩
  | inl hok =>
    have ⟨answer, first, rest, hevents, hfirst, hrest⟩ := hok
    have ⟨hpages, hrevoked, hend⟩ := exchangeOauthCode_returns hfirst
    have hobtained : obtained first = answer.accessToken.toList := by
      cases hend with
      | inl hok =>
        have ⟨answer', hanswer, hobtained⟩ := hok
        cases hanswer
        exact hobtained
      | inr hfailed =>
        have ⟨⟨_, herror⟩, _⟩ := hfailed
        cases herror
    subst hevents
    rw [pages_append, obtained_append, revoked_append, hpages, hrevoked, hobtained]
    cases htoken : answer.accessToken with
    | none =>
      rw [htoken] at hrest
      have ⟨haside, hresult⟩ := throwing_aside exchangeErrorFor_aside hrest
      rw [haside.pages_nil, haside.obtained_nil, haside.revoked_nil]
      exact ⟨rfl, Or.inr ⟨hresult, Nat.zero_le 1, rfl⟩⟩
    | some token =>
      rw [htoken] at hrest
      dsimp only at hrest
      split at hrest
      . have ⟨hrest, hresult⟩ := Prog.returns_pure hrest
        subst hrest
        exact ⟨rfl, Or.inl ⟨token, hresult, rfl, rfl⟩⟩
      . -- a token of another kind is revoked before the error is thrown
        have hunusable : pages rest = [] ∧ obtained rest = [] ∧ revoked rest = [token] ∧
            ∃ e, result = .error e := by
          cases Prog.returns_bind hrest with
          | inl hthrow =>
            have ⟨_, second, third, happend, hsecond, hthird⟩ := hthrow
            have ⟨hobtained, hrevoked, hpages⟩ := revoke_returns hsecond
            have ⟨haside, hresult⟩ := throwing_aside exchangeErrorFor_aside hthird
            subst happend
            rw [pages_append, obtained_append, revoked_append, hpages, hobtained, hrevoked,
              haside.pages_nil, haside.obtained_nil, haside.revoked_nil]
            exact ⟨rfl, rfl, rfl, hresult⟩
          | inr herror =>
            have ⟨e, hresult, herror⟩ := herror
            have ⟨hobtained, hrevoked, hpages⟩ := revoke_returns herror
            exact ⟨hpages, hobtained, hrevoked, e, hresult⟩
        have ⟨hpages, hobtained, hrevoked, hresult⟩ := hunusable
        rw [hpages, hobtained, hrevoked]
        exact ⟨rfl, Or.inr ⟨hresult, Nat.le_refl 1, rfl⟩⟩

theorem loginOf_aside {result : Except Thrown String} (h : (loginOf token).Returns events result)
    : Aside events := by
  unfold loginOf fetchGithubUser at h
  rw [Prog.bind_assoc] at h
  obtain ⟨now, rest, hevents, hrest⟩ := Api.returns_now h
  rw [Prog.bind_assoc, Prog.perform_bind] at hrest
  obtain ⟨answer, rest', hevents', hrest'⟩ := Prog.returns_step hrest
  subst hevents hevents'
  have hnil : rest' = [] := by
    cases answer with
    | error e =>
      cases e with
      | githubClientError reason => exact (Prog.returns_throw hrest').1
      | unexpected => exact (Prog.returns_throw hrest').1
    | ok response =>
      dsimp only [Prog.pure_bind] at hrest'
      split at hrest'
      . split at hrest'
        . exact (Prog.returns_pure hrest').1
        . exact (Prog.returns_throw hrest').1
      . exact (Prog.returns_throw hrest').1
  rw [hnil]
  exact Aside.nil.getUser.now

theorem pageErrorFor_aside {page : GithubInstallationsPage} {result : Except Thrown Thrown}
    (h : (pageErrorFor page).Returns events result)
    : Aside events := by
  unfold pageErrorFor at h
  split at h
  . exact (Prog.returns_pure h).1 ▸ Aside.nil
  . split at h
    . have ⟨now, rest, hevents, hrest⟩ := Api.returns_now h
      have ⟨hrest, _⟩ := Prog.returns_pure hrest
      subst hevents hrest
      exact Aside.nil.now
    . exact (Prog.returns_pure h).1 ▸ Aside.nil

theorem fetchPage_returns {pageUrl : Option String}
    {result : Except Thrown (List GithubUserInstallation × Option String)}
    (h : (fetchPage token pageUrl).Returns events result)
    : obtained events = [] ∧ revoked events = [] ∧ (pages events).length = 1 ∧
        ∀ entries nextUrl, result = .ok (entries, nextUrl) → (pages events).flatMap entriesOf = entries := by
  unfold fetchPage at h
  have ⟨answer, rest, hevents, hrest⟩ := Prog.returns_step h
  subst hevents
  cases answer with
  | error e =>
    cases e with
    | githubClientError reason =>
      have ⟨hrest, hresult⟩ := Prog.returns_throw hrest
      subst hrest hresult
      exact ⟨rfl, rfl, rfl, fun _ _ heq => nomatch heq⟩
    | unexpected =>
      have ⟨hrest, hresult⟩ := Prog.returns_throw hrest
      subst hrest hresult
      exact ⟨rfl, rfl, rfl, fun _ _ heq => nomatch heq⟩
  | ok page =>
    dsimp only [Prog.bind] at hrest
    split at hrest
    . next installations _ hinstallations =>
      have ⟨hrest, hresult⟩ := Prog.returns_pure hrest
      subst hrest hresult
      refine ⟨rfl, rfl, rfl, ?_⟩
      intro entries nextUrl heq
      cases heq
      simp [pages, entriesOf, hinstallations]
    . have ⟨haside, e, hresult⟩ := throwing_aside pageErrorFor_aside hrest
      refine ⟨haside.obtained_nil, haside.revoked_nil, congrArg (· + 1) (congrArg List.length haside.pages_nil), ?_⟩
      intro entries nextUrl heq
      cases hresult.symm.trans heq

/--
What has been found after these events: the ids that have been listed, in the order in which they have first
been, each with an installation that has been listed.
-/
structure Found (appId : Int) (events : Events) (found : List GithubUserInstallation) : Prop where
  ids_eq : found.map GithubUserInstallation.installationId =
    ((listed appId events).map GithubUserInstallation.installationId).eraseDups
  mem : ∀ installation ∈ found, installation ∈ listed appId events

theorem eraseDups_concat (ids : List Int) (id : Int)
    : (ids ++ [id]).eraseDups = if id ∈ ids then ids.eraseDups else ids.eraseDups ++ [id] := by
  rw [List.eraseDups_append]
  split
  . next hmem =>
    have hnone : [id].removeAll ids = [] := List.filter_cons_of_neg (by simpa using hmem)
    rw [hnone, List.eraseDups_nil, List.append_nil]
  . next hmem =>
    have hsome : [id].removeAll ids = [id] := List.filter_cons_of_pos (by simpa using hmem)
    rw [hsome]
    rfl

theorem setFound_ids (found : List GithubUserInstallation) (entry : GithubUserInstallation)
    : (setFound found entry).map GithubUserInstallation.installationId =
        if entry.installationId ∈ found.map GithubUserInstallation.installationId then
          found.map GithubUserInstallation.installationId
        else
          found.map GithubUserInstallation.installationId ++ [entry.installationId] := by
  unfold setFound
  split
  . rw [List.map_map]
    apply List.map_congr_left
    intro old _
    rw [Function.comp_apply]
    split
    . next hsame => exact hsame.symm
    . rfl
  . rw [List.map_append, List.map_singleton]

/--
The induction is over the new entries: one whose id is there already keeps the ids as they are.
-/
theorem foldl_setFound_ids {found all entries : List GithubUserInstallation}
    (hids : found.map GithubUserInstallation.installationId =
      (all.map GithubUserInstallation.installationId).eraseDups)
    : (entries.foldl setFound found).map GithubUserInstallation.installationId =
        ((all ++ entries).map GithubUserInstallation.installationId).eraseDups := by
  induction entries generalizing found all with
  | nil => rw [List.append_nil, List.foldl_nil, hids]
  | cons entry entries ih =>
    have hall : all ++ entry :: entries = (all ++ [entry]) ++ entries := by
      rw [List.append_assoc, List.singleton_append]
    rw [List.foldl_cons, hall]
    apply ih
    rw [setFound_ids, hids, List.map_append, List.map_singleton, eraseDups_concat]
    simp only [List.mem_eraseDups]

theorem addFound_ids {appId : Int} {found all entries : List GithubUserInstallation}
    (hids : found.map GithubUserInstallation.installationId =
      (all.map GithubUserInstallation.installationId).eraseDups)
    : (addFound appId found entries).map GithubUserInstallation.installationId =
        ((all ++ entries.filter fun installation => installation.appId == appId).map
          GithubUserInstallation.installationId).eraseDups := by
  rw [addFound, foldl_setFound_ids hids, List.map_append, List.map_append, List.eraseDups_append,
    List.eraseDups_append]
  -- What is left out of the page is left out of the union, too.
  congr 2
  rw [List.removeAll, List.removeAll, List.filter_map, List.filter_map, List.filter_filter, List.filter_filter]
  congr 1
  apply List.filter_congr
  intro entry _
  have hold : entry.installationId ∈ found.map GithubUserInstallation.installationId ↔
      entry.installationId ∈ all.map GithubUserInstallation.installationId := by
    rw [hids, List.mem_eraseDups]
  rw [Bool.eq_iff_iff]
  simp only [Function.comp_apply, Bool.and_eq_true, Bool.not_eq_true', decide_eq_true_eq, beq_iff_eq,
    List.elem_eq_contains, List.contains_eq_mem, decide_eq_false_iff_not, hold]
  exact ⟨fun h => ⟨h.1, h.2.1⟩, fun h => ⟨h.1, h.2, h.1⟩⟩

theorem Found.addFound {appId : Int} {before : Events} {found entries : List GithubUserInstallation}
    (hfound : Found appId before found) (hentries : (pages events).flatMap entriesOf = entries)
    : Found appId (before ++ events) (addFound appId found entries) := by
  have hlisted : listed appId (before ++ events) =
      listed appId before ++ entries.filter fun installation => installation.appId == appId := by
    rw [listed_append, ← hentries]
    rfl
  refine ⟨hlisted ▸ addFound_ids hfound.ids_eq, ?_⟩
  intro installation hmem
  rw [hlisted, List.mem_append, List.mem_filter]
  exact (mem_addFound hmem).imp (hfound.mem installation) fun hnew => ⟨hnew.1, beq_iff_eq.mpr hnew.2⟩

theorem installationsFrom_returns {appId : Int} {before : Events} {found : List GithubUserInstallation}
    {left : Nat} {pageUrl : Option String} {result : Except Thrown (List GithubUserInstallation)}
    (hfound : Found appId before found)
    (h : (installationsFrom token appId found left pageUrl).Returns events result)
    : obtained events = [] ∧ revoked events = [] ∧ (pages events).length ≤ left ∧
        ∀ installations, result = .ok installations → Found appId (before ++ events) installations := by
  induction left generalizing before found pageUrl events with
  | zero =>
    obtain ⟨hevents, hresult⟩ := Prog.returns_pure h
    subst hevents
    refine ⟨rfl, rfl, Nat.le_refl 0, ?_⟩
    intro installations heq
    cases hresult.symm.trans heq
    rw [List.append_nil]
    exact hfound
  | succ left ih =>
    unfold installationsFrom at h
    cases Prog.returns_bind h with
    | inr herror =>
      obtain ⟨e, hresult, herror⟩ := herror
      obtain ⟨hobtained, hrevoked, hpages, _⟩ := fetchPage_returns herror
      refine ⟨hobtained, hrevoked, by omega, ?_⟩
      intro installations heq
      cases hresult.symm.trans heq
    | inl hok =>
      obtain ⟨⟨entries, nextUrl⟩, first, rest, hevents, hfirst, hrest⟩ := hok
      obtain ⟨hobtained, hrevoked, hpages, hentries⟩ := fetchPage_returns hfirst
      have hadded := hfound.addFound (hentries entries nextUrl rfl)
      subst hevents
      rw [obtained_append, revoked_append, pages_append, hobtained, hrevoked, List.length_append, hpages,
        ← List.append_assoc]
      dsimp only at hrest
      split at hrest
      . obtain ⟨hevents, hresult⟩ := Prog.returns_pure hrest
        subst hevents
        refine ⟨rfl, rfl, by simp [pages], ?_⟩
        intro installations heq
        cases hresult.symm.trans heq
        rw [List.append_nil]
        exact hadded
      . obtain ⟨hobtained', hrevoked', hpages', hfound'⟩ := ih hadded hrest
        rw [hobtained', hrevoked']
        exact ⟨rfl, rfl, by omega, hfound'⟩

theorem verified_returns {result : Except Thrown VerifiedGithubUser} {appId : Int}
    (h : (do
      let login ← loginOf token
      let installations ← installationsOf token appId
      pure { login, installations : VerifiedGithubUser }).Returns events result)
    : obtained events = [] ∧ revoked events = [] ∧ (pages events).length ≤ 10 ∧
        ∀ verified, result = .ok verified → Found appId events verified.installations := by
  cases Prog.returns_bind h with
  | inr herror =>
    have ⟨e, hresult, herror⟩ := herror
    have haside := loginOf_aside herror
    refine ⟨haside.obtained_nil, haside.revoked_nil, by simp [haside.pages_nil], ?_⟩
    intro verified heq
    cases hresult.symm.trans heq
  | inl hok =>
    have ⟨login, first, rest, hevents, hfirst, hrest⟩ := hok
    have haside := loginOf_aside hfirst
    have hnone : Found appId first [] := by
      have hlisted : listed appId first = [] := by
        unfold listed
        rw [haside.pages_nil]
        rfl
      exact ⟨by rw [hlisted]; rfl, fun _ hmem => nomatch hmem⟩
    subst hevents
    rw [obtained_append, revoked_append, pages_append, haside.obtained_nil, haside.revoked_nil,
      haside.pages_nil, List.nil_append, List.nil_append, List.nil_append]
    cases Prog.returns_bind hrest with
    | inr herror =>
      have ⟨e, hresult, herror⟩ := herror
      have ⟨hobtained, hrevoked, hpages, _⟩ := installationsFrom_returns hnone herror
      refine ⟨hobtained, hrevoked, hpages, ?_⟩
      intro verified heq
      cases hresult.symm.trans heq
    | inl hok =>
      have ⟨installations, second, third, hrest, hsecond, hthird⟩ := hok
      have ⟨hobtained, hrevoked, hpages, hfound⟩ := installationsFrom_returns hnone hsecond
      have ⟨hthird, hresult⟩ := Prog.returns_pure hthird
      subst hthird
      rw [List.append_nil] at hrest
      subst hrest
      refine ⟨hobtained, hrevoked, hpages, ?_⟩
      intro verified heq
      cases hresult.symm.trans heq
      exact hfound installations rfl

theorem outcome_returns {T : Type} {run : Api T} {outcome : Except Thrown (Except Thrown T)}
    (h : (IntegrationCredentialService.outcome run).Returns events outcome)
    : ∃ result, outcome = .ok result ∧ run.Returns events result := by
  unfold IntegrationCredentialService.outcome at h
  rw [Prog.map_eq] at h
  cases Prog.returns_tryCatch h with
  | inl hok =>
    have ⟨result, houtcome, hrun⟩ := hok
    cases Prog.returns_bind hrun with
    | inl hdone =>
      have ⟨a, first, rest, hevents, hfirst, hrest⟩ := hdone
      have ⟨hrest, hresult⟩ := Prog.returns_pure hrest
      subst hevents hrest
      rw [List.append_nil]
      exact ⟨.ok a, houtcome.trans hresult, hfirst⟩
    | inr herror =>
      have ⟨_, herror, _⟩ := herror
      cases herror
  | inr hcaught =>
    have ⟨e, first, rest, hevents, hfirst, hrest⟩ := hcaught
    have ⟨hrest, houtcome⟩ := Prog.returns_pure hrest
    subst hevents hrest
    rw [List.append_nil]
    cases Prog.returns_bind hfirst with
    | inl hdone =>
      have ⟨_, _, _, _, _, hthrown⟩ := hdone
      cases hthrown
    | inr herror =>
      have ⟨e', he, hrun⟩ := herror
      cases he
      exact ⟨.error e, houtcome, hrun⟩

theorem ofExcept_returns {T : Type} {value : Except Thrown T} {result : Except Thrown T}
    (h : (Prog.ofExcept value : Api T).Returns events result)
    : events = [] ∧ result = value := by
  cases value with
  | ok a => exact Prog.returns_pure h
  | error e => exact Prog.returns_throw h

theorem revoking_returns {result : Except Thrown VerifiedGithubUser} {verified : Except Thrown VerifiedGithubUser}
    (h : (do
      GithubAppRevocationService.revoke app token
      Prog.ofExcept verified : Api VerifiedGithubUser).Returns events result)
    : obtained events = [] ∧ revoked events = [token] ∧ pages events = [] ∧
        ∀ user, result = .ok user → verified = .ok user := by
  cases Prog.returns_bind h with
  | inr herror =>
    have ⟨e, hresult, herror⟩ := herror
    have ⟨hobtained, hrevoked, hpages⟩ := revoke_returns herror
    refine ⟨hobtained, hrevoked, hpages, ?_⟩
    intro user heq
    cases hresult.symm.trans heq
  | inl hok =>
    have ⟨_, first, rest, hevents, hfirst, hrest⟩ := hok
    have ⟨hobtained, hrevoked, hpages⟩ := revoke_returns hfirst
    have ⟨hrest, hresult⟩ := ofExcept_returns hrest
    subst hevents hrest
    rw [List.append_nil]
    exact ⟨hobtained, hrevoked, hpages, fun user heq => hresult.symm.trans heq⟩

theorem verify_returns {result : Except Thrown VerifiedGithubUser}
    (h : (verify app code).Returns events result)
    : RevokesTokens app events result := by
  unfold verify at h
  cases Prog.returns_bind h with
  | inr herror =>
    have ⟨e, hresult, herror⟩ := herror
    have ⟨hpages, hend⟩ := exchange_returns herror
    -- the exchange has failed: a token that came with the failure has been revoked there
    have hrevoked : (obtained events).length ≤ 1 ∧ revoked events = obtained events := by
      cases hend with
      | inl hok =>
        have ⟨_, hok, _⟩ := hok
        cases hok
      | inr hfailed => exact hfailed.2
    have hfailed : ∀ user, result ≠ .ok user := by
      intro user heq
      cases hresult.symm.trans heq
    refine ⟨?_, by simp [hpages], fun user heq => absurd heq (hfailed user),
      fun user heq => absurd heq (hfailed user)⟩
    intro token htoken
    rw [hrevoked.2]
    have hpos := List.count_pos_iff.mpr htoken
    have hle := List.count_le_length (a := token) (l := obtained events)
    omega
  | inl hok =>
    have ⟨token, first, rest, hevents, hfirst, hrest⟩ := hok
    have ⟨hpages₁, hend⟩ := exchange_returns hfirst
    have ⟨hobtained₁, hrevoked₁⟩ : obtained first = [token] ∧ revoked first = [] := by
      cases hend with
      | inl hok =>
        have ⟨_, htoken, hok⟩ := hok
        cases htoken
        exact hok
      | inr hfailed =>
        have ⟨⟨_, herror⟩, _⟩ := hfailed
        cases herror
    -- the outcome is caught, so that the token is revoked whatever it is
    cases Prog.returns_bind hrest with
    | inr herror =>
      have ⟨e, _, herror⟩ := herror
      have ⟨_, houtcome, _⟩ := outcome_returns herror
      cases houtcome
    | inl hok =>
      have ⟨verified, second, third, hrest, hsecond, hthird⟩ := hok
      have ⟨_, houtcome, hverified⟩ := outcome_returns hsecond
      cases houtcome
      have ⟨hobtained₂, hrevoked₂, hpages₂, hfound⟩ := verified_returns hverified
      have ⟨hobtained₃, hrevoked₃, hpages₃, hresult⟩ := revoking_returns hthird
      subst hevents hrest
      have hlisted : listed app.appId (first ++ (second ++ third)) = listed app.appId second := by
        unfold listed
        rw [pages_append, pages_append, hpages₁, hpages₃, List.nil_append, List.append_nil]
      refine ⟨?_, ?_, ?_, ?_⟩
      . intro token' htoken'
        rw [obtained_append, obtained_append, hobtained₁, hobtained₂, hobtained₃] at htoken'
        rw [revoked_append, revoked_append, hrevoked₁, hrevoked₂, hrevoked₃]
        cases List.mem_singleton.mp htoken'
        exact List.count_singleton_self
      . rw [pages_append, pages_append, hpages₁, hpages₃, List.nil_append, List.append_nil]
        exact hpages₂
      . intro user heq
        rw [hlisted]
        exact (hfound user (hresult user heq)).ids_eq
      . intro user heq
        rw [hlisted]
        exact (hfound user (hresult user heq)).mem

end Steps

section Run

def exampleApp : EnabledGithubAppConfig where
  appId := 7
  clientId := "app-client"
  slug := "kerghan"
  callbackUrl := "https://kerghan.example/app"

def exampleInstallation (installationId appId : Int) : GithubUserInstallation where
  installationId
  appId
  accountLogin := "ann"
  accountType := .user

/--
A verification that finds an installation listed twice, and one of another app.
-/
def exampleEvents : Events :=
  [
    ⟨.exchangeOauthCode
      {
        clientId := "app-client"
        code := "code"
        codeVerifier := none
        redirectUri := "https://kerghan.example/app"
      },
      .ok { status := 200, accessToken := some "ghu_x", error := none }⟩,
    ⟨.now, 0⟩,
    ⟨.getUser "ghu_x", .ok { status := 200, login := some "ann", oauthScopes := none, tokenExpiration := none }⟩,
    ⟨.listUserInstallations "ghu_x" none,
      .ok
        {
          status := 200
          installations := some [exampleInstallation 2 7, exampleInstallation 1 8, exampleInstallation 2 7]
          nextUrl := none
        }⟩,
    ⟨.revokeOauthToken { clientId := "app-client", token := "ghu_x" }, .ok 204⟩
  ]

theorem exampleEvents_return
    : (verify exampleApp "code").Returns exampleEvents
        (.ok { login := "ann", installations := [exampleInstallation 2 7] }) :=
  .step (.step (.step (.step (.step (.pure _)))))

theorem verify_returns_exampleEvents
    : RevokesTokens exampleApp exampleEvents
        (.ok { login := "ann", installations := [exampleInstallation 2 7] }) :=
  verify_returns exampleEvents_return

end Run

end GithubAppUserVerificationService

end Kerghan.Integrations
