import Kerghan.Async.Sequential
import Kerghan.Sorted
import Kerghan.Integrations.Impl.OauthApp
import Kerghan.Integrations.Sample

/-!
This module contains when the scopes that are kept of a header decide like the whole header whether a token
has the scope `repo`.
-/

namespace Kerghan.Integrations

/--
The entries of a header `X-OAuth-Scopes`.
-/
def scopeEntries (header : Option String) : List String :=
  (split ',' (header.getD "")).map trim

/--
The different entries that may be kept.
-/
def keepableScopes (header : Option String) : List String :=
  ((scopeEntries header).filter fun scope => scope ≠ "" ∧ utf16Length scope ≤ MAX_SCOPE_LENGTH).eraseDups

/--
If `repo` is an entry, then so few other entries sort before it that it is not cut off.
-/
def KeepsRepo (header : Option String) : Prop :=
  "repo" ∈ scopeEntries header →
    (keepableScopes header).countP (fun scope => utf16 scope < utf16 "repo") < MAX_SCOPES

structure Knows (e : Env) (login : String) (response : GithubUserResponse) : Prop where
  user : e.user = .ok response
  status : response.status = 200
  login : usableLogin response.login = some login

structure HandsOut (e : Env) (token : String) (answer : OauthCodeExchangeResponse) : Prop where
  exchange : e.exchange = .ok answer
  status : answer.status = 200
  accessToken : answer.accessToken = some token
  token : isOauthAppToken token = true

/--
All that require a scope decide on the whole header. Each call has the world for itself.
-/
structure DecidesOnHeader [Platform] (cfg : IntegrationsConfig) (e : Env) (w : World) (header : Option String)
    : Prop where
  pat : ∀ token, tokenKindOf token = some .classic →
    ((∃ credential, ((PatStrategy.validate token).eval Effect.exec e w).1 = .ok credential) ↔
      "repo" ∈ scopeEntries header)
  patTest : ∀ token current, tokenKindOf token = some .classic →
    ((∃ login expiresAt metadata,
      ((PatStrategy.test token current).eval Effect.exec e w).1 = .ok (.active login expiresAt metadata)) ↔
        "repo" ∈ scopeEntries header)
  oauthApp : ∀ app code codeVerifier token answer, cfg.oauthApp = some app → HandsOut e token answer →
    ((∃ credential, ((OauthAppStrategy.validate cfg code codeVerifier).eval Effect.exec e w).1 = .ok credential) ↔
      "repo" ∈ scopeEntries header)
  oauthAppTest : ∀ token current,
    ((∃ login expiresAt metadata,
      ((OauthAppStrategy.test cfg token current).eval Effect.exec e w).1 = .ok (.active login expiresAt metadata)) ↔
        "repo" ∈ scopeEntries header)

section Kept

variable {header : Option String}

theorem parseScopes_eq
    : parseScopes header =
        ((keepableScopes header).insertionSort fun a b => utf16 a ≤ utf16 b).take MAX_SCOPES := rfl

theorem scopeEntries_intercalate {names : List String} (hne : names ≠ [])
    (hcomma : ∀ name ∈ names, ',' ∉ name.toList) (htrim : ∀ name ∈ names, trim name = name)
    : scopeEntries (some (String.ofList ([','].intercalate (names.map String.toList)))) = names := by
  have hpieces : ∀ piece ∈ names.map String.toList, ',' ∉ piece := by
    intro piece hpiece
    have ⟨name, hname, heq⟩ := List.mem_map.mp hpiece
    rw [← heq]
    exact hcomma name hname
  have hname : ∀ name ∈ names, trim (String.ofList name.toList) = name := by
    intro name hname
    rw [String.ofList_toList]
    exact htrim name hname
  rw [scopeEntries, split, Option.getD_some, String.toList_ofList,
    List.splitOn_intercalate ',' hpieces (by simpa using hne), List.map_map, List.map_map]
  exact (List.map_congr_left hname).trans (List.map_id' names)

theorem mem_keepableScopes {scope : String}
    : scope ∈ keepableScopes header ↔
        scope ∈ scopeEntries header ∧ scope ≠ "" ∧ utf16Length scope ≤ MAX_SCOPE_LENGTH := by
  simp [keepableScopes]

/--
`repo` is kept if and only if it is an entry that is not cut off.
-/
theorem repo_mem_parseScopes
    : "repo" ∈ parseScopes header ↔ "repo" ∈ scopeEntries header ∧ KeepsRepo header := by
  have hmem : "repo" ∈ keepableScopes header ↔ "repo" ∈ scopeEntries header := by
    rw [mem_keepableScopes, and_iff_left (by decide +kernel)]
  have hkey : ∀ scope, utf16 scope = utf16 "repo" → scope = "repo" := by
    intro scope
    apply eq_of_utf16_eq
    simp
  rw [parseScopes_eq]
  constructor
  . intro hkept
    have hentry := (List.mem_insertionSort _).mp (List.mem_of_mem_take hkept)
    refine ⟨hmem.mp hentry, fun _ => ?_⟩
    exact (Sorted.mem_take_insertionSort_iff (Sorted.nodup_eraseDups _) hkey hentry).mp hkept
  . intro ⟨hentry, hkeeps⟩
    exact (Sorted.mem_take_insertionSort_iff (Sorted.nodup_eraseDups _) hkey (hmem.mpr hentry)).mpr (hkeeps hentry)

theorem keepsRepo_iff
    : KeepsRepo header ↔ ("repo" ∈ parseScopes header ↔ "repo" ∈ scopeEntries header) := by
  rw [repo_mem_parseScopes]
  constructor
  . intro hkeeps
    exact and_iff_left hkeeps
  . intro hdecides hentry
    exact (hdecides.mpr hentry).2 hentry

end Kept

section Decisions

variable [Platform] {cfg : IntegrationsConfig} {e : Env} {w : World} {login token : String}
variable {response : GithubUserResponse}

theorem eval_fetchGithubUser (h : Knows e login response) {α : Type} {f : GithubUserAnswer → Api α}
    : (fetchGithubUser token >>= f).eval Effect.exec e w = (f (.ok login response)).eval Effect.exec e w := by
  have hnow : Effect.exec .now e w = (e.now, w) := rfl
  have huser : Effect.exec (.getUser token) e w = (.ok response, w) := by rw [← h.user]; rfl
  have hclass : classifyGithubUser response e.now = .ok login response := by
    simp [classifyGithubUser, h.status, h.login]
  rw [fetchGithubUser, Api.now, Prog.perform_bind, Prog.step_bind, Prog.eval_step, hnow, Prog.perform_bind,
    Prog.step_bind, Prog.eval_step, huser]
  dsimp only
  rw [Prog.pure_bind, hclass]

omit [Platform] in
theorem hasRequiredPermissions_classic {header : Option String}
    : PatStrategy.hasRequiredPermissions (buildPatMetadata .classic header) = true ↔ "repo" ∈ parseScopes header := by
  simp [PatStrategy.hasRequiredPermissions, buildPatMetadata, PatStrategy.REQUIRED_CLASSIC_SCOPE]

theorem validate_pat (h : Knows e login response) (hkind : tokenKindOf token = some .classic)
    : (∃ credential, ((PatStrategy.validate token).eval Effect.exec e w).1 = .ok credential) ↔
        "repo" ∈ parseScopes response.oauthScopes := by
  rw [PatStrategy.validate, eval_fetchGithubUser h]
  simp only [PatStrategy.identityFrom, hkind, Option.getD_some, hasRequiredPermissions_classic]
  split
  . next hkept => simp [hkept]
  . next hlost => simp [hlost]

theorem test_pat (h : Knows e login response) (hkind : tokenKindOf token = some .classic) {current : Integration}
    : (∃ login expiresAt metadata,
        ((PatStrategy.test token current).eval Effect.exec e w).1 = .ok (.active login expiresAt metadata)) ↔
          "repo" ∈ parseScopes response.oauthScopes := by
  rw [PatStrategy.test, eval_fetchGithubUser h]
  simp only [PatStrategy.activeOutcome, PatStrategy.identityFrom, hkind, Option.getD_some,
    hasRequiredPermissions_classic, Prog.eval_pure]
  split
  . next hkept => simp [hkept]
  . next hlost => simp [hlost]

theorem identify_oauthApp (h : Knows e login response) {clientId : String}
    : (OauthAppStrategy.identify token clientId).eval Effect.exec e w =
        if "repo" ∈ parseScopes response.oauthScopes then
          (.ok {
            secret := .oauthApp token
            githubLogin := login
            expiresAt := none
            metadata := .oauthApp (buildOauthAppMetadata response.oauthScopes clientId)
          }, w)
        else
          (.error (.credential (.insufficientPermissions "The authorization lacks the repo scope")), w) := by
  rw [OauthAppStrategy.identify, eval_fetchGithubUser h]
  simp only [OauthAppStrategy.hasRequiredScope, buildOauthAppMetadata, OauthAppStrategy.REQUIRED_SCOPE,
    List.contains_iff_mem]
  split
  . rfl
  . rfl

theorem test_oauthApp (h : Knows e login response) {current : Integration}
    : (∃ login expiresAt metadata,
        ((OauthAppStrategy.test cfg token current).eval Effect.exec e w).1 =
          .ok (.active login expiresAt metadata)) ↔
            "repo" ∈ parseScopes response.oauthScopes := by
  rw [OauthAppStrategy.test, eval_fetchGithubUser h]
  simp only [OauthAppStrategy.activeOutcome, OauthAppStrategy.hasRequiredScope, buildOauthAppMetadata,
    OauthAppStrategy.REQUIRED_SCOPE, List.contains_iff_mem, Prog.eval_pure]
  split
  . next hkept => simp [hkept]
  . next hlost => simp [hlost]

theorem exchange_handsOut {answer : OauthCodeExchangeResponse} {app : EnabledOauthAppConfig}
    (h : HandsOut e token answer) {code codeVerifier : String}
    : (OauthAppCodeExchangeService.exchange cfg app code codeVerifier).eval Effect.exec e w = (.ok token, w) := by
  have hpresent : token ≠ "" := by
    intro hempty
    have htoken := h.token
    rw [hempty] at htoken
    exact absurd htoken (by decide)
  have hexec (request : OauthCodeExchangeRequest)
      : Effect.exec (.exchangeOauthCode request) e w = (.ok answer, w) := by
    rw [← h.exchange]
    rfl
  have hanswer (request : OauthCodeExchangeRequest)
      : (exchangeOauthCode request).eval Effect.exec e w =
          (.ok { answer with accessToken := answer.accessToken.filter (· ≠ "") }, w) := by
    rw [exchangeOauthCode, Prog.perform_bind, Prog.eval_step, hexec]
    rfl
  rw [OauthAppCodeExchangeService.exchange, Prog.eval_bind, hanswer]
  have hfilter : answer.accessToken.filter (· ≠ "") = some token := by
    rw [h.accessToken, Option.filter_some, if_pos (by simpa using hpresent)]
  dsimp only
  rw [hfilter]
  dsimp only
  rw [if_pos ⟨h.status, h.token⟩]
  rfl

theorem validate_oauthApp (h : Knows e login response) {answer : OauthCodeExchangeResponse}
    {app : EnabledOauthAppConfig} (happ : cfg.oauthApp = some app) (hhanded : HandsOut e token answer)
    {code codeVerifier : String}
    : (∃ credential, ((OauthAppStrategy.validate cfg code codeVerifier).eval Effect.exec e w).1 = .ok credential) ↔
        "repo" ∈ parseScopes response.oauthScopes := by
  rw [OauthAppStrategy.validate, happ]
  dsimp only
  rw [Prog.eval_bind, exchange_handsOut hhanded]
  dsimp only
  rw [Prog.tryCatch_eq, Prog.eval_tryCatch, identify_oauthApp h]
  by_cases hkept : "repo" ∈ parseScopes response.oauthScopes
  . simp [hkept]
  . simp only [hkept, if_false, iff_false, not_exists]
    intro credential
    exact Prog.eval_bind_throw

/--
The check of the kept scopes is one of the whole header unless `repo` is cut off.
-/
theorem decidesOnHeader_iff (h : Knows e login response)
    : DecidesOnHeader cfg e w response.oauthScopes ↔ KeepsRepo response.oauthScopes := by
  rw [keepsRepo_iff]
  constructor
  . intro hdecides
    rw [← hdecides.pat "ghp_" rfl]
    exact (validate_pat h rfl).symm
  . intro hkeeps
    exact {
      pat := fun token hkind => (validate_pat h hkind).trans hkeeps
      patTest := fun token current hkind => (test_pat h hkind).trans hkeeps
      oauthApp := fun app code codeVerifier token answer happ hhanded =>
        (validate_oauthApp h happ hhanded).trans hkeeps
      oauthAppTest := fun token current => (test_oauthApp h).trans hkeeps
    }

end Decisions

section Examples

attribute [local instance] Kerghan.Sample.platform

/--
The scope `A...A` of `n` letters.
-/
def longScope (n : Nat) : String :=
  String.ofList (List.replicate n 'A')

/--
The scopes `A`, `AA`, ..., fifty of them, and then `repo`.
-/
def crowdedScopes : List String :=
  (List.range' 1 50).map longScope ++ ["repo"]

def crowdedHeader : String :=
  String.ofList ([','].intercalate (crowdedScopes.map String.toList))

theorem utf16_longScope (n : Nat) : utf16 (longScope n) = List.replicate n 65 := by
  rw [utf16, longScope, String.toList_ofList, List.flatMap_replicate]
  exact List.flatten_replicate_singleton

theorem scopeEntries_crowdedHeader : scopeEntries (some crowdedHeader) = crowdedScopes := by
  have hplain : ∀ name ∈ crowdedScopes, ∀ c ∈ name.toList, c ≠ ',' ∧ isSpace c = false := by
    intro name hname c hc
    rcases List.mem_append.mp hname with hlong | hrepo
    . have ⟨n, _, hn⟩ := List.mem_map.mp hlong
      rw [← hn, longScope, String.toList_ofList] at hc
      rw [List.eq_of_mem_replicate hc]
      decide
    . rw [List.mem_singleton.mp hrepo] at hc
      have hplain : "repo".toList.all (fun c => c != ',' && !isSpace c) = true := by decide
      simpa using List.all_eq_true.mp hplain c hc
  apply scopeEntries_intercalate
  . exact List.append_ne_nil_of_right_ne_nil _ (List.cons_ne_nil _ _)
  . intro name hname hc
    exact (hplain name hname ',' hc).1 rfl
  . intro name hname
    exact trim_eq_self fun c hc => (hplain name hname c hc).2

theorem not_keepsRepo_crowdedHeader : ¬KeepsRepo (some crowdedHeader) := by
  intro hkeeps
  have hentry : "repo" ∈ scopeEntries (some crowdedHeader) := by
    rw [scopeEntries_crowdedHeader]
    exact List.mem_append_right _ (List.mem_singleton_self _)
  have hnodup : ((List.range' 1 50).map longScope).Nodup := by
    have hinj : Function.Injective longScope := by
      intro n m hnm
      have hlength := congrArg (fun scope => (utf16 scope).length) hnm
      simpa [utf16_longScope] using hlength
    exact List.Nodup.map hinj (@List.nodup_range' 1 50 1 Nat.one_pos)
  have hsubset : (List.range' 1 50).map longScope ⊆
      (keepableScopes (some crowdedHeader)).filter fun scope => utf16 scope < utf16 "repo" := by
    intro scope hscope
    have ⟨n, hn, hname⟩ := List.mem_map.mp hscope
    have ⟨hpos, hle⟩ : 1 ≤ n ∧ n < 1 + 50 := by simpa using hn
    have hsorts : utf16 scope < utf16 "repo" := by
      rw [← hname, utf16_longScope, ← Nat.succ_pred_eq_of_pos hpos, List.replicate_succ]
      exact List.Lex.rel (by decide)
    have hkeepable : scope ∈ keepableScopes (some crowdedHeader) := by
      rw [mem_keepableScopes, scopeEntries_crowdedHeader]
      refine ⟨List.mem_append_left _ hscope, ?_, ?_⟩
      . intro hempty
        have hlength := congrArg (fun scope => (utf16 scope).length) (hname.trans hempty)
        simp only [utf16_longScope, List.length_replicate] at hlength
        exact absurd hlength (Nat.ne_of_gt hpos)
      . rw [← hname, utf16Length, utf16_longScope, List.length_replicate, MAX_SCOPE_LENGTH]
        omega
    simpa [hkeepable] using hsorts
  have hcount := (List.subperm_of_subset hnodup hsubset).length_le
  have hfew := hkeeps hentry
  rw [List.countP_eq_length_filter] at hfew
  rw [List.length_map, List.length_range'] at hcount
  exact absurd hfew (Nat.not_lt.mpr hcount)

abbrev userWith (scopes : String) : GithubUserResponse where
  status := 200
  login := some "ann"
  oauthScopes := some scopes
  tokenExpiration := none

theorem knows_userWith (scopes : String)
    : Knows { Sample.env 0 with user := .ok (userWith scopes) } "ann" (userWith scopes) where
  user := rfl
  status := rfl
  login := rfl

theorem decidesOnHeader_two
    : DecidesOnHeader Sample.config { Sample.env 0 with user := .ok (userWith "repo, gist") } Sample.world
        (some "repo, gist") :=
  (decidesOnHeader_iff (knows_userWith "repo, gist")).mpr fun _ => by decide +kernel

/--
`repo` is an entry that comes after fifty others.
-/
theorem not_decidesOnHeader
    : ¬∀ (_ : Platform) (cfg : IntegrationsConfig) (e : Env) (w : World) (login : String)
        (response : GithubUserResponse),
          Knows e login response → DecidesOnHeader cfg e w response.oauthScopes := by
  intro h
  have hdecides := h Kerghan.Sample.platform Sample.config _ Sample.world _ _ (knows_userWith crowdedHeader)
  exact not_keepsRepo_crowdedHeader ((decidesOnHeader_iff (knows_userWith crowdedHeader)).mp hdecides)

end Examples

end Kerghan.Integrations
