import Kerghan.Except
import Kerghan.Core.Impl.OriginGuard

/-!
This module contains the proof that the guard of origins tells the requests of other sites from those of
our own pages: it lets through what CORS would, what comes from the own host, and what the user has asked
for.
-/

namespace Kerghan

/--
The origin of a page or of a server. The host is as URLs have it: with its port, unless this is the
default one of the scheme.
-/
structure WebOrigin where
  scheme : String
  host : String
  deriving DecidableEq

namespace WebOrigin

def serialize (origin : WebOrigin) : String :=
  origin.scheme ++ "://" ++ origin.host

/--
There are pages with this origin: the scheme and the host are those of some URL.
-/
def OfUrl (parseUrl : String → Option Url) (origin : WebOrigin) : Prop :=
  ∃ raw url, parseUrl raw = some url ∧ url.protocol = origin.scheme ++ ":" ∧ url.host = origin.host

end WebOrigin

/--
What the URL standard says about `new URL`, as far as the guard depends on it.
-/
structure StandardUrls (parseUrl : String → Option Url) : Prop where
  /-- The serialisation of an opaque origin has no scheme. -/
  null : parseUrl "null" = none
  origin : ∀ raw url, parseUrl raw = some url → url.protocol ∈ Cors.ALLOWED_PROTOCOLS →
    url.origin = url.protocol ++ "//" ++ url.host
  /-- The part of a URL up to its host is a URL with this host. -/
  authority : ∀ raw url, parseUrl raw = some url →
    ∃ url', parseUrl (url.protocol ++ "//" ++ url.host) = some url' ∧ url'.host = url.host

/--
Who has made a browser send a request. A page without an origin has an opaque one.
-/
inductive Initiator where
  | user
  | page (origin : Option WebOrigin)

namespace Initiator

def serializedOrigin : Initiator → String
  | .page (some origin) => origin.serialize
  | _ => "null"

/--
The value of `Sec-Fetch-Site` for a request to this server.
-/
def fetchSite (sameSite : WebOrigin → WebOrigin → Bool) (server : WebOrigin) : Initiator → String
  | .user => "none"
  | .page none => "cross-site"
  | .page (some origin) =>
    if origin = server then
      "same-origin"
    else if sameSite origin server then
      "same-site"
    else
      "cross-site"

end Initiator

/--
A state-changing request as a browser sends it. One that does not send `Sec-Fetch-Site` sends the origin
of the page, or hides it.
-/
structure BrowserMade (parseUrl : String → Option Url) (sameSite : WebOrigin → WebOrigin → Bool)
    (server : WebOrigin) (initiator : Initiator) (method : String) (request : Request) : Prop where
  method_mem : method ∈ OriginGuard.STATE_CHANGING_METHODS
  host_eq : request.headers "host" = some (.one server.host)
  ofUrl : ∀ origin, initiator = .page (some origin) → origin.OfUrl parseUrl
  fetch : request.headers "sec-fetch-site" = some (.one (initiator.fetchSite sameSite server)) ∨
    request.headers "sec-fetch-site" = none ∧ request.headers "origin" ≠ none
  origin_eq : ∀ value, request.headers "origin" = some value →
    value = .one initiator.serializedOrigin ∨ value = .one "null"

def HidesOrigin (request : Request) : Prop :=
  request.headers "sec-fetch-site" = none ∧ request.headers "origin" = some (.one "null")

/--
CORS allows this origin. If it is disabled, it allows none.
-/
def CorsAllows (options : Option CorsConfig) (origin : String) : Prop :=
  ∃ config, options = some config ∧
    match config.origin with
    | .any => True
    | .list origins => origin ∈ origins

section

variable (parseUrl : String → Option Url) (sameSite : WebOrigin → WebOrigin → Bool)

def Passes (guard : OriginGuard) (method : String) (request : Request) : Prop :=
  guard.canActivate parseUrl method request = .ok true

def KeepsOut (options : Option CorsConfig) (guard : OriginGuard) : Prop :=
  ∀ server initiator method request, BrowserMade parseUrl sameSite server initiator method request →
    Passes parseUrl guard method request →
      initiator = .user
        ∨
      CorsAllows options initiator.serializedOrigin
        ∨
      ∃ origin, initiator = .page (some origin) ∧ origin.host = server.host

/--
What could be expected of the guard: own pages always pass, and it trusts whatever CORS allows.
-/
structure SeparatesSites (options : Option CorsConfig) (guard : OriginGuard) : Prop where
  keepsOut : KeepsOut parseUrl sameSite options guard
  letsIn : ∀ server method request,
    BrowserMade parseUrl sameSite server (.page (some server)) method request →
      Passes parseUrl guard method request
  trusts_iff : ∀ origin,
    OriginGuard.isTrustedOrigin parseUrl (some origin) guard.trustedOrigins = true ↔
      CorsAllows options origin

structure TellsSites (options : Option CorsConfig) (guard : OriginGuard) : Prop where
  keepsOut : KeepsOut parseUrl sameSite options guard
  letsIn : ∀ server method request,
    BrowserMade parseUrl sameSite server (.page (some server)) method request →
      (Passes parseUrl guard method request ↔ ¬HidesOrigin request)
  trusts_iff : ∀ origin,
    OriginGuard.isTrustedOrigin parseUrl (some origin) guard.trustedOrigins = true ↔
      parseUrl origin ≠ none ∧ CorsAllows options origin
  /-- Only the wildcard allows what is not the origin of a URL. -/
  parses : ∀ origin, CorsAllows options origin → guard.trustedOrigins ≠ .any → parseUrl origin ≠ none

end

section

variable {parseUrl : String → Option Url} {sameSite : WebOrigin → WebOrigin → Bool}
variable {get : String → Option String} {options : Option CorsConfig} {guard : OriginGuard}
variable {server : WebOrigin} {initiator : Initiator} {method : String} {request : Request}

theorem WebOrigin.OfUrl.parse_serialize (hurls : StandardUrls parseUrl) {origin : WebOrigin}
    (h : origin.OfUrl parseUrl)
    : ∃ url, parseUrl origin.serialize = some url ∧ url.host = origin.host := by
  have ⟨raw, url, hparse, hprotocol, hhost⟩ := h
  have ⟨url', hparse', hhost'⟩ := hurls.authority raw url hparse
  refine ⟨url', ?_, hhost'.trans hhost⟩
  have hserialize : url.protocol ++ "//" ++ url.host = origin.serialize := by
    have hcolon : "://" = ":" ++ "//" := by decide
    rw [hprotocol, hhost, WebOrigin.serialize, hcolon]
    simp only [String.append_assoc]
  rw [← hserialize]
  exact hparse'

theorem isTrustedOrigin_iff {origin : String} {trusted : AllowedOrigins}
    : OriginGuard.isTrustedOrigin parseUrl (some origin) trusted = true ↔
        parseUrl origin ≠ none ∧
          match trusted with
          | .any => True
          | .list origins => origin ∈ origins := by
  unfold OriginGuard.isTrustedOrigin
  cases hparse : parseUrl origin with
  | none => simp [hparse]
  | some url =>
    cases trusted with
    | any => simp [hparse]
    | list origins => simp [hparse]

theorem isSameHost_iff {origin host : String}
    : OriginGuard.isSameHost parseUrl origin (some host) = true ↔
        ∃ url, parseUrl origin = some url ∧ url.host = host := by
  unfold OriginGuard.isSameHost
  cases parseUrl origin with
  | none => simp
  | some url => simp

theorem assertBareOrigin_ok {entry : String} (h : Cors.assertBareOrigin parseUrl entry = .ok ())
    : parseUrl entry ≠ none := by
  intro hparse
  unfold Cors.assertBareOrigin at h
  split at h
  . cases h
  . simp [hparse, throw, throwThe, MonadExceptOf.throw] at h

theorem parseAllowedOrigins_parses {raw : String} {isProduction : Bool} {origins : List String}
    (h : Cors.parseAllowedOrigins parseUrl raw isProduction = .ok (.list origins))
    : ∀ origin ∈ origins, parseUrl origin ≠ none := by
  unfold Cors.parseAllowedOrigins at h
  dsimp only at h
  split at h
  . unfold Cors.assertWildcardAllowed at h
    split at h
    . cases h
    . split at h
      . cases h
      . cases h
  . have ⟨_, hbare, hentries⟩ := Except.bind_eq_ok.mp h
    cases hentries
    intro origin horigin
    exact assertBareOrigin_ok (Except.forM_eq_ok.mp hbare origin horigin)

theorem originFromFrontendBaseUrl_parses (hurls : StandardUrls parseUrl) {raw origin : String}
    (h : Cors.originFromFrontendBaseUrl parseUrl raw = .ok origin)
    : parseUrl origin ≠ none := by
  unfold Cors.originFromFrontendBaseUrl at h
  split at h
  . cases h
  . next url hurl =>
    cases h
    have ⟨hparse, hprotocol⟩ := Option.filter_eq_some_iff.mp hurl
    have ⟨url', hparse', _⟩ := hurls.authority raw url hparse
    rw [hurls.origin raw url hparse (by simpa using hprotocol), hparse']
    exact Option.some_ne_none url'

theorem buildCorsOptions_parses (hurls : StandardUrls parseUrl) {config : CorsConfig}
    {origins : List String} (h : Cors.buildCorsOptions parseUrl get = .ok (some config))
    (horigins : config.origin = .list origins)
    : ∀ origin ∈ origins, parseUrl origin ≠ none := by
  unfold Cors.buildCorsOptions at h
  dsimp only at h
  split at h
  . have ⟨allowed, hallowed, hconfig⟩ := Except.bind_eq_ok.mp h
    cases hconfig
    cases horigins
    exact parseAllowedOrigins_parses hallowed
  . split at h
    . have ⟨origin, horigin, hconfig⟩ := Except.bind_eq_ok.mp h
      cases hconfig
      cases horigins
      simpa using originFromFrontendBaseUrl_parses hurls horigin
    . cases h

theorem new_eq (h : Cors.buildCorsOptions parseUrl get = .ok options)
    : OriginGuard.new parseUrl get =
        .ok { trustedOrigins := (options.map CorsConfig.origin).getD (.list []) } := by
  unfold OriginGuard.new
  rw [h]
  rfl

theorem passes_iff
    : Passes parseUrl guard method request ↔
        OriginGuard.isCrossSiteRequestAllowed parseUrl
          {
            method
            secFetchSite := OriginGuard.readHeader request "sec-fetch-site"
            origin := OriginGuard.readHeader request "origin"
            host := OriginGuard.readHeader request "host"
          }
          guard.trustedOrigins = true := by
  unfold Passes OriginGuard.canActivate
  dsimp only
  split
  . next hrejected => simpa [throw, throwThe, MonadExceptOf.throw] using hrejected
  . next hallowed => simpa [pure, Except.pure] using hallowed

theorem readHeader_one {name value : String} (h : request.headers name = some (.one value))
    : OriginGuard.readHeader request name = some value := by
  unfold OriginGuard.readHeader
  rw [h]

theorem readHeader_none {name : String} (h : request.headers name = none)
    : OriginGuard.readHeader request name = none := by
  unfold OriginGuard.readHeader
  rw [h]

namespace BrowserMade

variable (hmade : BrowserMade parseUrl sameSite server initiator method request)

include hmade

theorem stateChanging : OriginGuard.STATE_CHANGING_METHODS.contains (toUpperCase method) = true := by
  have hmethods : ∀ method ∈ OriginGuard.STATE_CHANGING_METHODS,
      OriginGuard.STATE_CHANGING_METHODS.contains (toUpperCase method) = true := by
    decide
  exact hmethods method hmade.method_mem

/--
A browser that sends `Sec-Fetch-Site` is believed, and the origin only counts for other sites.
-/
theorem passes_iff_of_fetchSite {site : String}
    (hsite : request.headers "sec-fetch-site" = some (.one site))
    : Passes parseUrl guard method request ↔
        site ∈ OriginGuard.SAFE_FETCH_SITES ∨
          OriginGuard.isTrustedOrigin parseUrl (OriginGuard.readHeader request "origin")
            guard.trustedOrigins = true := by
  rw [passes_iff]
  unfold OriginGuard.isCrossSiteRequestAllowed
  simp only [hmade.stateChanging, readHeader_one hsite, Bool.not_true, Bool.false_eq_true, if_false,
    Bool.or_eq_true, List.contains_iff_mem]

theorem passes_iff_of_origin {origin : String} (hsite : request.headers "sec-fetch-site" = none)
    (horigin : request.headers "origin" = some (.one origin))
    : Passes parseUrl guard method request ↔
        OriginGuard.isTrustedOrigin parseUrl (some origin) guard.trustedOrigins = true ∨
          ∃ url, parseUrl origin = some url ∧ url.host = server.host := by
  rw [passes_iff]
  unfold OriginGuard.isCrossSiteRequestAllowed
  simp only [hmade.stateChanging, readHeader_none hsite, readHeader_one horigin,
    readHeader_one hmade.host_eq, Bool.not_true, Bool.false_eq_true, if_false, Bool.or_eq_true,
    isSameHost_iff]

end BrowserMade

theorem trusted_iff {origin : String}
    : OriginGuard.isTrustedOrigin parseUrl (some origin)
          ((options.map CorsConfig.origin).getD (.list [])) = true ↔
        parseUrl origin ≠ none ∧ CorsAllows options origin := by
  rw [isTrustedOrigin_iff]
  cases options with
  | none => simp [CorsAllows]
  | some config =>
    have hallows : CorsAllows (some config) origin ↔
        match config.origin with
        | .any => True
        | .list origins => origin ∈ origins := by
      simp [CorsAllows]
    rw [hallows]
    rfl

/--
A page with an opaque origin is not trusted, even if CORS would let it read.
-/
theorem not_trusted_null (hurls : StandardUrls parseUrl) {trusted : AllowedOrigins}
    : OriginGuard.isTrustedOrigin parseUrl (some "null") trusted ≠ true := by
  rw [Ne, isTrustedOrigin_iff]
  exact fun h => h.1 hurls.null

theorem readHeader_origin (hmade : BrowserMade parseUrl sameSite server initiator method request)
    : OriginGuard.readHeader request "origin" = none ∨
        OriginGuard.readHeader request "origin" = some initiator.serializedOrigin ∨
          OriginGuard.readHeader request "origin" = some "null" := by
  cases hvalue : request.headers "origin" with
  | none => exact Or.inl (readHeader_none hvalue)
  | some value =>
    cases hmade.origin_eq value hvalue with
    | inl hserialized =>
      subst hserialized
      exact Or.inr (Or.inl (readHeader_one hvalue))
    | inr hnull =>
      subst hnull
      exact Or.inr (Or.inr (readHeader_one hvalue))

theorem allows_of_trusted (hurls : StandardUrls parseUrl)
    (hmade : BrowserMade parseUrl sameSite server initiator method request)
    (h : OriginGuard.isTrustedOrigin parseUrl (OriginGuard.readHeader request "origin")
      ((options.map CorsConfig.origin).getD (.list [])) = true)
    : CorsAllows options initiator.serializedOrigin := by
  rcases readHeader_origin hmade with hnone | hserialized | hnull
  . rw [hnone] at h
    cases h
  . rw [hserialized] at h
    exact (trusted_iff.mp h).2
  . rw [hnull] at h
    exact absurd h (not_trusted_null hurls)

theorem not_passes_of_hidesOrigin (hurls : StandardUrls parseUrl)
    (hmade : BrowserMade parseUrl sameSite server initiator method request)
    (hhides : HidesOrigin request)
    : ¬Passes parseUrl guard method request := by
  intro hpasses
  cases (hmade.passes_iff_of_origin hhides.1 hhides.2).mp hpasses with
  | inl htrusted => exact not_trusted_null hurls htrusted
  | inr hhost =>
    have ⟨url, hparse, _⟩ := hhost
    rw [hurls.null] at hparse
    cases hparse

/--
A browser either sends `Sec-Fetch-Site`, or the origin of the page, or neither.
-/
theorem BrowserMade.cases (hmade : BrowserMade parseUrl sameSite server initiator method request)
    : request.headers "sec-fetch-site" = some (.one (initiator.fetchSite sameSite server)) ∨
        request.headers "sec-fetch-site" = none ∧
          request.headers "origin" = some (.one initiator.serializedOrigin) ∨
        HidesOrigin request := by
  rcases hmade.fetch with hsite | ⟨hsite, horigin⟩
  . exact Or.inl hsite
  . have ⟨value, hvalue⟩ := Option.ne_none_iff_exists'.mp horigin
    cases hmade.origin_eq value hvalue with
    | inl hserialized => exact Or.inr (Or.inl ⟨hsite, hserialized ▸ hvalue⟩)
    | inr hnull => exact Or.inr (Or.inr ⟨hsite, hnull ▸ hvalue⟩)

theorem initiator_of_safe (h : initiator.fetchSite sameSite server ∈ OriginGuard.SAFE_FETCH_SITES)
    : initiator = .user ∨ initiator = .page (some server) := by
  have hcross : "cross-site" ∉ OriginGuard.SAFE_FETCH_SITES := by decide
  have hsame : "same-site" ∉ OriginGuard.SAFE_FETCH_SITES := by decide
  cases initiator with
  | user => exact Or.inl rfl
  | page origin =>
    cases origin with
    | none => exact absurd h hcross
    | some origin =>
      unfold Initiator.fetchSite at h
      dsimp only at h
      split at h
      . next hown =>
        subst hown
        exact Or.inr rfl
      . split at h
        . exact absurd h hsame
        . exact absurd h hcross

theorem keepsOut (hurls : StandardUrls parseUrl)
    : KeepsOut parseUrl sameSite options
        { trustedOrigins := (options.map CorsConfig.origin).getD (.list []) } := by
  intro server initiator method request hmade hpasses
  rcases hmade.cases with hsite | ⟨hsite, horigin⟩ | hhides
  . cases (hmade.passes_iff_of_fetchSite hsite).mp hpasses with
    | inr htrusted => exact Or.inr (Or.inl (allows_of_trusted hurls hmade htrusted))
    | inl hsafe =>
      cases initiator_of_safe hsafe with
      | inl huser => exact Or.inl huser
      | inr hpage => exact Or.inr (Or.inr ⟨server, hpage, rfl⟩)
  . cases (hmade.passes_iff_of_origin hsite horigin).mp hpasses with
    | inl htrusted => exact Or.inr (Or.inl (trusted_iff.mp htrusted).2)
    | inr hhost =>
      have ⟨url, hparse, hserver⟩ := hhost
      cases initiator with
      | user => exact Or.inl rfl
      | page origin =>
        cases origin with
        | none => exact absurd hpasses (not_passes_of_hidesOrigin hurls hmade ⟨hsite, horigin⟩)
        | some origin =>
          have ⟨url', hparse', hpage⟩ := (hmade.ofUrl origin rfl).parse_serialize hurls
          cases hparse.symm.trans hparse'
          exact Or.inr (Or.inr ⟨origin, rfl, hpage.symm.trans hserver⟩)
  . exact absurd hpasses (not_passes_of_hidesOrigin hurls hmade hhides)

theorem letsIn (hurls : StandardUrls parseUrl)
    (hmade : BrowserMade parseUrl sameSite server (.page (some server)) method request)
    : Passes parseUrl guard method request ↔ ¬HidesOrigin request := by
  constructor
  . intro hpasses hhides
    exact not_passes_of_hidesOrigin hurls hmade hhides hpasses
  . intro hshown
    rcases hmade.cases with hsite | ⟨hsite, horigin⟩ | hhides
    . apply (hmade.passes_iff_of_fetchSite hsite).mpr
      simp [Initiator.fetchSite, OriginGuard.SAFE_FETCH_SITES]
    . have ⟨url, hparse, hhost⟩ := (hmade.ofUrl server rfl).parse_serialize hurls
      exact (hmade.passes_iff_of_origin hsite horigin).mpr (Or.inr ⟨url, hparse, hhost⟩)
    . exact absurd hhides hshown

theorem parses_of_allows (hurls : StandardUrls parseUrl)
    (hoptions : Cors.buildCorsOptions parseUrl get = .ok options) {origin : String}
    (hallows : CorsAllows options origin)
    (hlisted : (options.map CorsConfig.origin).getD (.list []) ≠ .any)
    : parseUrl origin ≠ none := by
  have ⟨config, hconfig, horigin⟩ := hallows
  subst hconfig
  cases horigins : config.origin with
  | any => exact absurd horigins hlisted
  | list origins =>
    rw [horigins] at horigin
    exact buildCorsOptions_parses hurls hoptions horigins origin horigin

theorem tellsSites (hurls : StandardUrls parseUrl)
    (hoptions : Cors.buildCorsOptions parseUrl get = .ok options)
    : ∃ guard, OriginGuard.new parseUrl get = .ok guard ∧ TellsSites parseUrl sameSite options guard :=
  ⟨_, new_eq hoptions,
    {
      keepsOut := keepsOut hurls
      letsIn := fun _ _ _ hmade => letsIn hurls hmade
      trusts_iff := fun _ => trusted_iff
      parses := fun _ hallows hlisted => parses_of_allows hurls hoptions hallows hlisted
    }⟩

end

section Sample

/--
The URLs of an example: those of a frontend and of a server.
-/
def exampleUrl (raw : String) : Option Url :=
  if raw = "https://app.example" then
    some { protocol := "https:", host := "app.example", origin := "https://app.example" }
  else if raw = "https://kerghan.example" then
    some { protocol := "https:", host := "kerghan.example", origin := "https://kerghan.example" }
  else
    none

theorem standardUrls_exampleUrl : StandardUrls exampleUrl where
  null := by decide
  origin raw url hparse _ := by
    unfold exampleUrl at hparse
    split at hparse
    . cases hparse
      decide
    . split at hparse
      . cases hparse
        decide
      . cases hparse
  authority raw url hparse := by
    unfold exampleUrl at hparse
    split at hparse
    . cases hparse
      exact ⟨_, rfl, rfl⟩
    . split at hparse
      . cases hparse
        exact ⟨_, rfl, rfl⟩
      . cases hparse

def exampleEnv (name : String) : Option String :=
  if name = Cors.ALLOWED_ORIGINS_VAR then some "https://app.example" else none

theorem buildCorsOptions_exampleEnv
    : Cors.buildCorsOptions exampleUrl exampleEnv =
        .ok (some { origin := .list ["https://app.example"], credentials := true }) := by
  decide +kernel

theorem tellsSites_exampleEnv
    : ∃ guard, OriginGuard.new exampleUrl exampleEnv = .ok guard ∧
        TellsSites exampleUrl (fun _ _ => false)
          (some { origin := .list ["https://app.example"], credentials := true }) guard :=
  tellsSites standardUrls_exampleUrl buildCorsOptions_exampleEnv

def exampleServer : WebOrigin where
  scheme := "https"
  host := "kerghan.example"

/--
What a form of the own page is sent as by a browser without `Sec-Fetch-Site`, if the policy of the page is
`no-referrer`.
-/
def hiddenRequest : Request where
  headers name :=
    if name = "host" then
      some (.one "kerghan.example")
    else if name = "origin" then
      some (.one "null")
    else
      none
  remoteAddress := none

theorem not_separatesSites
    : ¬∀ (parseUrl : String → Option Url) (sameSite : WebOrigin → WebOrigin → Bool)
        (get : String → Option String) (options : Option CorsConfig),
        StandardUrls parseUrl → Cors.buildCorsOptions parseUrl get = .ok options →
          ∃ guard, OriginGuard.new parseUrl get = .ok guard ∧
            SeparatesSites parseUrl sameSite options guard := by
  intro h
  have ⟨guard, hguard, hseparates⟩ := h exampleUrl (fun _ _ => false) exampleEnv _
    standardUrls_exampleUrl buildCorsOptions_exampleEnv
  have hmade : BrowserMade exampleUrl (fun _ _ => false) exampleServer (.page (some exampleServer))
      "POST" hiddenRequest :=
    {
      method_mem := by decide
      host_eq := by decide
      ofUrl := by
        intro origin horigin
        cases horigin
        exact ⟨"https://kerghan.example", _, rfl, rfl, rfl⟩
      fetch := Or.inr ⟨by decide, by decide⟩
      origin_eq := by
        intro value hvalue
        cases hvalue
        exact Or.inr rfl
    }
  cases hguard
  exact absurd (hseparates.letsIn _ _ _ hmade) (by unfold Passes; decide +kernel)

end Sample

end Kerghan
