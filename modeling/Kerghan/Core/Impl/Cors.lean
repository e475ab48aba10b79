import Kerghan.Text

/-!
This module contains `core/cors-config`: the origins that may read responses. `new URL` is a parameter,
without a result if it throws.
-/

namespace Kerghan

structure Url where
  protocol : String
  host : String
  origin : String

/--
`string[] | true`
-/
inductive AllowedOrigins where
  | list (origins : List String)
  /-- The origin of a request is reflected, whatever it is. -/
  | any
  deriving DecidableEq

structure CorsConfig where
  origin : AllowedOrigins
  credentials : Bool
  deriving DecidableEq

namespace Cors

def ALLOWED_ORIGINS_VAR : String := "KERGHAN_ALLOWED_ORIGINS"

def FRONTEND_BASE_URL_VAR : String := "FRONTEND_BASE_URL"

def ALLOWED_PROTOCOLS : List String := ["http:", "https:"]

def WILDCARD : String := "*"

def readTrimmed (get : String → Option String) (name : String) : String :=
  trim ((get name).getD "")

def assertWildcardAllowed (entries : List String) (isProduction : Bool) : Except String AllowedOrigins :=
  if isProduction then
    throw s!"Invalid {ALLOWED_ORIGINS_VAR} entry \"{WILDCARD}\": wildcard is not allowed when NODE_ENV=production"
  else if entries.length != 1 then
    throw s!"Invalid {ALLOWED_ORIGINS_VAR} entry \"{WILDCARD}\": wildcard must be the sole entry"
  else
    pure .any

section

variable (parseUrl : String → Option Url)

def assertBareOrigin (entry : String) : Except String Unit :=
  if entry == "" then
    throw s!"Invalid {ALLOWED_ORIGINS_VAR} entry \"{entry}\": empty entries are not allowed"
  else
    let bare := (parseUrl entry).any fun url => ALLOWED_PROTOCOLS.contains url.protocol && url.origin == entry
    if bare then
      pure ()
    else
      throw s!"Invalid {ALLOWED_ORIGINS_VAR} entry \"{entry}\": must be a bare origin (scheme://host[:port])"

def parseAllowedOrigins (raw : String) (isProduction : Bool) : Except String AllowedOrigins := do
  let entries := (split ',' raw).map trim
  if entries.contains WILDCARD then
    assertWildcardAllowed entries isProduction
  else
    entries.forM (assertBareOrigin parseUrl)
    pure (.list entries)

def originFromFrontendBaseUrl (raw : String) : Except String String :=
  match (parseUrl raw).filter fun url => ALLOWED_PROTOCOLS.contains url.protocol with
  | none => throw s!"Invalid {FRONTEND_BASE_URL_VAR} \"{raw}\": must be an http(s) URL"
  | some url => pure url.origin

/--
There is no result if CORS stays disabled.
-/
def buildCorsOptions (get : String → Option String) : Except String (Option CorsConfig) := do
  let allowed := readTrimmed get ALLOWED_ORIGINS_VAR
  if allowed != "" then
    let isProduction := readTrimmed get "NODE_ENV" == "production"
    let origin ← parseAllowedOrigins parseUrl allowed isProduction
    return some { origin, credentials := true }
  let frontendBaseUrl := readTrimmed get FRONTEND_BASE_URL_VAR
  if frontendBaseUrl != "" then
    let origin ← originFromFrontendBaseUrl parseUrl frontendBaseUrl
    return some { origin := .list [origin], credentials := true }
  return none

end

end Cors

end Kerghan
