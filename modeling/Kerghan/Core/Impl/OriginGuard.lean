import Kerghan.Core.Impl.ClientRequest
import Kerghan.Core.Impl.Cors

/-!
This module contains `core/origin.guard`, which every request passes before any other guard.
-/

namespace Kerghan

/--
`text.toUpperCase()` of a text in ASCII, as the method of a request is.
-/
def toUpperCase (text : String) : String :=
  String.ofList (text.toList.map Char.toUpper)

structure OriginCheckRequest where
  method : String
  secFetchSite : Option String
  origin : Option String
  host : Option String

structure ForbiddenException where
  message : String
  deriving DecidableEq

namespace OriginGuard

def STATE_CHANGING_METHODS : List String := ["POST", "PUT", "PATCH", "DELETE"]

def SAFE_FETCH_SITES : List String := ["same-origin", "none"]

def readHeader (request : Request) (name : String) : Option String :=
  match request.headers name with
  | some (.many values) => values[0]?
  | some (.one value) => some value
  | none => none

section

variable (parseUrl : String → Option Url)

def isTrustedOrigin (origin : Option String) (trustedOrigins : AllowedOrigins) : Bool :=
  match origin with
  | none => false
  | some origin =>
    if (parseUrl origin).isNone then
      false
    else
      match trustedOrigins with
      | .any => true
      | .list origins => origins.contains origin

def isSameHost (origin : String) (host : Option String) : Bool :=
  match parseUrl origin, host with
  | some url, some host => url.host == host
  | _, _ => false

def isCrossSiteRequestAllowed (request : OriginCheckRequest) (trustedOrigins : AllowedOrigins) : Bool :=
  if !STATE_CHANGING_METHODS.contains (toUpperCase request.method) then
    true
  else
    match request.secFetchSite with
    | some secFetchSite =>
      SAFE_FETCH_SITES.contains secFetchSite || isTrustedOrigin parseUrl request.origin trustedOrigins
    | none =>
      match request.origin with
      | none => true
      | some origin =>
        isTrustedOrigin parseUrl (some origin) trustedOrigins || isSameHost parseUrl origin request.host

end

end OriginGuard

structure OriginGuard where
  trustedOrigins : AllowedOrigins

namespace OriginGuard

variable (parseUrl : String → Option Url)

/--
The constructor of the guard.
-/
def new (get : String → Option String) : Except String OriginGuard := do
  let options ← Cors.buildCorsOptions parseUrl get
  return { trustedOrigins := (options.map CorsConfig.origin).getD (.list []) }

def canActivate (guard : OriginGuard) (method : String) (request : Request)
    : Except ForbiddenException Bool :=
  let allowed := isCrossSiteRequestAllowed parseUrl
    {
      method
      secFetchSite := readHeader request "sec-fetch-site"
      origin := readHeader request "origin"
      host := readHeader request "host"
    }
    guard.trustedOrigins
  if !allowed then
    throw { message := "Cross-site request rejected" }
  else
    pure true

end OriginGuard

end Kerghan
