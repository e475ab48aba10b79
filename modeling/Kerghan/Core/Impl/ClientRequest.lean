import Mathlib.Algebra.Group.Int.Defs
import Mathlib.Data.List.AList
import Kerghan.Text

/-!
This module contains what decides about the address of a client: `SetClientIpMiddleware` of the proxy,
the headers as the HTTP server of the backend hands them on, and `core/client-request`.
-/

namespace Kerghan

/--
A JavaScript number: an integer, or one of those that no integer is equal to (`NaN` among them).
-/
inductive JsNumber where
  | integer (n : Int)
  | other
  deriving DecidableEq

/--
The value of an environment variable, which the code takes for `unknown`.
-/
inductive RawValue where
  | number (n : JsNumber)
  | string (text : String)
  | other

def toLowerCase (text : String) : String :=
  String.ofList (text.toList.map Char.toLower)

section TrustedProxyHops

def DEFAULT_TRUSTED_PROXY_HOPS : JsNumber := .integer 1

def MAX_SAFE_INTEGER : Int := 2 ^ 53 - 1

def isSafeInteger : JsNumber → Bool
  | .integer n => -MAX_SAFE_INTEGER ≤ n && n ≤ MAX_SAFE_INTEGER
  | .other => false

def isValidHops : JsNumber → Bool
  | .integer n => isSafeInteger (.integer n) && 0 ≤ n
  | .other => false

/--
`/^\d+$/`
-/
def isNonNegativeInteger (text : String) : Bool :=
  text ≠ "" && text.toList.all Char.isDigit

/--
`Number(text)` of digits. Where the real one rounds, neither value is a safe integer.
-/
def numberOfDigits (text : String) : Nat :=
  text.toList.foldl (fun n c => 10 * n + (c.toNat - '0'.toNat)) 0

def parseTrustedProxyHops (raw : RawValue) : JsNumber :=
  match raw with
  | .number n => if isValidHops n then n else DEFAULT_TRUSTED_PROXY_HOPS
  | .string text =>
    if !isNonNegativeInteger (trim text) then
      DEFAULT_TRUSTED_PROXY_HOPS
    else
      let hops := .integer (numberOfDigits (trim text))
      if isValidHops hops then hops else DEFAULT_TRUSTED_PROXY_HOPS
  | .other => DEFAULT_TRUSTED_PROXY_HOPS

end TrustedProxyHops

section Request

inductive HeaderValue where
  | one (text : String)
  | many (texts : List String)
  deriving DecidableEq

/--
A request as the HTTP server hands it on: the headers by their lower-case names, and the address of
the socket's peer.
-/
structure Request where
  headers : String → Option HeaderValue
  remoteAddress : Option String

/--
The address is absent if it is `undefined` at runtime.
-/
structure ClientRequestInfo where
  ip : Option String
  userAgent : HeaderValue
  deriving DecidableEq

/--
The non-empty entries of an `X-Forwarded-For` header, from the client to the nearest proxy.
-/
def forwardedHops (value : String) : List String :=
  ((split ',' value).map trim).filter (· ≠ "")

def extractIp (forwardedFor : Option HeaderValue) (fallback : Option String)
    (trustedProxyHops : JsNumber)
    : Option String :=
  let value := match forwardedFor with
    | some (.one text) => some text
    | some (.many texts) => texts[0]?
    | none => none
  match value.filter (· ≠ "") with
  | none => some (fallback.getD "")
  | some value =>
    let hops := forwardedHops value
    if hops = [] then
      some (fallback.getD "")
    else
      let safeHops := if isValidHops trustedProxyHops then trustedProxyHops else DEFAULT_TRUSTED_PROXY_HOPS
      match safeHops with
      | .integer n => hops[(max 0 (hops.length - n : Int)).toNat]?
      | .other => none

def extractClientRequestInfo (req : Request) (trustedProxyHops : JsNumber) : ClientRequestInfo where
  ip := extractIp (req.headers "x-forwarded-for") req.remoteAddress trustedProxyHops
  userAgent := (req.headers "user-agent").getD (.one "")

end Request

section Proxy

/--
The headers of the proxy's `ProcessingRequest`: at most one value for each name, names being told apart
by their letter case.
-/
abbrev ProcessingRequest := AList fun _ : String => String

namespace SetClientIpMiddleware

def HEADER_NAME : String := "X-Forwarded-For"

def processRequest (remoteAddr : String) (request : ProcessingRequest) : ProcessingRequest :=
  let removed := request.keys.foldl
    (fun request name => if toLowerCase name = toLowerCase HEADER_NAME then request.erase name else request)
    request
  removed.insert HEADER_NAME remoteAddr

end SetClientIpMiddleware

/--
The request that the backend receives if the proxy's one is sent over a socket. Values of names that
only differ in their letter case are joined, apart from those of `User-Agent`, of which the first counts.
-/
def ProcessingRequest.received (request : ProcessingRequest) (remoteAddress : Option String) : Request where
  headers name :=
    match (request.entries.filter fun header => toLowerCase header.1 = name).map Sigma.snd with
    | [] => none
    | value :: values =>
      some (.one (if name = "user-agent" then value else ", ".intercalate (value :: values)))
  remoteAddress

end Proxy

end Kerghan
