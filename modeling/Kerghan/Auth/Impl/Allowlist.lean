import Kerghan.Auth.Impl.DefaultUser
import Kerghan.Core.Impl.ClientRequest

/-!
This module contains the allowlist of the automatic login. `net.isIP` and `net.BlockList` are not part of
the repository, so they are parameters.
-/

namespace Kerghan

inductive IpFamily where
  | ipv4
  | ipv6
  deriving DecidableEq, Repr

/--
A single address, or the addresses that share its first bits.
-/
structure AllowlistRule where
  address : String
  family : IpFamily
  prefixLength : Option Nat
  deriving DecidableEq, Repr

/--
What the code uses of Node's `net`. An addition to a list has no result if it throws.
-/
class Net where
  isIP : String → Nat
  BlockList : Type
  new : BlockList
  addAddress : BlockList → String → IpFamily → Option BlockList
  addSubnet : BlockList → String → Nat → IpFamily → Option BlockList
  check : BlockList → String → IpFamily → Bool

/--
`/^\d{1,3}$/`
-/
def isPrefix (text : String) : Bool :=
  1 ≤ text.toList.length && text.toList.length ≤ 3 && text.toList.all Char.isDigit

/--
`/^\d{1,3}(?:\.\d{1,3}){3}$/`
-/
def isDotted (text : String) : Bool :=
  (split '.' text).length == 4 && (split '.' text).all isPrefix

def mappedTail (ip : String) : Option String :=
  let tail := String.ofList (ip.toList.drop 7)
  if toLowerCase (String.ofList (ip.toList.take 7)) = "::ffff:" && isDotted tail then some tail else none

def LOOPBACK_ADDRESSES : List String := ["127.0.0.1", "::1"]

variable [Net]

def maxPrefix (family : IpFamily) : Nat :=
  match family with
  | .ipv4 => 32
  | .ipv6 => 128

/--
The family that `isIP` tells, if it tells one.
-/
def familyOf (address : String) : Option IpFamily :=
  match Net.isIP address with
  | 0 => none
  | 4 => some .ipv4
  | _ => some .ipv6

def normalizeIp (ip : String) : String :=
  match mappedTail ip with
  | some tail => if Net.isIP tail = 4 then tail else ip
  | none => ip

def isInAllowlist (allowlist : Net.BlockList) (ip : String) : Bool :=
  let address := normalizeIp (trim ip)
  match familyOf address with
  | none => false
  | some family => Net.check allowlist address family

/--
The family of an entry's address. Zone ids are malformed.
-/
def entryFamily (address : String) : Option IpFamily :=
  if address.toList.contains '%' then none else familyOf address

def parseRule (entry : String) : Option AllowlistRule :=
  match split '/' entry with
  | [address] => do
    let family ← entryFamily address
    some { address, family, prefixLength := none }
  | [address, prefixRaw] => do
    let family ← entryFamily address
    if !isPrefix prefixRaw || numberOfDigits prefixRaw > maxPrefix family then
      none
    else
      some { address, family, prefixLength := some (numberOfDigits prefixRaw) }
  | _ => none

/--
`addRule`, with the list that it leaves if it succeeds.
-/
def addRule (blockList : Net.BlockList) (rule : AllowlistRule) : Option Net.BlockList :=
  match rule.prefixLength with
  | none => Net.addAddress blockList rule.address rule.family
  | some prefixLength => Net.addSubnet blockList rule.address prefixLength rule.family

def parseAllowlistEntry (entry : String) : Option AllowlistRule := do
  let rule ← parseRule entry
  if (addRule Net.new rule).isSome then some rule else none

def effectiveAllowlistEntries (entries : List String) : List String :=
  let wellFormed := entries.filter fun entry => (parseAllowlistEntry entry).isSome
  if wellFormed = [] then LOOPBACK_ADDRESSES else wellFormed

/--
There is no list if one of the defaults is refused, as nobody handles this error.
-/
def buildAllowlist (entries : List String) : Option Net.BlockList :=
  let rules := entries.filterMap parseAllowlistEntry
  if rules = [] then do
    let blockList ← Net.addAddress Net.new "127.0.0.1" .ipv4
    Net.addAddress blockList "::1" .ipv6
  else
    some (rules.foldl (fun blockList rule => (addRule blockList rule).getD blockList) Net.new)

namespace DefaultUserConfig

omit [Net] in
def configuredIps (cfg : AuthConfig) : List String :=
  ((split ',' (read cfg "KERGHAN_DEFAULT_USER_ALLOWED_IPS")).map trim).filter (· ≠ "")

/--
What the boot warning reports.
-/
def allowedIps (cfg : AuthConfig) : List String :=
  effectiveAllowlistEntries (configuredIps cfg)

end DefaultUserConfig

end Kerghan
