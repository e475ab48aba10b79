import Mathlib.Data.List.AList
import Kerghan.Base64
import Kerghan.Except
import Kerghan.Text
import Kerghan.Integrations.Impl.AbuseGuard

/-!
This module contains `integrations-key`: the keys that integration secrets are encrypted with, as they
are read from the environment. Decoding base64 is a parameter.
-/

namespace Kerghan.Integrations

namespace IntegrationsKeys

def INTEGRATIONS_KEY_VAR : String := "KERGHAN_INTEGRATIONS_KEY"

def PREVIOUS_INTEGRATIONS_KEYS_VAR : String := "KERGHAN_PREVIOUS_INTEGRATIONS_KEYS"

def SECRET_KEY_VAR : String := "KERGHAN_SECRET_KEY"

def INTEGRATIONS_KEY_DEV_PLACEHOLDER : String := "a2VyZ2hhbi1kZXYtaW50ZWdyYXRpb25zLWtleS0zMmI="

def INTEGRATIONS_KEY_BYTES : Nat := 32

def KEY_ID_LENGTH : Nat := 8

structure PreviousKeyEntry where
  value : String
  position : Nat
  deriving DecidableEq

structure KeySource where
  envVar : String
  position : Option Nat

def isBase64Char (c : Char) : Bool :=
  isAlphanumeric c || c == '+' || c == '/'

/--
`BASE64_PATTERN.test(raw)`
-/
def isBase64 (raw : String) : Bool :=
  let padding := raw.toList.dropWhile isBase64Char
  raw.toList.takeWhile isBase64Char != [] && padding.length ≤ 2 && padding.all (· == '=')

/--
`key.toString('base64')`
-/
def toBase64 (key : Buffer) : String :=
  String.ofList (Base64.encode key)

def keyError (source : KeySource) (problem : String) : String :=
  let subject := match source.position with
    | none => source.envVar
    | some position => s!"{source.envVar} entry {position}"
  s!"{subject} {problem} (generate one with `openssl rand -base64 32`)"

section Validation

variable (decode : String → Buffer) (get : String → Option String)

def decodeStrictBase64 (raw : String) (source : KeySource) : Except String Buffer :=
  let decoded := decode raw
  if !isBase64 raw || toBase64 decoded != raw then
    throw (keyError source "must be valid base64")
  else
    pure decoded

def assertNotReused (raw : String) (source : KeySource) : Except String Unit :=
  if raw == trim ((get SECRET_KEY_VAR).getD "") then
    throw (keyError source s!"must differ from {SECRET_KEY_VAR}")
  else if raw == INTEGRATIONS_KEY_DEV_PLACEHOLDER && get "NODE_ENV" == some "production" then
    throw (keyError source "must not be the public dev placeholder in production")
  else
    pure ()

def validateKey (raw : String) (source : KeySource) : Except String Buffer := do
  let key ← decodeStrictBase64 decode raw source
  if key.length != INTEGRATIONS_KEY_BYTES then
    throw (keyError source s!"must decode to exactly {INTEGRATIONS_KEY_BYTES} bytes")
  assertNotReused get raw source
  return key

end Validation

def previousKeysFrom (seen : List String) (position : Nat) : List String → List PreviousKeyEntry
  | [] => []
  | entry :: entries =>
    let value := trim entry
    if value != "" && !seen.contains value then
      { value, position } :: previousKeysFrom (value :: seen) (position + 1) entries
    else
      previousKeysFrom seen (position + 1) entries

def parsePreviousKeys (raw current : String) : List PreviousKeyEntry :=
  previousKeysFrom [current] 1 (split ',' raw)

variable [Crypto]

def integrationsKeyIdFor (key : Buffer) : String :=
  String.ofList ((Crypto.sha256Hex key).toList.take KEY_ID_LENGTH)

def toEntry (key : Buffer) : KeyEntry where
  key
  keyId := integrationsKeyIdFor key

abbrev KeyMap := AList fun _ : String => Buffer

/--
The keys by their ids. An id that is taken is refused.
-/
def fillById : List KeyEntry → KeyMap → Except String KeyMap
  | [], byId => pure byId
  | entry :: entries, byId =>
    if entry.keyId ∈ byId then
      throw s!"{PREVIOUS_INTEGRATIONS_KEYS_VAR} holds two keys sharing the key id {entry.keyId}"
    else
      fillById entries (byId.insert entry.keyId entry.key)

omit [Crypto] in
theorem fillById_eq_ok {entries : List KeyEntry} {byId byId' : KeyMap}
    (h : fillById entries byId = .ok byId')
    : (entries.map KeyEntry.keyId).Nodup ∧ (∀ entry ∈ entries, entry.keyId ∉ byId) ∧
        ∀ id key, byId'.lookup id = some key ↔
          byId.lookup id = some key ∨ ∃ entry ∈ entries, entry.keyId = id ∧ entry.key = key := by
  induction entries generalizing byId with
  | nil =>
    cases h
    simp
  | cons entry entries ih =>
    unfold fillById at h
    split at h
    . cases h
    . next hfree =>
      have ⟨hnodup, hnew, hlookup⟩ := ih h
      have hentry : entry.keyId ∉ entries.map KeyEntry.keyId := by
        intro hmem
        have ⟨entry', hentry', hid⟩ := List.mem_map.mp hmem
        apply hnew entry' hentry'
        rw [AList.mem_insert]
        exact Or.inl hid
      refine ⟨List.nodup_cons.mpr ⟨hentry, hnodup⟩, ?_, ?_⟩
      . intro entry' hmem
        cases List.mem_cons.mp hmem with
        | inl heq => exact heq ▸ hfree
        | inr hmem =>
          intro htaken
          exact hnew entry' hmem ((AList.mem_insert _).mpr (Or.inr htaken))
      . intro id key
        rw [hlookup, List.exists_mem_cons_iff]
        by_cases hid : entry.keyId = id
        . subst hid
          have hnone : byId.lookup entry.keyId = none := AList.lookup_eq_none.mpr hfree
          rw [AList.lookup_insert, hnone]
          simp
        . rw [AList.lookup_insert_ne (Ne.symm hid)]
          simp [hid]

omit [Crypto] in
theorem exists_fillById {entries : List KeyEntry} {byId : KeyMap}
    (hnodup : (entries.map KeyEntry.keyId).Nodup) (hnew : ∀ entry ∈ entries, entry.keyId ∉ byId)
    : ∃ byId', fillById entries byId = .ok byId' := by
  induction entries generalizing byId with
  | nil => exact ⟨byId, rfl⟩
  | cons entry entries ih =>
    have ⟨hentry, hnodup⟩ := List.nodup_cons.mp hnodup
    unfold fillById
    rw [if_neg (hnew entry (List.mem_cons_self ..))]
    apply ih hnodup
    intro entry' hmem htaken
    cases (AList.mem_insert _).mp htaken with
    | inl hid => exact hentry (hid ▸ List.mem_map_of_mem hmem)
    | inr htaken => exact hnew entry' (List.mem_cons_of_mem _ hmem) htaken

end IntegrationsKeys

/--
The keys with the map that the source keeps next to them.
-/
structure IntegrationsKeySet extends IntegrationsKey where
  byId : IntegrationsKeys.KeyMap

namespace IntegrationsKeys

variable [Crypto]

def integrationsKeySetOf (current : Buffer) (previous : List Buffer) : Except String IntegrationsKeySet :=
  match h : fillById (toEntry current :: previous.map toEntry) ∅ with
  | .error message => .error message
  | .ok byId =>
    .ok {
      current := toEntry current
      previous := previous.map toEntry
      distinct := (fillById_eq_ok h).1
      byId
    }

def buildIntegrationsKeys (decode : String → Buffer) (get : String → Option String)
    : Except String IntegrationsKeySet := do
  let raw := trim ((get INTEGRATIONS_KEY_VAR).getD "")
  if raw == "" then
    throw (keyError { envVar := INTEGRATIONS_KEY_VAR, position := none } "is missing or blank")
  let current ← validateKey decode get raw { envVar := INTEGRATIONS_KEY_VAR, position := none }
  let entries := parsePreviousKeys ((get PREVIOUS_INTEGRATIONS_KEYS_VAR).getD "") raw
  let previous ← entries.mapM fun entry =>
    validateKey decode get entry.value
      { envVar := PREVIOUS_INTEGRATIONS_KEYS_VAR, position := some entry.position }
  integrationsKeySetOf current previous

end IntegrationsKeys

end Kerghan.Integrations
