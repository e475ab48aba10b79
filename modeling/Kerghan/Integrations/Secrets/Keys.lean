import Kerghan.Integrations.Impl.Encryption
import Kerghan.Integrations.Impl.Key
import Kerghan.Integrations.Sample

/-!
This module contains the proof that the keys for integration secrets are accepted exactly if they are
safe: canonical base64 of 32 bytes each, used for nothing else, and told apart by their ids.
-/

namespace Kerghan.Integrations

open IntegrationsKeys

section

variable (get : String → Option String)

def currentKey : String :=
  trim ((get INTEGRATIONS_KEY_VAR).getD "")

/--
The previous keys that are kept, in the order in which they are listed first.
-/
def previousKeys : List String :=
  (((split ',' ((get PREVIOUS_INTEGRATIONS_KEYS_VAR).getD "")).map trim).filter fun value =>
    value != "" && value != currentKey get).eraseDups

def keptKeys : List String :=
  currentKey get :: previousKeys get

structure SafeKey (raw : String) : Prop where
  canonical : ∃ key : Buffer, key.length = INTEGRATIONS_KEY_BYTES ∧ toBase64 key = raw
  notSecretKey : raw ≠ trim ((get SECRET_KEY_VAR).getD "")
  notPlaceholder : get "NODE_ENV" = some "production" → raw ≠ INTEGRATIONS_KEY_DEV_PLACEHOLDER

variable [Crypto] (decode : String → Buffer)

def SafeKeys : Prop :=
  (∀ raw ∈ keptKeys get, SafeKey get raw)
    ∧
  ((keptKeys get).map fun raw => integrationsKeyIdFor (decode raw)).Nodup

structure BuildsSafeKeys : Prop where
  succeeds_iff : (∃ keys, buildIntegrationsKeys decode get = .ok keys) ↔ SafeKeys get decode
  current_eq : ∀ keys, buildIntegrationsKeys decode get = .ok keys →
    keys.current = toEntry (decode (currentKey get))
  previous_eq : ∀ keys, buildIntegrationsKeys decode get = .ok keys →
    keys.previous = (previousKeys get).map fun raw => toEntry (decode raw)
  byId_iff : ∀ keys, buildIntegrationsKeys decode get = .ok keys →
    ∀ id key, keys.byId.lookup id = some key ↔
      ∃ raw ∈ keptKeys get, integrationsKeyIdFor (decode raw) = id ∧ decode raw = key

end

section

variable {get : String → Option String} {decode : String → Buffer} {raw : String} {source : KeySource}

theorem isBase64Char_of_isDigit {c : Char} (h : Base64.isDigit c = true) : isBase64Char c = true := by
  have hupper : ∀ n < 26, isBase64Char (Char.ofNat (65 + n)) = true := by decide
  have hlower : ∀ n < 26, isBase64Char (Char.ofNat (97 + n)) = true := by decide
  have hdecimal : ∀ n < 10, isBase64Char (Char.ofNat (48 + n)) = true := by decide
  have hmem : c ∈ Base64.alphabet := by simpa only [Base64.isDigit, List.contains_iff_mem] using h
  unfold Base64.alphabet at hmem
  simp only [List.mem_append, List.mem_map, List.mem_range, List.mem_cons, List.not_mem_nil, or_false] at hmem
  rcases hmem with ((⟨n, hn, rfl⟩ | ⟨n, hn, rfl⟩) | ⟨n, hn, rfl⟩) | rfl | rfl
  . exact hupper n hn
  . exact hlower n hn
  . exact hdecimal n hn
  . rfl
  . rfl

theorem isBase64_toBase64 {key : Buffer} (h : key ≠ []) : isBase64 (toBase64 key) = true := by
  have ⟨digits, padding, hencode, hpadding, hdigits, hpresent⟩ := Base64.encode_digits key
  have hchars : ∀ c ∈ digits, isBase64Char c = true :=
    fun c hc => isBase64Char_of_isDigit (hdigits c hc)
  have hequals : isBase64Char '=' = false := by decide
  have hpads : (List.replicate padding '=').takeWhile isBase64Char = [] := by
    cases padding with
    | zero => rfl
    | succ padding => rw [List.replicate_succ, List.takeWhile_cons_of_neg (by simp [hequals])]
  have hdrop : (List.replicate padding '=').dropWhile isBase64Char = List.replicate padding '=' := by
    cases padding with
    | zero => rfl
    | succ padding => rw [List.replicate_succ, List.dropWhile_cons_of_neg (by simp [hequals])]
  unfold isBase64 toBase64
  rw [String.toList_ofList, hencode, List.takeWhile_append_of_pos hchars, List.dropWhile_append_of_pos hchars,
    hpads, hdrop]
  simp [hpresent h, hpadding]

theorem decodeStrictBase64_eq_ok {key : Buffer}
    : decodeStrictBase64 decode raw source = .ok key ↔
        (isBase64 raw = true ∧ toBase64 (decode raw) = raw) ∧ key = decode raw := by
  unfold decodeStrictBase64
  dsimp only
  split
  . next hrejected =>
    simp only [Bool.or_eq_true, Bool.not_eq_true', bne_iff_ne, ne_eq] at hrejected
    simp only [throw, throwThe, MonadExceptOf.throw, reduceCtorEq, false_iff, not_and]
    intro ⟨hpattern, hcanonical⟩ _
    cases hrejected with
    | inl hpattern' => exact absurd hpattern (by simp [hpattern'])
    | inr hcanonical' => exact hcanonical' hcanonical
  . next hcanonical =>
    simp only [Bool.or_eq_true, Bool.not_eq_true', bne_iff_ne, ne_eq, not_or, not_not,
      Bool.not_eq_false] at hcanonical
    simp only [pure, Except.pure, Except.ok.injEq, hcanonical, and_self, true_and]
    exact eq_comm

theorem assertNotReused_eq_ok
    : assertNotReused get raw source = .ok () ↔
        raw ≠ trim ((get SECRET_KEY_VAR).getD "") ∧
          (get "NODE_ENV" = some "production" → raw ≠ INTEGRATIONS_KEY_DEV_PLACEHOLDER) := by
  unfold assertNotReused
  split
  . next hsecret => simp_all [throw, throwThe, MonadExceptOf.throw]
  . split
    . next hplaceholder => simp_all [throw, throwThe, MonadExceptOf.throw]
    . next hsecret hplaceholder =>
      simp only [Bool.and_eq_true, beq_iff_eq, not_and] at hsecret hplaceholder
      simp only [pure, Except.pure, true_iff]
      exact ⟨hsecret, fun hproduction hraw => hplaceholder hraw hproduction⟩

theorem canonical_iff (hdecode : ∀ key, decode (toBase64 key) = key)
    : (∃ key : Buffer, key.length = INTEGRATIONS_KEY_BYTES ∧ toBase64 key = raw) ↔
        (isBase64 raw = true ∧ toBase64 (decode raw) = raw) ∧
          (decode raw).length = INTEGRATIONS_KEY_BYTES := by
  constructor
  . intro ⟨key, hlength, hraw⟩
    subst hraw
    have hpresent : key ≠ [] := by
      intro hempty
      subst hempty
      cases hlength
    rw [hdecode]
    exact ⟨⟨isBase64_toBase64 hpresent, rfl⟩, hlength⟩
  . intro ⟨⟨_, hcanonical⟩, hlength⟩
    exact ⟨decode raw, hlength, hcanonical⟩

theorem validateKey_eq_ok (hdecode : ∀ key, decode (toBase64 key) = key) {key : Buffer}
    : validateKey decode get raw source = .ok key ↔ SafeKey get raw ∧ key = decode raw := by
  unfold validateKey
  rw [Except.bind_eq_ok]
  constructor
  . intro ⟨decoded, hdecoded, hrest⟩
    have ⟨hcanonical, hkey⟩ := decodeStrictBase64_eq_ok.mp hdecoded
    subst hkey
    split at hrest
    . cases hrest
    . next hlength =>
      have ⟨_, hfresh, hreturn⟩ := Except.bind_eq_ok.mp hrest
      cases hreturn
      have ⟨hsecret, hplaceholder⟩ := assertNotReused_eq_ok.mp hfresh
      exact ⟨⟨(canonical_iff hdecode).mpr ⟨hcanonical, by simpa using hlength⟩, hsecret, hplaceholder⟩, rfl⟩
  . intro ⟨hsafe, hkey⟩
    have ⟨hcanonical, hlength⟩ := (canonical_iff hdecode).mp hsafe.canonical
    refine ⟨decode raw, decodeStrictBase64_eq_ok.mpr ⟨hcanonical, rfl⟩, ?_⟩
    rw [if_neg (by simp [hlength])]
    apply Except.bind_eq_ok.mpr
    exact ⟨(), assertNotReused_eq_ok.mpr ⟨hsafe.notSecretKey, hsafe.notPlaceholder⟩, by rw [hkey]; rfl⟩

theorem map_value_previousKeysFrom (seen : List String) (position : Nat) (entries : List String)
    : (previousKeysFrom seen position entries).map PreviousKeyEntry.value =
        ((entries.map trim).filter fun value => value != "" && !seen.contains value).eraseDups := by
  induction entries generalizing seen position with
  | nil => rfl
  | cons entry entries ih =>
    unfold previousKeysFrom
    dsimp only
    rw [List.map_cons]
    split
    . next hkept =>
      have hrest : ((entries.map trim).filter fun value => value != "" && !(trim entry :: seen).contains value) =
          ((entries.map trim).filter fun value => value != "" && !seen.contains value).filter fun value =>
            !value == trim entry := by
        rw [List.filter_filter]
        apply List.filter_congr
        intro value _
        rw [List.contains_cons, Bool.not_or, Bool.and_left_comm]
      rw [List.filter_cons, if_pos hkept, List.eraseDups_cons, List.map_cons, ih, hrest]
    . next hdropped => rw [List.filter_cons, if_neg hdropped, ih]

theorem map_value_parsePreviousKeys
    : (parsePreviousKeys ((get PREVIOUS_INTEGRATIONS_KEYS_VAR).getD "") (currentKey get)).map
          PreviousKeyEntry.value =
        previousKeys get := by
  unfold parsePreviousKeys previousKeys
  rw [map_value_previousKeysFrom]
  congr 1
  apply List.filter_congr
  intro value _
  rw [List.contains_cons, List.contains_nil, Bool.or_false]
  rfl

variable [Crypto] {current : Buffer} {previous : List Buffer} {keys : IntegrationsKeySet}

theorem integrationsKeySetOf_eq_ok (h : integrationsKeySetOf current previous = .ok keys)
    : keys.current = toEntry current ∧ keys.previous = previous.map toEntry ∧
        ∀ id key, keys.byId.lookup id = some key ↔
          ∃ entry ∈ keys.current :: keys.previous, entry.keyId = id ∧ entry.key = key := by
  unfold integrationsKeySetOf at h
  split at h
  . cases h
  . next byId hfill =>
    cases h
    have ⟨_, _, hlookup⟩ := fillById_eq_ok hfill
    refine ⟨rfl, rfl, ?_⟩
    intro id key
    rw [hlookup, AList.lookup_empty]
    simp only [reduceCtorEq, false_or]

theorem exists_integrationsKeySetOf_iff
    : (∃ keys, integrationsKeySetOf current previous = .ok keys) ↔
        ((current :: previous).map integrationsKeyIdFor).Nodup := by
  have hids : (toEntry current :: previous.map toEntry).map KeyEntry.keyId =
      (current :: previous).map integrationsKeyIdFor := by
    rw [← List.map_cons, List.map_map]
    rfl
  constructor
  . intro ⟨keys, h⟩
    have ⟨hcurrent, hprevious, _⟩ := integrationsKeySetOf_eq_ok h
    rw [← hids, ← hcurrent, ← hprevious]
    exact keys.distinct
  . intro hnodup
    have ⟨byId, hfill⟩ := exists_fillById (hids ▸ hnodup) fun entry _ => AList.notMem_empty entry.keyId
    unfold integrationsKeySetOf
    split
    . next message herror =>
      rw [hfill] at herror
      cases herror
    . exact ⟨_, rfl⟩

theorem lookup_byId (h : integrationsKeySetOf current previous = .ok keys) (id : String)
    : keys.byId.lookup id = IntegrationsEncryptionService.byId keys.toIntegrationsKey id := by
  have ⟨_, _, hlookup⟩ := integrationsKeySetOf_eq_ok h
  unfold IntegrationsEncryptionService.byId
  cases hfind : (keys.current :: keys.previous).find? fun entry => entry.keyId == id with
  | none =>
    rw [Option.map_none, Option.eq_none_iff_forall_ne_some]
    intro key hkey
    have ⟨entry, hentry, hid, _⟩ := (hlookup id key).mp hkey
    exact List.find?_eq_none.mp hfind entry hentry (beq_iff_eq.mpr hid)
  | some entry =>
    have hid : (entry.keyId == id) = true :=
      List.find?_some (p := fun entry : KeyEntry => entry.keyId == id) hfind
    exact (hlookup id entry.key).mpr
      ⟨entry, List.mem_of_find?_eq_some hfind, beq_iff_eq.mp hid, rfl⟩

theorem buildIntegrationsKeys_eq_ok (hdecode : ∀ key, decode (toBase64 key) = key)
    : buildIntegrationsKeys decode get = .ok keys ↔
        (∀ raw ∈ keptKeys get, SafeKey get raw) ∧
          integrationsKeySetOf (decode (currentKey get)) ((previousKeys get).map decode) = .ok keys := by
  have hprevious : ∀ previous,
      ((parsePreviousKeys ((get PREVIOUS_INTEGRATIONS_KEYS_VAR).getD "") (currentKey get)).mapM fun entry =>
          validateKey decode get entry.value
            { envVar := PREVIOUS_INTEGRATIONS_KEYS_VAR, position := some entry.position }) = .ok previous ↔
        (∀ raw ∈ previousKeys get, SafeKey get raw) ∧ previous = (previousKeys get).map decode := by
    intro previous
    have hstep : ∀ entry : PreviousKeyEntry, ∀ key,
        validateKey decode get entry.value
            { envVar := PREVIOUS_INTEGRATIONS_KEYS_VAR, position := some entry.position } = .ok key ↔
          SafeKey get entry.value ∧ key = decode entry.value :=
      fun _ _ => validateKey_eq_ok hdecode
    rw [Except.mapM_eq_ok fun entry _ => hstep entry, ← map_value_parsePreviousKeys, List.forall_mem_map,
      List.map_map]
    rfl
  unfold buildIntegrationsKeys keptKeys
  dsimp only
  rw [List.forall_mem_cons]
  constructor
  . intro h
    split at h
    . cases h
    . have ⟨current, hcurrent, hrest⟩ := Except.bind_eq_ok.mp h
      have ⟨previous, hmap, hset⟩ := Except.bind_eq_ok.mp hrest
      have ⟨hsafe, hcurrent⟩ := (validateKey_eq_ok hdecode).mp hcurrent
      have ⟨hsafes, hpreviouses⟩ := (hprevious previous).mp hmap
      rw [hcurrent, hpreviouses] at hset
      exact ⟨⟨hsafe, hsafes⟩, hset⟩
  . intro ⟨⟨hsafe, hsafes⟩, hset⟩
    split
    . next hblank =>
      have ⟨⟨hpattern, _⟩, _⟩ := (canonical_iff hdecode).mp hsafe.canonical
      rw [show currentKey get = "" from beq_iff_eq.mp hblank] at hpattern
      cases hpattern
    . apply Except.bind_eq_ok.mpr
      refine ⟨decode (currentKey get), (validateKey_eq_ok hdecode).mpr ⟨hsafe, rfl⟩, ?_⟩
      apply Except.bind_eq_ok.mpr
      exact ⟨(previousKeys get).map decode, (hprevious _).mpr ⟨hsafes, rfl⟩, hset⟩

theorem buildsSafeKeys (hdecode : ∀ key, decode (toBase64 key) = key) : BuildsSafeKeys get decode where
  succeeds_iff := by
    unfold SafeKeys
    simp only [buildIntegrationsKeys_eq_ok hdecode, exists_and_left]
    rw [exists_integrationsKeySetOf_iff]
    unfold keptKeys
    rw [List.map_cons, List.map_map, List.map_cons]
    rfl
  current_eq keys h := (integrationsKeySetOf_eq_ok ((buildIntegrationsKeys_eq_ok hdecode).mp h).2).1
  previous_eq keys h := by
    have ⟨_, hprevious, _⟩ := integrationsKeySetOf_eq_ok ((buildIntegrationsKeys_eq_ok hdecode).mp h).2
    rw [hprevious, List.map_map]
    rfl
  byId_iff keys h id key := by
    have ⟨hcurrent, hprevious, hlookup⟩ :=
      integrationsKeySetOf_eq_ok ((buildIntegrationsKeys_eq_ok hdecode).mp h).2
    have hentries : keys.current :: keys.previous = (keptKeys get).map fun raw => toEntry (decode raw) := by
      rw [hcurrent, hprevious, List.map_map]
      rfl
    rw [hlookup, hentries]
    constructor
    . intro ⟨entry, hentry, hid, hkey⟩
      have ⟨raw, hraw, heq⟩ := List.mem_map.mp hentry
      subst heq
      exact ⟨raw, hraw, hid, hkey⟩
    . intro ⟨raw, hraw, hid, hkey⟩
      exact ⟨toEntry (decode raw), List.mem_map_of_mem hraw, hid, hkey⟩

end

section Sample

/--
The SHA-256 of the key of the documentation, and of no other one.
-/
abbrev developmentCrypto : Crypto :=
  { Sample.crypto with
    sha256Hex := fun key =>
      if toBase64 key = INTEGRATIONS_KEY_DEV_PLACEHOLDER then
        "692e57760a57dc75268e4e09d9693725b2a141d9ac80f6620fbf065d19c50226"
      else
        "" }

attribute [local instance] developmentCrypto

/--
An environment for development, which has the key of the documentation.
-/
def developmentEnv (name : String) : Option String :=
  if name = INTEGRATIONS_KEY_VAR then some INTEGRATIONS_KEY_DEV_PLACEHOLDER else none

theorem buildsSafeKeys_developmentEnv
    : BuildsSafeKeys developmentEnv fun raw => Base64.decode raw.toList :=
  buildsSafeKeys fun key => by rw [toBase64, String.toList_ofList, Base64.decode_encode]

end Sample

end Kerghan.Integrations
