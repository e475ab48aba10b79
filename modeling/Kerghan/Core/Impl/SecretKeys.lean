import Kerghan.Text

/-!
This module contains `core/secret-keys`: the key that signs access tokens, and the retired ones that are
still accepted.
-/

namespace Kerghan

structure SecretKeys where
  current : String
  previous : List String

namespace SecretKeys

def SECRET_KEY_VAR : String := "KERGHAN_SECRET_KEY"

def PREVIOUS_SECRET_KEYS_VAR : String := "KERGHAN_PREVIOUS_SECRET_KEYS"

def parsePreviousKeys (raw current : String) : List String :=
  (((split ',' raw).map trim).filter fun entry => entry != "" && entry != current).eraseDups

/--
`all` of the source is what an access token is checked against, one after the other.
-/
def all (keys : SecretKeys) : List String :=
  keys.current :: keys.previous

def buildSecretKeys (get : String → Option String) : SecretKeys :=
  let current := (get SECRET_KEY_VAR).getD ""
  { current, previous := parsePreviousKeys ((get PREVIOUS_SECRET_KEYS_VAR).getD "") current }

theorem mem_parsePreviousKeys {raw current key : String}
    : key ∈ parsePreviousKeys raw current ↔
        key ≠ "" ∧ key ≠ current ∧ ∃ entry ∈ split ',' raw, trim entry = key := by
  unfold parsePreviousKeys
  rw [List.mem_eraseDups, List.mem_filter, List.mem_map]
  simp only [Bool.and_eq_true, bne_iff_ne, ne_eq]
  constructor
  . intro ⟨hentry, hblank, hcurrent⟩
    exact ⟨hblank, hcurrent, hentry⟩
  . intro ⟨hblank, hcurrent, hentry⟩
    exact ⟨hentry, hblank, hcurrent⟩

end SecretKeys

end Kerghan
