import Kerghan.Integrations.Lemmas.Test

/-!
This module contains what the reply of a call says: whether its integration has been written, and which error
it answers if the integration is missing, its label is taken or the user has too many.
-/

namespace Kerghan.Integrations

open IntegrationCredentialService IntegrationStoreService

section Decided

variable (D : IntegrationsHistory → (s : Effect) × Answer s → Thrown → Prop)

def Decided {T : Type} (h : IntegrationsHistory) (r : Except Thrown T) : Prop :=
  ∀ newer ev older, h = newer ++ ev :: older → ∀ e, D older ev e → r = .error e

def Undecided (h : IntegrationsHistory) : Prop :=
  ∀ newer ev older, h = newer ++ ev :: older → ∀ e, ¬D older ev e

variable {D} {T : Type} {h h' : IntegrationsHistory} {ev : (s : Effect) × Answer s} {r : Except Thrown T}

theorem Undecided.nil : Undecided D [] := by
  intro newer ev older heq
  simp at heq

theorem Undecided.cons (hundecided : Undecided D h) (hev : ∀ e, ¬D h ev e) : Undecided D (ev :: h) := by
  intro newer ev' older heq
  cases newer with
  | nil =>
    obtain ⟨rfl, rfl⟩ := List.cons.inj heq
    exact hev
  | cons _ newer => exact hundecided newer ev' older (List.cons.inj heq).2

theorem Undecided.decided (hundecided : Undecided D h) : Decided D h r :=
  fun newer ev older heq e hd => absurd hd (hundecided newer ev older heq e)

theorem Undecided.decided_cons (hundecided : Undecided D h) (hev : ∀ e, D h ev e → r = .error e)
    : Decided D (ev :: h) r := by
  intro newer ev' older heq
  cases newer with
  | nil =>
    obtain ⟨rfl, rfl⟩ := List.cons.inj heq
    exact hev
  | cons _ newer => exact hundecided.decided newer ev' older (List.cons.inj heq).2

theorem Decided.undecided {v : T} (hdecided : Decided D h (.ok v)) : Undecided D h := by
  intro newer ev older heq e hd
  exact absurd (hdecided newer ev older heq e hd) (by simp)

theorem Decided.error {T' : Type} {e : Thrown} (hdecided : Decided D h (.error e : Except Thrown T))
    : Decided D h (.error e : Except Thrown T') := by
  intro newer ev older heq e' hd
  rw [Except.error.inj (hdecided newer ev older heq e' hd)]

end Decided

def Changed (h : IntegrationsHistory) : Prop :=
  ∃ s : Statement, ∃ a, s.table = .integrations ∧ s.isRead = false ∧ ran s a ∈ h

theorem Changed.of_cons {h : IntegrationsHistory} {ev : (s : Effect) × Answer s}
    (hev : ∀ s : Statement, ∀ a, ev = ran s a → s.table = .integrations → s.isRead = true)
    (hchanged : Changed (ev :: h))
    : Changed h := by
  obtain ⟨s, a, htable, hread, hmem⟩ := hchanged
  rcases List.mem_cons.mp hmem with heq | hold
  . rw [hev s a heq.symm htable] at hread
    simp at hread
  . exact ⟨s, a, htable, hread, hold⟩

theorem not_changed_nil : ¬Changed [] := by
  rintro ⟨_, _, _, _, hmem⟩
  exact absurd hmem List.not_mem_nil

variable [Platform]

/--
What a call holds of an integration: what its lookup has answered, with the secret that it has rewritten since.
-/
inductive InHand (h : IntegrationsHistory) : Integration → Prop where
  | loaded {userId : Nat} {uuid : String} {row : Integration} (hloaded : Loaded h userId uuid row) : InHand h row
  | rewritten {userId : Nat} {uuid keyId : String} {row : Integration} {encrypted : EncryptedSecret}
    {affected : Nat} (hloaded : Loaded h userId uuid row) (haffected : affected ≠ 0)
    (hran : ran (rewriteSecretSql row.id row.userId keyId encrypted) affected ∈ h)
    : InHand h { row with secret := encrypted }

theorem InHand.mono {h h' : IntegrationsHistory} {row : Integration} (hsub : h ⊆ h') (hinHand : InHand h row)
    : InHand h' row := by
  cases hinHand with
  | loaded hloaded => exact .loaded (hsub hloaded)
  | rewritten hloaded haffected hran => exact .rewritten (hsub hloaded) haffected (hsub hran)

/--
The columns of `stored` are those of `row`, with its last test kept to the second if it is written at all.
-/
structure StoredAs (row stored : Integration) : Prop where
  columns : stored = { row with lastTestedAt := stored.lastTestedAt }
  lastTestedAt : stored.lastTestedAt = row.lastTestedAt ∨ stored.lastTestedAt = row.lastTestedAt.map toDatetime

/--
The integration is what an update of the call has made of what it held.
-/
def Written (h : IntegrationsHistory) (row : Integration) : Prop :=
  ∃ newer older, ∃ loaded : Integration, ∃ changes, ∃ affected : Nat,
    h = newer ++ ran (updateIntegration loaded.id loaded.userId changes) affected :: older
      ∧
    InHand older loaded
      ∧
    StoredAs row (changes loaded)

theorem Written.of_cons {h : IntegrationsHistory} {loaded row : Integration}
    {changes : Integration → Integration} {affected : Nat} (hinHand : InHand h loaded)
    (hstored : StoredAs row (changes loaded))
    : Written (ran (updateIntegration loaded.id loaded.userId changes) affected :: h) row :=
  ⟨[], h, loaded, changes, affected, rfl, hinHand, hstored⟩

theorem Written.mono {h h' : IntegrationsHistory} {row : Integration} (hsuffix : h <:+ h')
    (hwritten : Written h row)
    : Written h' row := by
  obtain ⟨added, rfl⟩ := hsuffix
  obtain ⟨newer, older, loaded, changes, affected, rfl, hinHand, hstored⟩ := hwritten
  exact ⟨added ++ newer, older, loaded, changes, affected, by simp, hinHand, hstored⟩

structure Fresh (D : IntegrationsHistory → (s : Effect) × Answer s → Thrown → Prop) (h : IntegrationsHistory)
    : Prop where
  undecided : Undecided D h
  unchanged : ¬Changed h

/--
What the result of a call says about what it has seen and written.
-/
structure Replied (D : IntegrationsHistory → (s : Effect) × Answer s → Thrown → Prop) {T : Type}
    (updated : T → Option Integration) (h : IntegrationsHistory) (r : Except Thrown T) : Prop where
  decided : Decided D h r
  written : ∀ v row, r = .ok v → updated v = some row → Written h row
  unchanged : ∀ e, r = .error e → ¬Changed h

def Misses : (s : Effect) × Answer s → Thrown → Prop
  | ⟨.db (.find .integrations p _), .ok none⟩, e =>
    (∃ uuid userId, p = fun r => sameText r.uuid uuid && r.userId == userId) ∧ e = integrationNotFound
  | _, _ => False

/--
A user with too many integrations and a label that is taken are answered by 409.
-/
def Refuses (cfg : IntegrationsConfig) (older : IntegrationsHistory) : (s : Effect) × Answer s → Thrown → Prop
  | ⟨.db (.count .integrations _), .ok n⟩, e => maxPerUser cfg ≤ (n : Nat) ∧ e = limitReached
  | ⟨.db (.find .integrations p _), .ok (some holder)⟩, e =>
    (∃ userId label, p = fun r => r.userId == userId && sameText r.labelNormalized label)
      ∧
    (∀ row, lastLoaded older = some row → row.id ≠ holder.id)
      ∧
    e = labelTaken
  | ⟨.db (.insert .integrations _), .error .duplicateEntry⟩, e => e = labelTaken
  | ⟨.db (.update .integrations _ _), .error .duplicateEntry⟩, e => e = labelTaken
  | _, _ => False

def Decides (cfg : IntegrationsConfig) (older : IntegrationsHistory) (ev : (s : Effect) × Answer s) (e : Thrown)
    : Prop :=
  Misses ev e ∨ Refuses cfg older ev e

section Lookups

variable {cfg : IntegrationsConfig} {older : IntegrationsHistory} {e : Thrown}

theorem Misses.isOnIntegrations {ev : (s : Effect) × Answer s} (hmisses : Misses ev e)
    : ev.1.isOnIntegrations = true := by
  unfold Misses at hmisses
  split at hmisses
  . rfl
  . exact absurd hmisses id

theorem Decides.isOnIntegrations {ev : (s : Effect) × Answer s} (hdecides : Decides cfg older ev e)
    : ev.1.isOnIntegrations = true := by
  rcases hdecides with hmisses | hrefuses
  . exact hmisses.isOnIntegrations
  . unfold Refuses at hrefuses
    split at hrefuses
    . rfl
    . rfl
    . rfl
    . rfl
    . exact absurd hrefuses id

variable (hcollation : ∃ a b, sameText a b = false)

include hcollation

theorem findIntegration_ne_findByLabel {uuid label : String} {userId userId' : Nat}
    : (fun r : Integration => sameText r.uuid uuid && r.userId == userId) ≠
        fun r : Integration => r.userId == userId' && sameText r.labelNormalized label := by
  intro heq
  obtain ⟨other, hother⟩ : ∃ other, sameText other uuid = false := by
    obtain ⟨a, b, hab⟩ := hcollation
    by_contra hall
    simp only [not_exists, Bool.not_eq_false] at hall
    have hsame := sameText_trans (hall a) (sameText_comm.trans (hall b))
    rw [hab] at hsame
    simp at hsame
  have hrow := congrFun heq {
    id := 0, uuid := other, userId := userId', provider := "", type := .pat, label := "",
    labelNormalized := label, status := .active, statusReason := none, githubLogin := "", expiresAt := none,
    lastTestedAt := none, lastTestResult := none, metadata := .pat ⟨.classic, none, false⟩,
    secretHint := none, secret := ⟨"", [], [], []⟩ }
  simp [hother] at hrow

theorem not_decides_found {uuid : String} {userId : Nat} {row : Integration}
    : ¬Decides cfg older (ran (findIntegration uuid userId) (some row)) e := by
  rintro (hmisses | ⟨⟨userId', label, heq⟩, _⟩)
  . exact hmisses
  . exact findIntegration_ne_findByLabel hcollation heq

theorem not_decides_free {label : String} {userId : Nat}
    : ¬Decides cfg older (ran (findByLabel userId label) none) e := by
  rintro (⟨⟨uuid, userId', heq⟩, _⟩ | hrefuses)
  . exact findIntegration_ne_findByLabel hcollation heq.symm
  . exact hrefuses

end Lookups

end Kerghan.Integrations
