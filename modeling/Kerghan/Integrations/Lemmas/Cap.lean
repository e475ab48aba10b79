import Kerghan.Integrations.Lemmas.Redirects
import Kerghan.Integrations.Lemmas.Installation

/-!
This module contains the proof that every call adds an integration only while it has locked the owner, and only
if the owner had too few integrations when the call has counted them under this lock.
-/

namespace Kerghan.Integrations

open IntegrationStoreService IntegrationCredentialService

/--
A lock on an owner, with the integrations that the owner had when they were last counted under it.
-/
structure Held where
  userId : Nat
  counted : Option Nat
  deriving DecidableEq, Repr

def held : IntegrationsHistory → Option Held
  | [] => none
  | ⟨.lockOwner userId, .ok _⟩ :: _ => some ⟨userId, none⟩
  | ⟨.unlockOwner _, _⟩ :: _ => none
  | ⟨.db (.count .integrations _), .ok n⟩ :: h => (held h).map fun lock => { lock with counted := some n }
  | ⟨.db (.insert .integrations _), _⟩ :: h => (held h).map fun lock => { lock with counted := none }
  | _ :: h => held h

theorem held_cons {ev : (s : Effect) × Answer s} {h : IntegrationsHistory} (hev : ev.1.isCapped = false)
    : held (ev :: h) = held h := by
  conv_lhs => unfold held
  split
  . next heq => simp at heq
  . next heq =>
    cases heq
    simp [Effect.isCapped] at hev
  . next heq =>
    cases heq
    simp [Effect.isCapped] at hev
  . next heq =>
    cases heq
    simp [Effect.isCapped] at hev
  . next heq =>
    cases heq
    simp [Effect.isCapped] at hev
  . next heq =>
    cases heq
    rfl

variable [Platform] {cfg : IntegrationsConfig} {h : IntegrationsHistory} {userId : Nat} {T : Type}

section Caps

variable (cfg)

inductive Caps (h : IntegrationsHistory) : Effect → Prop where
  | free {s : Effect} (hs : s.isCapped = false) : Caps h s
  | lock {userId : Nat} (hfree : held h = none) : Caps h (.lockOwner userId)
  | unlock {lock : Held} (hheld : held h = some lock) : Caps h (.unlockOwner lock.userId)
  | count {userId : Nat} (hheld : ∀ lock, held h = some lock → lock.userId = userId)
    : Caps h (.db (countIntegrations userId))
  | insert {lock : Held} {n : Nat} {mk : Nat → Integration} (hheld : held h = some lock)
    (hcounted : lock.counted = some n) (hbelow : (n : Int) < maxPerUser cfg)
    (hmk : ∀ id, (mk id).userId = lock.userId)
    : Caps h (.db (insertIntegration mk))

end Caps

section Store

end Store

section Calls

variable [Crypto]

namespace IntegrationConnectionTestService

open IntegrationTestCooldownService

end IntegrationConnectionTestService

namespace IntegrationsKeyRotationService

end IntegrationsKeyRotationService

namespace IntegrationsService

end IntegrationsService

section Flows

variable [Locale]

end Flows

end Calls

end Kerghan.Integrations
