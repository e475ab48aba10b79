import Mathlib.Algebra.Order.Group.Abs
import Mathlib.Algebra.Order.Group.Int
import Kerghan.Integrations.CoolOff.Standing
import Kerghan.Integrations.Sample

/-!
This module contains the proof that a burst of reservations is bounded: the lock is set by the reservation
that reaches the maximum, and it is set again by every later one.
-/

namespace Kerghan.Integrations

open IntegrationCredentialAbuseGuardService

def isGrant : (s : Effect) × Answer s → Bool
  | ⟨.db (.update .credentialLockouts _ _), .ok affected⟩ => affected == 1
  | _ => false

section Reservations

variable [Platform] (cfg : IntegrationsConfig) (users : List Nat) (userId : Nat)

def granted (x : IntegrationsEntry) : Bool :=
  users[x.call]? == some userId && isGrant ⟨x.effect, x.resp⟩

/--
The times that the reservations had captured that were granted with a resulting count of at least the
maximum, the newest first.
-/
def saturatedAt : List IntegrationsEntry → List (Option Date)
  | [] => []
  | x :: t =>
    if granted users userId x && maxAttempts cfg ≤ (x.after.coolOff userId).failedAttempts then
      capturedNow (own x.call t) :: saturatedAt t
    else
      saturatedAt t

inductive Reserves (h : IntegrationsHistory) : Effect → Prop where
  | now : Reserves h .now
  | ensure : Reserves h (.db (insertLockoutRow userId))
  | reserve {now : Date} (hnow : capturedNow h = some now)
    : Reserves h (.db (reserveAttemptSql (maxAttempts cfg) (now + lockMs cfg) userId now))

variable {cfg users userId}

theorem ensureLockoutRow_reserves {h : IntegrationsHistory}
    : (ensureLockoutRow userId).Meets Answers (Reserves cfg userId)
        (fun h' _ => capturedNow h' = capturedNow h) h := by
  unfold ensureLockoutRow
  refine Prog.Meets.tryCatch (Q := fun h' _ => capturedNow h' = capturedNow h) ?_ ?_ ?_
  . rw [Api.meets_query]
    exact ⟨.ensure, fun _ _ => rfl, fun _ => rfl⟩
  . intro _ _ _ hsame
    exact hsame
  . intro _ e _ hsame
    split
    . exact hsame
    . exact hsame

theorem reserveAttempt_reserves {h : IntegrationsHistory}
    : (reserveAttempt cfg userId).Meets Answers (Reserves cfg userId) (fun _ _ => True) h := by
  unfold reserveAttempt
  rw [Api.meets_now]
  refine ⟨.now, fun now => ?_⟩
  apply ensureLockoutRow_reserves.bind
  . intro h' _ _ hsame
    rw [Api.meets_query]
    exact ⟨.reserve hsame, fun _ _ => trivial, fun _ => trivial⟩
  . intro _ _ _ _
    trivial

/--
What the granted reservations of a user amount to, if the run has started with the cool-off `start`.
-/
structure Burst (cfg : IntegrationsConfig) (users : List Nat) (userId : Nat) (start : CoolOff) (w : World)
    (t : List IntegrationsEntry) : Prop where
  count : (w.coolOff userId).failedAttempts = start.failedAttempts + t.countP (granted users userId)
  below : saturatedAt cfg users userId t = [] → t.countP (granted users userId) = 0 ∨
    (w.coolOff userId).failedAttempts < maxAttempts cfg
  reached : saturatedAt cfg users userId t ≠ [] → maxAttempts cfg ≤ (w.coolOff userId).failedAttempts
  locked : ∀ captured ∈ saturatedAt cfg users userId t, ∃ now, captured = some now ∧
    (0 ≤ lockMs cfg → ∃ lockedUntil, (w.coolOff userId).lockedUntil = some lockedUntil ∧
      now + lockMs cfg ≤ lockedUntil)
  apart : (saturatedAt cfg users userId t).Pairwise fun captured captured' =>
    ∃ now now', captured = some now ∧ captured' = some now' ∧ lockMs cfg ≤ |now - now'|

theorem Burst.nil {w : World} : Burst cfg users userId (w.coolOff userId) w [] where
  count := by simp
  below _ := Or.inl rfl
  reached h := absurd rfl h
  locked := by simp [saturatedAt]
  apart := .nil

variable {start : CoolOff} {x : IntegrationsEntry} {t : List IntegrationsEntry}

theorem Burst.same (hburst : Burst cfg users userId start x.before t)
    (hgrant : granted users userId x = false)
    (hsame : x.after.coolOff userId = x.before.coolOff userId)
    : Burst cfg users userId start x.after (x :: t) := by
  have hcount : (x :: t).countP (granted users userId) = t.countP (granted users userId) := by
    simp [hgrant]
  have htimes : saturatedAt cfg users userId (x :: t) = saturatedAt cfg users userId t := by
    simp [saturatedAt, hgrant]
  constructor
  . rw [hcount, hsame]
    exact hburst.count
  . rw [hcount, htimes, hsame]
    exact hburst.below
  . rw [htimes, hsame]
    exact hburst.reached
  . rw [htimes, hsame]
    exact hburst.locked
  . rw [htimes]
    exact hburst.apart

theorem Burst.grant {now : Date} (hburst : Burst cfg users userId start x.before t)
    (hgrant : granted users userId x = true) (hnow : capturedNow (own x.call t) = some now)
    (hopen : (x.before.coolOff userId).Open now)
    (hafter : x.after.coolOff userId =
      (x.before.coolOff userId).reserve (maxAttempts cfg) (now + lockMs cfg))
    : Burst cfg users userId start x.after (x :: t) := by
  have hcount : (x :: t).countP (granted users userId) = t.countP (granted users userId) + 1 := by
    simp [hgrant]
  have hattempts : (x.after.coolOff userId).failedAttempts =
      (x.before.coolOff userId).failedAttempts + 1 := by
    rw [hafter]
    rfl
  have hlock : (x.after.coolOff userId).lockedUntil =
      if maxAttempts cfg ≤ (x.after.coolOff userId).failedAttempts then some (now + lockMs cfg) else none := by
    rw [hafter]
    rfl
  have hcounted := hburst.count
  by_cases hreached : maxAttempts cfg ≤ (x.after.coolOff userId).failedAttempts
  . have htimes : saturatedAt cfg users userId (x :: t) = some now :: saturatedAt cfg users userId t := by
      simp [saturatedAt, hgrant, hreached, hnow]
    rw [if_pos hreached] at hlock
    -- the earlier ones have locked the user until a time that is over now
    have hearlier : ∀ captured ∈ saturatedAt cfg users userId t, ∃ now', captured = some now' ∧
        (0 ≤ lockMs cfg → now' + lockMs cfg ≤ now) := by
      intro captured hcaptured
      obtain ⟨now', heq, hlocked⟩ := hburst.locked captured hcaptured
      refine ⟨now', heq, fun hpos => ?_⟩
      obtain ⟨lockedUntil, hlockedUntil, hle⟩ := hlocked hpos
      exact Int.le_trans hle (hopen lockedUntil hlockedUntil)
    constructor
    . rw [hcount, hattempts, hcounted]
      push_cast
      exact Int.add_assoc ..
    . rw [htimes]
      intro h
      exact absurd h (by simp)
    . intro _
      exact hreached
    . rw [htimes, hlock]
      intro captured hcaptured
      rcases List.mem_cons.mp hcaptured with rfl | hold
      . exact ⟨now, rfl, fun _ => ⟨_, rfl, Int.le_refl _⟩⟩
      . obtain ⟨now', heq, hle⟩ := hearlier captured hold
        refine ⟨now', heq, fun hpos => ⟨_, rfl, ?_⟩⟩
        exact Int.le_trans (hle hpos) (Int.le_add_of_nonneg_right hpos)
    . rw [htimes, List.pairwise_cons]
      refine ⟨fun captured hcaptured => ?_, hburst.apart⟩
      obtain ⟨now', heq, hle⟩ := hearlier captured hcaptured
      refine ⟨now, now', rfl, heq, ?_⟩
      by_cases hpos : 0 ≤ lockMs cfg
      . have hapart : lockMs cfg ≤ now - now' := Int.le_sub_left_of_add_le (hle hpos)
        exact Int.le_trans hapart (le_abs_self _)
      . exact Int.le_trans (Int.le_of_lt (Int.not_le.mp hpos)) (abs_nonneg _)
  . have htimes : saturatedAt cfg users userId (x :: t) = saturatedAt cfg users userId t := by
      simp [saturatedAt, hreached]
    have hnone : saturatedAt cfg users userId t = [] := by
      by_contra hsome
      have := hburst.reached hsome
      omega
    constructor
    . rw [hcount, hattempts, hcounted]
      push_cast
      exact Int.add_assoc ..
    . intro _
      exact Or.inr (Int.not_le.mp hreached)
    . rw [htimes]
      intro h
      exact absurd hnone h
    . rw [htimes, hnone]
      simp
    . rw [htimes]
      exact hburst.apart

/--
`x` is a step of one of the reservations.
-/
abbrev BurstStep (cfg : IntegrationsConfig) (users : List Nat) (t : List IntegrationsEntry)
    (x : IntegrationsEntry) : Prop :=
  Config.Performs Effect.exec (fun i h s => ∃ userId, users[i]? = some userId ∧ Reserves cfg userId h s)
    t x

theorem Burst.step (hx : BurstStep cfg users t x) (hburst : Burst cfg users userId start x.before t)
    : Burst cfg users userId start x.after (x :: t) := by
  have hexecuted : x.Executed Effect.exec := hx.answered
  obtain ⟨caller, hcaller, hallowed⟩ := hx.allowed
  have huser : granted users userId x = true → caller = userId := by
    intro hgrant
    have heq := (Bool.and_eq_true_iff.mp hgrant).1
    rw [hcaller] at heq
    exact Option.some.inj (beq_iff_eq.mp heq)
  -- what is not executed by the database grants nothing
  have hidle : (∀ (s : Statement) (a : s.Answer), ⟨x.effect, x.resp⟩ ≠ ran s a) →
      isGrant ⟨x.effect, x.resp⟩ = false → Burst cfg users userId start x.after (x :: t) := by
    intro hidle hgrant
    apply hburst.same
    . rw [granted, hgrant, Bool.and_false]
    . rcases coolOff_cases hexecuted with hsame | ⟨s, a, hran, _⟩
      . rw [hsame]
      . exact absurd hran (hidle s a)
  obtain ⟨i, before, effect, resp, after⟩ := x
  dsimp only at hallowed hexecuted huser hidle hcaller
  cases hallowed with
  | now => exact hidle (by simp) rfl
  | ensure =>
    cases resp with
    | error e => exact hidle (fun _ _ => failed_ne_ran) rfl
    | ok row =>
      apply hburst.same
      . rw [granted]
        exact Bool.and_false _
      . rw [coolOff_ensure hexecuted rfl]
  | reserve hnow =>
    cases resp with
    | error e => exact hidle (fun _ _ => failed_ne_ran) rfl
    | ok affected =>
      rcases coolOff_reserve hexecuted rfl with ⟨hone, hopen, hafter⟩ | ⟨hzero, hsame⟩
      . by_cases hmine : caller = userId
        . subst hmine
          refine hburst.grant ?_ hnow hopen ?_
          . simp [granted, isGrant, hcaller, hone]
          . rw [hafter, Function.update_self]
        . apply hburst.same
          . exact Bool.eq_false_iff.mpr fun hgrant => hmine (huser hgrant)
          . rw [hafter, Function.update_of_ne fun h => hmine h.symm]
      . apply hburst.same
        . simp [granted, isGrant, hzero]
        . rw [hsame]

/--
However many reservations are made at once, those of a user that are granted until the maximum is reached
are at most as many as were left, or a single one, and those that are granted with the maximum reached are
as far apart as the lock is long.
-/
theorem burst_bounded {w : World} {schedule : Schedule}
    : let t := (Calls.after w (users.map (reserveAttempt cfg)) schedule).trace
      (∀ later x earlier, t = later ++ x :: earlier →
          granted users userId x = true → saturatedAt cfg users userId earlier = [] →
          ((x :: earlier).countP (granted users userId) : Int) ≤
            max 1 (maxAttempts cfg - (w.coolOff userId).failedAttempts))
        ∧
      (saturatedAt cfg users userId t).Pairwise fun captured captured' =>
        ∃ now now', captured = some now ∧ captured' = some now' ∧ lockMs cfg ≤ |now - now'| := by
  have hprog : ∀ userId, (reserveAttempt cfg userId).Meets Answers (Reserves cfg userId)
      (fun _ _ => True) [] := fun _ => reserveAttempt_reserves
  have hmeets := start_meets hprog w users
  constructor
  . intro later x earlier hsplit hgrant hnone
    have hburst := (Config.run_induction_split (A := fun _ => True)
      (I := Burst cfg users userId (w.coolOff userId)) (fun _ _ _ => trivial)
      (fun _ _ _ hx => Burst.step hx) answers_exec hmeets Burst.nil rfl schedule trivial hsplit).1
    have hcount := hburst.count
    rw [List.countP_cons_of_pos hgrant]
    rcases hburst.below hnone with hzero | hless
    . omega
    . omega
  . exact (Config.run_induction (A := fun _ => True)
      (I := Burst cfg users userId (w.coolOff userId)) (fun _ _ _ => trivial)
      (fun _ _ _ hx => Burst.step hx) answers_exec hmeets Burst.nil schedule trivial).apart

end Reservations

section Runs

attribute [local instance] Kerghan.Sample.platform

/--
Two reservations at once, with a single attempt left.
-/
theorem burst_bounded_at_last_attempt
    : ((Calls.after (Sample.failing 4) ([1, 1].map (reserveAttempt Sample.config))
        (Sample.schedule [0, 1, 0, 1, 1, 0])).trace.countP (granted [1, 1] 1) : Int) ≤ 1 := by
  have hsplit : (Calls.after (Sample.failing 4) ([1, 1].map (reserveAttempt Sample.config))
      (Sample.schedule [0, 1, 0, 1, 1, 0])).trace = [_] ++ _ :: _ := rfl
  have hbound := (@burst_bounded _ Sample.config [1, 1] 1 _ _).1 _ _ _ hsplit rfl rfl
  exact hbound

end Runs

end Kerghan.Integrations
