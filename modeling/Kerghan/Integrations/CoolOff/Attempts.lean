import Kerghan.Integrations.CoolOff.Burst

/-!
This module contains the proof that the cool-off counts every failed attempt, as long as no attempt is given
back after a reset that came after its reservation.
-/

namespace Kerghan.Integrations

open IntegrationCredentialAbuseGuardService IntegrationCredentialService

def Effect.touchesCoolOff : Effect → Bool
  | .db s => s.table == .credentialLockouts && !s.isRead
  | .countFailure _ => true
  | _ => false

/--
An attempt of a user. What it runs leaves the cool-offs alone.
-/
structure Attempt where
  T : Type
  userId : Nat
  run : Api T
  resetsCoolOff : T → Bool
  apart : ∀ h, run.Meets Answers (fun _ s => s.touchesCoolOff = false) (fun _ _ => True) h

inductive CoolOffEvent where
  | reserved
  | released
  | reset
  | counted
  deriving DecidableEq, Repr

/--
What an event of an attempt does to the cool-off of its user. The statements are told apart by what they
make of two failed attempts.
-/
def coolOffEvent : (s : Effect) × Answer s → Option CoolOffEvent
  | ⟨.db (.update .credentialLockouts _ f), .ok affected⟩ =>
    match (f 0 { id := 0, userId := 0, failedAttempts := 2, lockedUntil := none }).failedAttempts with
    | 3 => if affected = 1 then some .reserved else none
    | 1 => some .released
    | 0 => some .reset
    | _ => none
  | ⟨.countFailure _, _⟩ => some .counted
  | _ => none

/--
How many attempts have been reserved since the last reset and ended as counted failures, and which attempts
have been reserved since the last reset and not ended.
-/
structure Tally where
  counted : Nat
  pending : List Nat
  deriving DecidableEq

def Tally.after (tally : Tally) (call : Nat) : Option CoolOffEvent → Tally
  | some .reserved => { tally with pending := call :: tally.pending }
  | some .released => { tally with pending := tally.pending.erase call }
  | some .reset => ⟨0, []⟩
  | some .counted =>
    if call ∈ tally.pending then
      ⟨tally.counted + 1, tally.pending.erase call⟩
    else
      tally
  | none => tally

/--
Whether the user has been locked again after a lock had expired that came with a count of at least the
maximum.
-/
def CoolOff.relockedAfter (c : CoolOff) (maxAttempts : Int) (relocked : Bool) : Option CoolOffEvent → Bool
  | some .reserved => maxAttempts ≤ c.failedAttempts && c.lockedUntil.isSome || relocked
  | some .reset => false
  | _ => relocked

/--
The count that the last granted reservation has found. If it has found the maximum reached, the lock is its own.
-/
def CoolOff.foundAfter (c : CoolOff) (found : Int) : Option CoolOffEvent → Int
  | some .reserved => c.failedAttempts
  | _ => found

inductive Moves (maxAttempts : Int) (c c' : CoolOff) : Option CoolOffEvent → Prop where
  | idle (hsame : c' = c) : Moves maxAttempts c c' none
  | counted (hsame : c' = c) : Moves maxAttempts c c' (some .counted)
  | reserved {lockedUntil : Date} (hreserve : c' = c.reserve maxAttempts lockedUntil)
    : Moves maxAttempts c c' (some .reserved)
  | released (hrelease : c' = c.release) : Moves maxAttempts c c' (some .released)
  | reset (hreset : c' = CoolOff.none) : Moves maxAttempts c c' (some .reset)

/--
The count covers the attempts that have ended as counted failures and those that have not ended, and all but
one of them have been found by the last reservation. It only exceeds the maximum if the user has been locked
again.
-/
structure CoolOff.Covers (c : CoolOff) (maxAttempts : Int) (tally : Tally) (relocked : Bool) (found : Int)
    : Prop where
  covered : (tally.counted : Int) + tally.pending.length ≤ c.failedAttempts
  allButOne : (tally.counted : Int) + tally.pending.length ≤ found + 1
  positive : 0 ≤ found
  below : relocked = true ∨ c.failedAttempts < max 1 maxAttempts ∨
    c.failedAttempts = max 1 maxAttempts ∧ c.lockedUntil.isSome = true

theorem CoolOff.Covers.move {c c' : CoolOff} {maxAttempts : Int} {tally : Tally} {relocked : Bool} {found : Int}
    {call : Nat} {event : Option CoolOffEvent} (hcovers : c.Covers maxAttempts tally relocked found)
    (hmoves : Moves maxAttempts c c' event) (htimely : event = some .released → call ∈ tally.pending)
    : c'.Covers maxAttempts (tally.after call event) (c.relockedAfter maxAttempts relocked event)
        (c.foundAfter found event) := by
  obtain ⟨hcovered, hfound, hpositive, hbelow⟩ := hcovers
  cases hmoves with
  | idle hsame =>
    subst hsame
    exact ⟨hcovered, hfound, hpositive, hbelow⟩
  | counted hsame =>
    subst hsame
    -- a counted attempt is no longer pending, so the sum of both is the same
    have hkept : (((tally.after call (some .counted)).counted : Nat) : Int) +
        (tally.after call (some .counted)).pending.length = tally.counted + tally.pending.length := by
      unfold Tally.after
      dsimp only
      split
      . next hpending =>
        have hpos := List.length_pos_of_mem hpending
        rw [List.length_erase_of_mem hpending]
        push_cast
        omega
      . rfl
    exact ⟨hkept.trans_le hcovered, hkept.trans_le hfound, hpositive, hbelow⟩
  | reserved hreserve =>
    subst hreserve
    have hafter : ((tally.after call (some .reserved)).pending.length : Int) = tally.pending.length + 1 := by
      simp [Tally.after]
    refine ⟨?_, ?_, ?_, ?_⟩
    . rw [hafter]
      simp only [Tally.after, CoolOff.reserve]
      omega
    . rw [hafter]
      simp only [Tally.after, CoolOff.foundAfter]
      omega
    . simp only [CoolOff.foundAfter]
      omega
    . simp only [CoolOff.relockedAfter, CoolOff.reserve, Bool.or_eq_true, Bool.and_eq_true,
        decide_eq_true_eq]
      rcases hbelow with hrelocked | hless | ⟨heq, hlocked⟩
      . exact Or.inl (Or.inr hrelocked)
      . right
        by_cases hreached : c.failedAttempts + 1 < max 1 maxAttempts
        . exact Or.inl hreached
        . right
          rw [if_pos (by omega)]
          exact ⟨by omega, rfl⟩
      . exact Or.inl (Or.inl ⟨by omega, hlocked⟩)
  | released hrelease =>
    subst hrelease
    -- what a release takes off the count is what its own reservation has added
    have hpending := htimely rfl
    have hpos := List.length_pos_of_mem hpending
    refine ⟨?_, ?_, hpositive, ?_⟩
    . simp only [Tally.after, CoolOff.release]
      rw [List.length_erase_of_mem hpending]
      omega
    . simp only [Tally.after, CoolOff.foundAfter]
      rw [List.length_erase_of_mem hpending]
      omega
    . simp only [CoolOff.relockedAfter, CoolOff.release]
      rcases hbelow with hrelocked | hless | ⟨heq, _⟩
      . exact Or.inl hrelocked
      . exact Or.inr (Or.inl (by omega))
      . exact Or.inr (Or.inl (by omega))
  | reset hreset =>
    subst hreset
    refine ⟨by simp [Tally.after, CoolOff.none], ?_, hpositive, Or.inr (Or.inl ?_)⟩
    . simp only [Tally.after, CoolOff.foundAfter, List.length_nil]
      omega
    simp only [CoolOff.none]
    omega

section Attempts

variable [Platform] (cfg : IntegrationsConfig) (attempts : List Attempt) (userId : Nat)

def Attempt.prog (a : Attempt) : Api Unit :=
  (fun _ => ()) <$> attempt cfg a.userId a.run a.resetsCoolOff

def userEvent (x : IntegrationsEntry) : Option CoolOffEvent :=
  if (attempts[x.call]?).any fun a => a.userId == userId then
    coolOffEvent ⟨x.effect, x.resp⟩
  else
    none

def tally : List IntegrationsEntry → Tally
  | [] => ⟨0, []⟩
  | x :: t => (tally t).after x.call (userEvent attempts userId x)

/--
Every attempt that is given back is still pending: no reset has come after its reservation.
-/
def Timely : List IntegrationsEntry → Prop
  | [] => True
  | x :: t =>
    (userEvent attempts userId x = some .released → x.call ∈ (tally attempts userId t).pending) ∧ Timely t

/--
Whether since the last reset the user has been locked again after a lock had expired that came with a count
of at least the maximum. A run that starts with such a count counts as well.
-/
def relocked (start : CoolOff) : List IntegrationsEntry → Bool
  | [] => maxAttempts cfg ≤ start.failedAttempts
  | x :: t =>
    (x.before.coolOff userId).relockedAfter (maxAttempts cfg) (relocked start t)
      (userEvent attempts userId x)

/--
The count that the last granted reservation of the user has found, or the one of the start.
-/
def lastFound (start : CoolOff) : List IntegrationsEntry → Int
  | [] => start.failedAttempts
  | x :: t => (x.before.coolOff userId).foundAfter (lastFound start t) (userEvent attempts userId x)

inductive Attempts (h : IntegrationsHistory) : Effect → Prop where
  | elsewhere {s : Effect} (hs : s.touchesCoolOff = false) : Attempts h s
  | reserve {s : Effect} (hreserves : Reserves cfg userId h s) : Attempts h s
  | release : Attempts h (.db (releaseAttemptSql userId))
  | reset : Attempts h (.db (resetLockout userId))
  | count : Attempts h (.countFailure userId)

variable {cfg attempts userId}

instance decidableTimely : (t : List IntegrationsEntry) → Decidable (Timely attempts userId t)
  | [] => isTrue trivial
  | _ :: t =>
    have := decidableTimely t
    inferInstanceAs (Decidable ((_ → _) ∧ _))

section Contract

variable {T : Type} {h : IntegrationsHistory}

theorem settleFailure_attempts (error : Thrown)
    : (settleFailure userId error).Meets Answers (Attempts cfg userId) (fun _ _ => True) h := by
  have hrelease : (releaseAttempt userId).Meets Answers (Attempts cfg userId) (fun _ _ => True) h := by
    unfold releaseAttempt
    rw [Api.meets_query]
    exact ⟨.release, fun _ _ => trivial, fun _ => trivial⟩
  unfold settleFailure
  split
  . split
    . exact ⟨.count, fun _ _ => trivial⟩
    . exact hrelease.bind (fun _ _ _ _ => trivial) (fun _ _ _ _ => trivial)
  . exact hrelease.bind (fun _ _ _ _ => trivial) (fun _ _ _ _ => trivial)

theorem settle_attempts (resetsCoolOff : T → Bool) (result : T)
    : (settle userId resetsCoolOff result).Meets Answers (Attempts cfg userId) (fun _ _ => True) h := by
  unfold settle reset releaseAttempt
  split
  . simp only [Prog.bind_assoc]
    rw [Api.meets_query]
    exact ⟨.reset, fun _ _ => trivial, fun _ => trivial⟩
  . simp only [Prog.bind_assoc]
    rw [Api.meets_query]
    exact ⟨.release, fun _ _ => trivial, fun _ => trivial⟩

theorem attempt_attempts (a : Attempt)
    : (a.prog cfg).Meets Answers (Attempts cfg a.userId) (fun _ _ => True) h := by
  unfold Attempt.prog
  refine Prog.Meets.map (Q := fun _ _ => True) ?_ (fun _ _ _ => trivial) (fun _ _ _ => trivial)
  unfold attempt
  apply (reserveAttempt_reserves.imp fun _ _ hreserves => Attempts.reserve hreserves).bind
  . intro h' reserved _ _
    split
    . have hrun : (outcome a.run).Meets Answers (Attempts cfg a.userId) (fun _ _ => True) h' := by
        unfold outcome
        refine Prog.Meets.tryCatch (Q := fun _ _ => True) ?_ (fun _ _ _ _ => trivial)
          (fun _ _ _ _ => trivial)
        refine Prog.Meets.map (Q := fun _ _ => True) ?_ (fun _ _ _ => trivial) (fun _ _ _ => trivial)
        exact (a.apart h').imp fun _ _ hs => .elsewhere hs
      apply hrun.bind
      . intro _ result _ _
        cases result with
        | ok result => exact settle_attempts ..
        | error error =>
          exact (settleFailure_attempts error).bind (fun _ _ _ _ => trivial) (fun _ _ _ _ => trivial)
      . intro _ _ _ _
        trivial
    . trivial
  . intro _ _ _ _
    trivial

end Contract

section Step

variable {x : IntegrationsEntry} {t : List IntegrationsEntry}

abbrev AttemptStep (cfg : IntegrationsConfig) (attempts : List Attempt) (t : List IntegrationsEntry)
    (x : IntegrationsEntry) : Prop :=
  Config.Performs Effect.exec (fun i h s => ∃ a, attempts[i]? = some a ∧ Attempts cfg a.userId h s) t x

omit [Platform] in
theorem coolOffEvent_elsewhere {s : Effect} {r : Answer s} (hs : s.touchesCoolOff = false)
    : coolOffEvent ⟨s, r⟩ = none := by
  unfold coolOffEvent
  split
  . next heq =>
    cases heq
    simp [Effect.touchesCoolOff] at hs
  . next heq =>
    cases heq
    simp [Effect.touchesCoolOff] at hs
  . rfl

theorem coolOff_of_not_ran (hx : x.Executed Effect.exec)
    (hidle : ∀ (s : Statement) (a : s.Answer), ⟨x.effect, x.resp⟩ = ran s a →
      s.table = .credentialLockouts → s.isRead = true)
    : x.after.coolOff = x.before.coolOff := by
  rcases coolOff_cases hx with hsame | ⟨s, a, hran, htable, hwrite⟩
  . exact hsame
  . exact absurd (hwrite.symm.trans (hidle s a hran htable)) Bool.false_ne_true

theorem AttemptStep.moves (hx : AttemptStep cfg attempts t x)
    : Moves (maxAttempts cfg) (x.before.coolOff userId) (x.after.coolOff userId)
        (userEvent attempts userId x) := by
  have hexecuted : x.Executed Effect.exec := hx.answered
  obtain ⟨a, hcall, hallowed⟩ := hx.allowed
  obtain ⟨i, before, effect, resp, after⟩ := x
  dsimp only at hallowed hexecuted hcall
  have hevent : userEvent attempts userId ⟨i, before, effect, resp, after⟩ =
      if a.userId = userId then coolOffEvent ⟨effect, resp⟩ else none := by
    simp [userEvent, hcall]
  rw [hevent]
  -- an update of another user is not seen by this one
  have hupdate : ∀ {c : CoolOff} {event : Option CoolOffEvent},
      after.coolOff = Function.update before.coolOff a.userId c →
      Moves (maxAttempts cfg) (before.coolOff a.userId) c event →
      Moves (maxAttempts cfg) (before.coolOff userId) (after.coolOff userId)
        (if a.userId = userId then event else none) := by
    intro c event hafter hmoves
    rw [hafter]
    split
    . next huser =>
      rw [← huser, Function.update_self]
      exact hmoves
    . next huser => exact .idle (Function.update_of_ne (fun h => huser h.symm) ..)
  have hidle : after.coolOff = before.coolOff → coolOffEvent ⟨effect, resp⟩ = none →
      Moves (maxAttempts cfg) (before.coolOff userId) (after.coolOff userId)
        (if a.userId = userId then coolOffEvent ⟨effect, resp⟩ else none) := by
    intro hsame hnone
    rw [hnone, ite_self]
    exact .idle (congrFun hsame userId)
  cases hallowed with
  | elsewhere hs =>
    refine hidle (coolOff_of_not_ran hexecuted fun s _ hran htable => ?_) (coolOffEvent_elsewhere hs)
    have heffect : effect = .db s := congrArg Sigma.fst hran
    subst heffect
    have hs' : (s.table == .credentialLockouts && !s.isRead) = false := hs
    rw [htable, beq_self_eq_true, Bool.true_and] at hs'
    simpa only [Bool.not_eq_eq_eq_not, Bool.not_false] using hs'
  | reserve hreserves =>
    cases hreserves with
    | now => exact hidle (coolOff_of_not_ran hexecuted (by simp)) rfl
    | ensure =>
      cases resp with
      | error e => exact hidle (coolOff_of_not_ran hexecuted fun _ _ h => absurd h failed_ne_ran) rfl
      | ok row => exact hidle (coolOff_ensure hexecuted rfl) rfl
    | reserve hnow =>
      cases resp with
      | error e => exact hidle (coolOff_of_not_ran hexecuted fun _ _ h => absurd h failed_ne_ran) rfl
      | ok affected =>
        rcases coolOff_reserve hexecuted rfl with ⟨hone, _, hafter⟩ | ⟨hzero, hsame⟩
        . subst hone
          exact hupdate hafter (.reserved rfl)
        . subst hzero
          exact hidle hsame rfl
  | release =>
    cases resp with
    | error e => exact hidle (coolOff_of_not_ran hexecuted fun _ _ h => absurd h failed_ne_ran) rfl
    | ok affected => exact hupdate (coolOff_release hexecuted rfl) (.released rfl)
  | reset =>
    cases resp with
    | error e => exact hidle (coolOff_of_not_ran hexecuted fun _ _ h => absurd h failed_ne_ran) rfl
    | ok affected => exact hupdate (coolOff_reset hexecuted rfl) (.reset rfl)
  | count =>
    rw [coolOff_of_not_ran hexecuted (by simp)]
    split
    . exact .counted rfl
    . exact .idle rfl

end Step

section Run

variable {w : World} {schedule : Schedule}

theorem covers_run (hstart : 0 ≤ (w.coolOff userId).failedAttempts)
    (htimely : Timely attempts userId
      (Calls.after w (attempts.map (Attempt.prog cfg)) schedule).trace)
    : let run := Calls.after w (attempts.map (Attempt.prog cfg)) schedule
      let covered := fun (w' : World) t => (w'.coolOff userId).Covers (maxAttempts cfg)
        (tally attempts userId t) (relocked cfg attempts userId (w.coolOff userId) t)
        (lastFound attempts userId (w.coolOff userId) t)
      covered run.world run.trace ∧
        ∀ later x earlier, run.trace = later ++ x :: earlier →
          covered x.before earlier ∧ AttemptStep cfg attempts earlier x := by
  intro run covered
  have hprog : ∀ a : Attempt, (a.prog cfg).Meets Answers (Attempts cfg a.userId) (fun _ _ => True) [] :=
    fun a => attempt_attempts a
  have hmeets := start_meets hprog w attempts
  have hstep : ∀ x t, Timely attempts userId (x :: t) → AttemptStep cfg attempts t x →
      covered x.before t → covered x.after (x :: t) :=
    fun x t htimely hx hcovers => hcovers.move hx.moves htimely.1
  have hinit : covered w [] := by
    refine ⟨by simpa [tally] using hstart, ?_, hstart, ?_⟩
    . simp only [tally, lastFound, List.length_nil]
      omega
    . simp only [relocked, decide_eq_true_eq]
      omega
  constructor
  . exact Config.run_induction (fun _ _ h => h.2) hstep answers_exec hmeets hinit schedule htimely
  . intro later x earlier hsplit
    constructor
    . exact (Config.run_induction_split (fun _ _ h => h.2) hstep answers_exec hmeets hinit rfl schedule
        htimely hsplit).1
    . exact Config.performs_of_split answers_exec hmeets rfl schedule hsplit

/--
As long as no attempt is given back after a reset that came after its reservation, the count is never less
than the number of counted failures since the last reset. With too many of these an attempt is only given
back after the user has been locked again, the lock that it clears is that of a reservation which has found the
maximum reached already, and every further reservation locks the user once more.
-/
theorem counted_failures_kept (hstart : 0 ≤ (w.coolOff userId).failedAttempts)
    (htimely : Timely attempts userId
      (Calls.after w (attempts.map (Attempt.prog cfg)) schedule).trace)
    : let run := Calls.after w (attempts.map (Attempt.prog cfg)) schedule
      ((tally attempts userId run.trace).counted : Int) ≤ (run.world.coolOff userId).failedAttempts
        ∧
      ∀ later x earlier, run.trace = later ++ x :: earlier →
        (userEvent attempts userId x = some .released →
          max 1 (maxAttempts cfg) ≤ (tally attempts userId earlier).counted →
          relocked cfg attempts userId (w.coolOff userId) earlier = true
            ∧
          max 1 (maxAttempts cfg) ≤ lastFound attempts userId (w.coolOff userId) earlier)
          ∧
        (userEvent attempts userId x = some .reserved →
          maxAttempts cfg ≤ (tally attempts userId earlier).counted →
          (x.after.coolOff userId).lockedUntil.isSome = true) := by
  intro run
  obtain ⟨hend, hsplits⟩ := covers_run hstart htimely
  constructor
  . exact Int.le_trans (Int.le_add_of_nonneg_right (Int.natCast_nonneg _)) hend.covered
  . intro later x earlier hsplit
    obtain ⟨⟨hcovered, hfound, _, hbelow⟩, hx⟩ := hsplits later x earlier hsplit
    constructor
    . intro hreleased hmany
      have hpending : x.call ∈ (tally attempts userId earlier).pending := by
        have hsuffix : ∀ later, Timely attempts userId (later ++ x :: earlier) →
            Timely attempts userId (x :: earlier) := by
          intro later h
          induction later with
          | nil => exact h
          | cons _ later ih => exact ih h.2
        rw [hsplit] at htimely
        exact (hsuffix later htimely).1 hreleased
      have hpos := List.length_pos_of_mem hpending
      exact ⟨hbelow.resolve_right (by omega), by omega⟩
    . intro hreserved hmany
      have hmoves := @AttemptStep.moves _ cfg attempts userId _ _ hx
      rw [hreserved] at hmoves
      cases hmoves with
      | reserved hreserve =>
        rw [hreserve, CoolOff.reserve, if_pos (by omega)]
        rfl

end Run

end Attempts

section Runs

attribute [local instance] Kerghan.Sample.platform

/--
An attempt of the user whose check throws `e`.
-/
abbrev throwing (e : IntegrationCredentialError) : Attempt where
  T := Unit
  userId := 1
  run := throw (.credential e)
  resetsCoolOff _ := true
  apart _ := trivial

/--
GitHub rejects five credentials and is unavailable afterwards.
-/
abbrev rejectedThenUnavailable : List Attempt :=
  List.replicate 5 (throwing .credentialInvalid) ++ [throwing .githubUnavailable]

/--
The attempts are made one after the other, the last one after the lock has expired.
-/
abbrev afterExpiry : Schedule :=
  Sample.scheduleIn (fun k => { Sample.env k with now := if k < 20 then k else 1000000 })
    ((List.range 6).flatMap fun i => List.replicate 4 i)

/--
The last attempt is given back, and clears its lock although there are five counted failures.
-/
theorem lock_cleared_by_release
    : ∃ later x earlier,
        (Calls.after Sample.world (rejectedThenUnavailable.map (Attempt.prog Sample.config))
          afterExpiry).trace = later ++ x :: earlier
          ∧
        userEvent rejectedThenUnavailable 1 x = some .released
          ∧
        (x.before.coolOff 1).lockedUntil.isSome = true
          ∧
        (x.after.coolOff 1).lockedUntil = none
          ∧
        maxAttempts Sample.config ≤ (tally rejectedThenUnavailable 1 earlier).counted := by
  refine ⟨[], _, _, rfl, ?_, ?_, ?_, ?_⟩
  all_goals decide

/--
The count still covers them.
-/
theorem counted_failures_kept_after_release
    : (5 : Int) ≤ ((Calls.after Sample.world (rejectedThenUnavailable.map (Attempt.prog Sample.config))
        afterExpiry).world.coolOff 1).failedAttempts := by
  have htimely : Timely rejectedThenUnavailable 1 (Calls.after Sample.world
      (rejectedThenUnavailable.map (Attempt.prog Sample.config)) afterExpiry).trace := by decide
  exact (counted_failures_kept (by decide) htimely).1

end Runs

end Kerghan.Integrations
