import Mathlib.Data.List.Basic
import Mathlib.Data.Int.Order.Basic

/-!
This module contains the general cool-off: a counter of failures that locks once it has reached a
maximum, and locks again on every failure after that. Who keeps the counter and what is guessed does not
matter here.
-/

/--
What `step` can do from `start` on, one after the other, with the labels of these steps, oldest first.
-/
inductive Sequence {W L : Type} (step : W → L → W → Prop) (start : W) : List L → W → Prop where
  | nil : Sequence step start [] start
  | snoc {labels : List L} {w w' : W} {label : L} (hbefore : Sequence step start labels w)
    (hstep : step w label w')
    : Sequence step start (labels ++ [label]) w'

theorem Sequence.simulate {W W' L : Type} {step : W → L → W → Prop} {step' : W' → L → W' → Prop}
    {I : W → Prop} {f : W → W'} {start w : W} {labels : List L}
    (hstep : ∀ w label w', I w → step w label w' → I w' ∧ step' (f w) label (f w')) (hstart : I start)
    (h : Sequence step start labels w)
    : I w ∧ Sequence step' (f start) labels (f w) := by
  induction h with
  | nil => exact ⟨hstart, .nil⟩
  | snoc hbefore hlast ih =>
    obtain ⟨hinv, hseq⟩ := ih
    obtain ⟨hinv', hlast'⟩ := hstep _ _ _ hinv hlast
    exact ⟨hinv', hseq.snoc hlast'⟩

namespace CoolOff

structure Policy where
  maxAttempts : Int
  lockMs : Int
  /-- What is kept of the time at which a lock ends. -/
  store : Int → Int
  monotone : ∀ {a b : Int}, a ≤ b → store a ≤ store b

def Policy.exact (policy : Policy) : Policy :=
  { policy with
    store := id
    monotone := id }

structure State where
  attempts : Int
  lockedUntil : Option Int
  deriving DecidableEq

def State.initial : State where
  attempts := 0
  lockedUntil := none

/--
What a failure makes of the state, if it is recorded at the time `now`.
-/
def Policy.fail (policy : Policy) (s : State) (now : Int) : State where
  attempts := s.attempts + 1
  lockedUntil := if s.attempts + 1 ≥ policy.maxAttempts then some (policy.store (now + policy.lockMs)) else none

/--
No lock is in force at the time `now`.
-/
def State.Unlocked (s : State) (now : Int) : Prop :=
  ∀ lockedUntil, s.lockedUntil = some lockedUntil → lockedUntil ≤ now

/--
What an attempt without success can do to the state as time passes. The label says when it has guessed,
if it has.
-/
inductive Attempt (policy : Policy) : State × Int → Option Int → State × Int → Prop where
  | refused {s : State} {t t' : Int} (htime : t ≤ t') : Attempt policy (s, t) none (s, t')
  | failed {s : State} {t asked guess recorded t' : Int} (hasked : t ≤ asked)
    (hunlocked : s.Unlocked asked) (hguess : asked ≤ guess) (hrecorded : guess ≤ recorded)
    (htime : recorded ≤ t')
    : Attempt policy (s, t) (some guess) (policy.fail s recorded, t')

abbrev guesses (labels : List (Option Int)) : List Int :=
  labels.filterMap id

theorem guesses_snoc (labels : List (Option Int)) (label : Option Int)
    : guesses (labels ++ [label]) = guesses labels ++ label.toList := by
  cases label <;> simp [guesses]

/--
From the `maxAttempts`-th guess on, every guess is `lockMs` later than all guesses before it, as far as that is kept.
-/
def Apart (policy : Policy) (guesses : List Int) : Prop :=
  ∀ before guess after, guesses = before ++ guess :: after → policy.maxAttempts ≤ before.length →
    ∀ earlier ∈ before, policy.store (earlier + policy.lockMs) ≤ guess

theorem Apart.snoc {policy : Policy} {guesses : List Int} {guess : Int} (h : Apart policy guesses)
    (hlast : policy.maxAttempts ≤ guesses.length →
      ∀ earlier ∈ guesses, policy.store (earlier + policy.lockMs) ≤ guess)
    : Apart policy (guesses ++ [guess]) := by
  intro before guess' after hsplit hlong
  rcases List.eq_nil_or_concat after with rfl | ⟨after, last, rfl⟩
  . obtain ⟨rfl, hguess⟩ := List.append_inj' hsplit rfl
    rw [List.singleton_inj.mp hguess] at hlast
    exact hlast hlong
  . have hsplit' : guesses ++ [guess] = before ++ guess' :: after ++ [last] := by simpa using hsplit
    exact h before guess' after (List.append_inj' hsplit' rfl).1 hlong

/--
What holds of the state at all times, if `guesses` are the guesses so far.
-/
structure Law (policy : Policy) (guesses : List Int) (w : State × Int) : Prop where
  counted : w.1.attempts = guesses.length
  locked : w.1.lockedUntil ≠ none ↔ policy.maxAttempts ≤ w.1.attempts
  until_ : ∀ lockedUntil, w.1.lockedUntil = some lockedUntil →
    ∀ guess ∈ guesses, policy.store (guess + policy.lockMs) ≤ lockedUntil
  past : ∀ guess ∈ guesses, guess ≤ w.2
  apart : Apart policy guesses

variable {policy : Policy} {w w' : State × Int} {labels : List (Option Int)} {label : Option Int}

theorem Attempt.locked_out (h : Attempt policy w label w') {lockedUntil : Int}
    (hlocked : w.1.lockedUntil = some lockedUntil) (hforce : w'.2 < lockedUntil)
    : label = none := by
  cases h with
  | refused htime => rfl
  | failed hasked hunlocked hguess hrecorded htime =>
    have hexpired := hunlocked lockedUntil hlocked
    dsimp only at hforce
    omega

theorem Attempt.kept (h : Attempt policy w none w') : w'.1 = w.1 := by
  cases h
  rfl

theorem Law.initial (hmax : 1 ≤ policy.maxAttempts) (t : Int) : Law policy [] (.initial, t) where
  counted := rfl
  locked := by
    simp only [State.initial, ne_eq, not_true_eq_false, false_iff]
    omega
  until_ := by simp
  past := by simp
  apart := by
    intro before guess after hsplit
    simp at hsplit

theorem Law.attempt (h : Law policy (guesses labels) w) (hattempt : Attempt policy w label w')
    : Law policy (guesses (labels ++ [label])) w' := by
  rw [guesses_snoc]
  cases hattempt with
  | refused htime =>
    rw [Option.toList_none, List.append_nil]
    exact ⟨h.counted, h.locked, h.until_, fun guess hguess => Int.le_trans (h.past guess hguess) htime,
      h.apart⟩
  | failed hasked hunlocked hguess hrecorded htime =>
    rename_i s t asked guess recorded t'
    have hpast : ∀ earlier ∈ guesses labels ++ [guess], earlier ≤ recorded := by
      intro earlier hearlier
      rcases List.mem_append.mp hearlier with hold | hnew
      . have := h.past earlier hold
        dsimp only at this
        omega
      . rw [List.mem_singleton.mp hnew]
        exact hrecorded
    rw [Option.toList_some]
    constructor
    . have hcounted := h.counted
      dsimp only at hcounted
      simp only [Policy.fail, List.length_append, List.length_singleton]
      omega
    . simp [Policy.fail]
    . intro lockedUntil hlocked earlier hearlier
      simp only [Policy.fail] at hlocked
      split at hlocked
      . rw [← Option.some.inj hlocked]
        exact policy.monotone (Int.add_le_add_right (hpast earlier hearlier) _)
      . simp at hlocked
    . exact fun earlier hearlier => Int.le_trans (hpast earlier hearlier) htime
    . refine h.apart.snoc fun hlong earlier hearlier => ?_
      -- the guess was only possible as the lock of the guesses before it had expired
      rw [← h.counted] at hlong
      obtain ⟨lockedUntil, hlocked⟩ := Option.ne_none_iff_exists'.mp (h.locked.mpr hlong)
      have hexpired := hunlocked lockedUntil hlocked
      have hlock := h.until_ lockedUntil hlocked earlier hearlier
      omega

theorem Law.sequence (hmax : 1 ≤ policy.maxAttempts) {t : Int}
    (h : Sequence (Attempt policy) (.initial, t) labels w)
    : Law policy (guesses labels) w := by
  induction h with
  | nil => exact .initial hmax t
  | snoc _ hstep ih => exact ih.attempt hstep

theorem Law.first_lock (h : Law policy (guesses labels) w) (hattempt : Attempt policy w label w')
    (hunlocked : w.1.lockedUntil = none) (hlocked : w'.1.lockedUntil ≠ none)
    : ((guesses (labels ++ [label])).length : Int) = policy.maxAttempts := by
  have h' := h.attempt hattempt
  have hreached := h'.locked.mp hlocked
  have hbelow : ¬policy.maxAttempts ≤ w.1.attempts := fun hle => h.locked.mpr hle hunlocked
  have hlength : (guesses (labels ++ [label])).length ≤ (guesses labels).length + 1 := by
    rw [guesses_snoc, List.length_append]
    cases label <;> simp
  rw [h.counted] at hbelow
  rw [h'.counted] at hreached
  omega

/--
Where `attempt` is what the attempts without success do to a world, the law of the cool-off holds of all
sequences of them.
-/
structure Kept {W : Type} (policy : Policy) (attempt : W → Option Int → W → Prop) (state : W → State)
    (time : W → Int) (start : W) : Prop where
  counted : ∀ labels w, Sequence attempt start labels w → (state w).attempts = (guesses labels).length
  locked : ∀ labels w, Sequence attempt start labels w →
    ((state w).lockedUntil ≠ none ↔ policy.maxAttempts ≤ (state w).attempts)
  /-- There are `maxAttempts` guesses up to the first lock. -/
  firstLock : ∀ labels w label w', Sequence attempt start labels w → attempt w label w' →
    (state w).lockedUntil = none → (state w').lockedUntil ≠ none →
      ((guesses (labels ++ [label])).length : Int) = policy.maxAttempts
  /-- A guess after that locks again. -/
  relocks : ∀ labels w guess w', Sequence attempt start labels w → attempt w (some guess) w' →
    (state w).lockedUntil ≠ none →
      ∃ lockedUntil, (state w').lockedUntil = some lockedUntil ∧
        policy.store (guess + policy.lockMs) ≤ lockedUntil
  apart : ∀ labels w, Sequence attempt start labels w → Apart policy (guesses labels)
  /-- There is no guess while a lock is in force. -/
  lockedOut : ∀ labels w label w' lockedUntil, Sequence attempt start labels w → attempt w label w' →
    (state w).lockedUntil = some lockedUntil → time w' < lockedUntil → label = none
  refused : ∀ labels w w', Sequence attempt start labels w → attempt w none w' → state w' = state w

theorem Kept.of_attempts {W : Type} {policy : Policy} {attempt : W → Option Int → W → Prop}
    {state : W → State} {time : W → Int} {start : W} (hmax : 1 ≤ policy.maxAttempts)
    (hstart : state start = .initial)
    (hattempt : ∀ w label w', attempt w label w' →
      Attempt policy (state w, time w) label (state w', time w'))
    : Kept policy attempt state time start := by
  have hlaw : ∀ {labels w}, Sequence attempt start labels w →
      Law policy (guesses labels) (state w, time w) := by
    intro labels w hseq
    have hseq' := hseq.simulate (I := fun _ => True) (f := fun w => (state w, time w))
      (fun w label w' _ hstep => ⟨trivial, hattempt w label w' hstep⟩) trivial
    rw [hstart] at hseq'
    exact .sequence hmax hseq'.2
  constructor
  . exact fun labels w hseq => (hlaw hseq).counted
  . exact fun labels w hseq => (hlaw hseq).locked
  . exact fun labels w label w' hseq hstep => (hlaw hseq).first_lock (hattempt w label w' hstep)
  . intro labels w guess w' hseq hstep hlocked
    have hlaw' := hlaw (hseq.snoc hstep)
    have hbefore : policy.maxAttempts ≤ (state w).attempts := (hlaw hseq).locked.mp hlocked
    have hcount : (state w).attempts = (guesses labels).length := (hlaw hseq).counted
    have hcount' : (state w').attempts = (guesses (labels ++ [some guess])).length := hlaw'.counted
    rw [guesses_snoc, Option.toList_some, List.length_append, List.length_singleton] at hcount'
    have hreached : policy.maxAttempts ≤ (state w').attempts := by omega
    obtain ⟨lockedUntil, hlockedUntil⟩ := Option.ne_none_iff_exists'.mp (hlaw'.locked.mpr hreached)
    refine ⟨lockedUntil, hlockedUntil, hlaw'.until_ lockedUntil hlockedUntil guess ?_⟩
    rw [guesses_snoc, Option.toList_some]
    exact List.mem_append_right _ (List.mem_singleton_self _)
  . exact fun labels w hseq => (hlaw hseq).apart
  . exact fun labels w label w' lockedUntil _ hstep hlocked hforce =>
      (hattempt w label w' hstep).locked_out hlocked hforce
  . exact fun labels w w' _ hstep => (hattempt w none w' hstep).kept

end CoolOff
