import Kerghan.Integrations.Run
import Kerghan.Store.Lookup

/-!
This module contains the cool-off of a single user as a state of its own, and the proof that the statements
of `IntegrationCredentialAbuseGuardService` act on it atomically.
-/

namespace Kerghan.Integrations

/--
The cool-off of a user. A user without a row has no failed attempts.
-/
structure CoolOff where
  failedAttempts : Int
  lockedUntil : Option Date
  deriving DecidableEq, Repr

namespace CoolOff

def none : CoolOff :=
  ⟨0, .none⟩

/--
Whether an attempt may be reserved at `now`.
-/
def Open (c : CoolOff) (now : Date) : Prop :=
  ∀ lockedUntil, c.lockedUntil = some lockedUntil → lockedUntil ≤ now

def reserve (c : CoolOff) (maxAttempts : Int) (lockedUntil : Date) : CoolOff where
  failedAttempts := c.failedAttempts + 1
  lockedUntil := if c.failedAttempts + 1 ≥ maxAttempts then some lockedUntil else .none

def release (c : CoolOff) : CoolOff where
  failedAttempts := max (c.failedAttempts - 1) 0
  lockedUntil := .none

end CoolOff

def IntegrationCredentialLockout.coolOff (r : IntegrationCredentialLockout) : CoolOff :=
  ⟨r.failedAttempts, r.lockedUntil⟩

variable [Platform]

def World.coolOff (w : World) (userId : Nat) : CoolOff :=
  (((w.db .credentialLockouts).lookup IntegrationCredentialLockout.userId userId).map
    IntegrationCredentialLockout.coolOff).getD CoolOff.none

section Statements

variable {x : IntegrationsEntry} {userId : Nat}

omit [Platform] in
theorem clash_of_userId (a b : IntegrationCredentialLockout) (h : a.userId = b.userId)
    : Entity.clash a b = true :=
  beq_iff_eq.mpr h

theorem coolOff_update {p q : IntegrationCredentialLockout → Bool}
    {f : IntegrationCredentialLockout → IntegrationCredentialLockout} {affected : Nat}
    (hx : x.Executed Effect.exec) (hkey : ∀ r, (f r).userId = r.userId)
    (hran : ⟨x.effect, x.resp⟩ = ran (.update .credentialLockouts p fun _ => f) affected)
    (hp : p = fun r => r.userId == userId && q r)
    : x.after.coolOff = Function.update x.before.coolOff userId
        (((((x.before.db .credentialLockouts).lookup IntegrationCredentialLockout.userId userId).map
          fun r => if q r then f r else r).map IntegrationCredentialLockout.coolOff).getD CoolOff.none)
        ∧
      affected = if ((x.before.db .credentialLockouts).lookup IntegrationCredentialLockout.userId
        userId).any q then 1 else 0 := by
  subst hp
  obtain ⟨_, hcount, hrows⟩ := hx.updated hran
  constructor
  . funext u
    have hlookup : (x.after.db .credentialLockouts).lookup IntegrationCredentialLockout.userId u = _ :=
      Table.lookup_of_update hkey hrows
    unfold World.coolOff
    rw [hlookup]
    by_cases hu : u = userId
    . subst hu
      rw [Function.update_self]
      congr 2
      apply Option.map_congr
      intro r hr
      simp [(Table.mem_of_lookup hr).2]
    . rw [Function.update_of_ne hu]
      congr 1
      cases hr : (x.before.db .credentialLockouts).lookup IntegrationCredentialLockout.userId u with
      | none => rfl
      | some r => simp [(Table.mem_of_lookup hr).2, hu]
  . rw [hcount]
    exact Table.countP_key clash_of_userId q

theorem coolOff_ensure {row : IntegrationCredentialLockout} (hx : x.Executed Effect.exec)
    (hran : ⟨x.effect, x.resp⟩ = ran (insertLockoutRow userId) row)
    : x.after.coolOff = x.before.coolOff := by
  obtain ⟨_, hrow, hrows, _⟩ := hx.inserted hran
  funext u
  have hlookup : (x.after.db .credentialLockouts).lookup IntegrationCredentialLockout.userId u = _ :=
    Table.lookup_of_insert hrows
  unfold World.coolOff
  rw [hlookup]
  cases (x.before.db .credentialLockouts).lookup IntegrationCredentialLockout.userId u with
  | some r => rfl
  | none =>
    rw [Option.none_or]
    split
    . rw [hrow]
      rfl
    . rfl

/--
A reservation is granted if and only if it affects a row.
-/
theorem coolOff_reserve {maxAttempts : Int} {lockedUntil now : Date} {affected : Nat}
    (hx : x.Executed Effect.exec)
    (hran : ⟨x.effect, x.resp⟩ = ran (reserveAttemptSql maxAttempts lockedUntil userId now) affected)
    : (affected = 1
          ∧
        (x.before.coolOff userId).Open now
          ∧
        x.after.coolOff = Function.update x.before.coolOff userId
          ((x.before.coolOff userId).reserve maxAttempts lockedUntil))
        ∨
      (affected = 0 ∧ x.after.coolOff = x.before.coolOff) := by
  obtain ⟨hafter, haffected⟩ := coolOff_update hx (by intro r; rfl) hran rfl
  rw [hafter, haffected]
  unfold World.coolOff CoolOff.Open
  cases hlookup : (x.before.db .credentialLockouts).lookup IntegrationCredentialLockout.userId userId with
  | none =>
    refine Or.inr ⟨rfl, ?_⟩
    funext u
    by_cases hu : u = userId
    . subst hu
      rw [Function.update_self, hlookup]
      rfl
    . rw [Function.update_of_ne hu]
  | some r =>
    cases hopen : r.lockedUntil.all fun lockedUntil => decide (lockedUntil ≤ now) with
    | true =>
      refine Or.inl ⟨by simp [hopen], ?_, ?_⟩
      . intro lockedUntil hlocked
        have hlocked' : r.lockedUntil = some lockedUntil := hlocked
        rw [hlocked'] at hopen
        simpa using hopen
      . simp only [Option.map_some, hopen]
        rfl
    | false =>
      refine Or.inr ⟨by simp [hopen], ?_⟩
      funext u
      by_cases hu : u = userId
      . subst hu
        rw [Function.update_self, hlookup]
        simp [hopen]
      . rw [Function.update_of_ne hu]

theorem coolOff_release {affected : Nat} (hx : x.Executed Effect.exec)
    (hran : ⟨x.effect, x.resp⟩ = ran (releaseAttemptSql userId) affected)
    : x.after.coolOff = Function.update x.before.coolOff userId (x.before.coolOff userId).release := by
  obtain ⟨hafter, _⟩ := coolOff_update (q := fun _ => true) hx (by intro r; rfl) hran
    (funext fun r => (Bool.and_true _).symm)
  rw [hafter]
  unfold World.coolOff
  cases (x.before.db .credentialLockouts).lookup IntegrationCredentialLockout.userId userId with
  | none => rfl
  | some r => rfl

theorem coolOff_reset {affected : Nat} (hx : x.Executed Effect.exec)
    (hran : ⟨x.effect, x.resp⟩ = ran (resetLockout userId) affected)
    : x.after.coolOff = Function.update x.before.coolOff userId CoolOff.none := by
  obtain ⟨hafter, _⟩ := coolOff_update (q := fun _ => true) hx (by intro r; rfl) hran
    (funext fun r => (Bool.and_true _).symm)
  rw [hafter]
  cases (x.before.db .credentialLockouts).lookup IntegrationCredentialLockout.userId userId with
  | none => rfl
  | some r => rfl

theorem coolOff_cases (hx : x.Executed Effect.exec)
    : x.after.coolOff = x.before.coolOff ∨
      ∃ (s : Statement) (a : s.Answer),
        ⟨x.effect, x.resp⟩ = ran s a ∧ s.table = .credentialLockouts ∧ s.isRead = false := by
  rcases hx.table_cases .credentialLockouts with hsame | ⟨s, a, _, hran, _, htable, hread⟩
  . left
    have hsame' : x.after.db .credentialLockouts = x.before.db .credentialLockouts := hsame
    unfold World.coolOff
    rw [hsame']
  . exact Or.inr ⟨s, a, hran, htable, hread⟩

end Statements

end Kerghan.Integrations
