import Kerghan.Auth.DefaultUser.Spared
import Kerghan.Auth.DefaultUser.Sync
import Kerghan.Auth.Sample

/-!
This module contains the proof that the default user is managed by the configuration only: once boot
sync has recorded it, no run of calls changes its row or its password reset tokens.
-/

namespace Kerghan

open DefaultUserService

section Managed

variable [Platform] {cfg : AuthConfig}

/--
`x` is a step that some call may take after the trace `t` without touching the default user.
-/
abbrev SparingStep (cfg : AuthConfig) (t : List AuthEntry) (x : AuthEntry) : Prop :=
  Config.Performs AuthEffect.exec (fun _ => Spares cfg) t x

/--
The row of the default user and its password reset tokens are as they were in `start`. What has been
read of a password reset token still tells its user.
-/
structure Untouched (start : AuthDb) (user : User) (db : AuthDb) (t : List AuthEntry) : Prop where
  row : user ∈ (db .users).rows
  resets : ∀ r : PasswordResetToken, r.userId = user.id →
    (r ∈ (db .passwordResetTokens).rows ↔ r ∈ (start .passwordResetTokens).rows)
  found : ∀ i (tokenRow : PasswordResetToken), Found (own i t) .passwordResetTokens tokenRow →
    tokenRow.id < (db .passwordResetTokens).nextId ∧
      ∀ r ∈ (db .passwordResetTokens).rows, r.id = tokenRow.id → r.userId = tokenRow.userId

theorem Untouched.nil {db : AuthDb} {user : User} (huser : user ∈ (db .users).rows)
    : Untouched db user db [] where
  row := huser
  resets _ _ := Iff.rfl
  found i tokenRow hfound := by
    obtain ⟨p, rank, hmem⟩ := hfound
    simp at hmem

section Step

omit [Platform] in
theorem writes_db {s : AuthStmt} (hread : s.isRead = false) : (AuthEffect.db s).writes = true :=
  congrArg not hread

variable {start : AuthDb} {user : User} {t : List AuthEntry} {x : AuthEntry}

theorem SparingStep.table_cases (hx : SparingStep cfg t x) (table : AuthTable)
    : x.after table = x.before table ∨
      ∃ (s : AuthStmt) (a : s.Answer) (e : DbEnv),
        Spares cfg (own x.call t) (.db s)
          ∧
        s.exec e x.before = (.ok a, x.after)
          ∧
        s.table = table
          ∧
        s.isRead = false := by
  have hexecuted : x.Executed AuthEffect.exec := hx.answered
  rcases hexecuted.table_cases table with hsame | ⟨s, a, e, hran, hexec, htable, hread⟩
  . exact Or.inl hsame
  . have hspares := hx.allowed
    rw [show x.effect = .db s from congrArg Sigma.fst hran] at hspares
    exact Or.inr ⟨s, a, e, hspares, hexec, htable, hread⟩

theorem SparingStep.row (hx : SparingStep cfg t x) (hdefault : isDefaultUser cfg user.id = true)
    (happroved : user.status = .approved) (huser : user ∈ (x.before .users).rows)
    : user ∈ (x.after .users).rows := by
  rcases SparingStep.table_cases hx .users with hsame | ⟨s, a, e, hspares, hexec, htable, hread⟩
  . rwa [hsame]
  . cases hspares with
    | free hs => exact absurd ((writes_db hread).symm.trans hs).symm Bool.false_ne_true
    | elsewhere htable' hother => exact absurd (htable'.symm.trans htable) hother.1
    | register =>
      obtain ⟨now, _, hrows, _⟩ := Stmt.exec_insert hexec
      rw [hrows]
      exact List.mem_append_left _ huser
    | approve =>
      obtain ⟨now, hrows⟩ := Stmt.mem_rows_update hexec
      exact (hrows _).mpr ⟨user, huser, if_neg (by simp [happroved])⟩
    | edit hother hcovers =>
      obtain ⟨now, hrows⟩ := Stmt.mem_rows_update hexec
      refine (hrows _).mpr ⟨user, huser, if_neg fun hp => ?_⟩
      rw [← hcovers user hp, hdefault] at hother
      exact absurd hother.symm Bool.false_ne_true
    | _ => simp at htable

theorem SparingStep.resets (hx : SparingStep cfg t x)
    (hdefault : isDefaultUser cfg user.id = true) (huntouched : Untouched start user x.before t)
    : (∀ r : PasswordResetToken, r.userId = user.id →
        (r ∈ (x.after .passwordResetTokens).rows ↔ r ∈ (x.before .passwordResetTokens).rows))
        ∧
      (∀ r ∈ (x.after .passwordResetTokens).rows,
        r.id = (x.before .passwordResetTokens).nextId ∨
          ∃ r' ∈ (x.before .passwordResetTokens).rows, r'.id = r.id ∧ r'.userId = r.userId) := by
  have hne : ∀ {userId : Nat}, isDefaultUser cfg userId = false → userId ≠ user.id := by
    rintro userId hother rfl
    rw [hdefault] at hother
    exact absurd hother.symm Bool.false_ne_true
  rcases SparingStep.table_cases hx .passwordResetTokens with hsame | ⟨s, a, e, hspares, hexec, htable, hread⟩
  . rw [hsame]
    exact ⟨fun _ _ => Iff.rfl, fun r hr => Or.inr ⟨r, hr, rfl, rfl⟩⟩
  -- every statement on the tokens is for another user, or for a token that was found and is not one of these
  . cases hspares with
    | free hs => exact absurd ((writes_db hread).symm.trans hs).symm Bool.false_ne_true
    | elsewhere htable' hother => exact absurd (htable'.symm.trans htable) hother.2
    | prune hother hcovers =>
      obtain ⟨hrows, _⟩ := Stmt.exec_delete hexec
      rw [hrows]
      simp only [List.mem_filter]
      constructor
      . intro r hr
        refine ⟨fun h => h.1, fun hmem => ⟨hmem, ?_⟩⟩
        rw [Bool.not_eq_true']
        refine Bool.eq_false_iff.mpr fun hp => ?_
        exact hne hother ((hcovers r hp).symm.trans hr)
      . exact fun r hr => Or.inr ⟨r, hr.1, rfl, rfl⟩
    | issue hother =>
      obtain ⟨now, hrow, hrows, _⟩ := Stmt.exec_insert hexec
      rw [hrows]
      simp only [List.mem_append, List.mem_singleton]
      constructor
      . intro r hr
        refine ⟨?_, Or.inl⟩
        rintro (hmem | rfl)
        . exact hmem
        . rw [hrow] at hr
          exact absurd hr (hne hother)
      . rintro r (hmem | rfl)
        . exact Or.inr ⟨r, hmem, rfl, rfl⟩
        . rw [hrow]
          exact Or.inl rfl
    | markUsed hother hfound =>
      rename_i tokenRow now
      obtain ⟨now, hrows⟩ := Stmt.mem_rows_update hexec
      have howner := (huntouched.found x.call tokenRow hfound).2
      constructor
      . intro r hr
        rw [hrows]
        constructor
        . rintro ⟨r', hmem, heq⟩
          split at heq
          . next hp =>
            rw [← heq] at hr
            exact absurd ((howner r' hmem (beq_iff_eq.mp hp)).symm.trans hr) (hne hother)
          . rwa [← heq]
        . intro hmem
          refine ⟨r, hmem, if_neg fun hp => ?_⟩
          exact hne hother ((howner r hmem (beq_iff_eq.mp hp)).symm.trans hr)
      . intro r hmem
        obtain ⟨r', hr', heq⟩ := (hrows r).mp hmem
        refine Or.inr ⟨r', hr', ?_⟩
        rw [← heq]
        split <;> exact ⟨rfl, rfl⟩
    | _ => simp at htable

theorem Untouched.step (hx : SparingStep cfg t x) (hdefault : isDefaultUser cfg user.id = true)
    (happroved : user.status = .approved) (huntouched : Untouched start user x.before t)
    : Untouched start user x.after (x :: t) := by
  have hexecuted : x.Executed AuthEffect.exec := hx.answered
  obtain ⟨hresets, horigin⟩ := SparingStep.resets hx hdefault huntouched
  have hnext := hexecuted.nextId_le .passwordResetTokens
  refine ⟨SparingStep.row hx hdefault happroved huntouched.row,
    fun r hr => (hresets r hr).trans (huntouched.resets r hr), ?_⟩
  intro i tokenRow ⟨p, rank, hmem⟩
  have hbefore : tokenRow.id < (x.before .passwordResetTokens).nextId ∧
      ∀ r ∈ (x.before .passwordResetTokens).rows, r.id = tokenRow.id → r.userId = tokenRow.userId := by
    rcases mem_own_cons.mp hmem with ⟨_, hfind⟩ | hold
    . have hrow := (hexecuted.found_mem hfind).1
      refine ⟨(x.before .passwordResetTokens).id_lt _ hrow, fun r hr hid => ?_⟩
      rw [Table.eq_of_id_eq hr hrow hid]
    . exact huntouched.found i tokenRow ⟨p, rank, hold⟩
  refine ⟨Nat.lt_of_lt_of_le hbefore.1 hnext, fun r hr hid => ?_⟩
  rcases horigin r hr with hnew | ⟨r', hr', hid', howner⟩
  . rw [hid] at hnew
    exact absurd hbefore.1 (Nat.not_lt.mpr (Nat.le_of_eq hnew.symm))
  . rw [← howner]
    exact hbefore.2 r' hr' (hid'.trans hid)

end Step

/--
Once boot sync has recorded the default user, no run changes its row, and no run stores, marks or
deletes a password reset token of it. This holds for every call, also for those that reset a password
with a token from before the feature was enabled.
-/
theorem default_user_untouched {start db : AuthDb} {id : Nat}
    (hboot : (onApplicationBootstrap cfg).Runs AuthEffect.exec start (.ok (some id)) db)
    (calls : List Call) (schedule : Schedule)
    : ∃ user ∈ (db .users).rows,
        user.id = id
          ∧
        user ∈ ((Auth.after { cfg with defaultUserId := some id } db calls schedule).world .users).rows
          ∧
        ∀ r : PasswordResetToken, r.userId = id →
          (r ∈ ((Auth.after { cfg with defaultUserId := some id } db calls schedule).world
              .passwordResetTokens).rows ↔
            r ∈ (db .passwordResetTokens).rows) := by
  obtain ⟨henabled, user, huser, rfl, happroved⟩ := runs_onApplicationBootstrap hboot
  have hdefault : isDefaultUser { cfg with defaultUserId := some user.id } user.id = true := by
    unfold isDefaultUser
    rw [show DefaultUserConfig.isEnabled { cfg with defaultUserId := some user.id } = true from henabled]
    simp
  have hmeets : (Auth.start { cfg with defaultUserId := some user.id } db calls).Meets Answers
      (fun _ => Spares { cfg with defaultUserId := some user.id }) (fun _ _ _ => True) := by
    intro i
    refine (start_meets_of Call.prog_spares db calls i).imp fun _ _ hspares => ?_
    obtain ⟨_, _, hspares⟩ := hspares
    exact hspares
  have huntouched := Config.run_induction (A := fun _ => True) (I := Untouched db user)
    (fun _ _ _ => trivial) (fun _ _ _ hx => Untouched.step hx hdefault happroved) answers_exec hmeets
    (Untouched.nil huser) schedule trivial
  exact ⟨user, huser, rfl, huntouched.row, huntouched.resets⟩

end Managed

section Runs

attribute [local instance] Sample.platform

def managedConfig : AuthConfig :=
  { Sample.config with
    get := fun name => if name = "KERGHAN_DEFAULT_USER_ENABLED" then some "true" else some "root" }

/--
A boot on an empty database creates the default user, whom an administrator then tries to deny.
-/
theorem default_user_untouched_on_deny
    : ∃ db : AuthDb, ∃ user ∈ (db .users).rows,
        user.id = 0
          ∧
        user ∈ ((Auth.after { managedConfig with defaultUserId := some 0 } db [.denyUser 0 1]
          (Sample.schedule [0, 0, 0])).world .users).rows := by
  have hboot : ∃ db, (onApplicationBootstrap managedConfig).Runs AuthEffect.exec
      (fun _ => Table.empty : AuthDb) (.ok (some 0)) db :=
    ⟨_, .step (Sample.env 0) (.step (Sample.env 1) (.step (Sample.env 2) (.step (Sample.env 3)
      (.pure _ _))))⟩
  obtain ⟨db, hboot⟩ := hboot
  obtain ⟨user, huser, hid, hkept, _⟩ :=
    default_user_untouched hboot [.denyUser 0 1] (Sample.schedule [0, 0, 0])
  exact ⟨db, user, huser, hid, hkept⟩

end Runs

end Kerghan
