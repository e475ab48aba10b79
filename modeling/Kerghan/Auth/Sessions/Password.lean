import Kerghan.Auth.Lemmas.Resets
import Kerghan.Auth.Lemmas.Users
import Kerghan.Auth.Sessions.Revocation

/-!
This module contains the proof that no session outlives the password it was obtained with, as long as
no login that has compared an old password stores its refresh token after the sessions have been
revoked, and a run in which one does.
-/

namespace Kerghan

section

variable [Platform] {cfg : AuthConfig} {calls : List Call} {t : List AuthEntry} {x : AuthEntry}

def Call.endsSessions : Call → Bool
  | .updateAccount .. => false
  | .editUser _ dto => (truthy dto.newPassword).isSome
  | _ => true

def MintedByLogin (calls : List Call) (t : List AuthEntry) (password : String) (r : RefreshToken)
    : Prop :=
  ∃ y ∈ t, ∃ dto : LoginDto,
    calls[y.call]? = some (.login dto) ∧ dto.password = password ∧ StoresToken y r.identity

/--
The `j`-th call has stored a new password of the user.
-/
inductive StoredPassword (calls : List Call) (t : List AuthEntry) (j userId : Nat) : Prop where
  | reset {dto : ResetPasswordDto} {tokenRow : PasswordResetToken} {h : AuthHistory}
    (hcall : calls[j]? = some (.resetPassword dto)) (hset : PasswordSet dto tokenRow h)
    (hsuffix : h <:+ own j t) (huser : tokenRow.userId = userId)
  | edit {dto : UserFieldChangesDto} {user : User} {affected : Nat}
    (hcall : calls[j]? = some (.editUser userId dto)) (hid : user.id = userId)
    (hsaved : ran (saveUser user) affected ∈ own j t)

/--
The `j`-th call has stored a new password of the user, and is yet to revoke the user's sessions.
-/
def PendingRevocation (calls : List Call) (t : List AuthEntry) (j userId : Nat) : Prop :=
  StoredPassword calls t j userId ∧ ¬HasRevoked (own j t)

theorem StoredPassword.cons {j userId : Nat} (h : StoredPassword calls t j userId)
    : StoredPassword calls (x :: t) j userId := by
  cases h with
  | reset hcall hset hsuffix huser =>
    exact .reset hcall hset (hsuffix.trans (own_suffix (List.suffix_cons x t))) huser
  | edit hcall hid hsaved =>
    exact .edit hcall hid (mem_own_of_suffix (List.suffix_cons x t) hsaved)

theorem PendingRevocation.step {j userId : Nat} (hx : Step calls t x)
    (h : PendingRevocation calls t j userId)
    : PendingRevocation calls (x :: t) j userId ∨
        ∃ now reason, ∃ (affected : Nat),
          ⟨x.effect, x.resp⟩ = ran (revokeTokens { userId := some userId } now reason) affected := by
  obtain ⟨hstored, hpending⟩ := h
  by_cases hrevoked : HasRevoked (own j (x :: t))
  . right
    obtain ⟨criteria, now, reason, affected, hmem⟩ := hrevoked
    rcases mem_own_cons.mp hmem with ⟨rfl, hran⟩ | hold
    . cases hstored with
      | reset hcall hset hsuffix huser =>
        obtain ⟨_, call, now, reason, affected, hcall', hran, hrevokes⟩ :=
          hx.revocation hran (by simp [hcall])
        rw [hcall, Option.some.injEq] at hcall'
        subst hcall'
        cases hrevokes with
        | passwordReset _ hmarked hsuffix' =>
          obtain ⟨_, hset', hsuffix''⟩ := hmarked.passwordSet
          have htoken := hset.unique hset' hsuffix (hsuffix''.trans hsuffix')
          rw [← htoken, huser] at hran
          exact ⟨now, _, affected, hran⟩
        | _ => contradiction
      | edit hcall hid hsaved =>
        obtain ⟨_, call, now, reason, affected, hcall', hran, hrevokes⟩ :=
          hx.revocation hran (by simp [hcall])
        rw [hcall, Option.some.injEq] at hcall'
        subst hcall'
        cases hrevokes with
        | adminPasswordChange hedit =>
          cases hedit
          exact ⟨now, _, affected, hran⟩
        | _ => contradiction
    . exact absurd ⟨criteria, now, reason, affected, hold⟩ hpending
  . exact Or.inl ⟨hstored.cons, hrevoked⟩

theorem UserChange.passwordDigest {u u' : User} (h : UserChange calls t x u u')
    (hscope : ∀ call ∈ calls, call.endsSessions = true) (hx : Step calls t x)
    : u'.passwordDigest = u.passwordDigest ∨ PendingRevocation calls (x :: t) x.call u.id := by
  have hunrevoked : ∀ {s : AuthStmt} {a : s.Answer}, ⟨x.effect, x.resp⟩ = ran s a →
      s.table = .users → s.isRead = false → ¬HasRevoked (own x.call (x :: t)) := by
    intro s a hran htable hread ⟨criteria, now, reason, affected, hmem⟩
    rcases mem_own_cons.mp hmem with ⟨_, hrevoke⟩ | hold
    . have hsame := AuthEffect.db.inj (congrArg Sigma.fst (hran.symm.trans hrevoke))
      simp [hsame] at htable
    . have := (hx.only_read hran htable hread).not_writes hold
      simp at this
  cases h with
  | keep => exact Or.inl rfl
  | approve => exact Or.inl rfl
  | deny => exact Or.inl rfl
  | save hcall hedits hran hfound hid hkept hhashed =>
    rename_i call dto loaded passwordDigest affected
    right
    have hends := hscope call (List.mem_of_getElem? hcall)
    cases call with
    | editUser userId dto' =>
      simp only [Call.edits, Option.some.injEq, Prod.mk.injEq] at hedits
      obtain ⟨rfl, rfl⟩ := hedits
      have hsaved : ran (saveUser (dto'.applyTo passwordDigest loaded)) affected ∈ own x.call (x :: t) :=
        mem_own_cons.mpr (Or.inl ⟨rfl, hran⟩)
      have hsavedId : (dto'.applyTo passwordDigest loaded).id = u.id := hid
      exact ⟨.edit hcall hsavedId hsaved, hunrevoked hran rfl rfl⟩
    | updateAccount => simp [Call.endsSessions] at hends
    | _ => simp [Call.edits] at hedits
  | setPassword hcall hran hready hid =>
    rename_i dto tokenRow salt affected
    right
    have hset : PasswordSet dto tokenRow (ran (Kerghan.setPassword tokenRow.userId
        (Platform.bcryptHash salt dto.password)) affected :: own x.call t) := .set hready
    exact ⟨.reset hcall hset (cons_own_suffix hran) hid, hunrevoked hran rfl rfl⟩

/--
Every active session of a login has been obtained with the current password, or is about to be
revoked.
-/
structure LoginInv (calls : List Call) (db : AuthDb) (t : List AuthEntry) : Prop where
  tokens : TokensSeen db t
  users : UsersSeen db t
  owner : ∀ password r, MintedByLogin calls t password r → ∃ u ∈ (db .users).rows, u.id = r.userId
  current : ∀ r ∈ (db .refreshTokens).rows, r.revokedAt = none →
    ∀ password, MintedByLogin calls t password r → ∀ u ∈ (db .users).rows, u.id = r.userId →
      Platform.bcryptCompare password u.passwordDigest = true ∨
        ∃ j, PendingRevocation calls t j r.userId

/--
Whenever a login stores its refresh token, its password is that of the user, or a call that has stored
another one is yet to revoke the user's sessions.
-/
def LoginsCurrent (calls : List Call) (t : List AuthEntry) : Prop :=
  ∀ later x earlier, t = later ++ x :: earlier →
    ∀ dto r, calls[x.call]? = some (.login dto) → StoresToken x r →
      ∀ u ∈ (x.before .users).rows, u.id = r.userId →
        Platform.bcryptCompare dto.password u.passwordDigest = true ∨
          ∃ j, PendingRevocation calls earlier j r.userId

theorem LoginsCurrent.tail (h : LoginsCurrent calls (x :: t)) : LoginsCurrent calls t := by
  intro later y earlier hsplit
  refine h (x :: later) y earlier ?_
  rw [hsplit, List.cons_append]

theorem LoginInv.init {db : AuthDb} (hempty : (db .refreshTokens).rows = [])
    : LoginInv calls db [] where
  tokens := .init hempty
  users := .nil
  owner := by
    intro password r ⟨y, hy, _⟩
    simp at hy
  current := by simp [hempty]

theorem MintedByLogin.cons {password : String} {r : RefreshToken}
    (h : MintedByLogin calls (x :: t) password r)
    : MintedByLogin calls t password r ∨
        ∃ dto : LoginDto,
          calls[x.call]? = some (.login dto) ∧ dto.password = password ∧ StoresToken x r.identity := by
  obtain ⟨y, hy, dto, hcall, hpassword, hstores⟩ := h
  rcases List.mem_cons.mp hy with rfl | hold
  . exact Or.inr ⟨dto, hcall, hpassword, hstores⟩
  . exact Or.inl ⟨y, hold, dto, hcall, hpassword, hstores⟩

section Step

variable (hscope : ∀ call ∈ calls, call.endsSessions = true) (hx : Step calls t x)
variable (hinv : LoginInv calls x.before t)

include hx hinv

theorem LoginInv.owner_step {password : String} {r : RefreshToken}
    (hminted : MintedByLogin calls (x :: t) password r)
    : ∃ u ∈ (x.after .users).rows, u.id = r.userId := by
  have hbefore : ∃ u ∈ (x.before .users).rows, u.id = r.userId := by
    rcases hminted.cons with hold | ⟨dto, hcall, _, hstores⟩
    . exact hinv.owner password r hold
    . cases hstores.created hx with
      | mint hcall' hran hhistory hmints hunfinished hexpires hbytes hnew hcontinued hrow =>
        rename_i call user keepSignedIn session identity refreshToken expiresAt issuedAt newer older
        rw [hcall, Option.some.injEq] at hcall'
        subst hcall'
        have huser : r.userId = user.id := congrArg (fun r : RefreshToken => r.userId) hrow
        rw [huser]
        cases hmints with
        | login _ hfound =>
          rename_i dto' _ _
          have hread : ran (findUserByUsername dto'.username) (some user) ∈ own x.call t := by
            rw [hhistory]
            exact List.mem_append_right _ (List.mem_cons_of_mem _ hfound)
          exact hinv.users x.call user (found_of_ran hread)
        | _ => contradiction
  obtain ⟨u, hu, hid⟩ := hbefore
  obtain ⟨u', hu', hchange⟩ := hx.users.2 u hu
  exact ⟨u', hu', hchange.id_eq.trans hid⟩

include hscope in
theorem LoginInv.current_step {password : String} {r : RefreshToken}
    (hr : r ∈ (x.before .refreshTokens).rows) (hkept : r ∈ (x.after .refreshTokens).rows)
    (hactive : r.revokedAt = none) (hminted : MintedByLogin calls t password r) {u' : User}
    (hu' : u' ∈ (x.after .users).rows) (hid : u'.id = r.userId)
    : Platform.bcryptCompare password u'.passwordDigest = true ∨
        ∃ j, PendingRevocation calls (x :: t) j r.userId := by
  obtain ⟨u, hu, huser⟩ := hinv.owner password r hminted
  have hchange : UserChange calls t x u u' := by
    obtain ⟨u1, hu1, hchange⟩ := hx.users.2 u hu
    have heq : u1 = u' := Table.eq_of_id_eq hu1 hu' (hchange.id_eq.trans (huser.trans hid.symm))
    exact heq ▸ hchange
  rcases hchange.passwordDigest hscope hx with hsame | hpending
  . rcases hinv.current r hr hactive password hminted u hu huser with hmatch | ⟨j, hpending⟩
    . exact Or.inl (hsame ▸ hmatch)
    . rcases hpending.step hx with hstill | ⟨now, reason, affected, hran⟩
      . exact Or.inr ⟨j, hstill⟩
      . -- the revocation would have covered the session
        obtain ⟨_, _, hrows⟩ := hx.updated hran
        rw [hrows, List.mem_map] at hkept
        obtain ⟨r1, _, heq⟩ := hkept
        split at heq
        . rw [← heq] at hactive
          simp at hactive
        . next hunmatched =>
          subst heq
          simp [hactive, TokenCriteria.covers] at hunmatched
  . rw [huser] at hpending
    exact Or.inr ⟨x.call, hpending⟩

include hscope in
theorem LoginInv.step (hcurrent : LoginsCurrent calls (x :: t)) : LoginInv calls x.after (x :: t) where
  tokens := hinv.tokens.step hx
  users := hinv.users.step hx
  owner := fun _ _ => hinv.owner_step hx
  current := by
    intro r hr hactive password hminted u hu hid
    rcases hx.tokens.1 r hr with ⟨r1, hr1, hchange⟩ | hcreated
    . have heq := hchange.eq_of_active hactive
      subst heq
      rcases hminted.cons with hold | ⟨_, _, _, hstores⟩
      . exact hinv.current_step hscope hx hr1 hr hactive hold hu hid
      . have hlt : r.id < (x.before .refreshTokens).nextId := (x.before .refreshTokens).id_lt r hr1
        have hnext := hstores.id_eq hx
        exact absurd hnext (Nat.ne_of_lt hlt)
    . rcases hminted.cons with ⟨y, hy, _, _, _, hstores⟩ | ⟨dto, hcall, rfl, hstores⟩
      . have hlt := hinv.tokens.id_lt r ⟨y, hy, hstores⟩
        exact absurd hcreated.id_eq (Nat.ne_of_lt hlt)
      . obtain ⟨_, _, _, _, _, hran⟩ := hstores
        rw [hx.table_eq hran (by simp)] at hu
        rcases hcurrent [] x t rfl dto r.identity hcall ⟨_, _, _, _, _, hran⟩ u hu hid with
          hmatch | ⟨j, hpending⟩
        . exact Or.inl hmatch
        . rcases hpending.step hx with hstill | ⟨_, _, _, hrevoke⟩
          . exact Or.inr ⟨j, hstill⟩
          . have := AuthEffect.db.inj (congrArg Sigma.fst (hran.symm.trans hrevoke))
            simp at this

end Step

/--
Once all calls that have stored a password have returned, every active session of a login has been
obtained with the current password.
-/
def SessionsCurrent (calls : List Call) (c : Auth) : Prop :=
  (∀ j userId, StoredPassword calls c.trace j userId → ∃ reply, c.pool j = .pure reply) →
    ∀ r ∈ (c.world .refreshTokens).rows, r.revokedAt = none →
      ∀ password, MintedByLogin calls c.trace password r →
        ∀ u ∈ (c.world .users).rows, u.id = r.userId →
          Platform.bcryptCompare password u.passwordDigest = true

theorem StoredPassword.hasRevoked {db : AuthDb} {schedule : Schedule} {j userId : Nat} {reply : Reply}
    (h : StoredPassword calls (Auth.after cfg db calls schedule).trace j userId)
    (hscope : ∀ call ∈ calls, call.endsSessions = true)
    (hreturned : (Auth.after cfg db calls schedule).pool j = .pure reply)
    : HasRevoked (own j (Auth.after cfg db calls schedule).trace) := by
  cases h with
  | reset hcall hset hsuffix huser =>
    exact ended (.ok reply) (prog_meets cfg _) hcall hreturned reply rfl rfl
  | edit hcall hid hsaved =>
    have hends := hscope _ (List.mem_of_getElem? hcall)
    exact ended (.ok reply) (prog_meets cfg _) hcall hreturned reply rfl hends

theorem sessionsCurrent {db : AuthDb} {schedule : Schedule}
    (hempty : (db .refreshTokens).rows = []) (hscope : ∀ call ∈ calls, call.endsSessions = true)
    (hcurrent : LoginsCurrent calls (Auth.after cfg db calls schedule).trace)
    : SessionsCurrent calls (Auth.after cfg db calls schedule) := by
  have hinv := auth_induction (fun _ _ => LoginsCurrent.tail)
    (fun _ _ hcurrent hx hinv => hinv.step hscope hx hcurrent) (LoginInv.init hempty) schedule hcurrent
  intro hreturned r hr hactive password hminted u hu hid
  rcases hinv.current r hr hactive password hminted u hu hid with hmatch | ⟨j, hstored, hpending⟩
  . exact hmatch
  . obtain ⟨reply, hreply⟩ := hreturned j _ hstored
    exact absurd (hstored.hasRevoked hscope hreply) hpending

end

section Runs

open Sample

attribute [local instance] platform

def loginCalls : List Call := [
  .login { username := "ann", password := "secret" },
  .editUser 1 { newPassword := some "other" }
]

def loggedInBeforeEdit : Schedule :=
  schedule (List.replicate 10 0 ++ List.replicate 6 1)

/--
The login has compared the old password before it is changed, and stores its refresh token after the
sessions have been revoked.
-/
def loggedInAcrossEdit : Schedule :=
  schedule ([0] ++ List.replicate 6 1 ++ List.replicate 9 0)

theorem sessionsCurrent_loggedInBeforeEdit
    : SessionsCurrent loginCalls (Auth.after config (db ann) loginCalls loggedInBeforeEdit) := by
  refine sessionsCurrent rfl (by decide) ?_
  have hinserts : ∀ x ∈ (Auth.after config (db ann) loginCalls loggedInBeforeEdit).trace,
      x.effect.insertsInto .refreshTokens = true →
        x.call = 0 ∧ ∀ u ∈ (x.before .users).rows, u.passwordDigest = "secret" := by decide
  intro later x earlier hsplit dto r hcall hstores u hu hid
  have hx : x ∈ (Auth.after config (db ann) loginCalls loggedInBeforeEdit).trace := by
    rw [hsplit]
    simp
  obtain ⟨_, _, _, _, _, hran⟩ := hstores
  obtain ⟨hzero, hdigest⟩ :=
    hinserts x hx (by rw [show x.effect = _ from congrArg Sigma.fst hran]; rfl)
  rw [hzero] at hcall
  cases hcall
  left
  rw [hdigest u hu]
  rfl

theorem not_sessionsCurrent
    : ¬SessionsCurrent loginCalls (Auth.after config (db ann) loginCalls loggedInAcrossEdit) := by
  intro hcurrent
  have hstored : ∀ j userId, StoredPassword loginCalls
      (Auth.after config (db ann) loginCalls loggedInAcrossEdit).trace j userId → j = 1 := by
    intro j userId hstored
    cases hstored with
    | reset hcall =>
      have := List.mem_of_getElem? hcall
      simp [loginCalls] at this
    | edit hcall =>
      match j with
      | 0 => cases hcall
      | 1 => rfl
      | j + 2 => cases hcall
  refine absurd (hcurrent ?_ ⟨⟨0, "bbbbbbbbbb", 1, 604800011⟩, 15, none, none, false, "uuuuuuuu", 14⟩
    (List.mem_of_getElem? (i := 0) rfl) rfl "secret" ?_ { ann with passwordDigest := "other" }
    (List.mem_of_getElem? (i := 0) rfl) rfl) (by decide)
  . intro j userId h
    rw [hstored j userId h]
    exact ⟨_, rfl⟩
  . exact ⟨_, List.mem_of_getElem? (i := 0) rfl, _, rfl, rfl, "bbbbbbbbbb", 1, 604800011, false,
      ⟨"uuuuuuuu", 14⟩, rfl⟩

end Runs

end Kerghan
