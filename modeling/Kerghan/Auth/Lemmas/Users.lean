import Kerghan.Auth.Lemmas.Run

/-!
This module contains what a single step of a run can do to the users.
-/

namespace Kerghan

variable [Platform] {calls : List Call} {t : List AuthEntry} {x : AuthEntry}

theorem Step.only_read (hx : Step calls t x) {s : AuthStmt} {a : s.Answer}
    (hran : ⟨x.effect, x.resp⟩ = ran s a) (htable : s.table = .users) (hread : s.isRead = false)
    : OnlyRead [] (own x.call t) := by
  obtain ⟨call, hcall, hissues⟩ := hx.issues
  rw [show x.effect = _ from congrArg Sigma.fst hran] at hissues
  have hwrite := hissues.write hread
  simp only [htable] at hwrite
  exact hwrite.2

/--
What the step `x` can make of a user `u`.
-/
inductive UserChange (calls : List Call) (t : List AuthEntry) (x : AuthEntry) (u : User)
    : User → Prop where
  | keep : UserChange calls t x u u
  | save {call : Call} {dto : UserFieldChangesDto} {loaded : User} {passwordDigest : String}
    {affected : Nat} (hcall : calls[x.call]? = some call) (hedits : call.edits = some (u.id, dto))
    (hran : ⟨x.effect, x.resp⟩ = ran (saveUser (dto.applyTo passwordDigest loaded)) affected)
    (hfound : ran (findUserById u.id) (some loaded) ∈ own x.call t) (hid : loaded.id = u.id)
    (hkept : truthy dto.newPassword = none → passwordDigest = loaded.passwordDigest)
    (hhashed : ∀ newPassword, truthy dto.newPassword = some newPassword →
      ∃ salt, ⟨.genSalt, salt⟩ ∈ own x.call t ∧
        passwordDigest = Platform.bcryptHash salt newPassword)
    : UserChange calls t x u (dto.applyTo passwordDigest loaded)
  | setPassword {dto : ResetPasswordDto} {tokenRow : PasswordResetToken} {salt : String}
    {affected : Nat} (hcall : calls[x.call]? = some (.resetPassword dto))
    (hran : ⟨x.effect, x.resp⟩ =
      ran (setPassword tokenRow.userId (Platform.bcryptHash salt dto.password)) affected)
    (hready : ResetReady dto tokenRow salt (own x.call t)) (hid : tokenRow.userId = u.id)
    : UserChange calls t x u { u with passwordDigest := Platform.bcryptHash salt dto.password }
  | approve {affected : Nat} (hcall : calls[x.call]? = some (.approveUser u.id))
    (hran : ⟨x.effect, x.resp⟩ = ran (approvePending u.id) affected) (hstatus : u.status = .pending)
    : UserChange calls t x u { u with status := .approved }
  | deny {callerId affected : Nat} (hcall : calls[x.call]? = some (.denyUser u.id callerId))
    (hran : ⟨x.effect, x.resp⟩ = ran (setDenied u.id) affected)
    : UserChange calls t x u { u with status := .denied }

/--
The step `x` has registered the user `u`.
-/
inductive UserCreated (calls : List Call) (x : AuthEntry) (u : User) : Prop where
  | register {dto : RegisterDto} {passwordDigest : String} {status : UserStatus}
    (hcall : calls[x.call]? = some (.register dto))
    (hran : ⟨x.effect, x.resp⟩ =
      ran (insertUser dto.username dto.email passwordDigest false status) u)

theorem UserChange.id_eq {u u' : User} (h : UserChange calls t x u u') : u'.id = u.id := by
  cases h with
  | save hcall hedits hran hfound hid => exact hid
  | _ => rfl

theorem Step.users (hx : Step calls t x)
    : (∀ u' ∈ (x.after .users).rows,
        (∃ u ∈ (x.before .users).rows, UserChange calls t x u u') ∨ UserCreated calls x u')
        ∧
      (∀ u ∈ (x.before .users).rows, ∃ u' ∈ (x.after .users).rows, UserChange calls t x u u') := by
  -- all updates are alike: they only differ in how they change a row
  have hupdate : ∀ {p : User → Bool} {f : Date → User → User} {e : DbEnv} {n : Nat},
      (Stmt.update .users p f : AuthStmt).exec e x.before = (.ok n, x.after) →
      (∀ now u, p u = true → UserChange calls t x u (f now u)) →
      (∀ u' ∈ (x.after .users).rows,
        (∃ u ∈ (x.before .users).rows, UserChange calls t x u u') ∨ UserCreated calls x u')
        ∧
      (∀ u ∈ (x.before .users).rows, ∃ u' ∈ (x.after .users).rows, UserChange calls t x u u') := by
    intro p f e n hexec hchange
    obtain ⟨horigin, hfuture⟩ := Stmt.rows_update (fun _ => .keep) hchange hexec
    exact ⟨fun u' hu' => Or.inl (horigin u' hu'), hfuture⟩
  rcases hx.table_cases .users with hsame | hwritten
  . rw [hsame]
    exact ⟨fun u hu => Or.inl ⟨u, hu, .keep⟩, fun u hu => ⟨u, hu, .keep⟩⟩
  . obtain ⟨call, s, a, e, hcall, hran, hissues, hexec, htable, hread⟩ := hwritten
    have hwrite := hissues.write hread
    simp only [htable] at hwrite
    cases hwrite.1 with
    | insert hregister =>
      subst hregister
      obtain ⟨now, hrow, hrows, _⟩ := Stmt.exec_insert hexec
      rw [hrows]
      constructor
      . intro u' hu'
        rcases List.mem_append.mp hu' with hu | hu
        . exact Or.inl ⟨u', hu, .keep⟩
        . rw [List.mem_singleton] at hu
          subst hu
          exact Or.inr (.register hcall hran)
      . exact fun u hu => ⟨u, List.mem_append_left _ hu, .keep⟩
    | save hedits hfound hid hkept hhashed =>
      rename_i userId dto user passwordDigest
      refine hupdate hexec fun now u hp => ?_
      have huser : u.id = user.id := beq_iff_eq.mp hp
      rw [← hid, ← huser] at hedits hfound
      exact .save hcall hedits hran hfound huser.symm hkept hhashed
    | setPassword hreset hready =>
      subst hreset
      refine hupdate hexec fun now u hp => ?_
      exact .setPassword hcall hran hready (beq_iff_eq.mp hp).symm
    | approve happrove =>
      subst happrove
      refine hupdate hexec fun now u hp => ?_
      simp only [Bool.and_eq_true, beq_iff_eq] at hp
      rw [← hp.1] at hcall hran
      exact .approve hcall hran hp.2
    | deny hdeny =>
      subst hdeny
      refine hupdate hexec fun now u hp => ?_
      rw [beq_iff_eq] at hp
      rw [← hp] at hcall hran
      exact .deny hcall hran

def UsersSeen (db : AuthDb) (t : List AuthEntry) : Prop :=
  ∀ i (u : User), Found (own i t) .users u → ∃ u' ∈ (db .users).rows, u'.id = u.id

theorem UsersSeen.step (hx : Step calls t x) (hseen : UsersSeen x.before t)
    : UsersSeen x.after (x :: t) := by
  intro i u ⟨p, rank, hmem⟩
  have hbefore : ∃ u' ∈ (x.before .users).rows, u'.id = u.id := by
    rcases mem_own_cons.mp hmem with ⟨_, hfind⟩ | hold
    . exact ⟨u, (hx.found_mem hfind).1, rfl⟩
    . exact hseen i u ⟨p, rank, hold⟩
  obtain ⟨u1, hu1, hid⟩ := hbefore
  obtain ⟨u2, hu2, hchange⟩ := hx.users.2 u1 hu1
  exact ⟨u2, hu2, hchange.id_eq.trans hid⟩

theorem UsersSeen.nil {db : AuthDb} : UsersSeen db [] := by
  intro i u ⟨p, rank, hmem⟩
  simp at hmem

end Kerghan
