import Kerghan.Auth.Impl.DefaultUser

/-!
This module contains what the boot synchronization of the default user leaves behind.
-/

namespace Kerghan

variable [Platform] {cfg : AuthConfig} {db db' : AuthDb}

theorem Api.runs_query {s : AuthStmt} {a : s.Answer}
    (hruns : (Api.query s).Runs AuthEffect.exec db (.ok a) db')
    : ∃ e, s.exec e db = (.ok a, db') := by
  obtain ⟨e, hrest⟩ := Prog.runs_step.mp hruns
  have hexec : (AuthEffect.db s).exec e db = s.exec e.toDbEnv db := rfl
  cases hanswer : s.exec e.toDbEnv db with
  | mk answer after =>
    rw [hexec, hanswer] at hrest
    cases answer with
    | ok a' =>
      obtain ⟨hresult, rfl⟩ := Prog.runs_pure.mp hrest
      rw [Except.ok.injEq] at hresult
      subst hresult
      exact ⟨e.toDbEnv, hanswer⟩
    | error err =>
      obtain ⟨hresult, _⟩ := Prog.runs_throw.mp hrest
      simp at hresult

theorem Api.runs_find {table : AuthTable} {p : AuthRow table → Bool} {rank : AuthRow table → Int}
    {found : Option (AuthRow table)}
    (hruns : (Api.query (.find table p rank)).Runs AuthEffect.exec db (.ok found) db')
    : db' = db ∧ ∀ row, found = some row → row ∈ (db table).rows ∧ p row = true := by
  obtain ⟨e, hexec⟩ := Api.runs_query hruns
  have hsame := @Stmt.exec_read _ AuthRow _ _ e db _ (show (Stmt.find table p rank).isRead = true from rfl)
  rw [hexec] at hsame
  obtain ⟨choice, rfl⟩ := Stmt.exec_find hexec
  exact ⟨hsame, fun row hrow => Table.first_eq_some hrow⟩

theorem Api.runs_now {now : Date} (hruns : Api.now.Runs AuthEffect.exec db (.ok now) db')
    : db' = db := by
  obtain ⟨e, hrest⟩ := Prog.runs_step.mp hruns
  exact (Prog.runs_pure.mp hrest).2

theorem Api.runs_bcryptHash {password digest : String}
    (hruns : (Api.bcryptHash password).Runs AuthEffect.exec db (.ok digest) db')
    : db' = db := by
  obtain ⟨e, hrest⟩ := Prog.runs_step.mp hruns
  exact (Prog.runs_pure.mp hrest).2

namespace DefaultUserService

def Recorded (db : AuthDb) (id : Nat) : Prop :=
  ∃ user ∈ (db .users).rows, user.id = id ∧ user.status = .approved

theorem runs_assertEmailAvailable {matched : Option User}
    (hruns : (assertEmailAvailable cfg matched).Runs AuthEffect.exec db (.ok ()) db')
    : db' = db := by
  unfold assertEmailAvailable at hruns
  obtain ⟨owner, db₁, howner, hrest⟩ := hruns.of_bind
  obtain ⟨rfl, _⟩ := Api.runs_find howner.of_mapError
  cases owner with
  | none => exact (Prog.runs_pure.mp hrest).2
  | some owner =>
    dsimp only at hrest
    split at hrest
    . exact (Prog.runs_throw.mp hrest).2
    . exact (Prog.runs_pure.mp hrest).2

theorem runs_syncedDigest {user : User} {passwordChanged : Bool} {digest : String}
    (hruns : (syncedDigest cfg user passwordChanged).Runs AuthEffect.exec db (.ok digest) db')
    : db' = db := by
  unfold syncedDigest at hruns
  split at hruns
  . exact Api.runs_bcryptHash hruns
  . exact (Prog.runs_pure.mp hruns).2

theorem runs_revokeIfChanged {userId : Nat} {passwordChanged : Bool}
    (hruns : (revokeIfChanged userId passwordChanged).Runs AuthEffect.exec db (.ok ()) db')
    : db' .users = db .users := by
  unfold revokeIfChanged TokenService.revokeUserTokens at hruns
  split at hruns
  . obtain ⟨now, db₁, hnow, hrest⟩ := hruns.of_bind
    obtain rfl := Api.runs_now hnow
    obtain ⟨affected, db₂, hrevoke, hend⟩ := hrest.of_bind
    obtain ⟨e, hexec⟩ := Api.runs_query hrevoke
    obtain ⟨_, rfl⟩ := Prog.runs_pure.mp hend
    rw [show db' = ((revokeTokens _ _ _).exec e db₁).2 by rw [hexec]]
    exact Stmt.exec_frame (by simp)
  . rw [(Prog.runs_pure.mp hruns).2]

theorem runs_update {user synced : User} (huser : user ∈ (db .users).rows)
    (hruns : (update cfg user).Runs AuthEffect.exec db (.ok synced) db')
    : Recorded db' synced.id := by
  unfold update at hruns
  obtain ⟨digest, db₁, hdigest, hrest⟩ := hruns.of_bind
  obtain rfl := runs_syncedDigest hdigest
  obtain ⟨affected, db₂, hsave, hrest⟩ := hrest.of_bind
  obtain ⟨_, db₃, hrevoke, hend⟩ := hrest.of_bind
  obtain ⟨hresult, rfl⟩ := Prog.runs_pure.mp hend
  rw [Except.ok.injEq] at hresult
  subst hresult
  obtain ⟨e, hexec⟩ := Api.runs_query hsave
  obtain ⟨now, hrows⟩ := Stmt.mem_rows_update hexec
  rw [Recorded, runs_revokeIfChanged hrevoke]
  exact ⟨_, (hrows _).mpr ⟨user, huser, if_pos (by simp)⟩, rfl, rfl⟩

theorem runs_recoverFromInsertRace {error : BootError} {user : User}
    (hruns : (recoverFromInsertRace cfg error).Runs AuthEffect.exec db (.ok user) db')
    : Recorded db' user.id := by
  unfold recoverFromInsertRace at hruns
  split at hruns
  . simp at hruns
  . obtain ⟨existing, db₁, hfind, hrest⟩ := hruns.of_bind
    obtain ⟨rfl, hfound⟩ := Api.runs_find hfind.of_mapError
    cases existing with
    | none => simp at hrest
    | some existing =>
      obtain ⟨_, db₂, hemail, hupdate⟩ := hrest.of_bind
      obtain rfl := runs_assertEmailAvailable hemail
      exact runs_update (hfound existing rfl).1 hupdate.of_mapError

theorem runs_createOrUpdate {user : User}
    (hruns : (createOrUpdate cfg).Runs AuthEffect.exec db (.ok user) db')
    : Recorded db' user.id := by
  rcases hruns.of_tryCatch with hcreate | ⟨error, db₁, hrecover⟩
  . obtain ⟨digest, db₁, hdigest, hinsert⟩ := hcreate.of_mapError.of_bind
    obtain ⟨e, hexec⟩ := Api.runs_query hinsert
    obtain ⟨now, hrow, hrows, _⟩ := Stmt.exec_insert hexec
    refine ⟨user, ?_, rfl, ?_⟩
    . rw [hrows]
      simp
    . rw [hrow]
  . exact runs_recoverFromInsertRace hrecover

theorem runs_sync {user : User} (hruns : (sync cfg).Runs AuthEffect.exec db (.ok user) db')
    : Recorded db' user.id := by
  unfold sync at hruns
  obtain ⟨existing, db₁, hfind, hrest⟩ := hruns.of_bind
  obtain ⟨rfl, hfound⟩ := Api.runs_find hfind.of_mapError
  obtain ⟨_, db₂, hemail, hstore⟩ := hrest.of_bind
  obtain rfl := runs_assertEmailAvailable hemail
  cases existing with
  | none => exact runs_createOrUpdate hstore
  | some existing => exact runs_update (hfound existing rfl).1 hstore.of_mapError

theorem runs_onApplicationBootstrap {id : Nat}
    (hruns : (onApplicationBootstrap cfg).Runs AuthEffect.exec db (.ok (some id)) db')
    : DefaultUserConfig.isEnabled cfg = true ∧ Recorded db' id := by
  unfold onApplicationBootstrap at hruns
  split at hruns
  . next henabled =>
    obtain ⟨user, db₁, hsync, hend⟩ := hruns.of_bind
    obtain ⟨hresult, rfl⟩ := Prog.runs_pure.mp hend
    simp only [Except.ok.injEq, Option.some.injEq] at hresult
    rw [hresult]
    exact ⟨henabled, runs_sync hsync⟩
  . simp at hruns

end DefaultUserService

end Kerghan
