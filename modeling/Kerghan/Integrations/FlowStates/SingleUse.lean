import Kerghan.Integrations.FlowStates.Contract
import Kerghan.Integrations.Sample
import Kerghan.Store.Removal

/-!
This module contains the proof that a state is consumed at most once, by the user that it was issued to, and
that it yields what it was issued with.
-/

namespace Kerghan.Integrations

open OauthStateService GithubAppStateService

inductive StateCall where
  | issueOauth (userId : Nat) (target : StateTarget)
  | consumeOauth (userId : Nat) (state : String)
  | issueRedirect (userId : Nat) (target : StateTarget)
  | issueSelect (userId : Nat) (target : StateTarget) (candidates : List Int) (verifiedBy : String)
  | consumeGithubApp (userId : Nat) (state : String) (stage : GithubAppStateStage)
  deriving DecidableEq

inductive StateReply where
  | oauthIssued (issued : IssuedOauthState)
  | oauthConsumed (consumed : ConsumedOauthState)
  | githubAppIssued (state : String)
  | githubAppConsumed (consumed : ConsumedGithubAppState)
  deriving DecidableEq

section FlowStates

variable [Platform]

def StateCall.prog [Crypto] : StateCall → Api StateReply
  | .issueOauth userId target => .oauthIssued <$> OauthStateService.issue userId target
  | .consumeOauth userId state => .oauthConsumed <$> OauthStateService.consume userId state
  | .issueRedirect userId target => .githubAppIssued <$> GithubAppStateService.issueRedirect userId target
  | .issueSelect userId target candidates verifiedBy =>
    .githubAppIssued <$> GithubAppStateService.issueSelect userId target candidates verifiedBy
  | .consumeGithubApp userId state stage =>
    .githubAppConsumed <$> GithubAppStateService.consume userId state stage

def StateCall.Allowed (call : StateCall) (h : IntegrationsHistory) (s : Effect) : Prop :=
  match call with
  | .issueOauth userId target => IssuesOauth [] userId target h s
  | .consumeOauth .. => Consumes .oauthStates h s
  | .issueRedirect userId target => IssuesGithubApp [] userId .redirect target ⟨none, none⟩ h s
  | .issueSelect userId target candidates verifiedBy =>
    IssuesGithubApp [] userId .select target
      ⟨some (candidates.take GITHUB_APP_MAX_CANDIDATES), some verifiedBy⟩ h s
  | .consumeGithubApp .. => Consumes .githubAppStates h s

def PromisesGithubApp (userId : Nat) (stage : GithubAppStateStage) (target : StateTarget)
    (result : SelectResult) (h : IntegrationsHistory) (r : Except Thrown StateReply) : Prop :=
  ∀ reply, r = .ok reply → ∀ row : IntegrationGithubAppState, Stores .githubAppStates h row →
    ∃ secret now,
      ⟨.randomBytes, secret⟩ ∈ h
        ∧
      row = githubAppRow userId stage target result row.uuid secret now row.id
        ∧
      reply = .githubAppIssued (row.uuid ++ "." ++ secret)

def StateCall.Promises [Crypto] (call : StateCall) (h : IntegrationsHistory)
    (r : Except Thrown StateReply) : Prop :=
  match call with
  | .issueOauth userId target =>
    ∀ reply, r = .ok reply → ∀ row : IntegrationOauthState, Stores .oauthStates h row → ∃ secret now,
      ⟨.randomBytes, secret⟩ ∈ h
        ∧
      row = oauthRow userId target row.uuid secret row.codeVerifier now row.id
        ∧
      reply = .oauthIssued ⟨row.uuid ++ "." ++ secret, pkceChallenge row.codeVerifier⟩
  | .consumeOauth userId state =>
    ∀ reply, r = .ok reply → ∃ (row : IntegrationOauthState) (consumed : ConsumedOauthState),
      Taken .oauthStates userId state row h
        ∧
      OauthStateService.toConsumed row = some consumed
        ∧
      reply = .oauthConsumed consumed
  | .issueRedirect userId target => PromisesGithubApp userId .redirect target ⟨none, none⟩ h r
  | .issueSelect userId target candidates verifiedBy =>
    PromisesGithubApp userId .select target
      ⟨some (candidates.take GITHUB_APP_MAX_CANDIDATES), some verifiedBy⟩ h r
  | .consumeGithubApp userId state stage =>
    ∀ reply, r = .ok reply → ∃ (row : IntegrationGithubAppState) (consumed : ConsumedGithubAppState),
      Taken .githubAppStates userId state row h
        ∧
      row.stage = stage
        ∧
      GithubAppStateService.toConsumed row = some consumed
        ∧
      reply = .githubAppConsumed consumed

section Contract

omit [Platform] in
theorem not_stores_nil {t : IntegrationsTable} {row : Row t} : ¬Stores t [] row := by
  rintro ⟨mk, hmem⟩
  exact absurd hmem List.not_mem_nil

theorem issue_promises {userId : Nat} {stage : GithubAppStateStage} {target : StateTarget}
    {result : SelectResult}
    : (StateReply.githubAppIssued <$> GithubAppStateService.issue userId stage target result).Meets Answers
        (IssuesGithubApp [] userId stage target result) (PromisesGithubApp userId stage target result) [] := by
  refine GithubAppStateService.issue_issues.map ?_ ?_
  . intro h state hstate reply heq row hrow
    cases heq
    rcases hstate state rfl row hrow with hnone | ⟨secret, now, hdrawn, hrow, rfl⟩
    . exact absurd hnone not_stores_nil
    . exact ⟨secret, now, hdrawn, hrow, rfl⟩
  . intro _ _ _ _ heq
    simp at heq

theorem StateCall.prog_allowed [Crypto] (call : StateCall)
    : call.prog.Meets Answers call.Allowed call.Promises [] := by
  cases call with
  | issueOauth userId target =>
    refine OauthStateService.issue_issues.map ?_ ?_
    . intro h issued hissued reply heq row hrow
      cases heq
      rcases hissued issued rfl row hrow with hnone | ⟨secret, now, hdrawn, hrow, rfl⟩
      . exact absurd hnone not_stores_nil
      . exact ⟨secret, now, hdrawn, hrow, rfl⟩
    . intro _ _ _ _ heq
      simp at heq
  | consumeOauth userId state =>
    refine OauthStateService.consume_consumes.map ?_ ?_
    . intro h consumed hconsumed reply heq
      cases heq
      obtain ⟨row, htaken, hrow⟩ := hconsumed consumed rfl
      exact ⟨row, consumed, htaken, hrow, rfl⟩
    . intro _ _ _ _ heq
      simp at heq
  | issueRedirect userId target => exact issue_promises
  | issueSelect userId target candidates verifiedBy => exact issue_promises
  | consumeGithubApp userId state stage =>
    refine GithubAppStateService.consume_consumes.map ?_ ?_
    . intro h consumed hconsumed reply heq
      cases heq
      obtain ⟨row, htaken, hstage, hrow⟩ := hconsumed consumed rfl
      exact ⟨row, consumed, htaken, hstage, hrow, rfl⟩
    . intro _ _ _ _ heq
      simp at heq

theorem StateCall.Allowed.not_update {call : StateCall} {h : IntegrationsHistory} {t : IntegrationsTable}
    {p : Row t → Bool} {f : Int → Row t → Row t}
    : ¬call.Allowed h (.db (.update t p f)) := by
  intro hallowed
  cases call with
  | issueOauth | consumeOauth | issueRedirect | issueSelect | consumeGithubApp =>
    cases hallowed with
    | free hs => simp [Effect.writes] at hs

theorem StateCall.Allowed.id_eq {call : StateCall} {h : IntegrationsHistory} {t : IntegrationsTable}
    {mk : Nat → Int → Row t} (hallowed : call.Allowed h (.db (.insert t mk))) (id : Nat) (now : Int)
    : Entity.id (mk id now) = id := by
  cases call with
  | issueOauth | issueRedirect | issueSelect =>
    cases hallowed with
    | free hs => simp [Effect.writes] at hs
    | insert => rfl
  | consumeOauth | consumeGithubApp =>
    cases hallowed with
    | free hs => simp [Effect.writes] at hs

end Contract

section Run

variable [Crypto] {w : World} {calls : List StateCall} {schedule : Schedule} {x : IntegrationsEntry}
variable {trace : List IntegrationsEntry} {t : IntegrationsTable} {i j : Nat}

abbrev States.after (w : World) (calls : List StateCall) (schedule : Schedule) : Calls StateReply :=
  Calls.after w (calls.map StateCall.prog) schedule

abbrev StateStep (calls : List StateCall) (trace : List IntegrationsEntry) (x : IntegrationsEntry) : Prop :=
  Config.Performs Effect.exec (fun i h s => ∃ call, calls[i]? = some call ∧ call.Allowed h s) trace x

def drawnBytes (x : IntegrationsEntry) : Option String :=
  match (⟨x.effect, x.resp⟩ : (s : Effect) × Answer s) with
  | ⟨.randomBytes, bytes⟩ => some bytes
  | _ => none

omit [Crypto] in
theorem StateStep.not_update (hx : StateStep calls trace x) {p : Row t → Bool}
    {f : Int → Row t → Row t} {affected : Nat}
    : ⟨x.effect, x.resp⟩ ≠ ran (.update t p f) affected := by
  intro hran
  obtain ⟨call, _, hallowed⟩ := hx.allowed
  have heffect : x.effect = .db (.update t p f) := congrArg Sigma.fst hran
  rw [heffect] at hallowed
  exact hallowed.not_update

omit [Crypto] in
theorem StateStep.keepsIds (hx : StateStep calls trace x) : x.KeepsIds Effect.exec t where
  insert := by
    intro mk row hran
    obtain ⟨call, _, hallowed⟩ := hx.allowed
    have heffect : x.effect = .db (.insert t mk) := congrArg Sigma.fst hran
    rw [heffect] at hallowed
    exact hallowed.id_eq
  update := fun _ _ _ hran => absurd hran (StateStep.not_update hx)

structure Stored (t : IntegrationsTable) (w : World) (trace : List IntegrationsEntry) : Prop where
  origin : ∀ row ∈ (w.db t).rows, ∃ j, Stores t (own j trace) row
  removed : RemovedOnce Effect.exec t w trace

omit [Crypto] in
theorem Stored.step (hx : StateStep calls trace x) (hstored : Stored t x.before trace)
    : Stored t x.after (x :: trace) where
  origin := by
    intro row hrow
    have hexecuted : x.Executed Effect.exec := hx.answered
    rcases hexecuted.rows_cases (fun _ _ _ => StateStep.not_update hx) hrow with hold | ⟨mk, hran⟩
    . obtain ⟨j, mk, hmem⟩ := hstored.origin row hold
      exact ⟨j, mk, mem_own_cons.mpr (Or.inr hmem)⟩
    . exact ⟨x.call, mk, mem_own_cons.mpr (Or.inl ⟨rfl, hran⟩)⟩
  removed := hstored.removed.step hx.answered (StateStep.keepsIds hx)

theorem stored_run (hempty : (w.db t).rows = [])
    : Stored t (States.after w calls schedule).world (States.after w calls schedule).trace := by
  have hinit : Stored t w [] := ⟨by simp [hempty], .nil⟩
  exact Config.run_induction (A := fun _ => True) (fun _ _ _ => trivial)
    (fun _ _ _ hx => Stored.step hx) answers_exec (start_meets StateCall.prog_allowed w calls) hinit
    schedule trivial

theorem stored_of_found (hempty : (w.db t).rows = []) {p : Row t → Bool} {rank : Row t → Int} {row : Row t}
    (hfound : ran (.find t p rank) (some row) ∈ own i (States.after w calls schedule).trace)
    : ∃ j, Stores t (own j (States.after w calls schedule).trace) row := by
  obtain ⟨later, x, earlier, hsplit, _, hran⟩ := split_of_mem_own hfound
  have hmeets := start_meets StateCall.prog_allowed w calls
  have hinit : Stored t w [] := ⟨by simp [hempty], .nil⟩
  have hexecuted : x.Executed Effect.exec :=
    (Config.performs_of_split answers_exec hmeets rfl schedule hsplit).answered
  have hstored := (Config.run_induction_split (A := fun _ => True) (I := Stored t)
    (fun _ _ _ => trivial) (fun _ _ _ hx => Stored.step hx) answers_exec hmeets hinit rfl schedule
    trivial hsplit).1
  obtain ⟨j, mk, hmem⟩ := hstored.origin row (hexecuted.found_mem hran).1
  refine ⟨j, mk, mem_own_of_suffix ?_ hmem⟩
  rw [hsplit]
  exact (List.suffix_cons ..).trans (List.suffix_append ..)

theorem eq_of_removed (hempty : (w.db t).rows = []) {n : Nat}
    (hi : ran (.delete t fun r => Entity.id r == n) (1 : Nat) ∈
      own i (States.after w calls schedule).trace)
    (hj : ran (.delete t fun r => Entity.id r == n) (1 : Nat) ∈
      own j (States.after w calls schedule).trace)
    : i = j := by
  obtain ⟨x, hx, rfl, hxran⟩ := mem_own.mp hi
  obtain ⟨y, hy, rfl, hyran⟩ := mem_own.mp hj
  have hremoves : ∀ {z : IntegrationsEntry},
      ⟨z.effect, z.resp⟩ = ran (.delete t fun r => Entity.id r == n) (1 : Nat) →
      z.Removes Effect.exec t n := fun hran => ⟨_, fun r => beq_iff_eq, hran⟩
  by_cases heq : x = y
  . rw [heq]
  . have : Std.Symm fun (y x : IntegrationsEntry) =>
        ∀ n, y.Removes Effect.exec t n → ¬x.Removes Effect.exec t n :=
      ⟨fun _ _ h n hx hy => h n hy hx⟩
    have hstored : Stored t (States.after w calls schedule).world (States.after w calls schedule).trace :=
      stored_run hempty
    have honce := hstored.removed.once
    exact absurd (hremoves hyran) (honce.forall hx hy heq n (hremoves hxran))

theorem inserted_of_stores {row : Row t} (hstores : Stores t (own j (States.after w calls schedule).trace) row)
    : ∃ call mk h id now,
        calls[j]? = some call
          ∧
        call.Allowed h (.db (.insert t mk))
          ∧
        row = mk id now
          ∧
        h <:+ own j (States.after w calls schedule).trace := by
  obtain ⟨mk, hmem⟩ := hstores
  obtain ⟨later, x, earlier, hsplit, rfl, hran⟩ := split_of_mem_own hmem
  have hx := Config.performs_of_split answers_exec (start_meets StateCall.prog_allowed w calls) rfl
    schedule hsplit
  obtain ⟨call, hcall, hallowed⟩ := hx.allowed
  have heffect : x.effect = .db (.insert t mk) := congrArg Sigma.fst hran
  have hexecuted : x.Executed Effect.exec := hx.answered
  obtain ⟨now, hrow, _⟩ := hexecuted.inserted hran
  rw [heffect] at hallowed
  refine ⟨call, mk, _, _, now, hcall, hallowed, hrow, ?_⟩
  rw [hsplit]
  exact own_suffix ((List.suffix_cons ..).trans (List.suffix_append ..))

theorem eq_of_stores {row row' : Row t}
    (hrow : Stores t (own j (States.after w calls schedule).trace) row)
    (hrow' : Stores t (own j (States.after w calls schedule).trace) row')
    : row = row' := by
  have hstep : ∀ x trace, True → StateStep calls trace x →
      (∀ row row', Stores t (own j trace) row → Stores t (own j trace) row' → row = row') →
      ∀ row row', Stores t (own j (x :: trace)) row → Stores t (own j (x :: trace)) row' → row = row' := by
    intro x trace _ hx hone row row' ⟨mk, hmem⟩ ⟨mk', hmem'⟩
    -- an insert is the first one of its call
    have hfirst : ∀ {mk : Nat → Int → Row t} {row row' : Row t}, x.call = j →
        ⟨x.effect, x.resp⟩ = ran (.insert t mk) row → ¬Stores t (own j trace) row' := by
      intro mk row row' hcall hran hstores
      obtain ⟨call, _, hallowed⟩ := hx.allowed
      have heffect : x.effect = .db (.insert t mk) := congrArg Sigma.fst hran
      rw [heffect, hcall] at hallowed
      cases call with
      | issueOauth =>
        cases hallowed with
        | free hs => simp [Effect.writes] at hs
        | insert _ _ hfirst => exact not_stores_nil (hfirst _ hstores)
      | issueRedirect | issueSelect =>
        cases hallowed with
        | free hs => simp [Effect.writes] at hs
        | insert _ hfirst => exact not_stores_nil (hfirst _ hstores)
      | consumeOauth | consumeGithubApp =>
        cases hallowed with
        | free hs => simp [Effect.writes] at hs
    rcases mem_own_cons.mp hmem with ⟨hcall, hran⟩ | hold
    . rcases mem_own_cons.mp hmem' with ⟨_, hran'⟩ | hold'
      . have heq := hran.symm.trans hran'
        obtain ⟨heffect, hresp⟩ := Sigma.mk.inj heq
        cases heffect
        cases hresp
        rfl
      . exact absurd ⟨mk', hold'⟩ (hfirst hcall hran)
    . rcases mem_own_cons.mp hmem' with ⟨hcall, hran'⟩ | hold'
      . exact absurd ⟨mk, hold⟩ (hfirst hcall hran')
      . exact hone row row' ⟨mk, hold⟩ ⟨mk', hold'⟩
  exact Config.run_induction (A := fun _ => True)
    (I := fun _ trace => ∀ row row', Stores t (own j trace) row → Stores t (own j trace) row' → row = row')
    (fun _ _ _ => trivial) hstep answers_exec (start_meets StateCall.prog_allowed w calls)
    (fun _ _ h => absurd h not_stores_nil) schedule trivial row row' hrow hrow'

def StateCall.state? : StateCall → Option String
  | .consumeOauth _ state | .consumeGithubApp _ state _ => some state
  | _ => none

def InPlay (calls : List StateCall) (trace : List IntegrationsEntry) (secret : String) : Prop :=
  (∃ x ∈ trace, drawnBytes x = some secret) ∨
    ∃ (i : Nat) (call : StateCall) (state : String),
      calls[i]? = some call ∧ call.state? = some state ∧ (splitState state).2 = secret

def CollisionFree (calls : List StateCall) (trace : List IntegrationsEntry) : Prop :=
  ∀ a b, InPlay calls trace a → InPlay calls trace b →
    Platform.sha256Hex a = Platform.sha256Hex b → a = b

/--
The call `i` of the user has consumed the state that the call `j` has stored as `row`.
-/
structure Redeems (t : IntegrationsTable) [FlowState (Row t)] (run : Calls StateReply) (i j userId : Nat)
    (state : String) (row : Row t) : Prop where
  taken : Taken t userId state row (own i run.trace)
  stored : Stores t (own j run.trace) row
  drawn : ⟨.randomBytes, (splitState state).2⟩ ∈ own j run.trace

inductive IssuedWith (calls : List StateCall) (j userId : Nat) : GithubAppStateStage →
    ConsumedGithubAppState → Prop where
  | redirect {target : StateTarget} (hcall : calls[j]? = some (.issueRedirect userId target))
    : IssuedWith calls j userId .redirect ⟨target, [], none⟩
  | select {target : StateTarget} {candidates : List Int} {verifiedBy : String}
    (hcall : calls[j]? = some (.issueSelect userId target candidates verifiedBy))
    : IssuedWith calls j userId .select
        ⟨target, candidates.take GITHUB_APP_MAX_CANDIDATES, some verifiedBy⟩

structure SingleUse (calls : List StateCall) (run : Calls StateReply) : Prop where
  oauth : ∀ i userId state consumed, calls[i]? = some (.consumeOauth userId state) →
    run.pool i = .pure (.oauthConsumed consumed) → ∃ j, ∃ row : IntegrationOauthState,
      Redeems .oauthStates run i j userId state row
        ∧
      calls[j]? = some (.issueOauth userId consumed.target)
        ∧
      consumed.codeVerifier = row.codeVerifier
        ∧
      ∀ reply, run.pool j = .pure reply → reply =
        .oauthIssued ⟨row.uuid ++ "." ++ (splitState state).2, pkceChallenge consumed.codeVerifier⟩
  githubApp : ∀ i userId state stage consumed, calls[i]? = some (.consumeGithubApp userId state stage) →
    run.pool i = .pure (.githubAppConsumed consumed) → ∃ j, ∃ row : IntegrationGithubAppState,
      Redeems .githubAppStates run i j userId state row
        ∧
      IssuedWith calls j userId stage consumed
        ∧
      ∀ reply, run.pool j = .pure reply →
        reply = .githubAppIssued (row.uuid ++ "." ++ (splitState state).2)
  oauthOnce : ∀ i i' j userId userId' state state' row row',
    Redeems .oauthStates run i j userId state row →
    Redeems .oauthStates run i' j userId' state' row' → i = i'
  githubAppOnce : ∀ i i' j userId userId' state state' row row',
    Redeems .githubAppStates run i j userId state row →
    Redeems .githubAppStates run i' j userId' state' row' → i = i'
  once : ∀ i i' call call' state reply reply', calls[i]? = some call → calls[i']? = some call' →
    call.state? = some state → call'.state? = some state →
    run.pool i = .pure reply → run.pool i' = .pure reply' → i = i'

omit [Platform] [Crypto] in
theorem Drawn.mem {h : IntegrationsHistory} {now : Date} {uuid secret : String}
    (hdrawn : Drawn h now uuid secret)
    : ⟨.randomBytes, secret⟩ ∈ h := by
  obtain ⟨h', rfl, _⟩ := hdrawn.drawn
  exact List.mem_cons_self ..

omit [Crypto] in
theorem inPlay_of_drawn {secret : String}
    (hmem : (⟨.randomBytes, secret⟩ : (s : Effect) × Answer s) ∈ own j trace)
    : InPlay calls trace secret := by
  obtain ⟨x, hx, _, hran⟩ := mem_own.mp hmem
  refine Or.inl ⟨x, hx, ?_⟩
  rw [drawnBytes, hran]

section Consumed

variable (hoauth : (w.db .oauthStates).rows = []) (hgithubApp : (w.db .githubAppStates).rows = [])
variable (hfree : CollisionFree calls (States.after w calls schedule).trace)

include hoauth hfree in
theorem oauth_redeems {userId : Nat} {state : String} {reply : StateReply}
    (hcall : calls[i]? = some (.consumeOauth userId state))
    (hended : (States.after w calls schedule).pool i = .pure reply)
    : ∃ j, ∃ (row : IntegrationOauthState) (consumed : ConsumedOauthState),
        reply = .oauthConsumed consumed
          ∧
        Redeems .oauthStates (States.after w calls schedule) i j userId state row
          ∧
        calls[j]? = some (.issueOauth userId consumed.target)
          ∧
        consumed.codeVerifier = row.codeVerifier := by
  obtain ⟨row, consumed, htaken, hconsumed, hreply⟩ :=
    ended (.ok reply) StateCall.prog_allowed hcall hended reply rfl
  obtain ⟨p, rank, hfound⟩ := htaken.found
  obtain ⟨j, hstores⟩ := stored_of_found hoauth hfound
  obtain ⟨issuer, mk, h, id, now, hissuer, hallowed, hrow, hsuffix⟩ := inserted_of_stores hstores
  cases issuer with
  | issueOauth userId' target =>
    cases hallowed with
    | free hs => simp [Effect.writes] at hs
    | insert hverifier hdrawn hfirst =>
      rename_i h' drawnAt uuid secret codeVerifier
      subst hrow
      have huser : userId' = userId := htaken.user
      have hsecret : ⟨.randomBytes, secret⟩ ∈ own j (States.after w calls schedule).trace := by
        apply hsuffix.subset
        rw [hverifier]
        exact List.mem_cons_of_mem _ hdrawn.mem
      have heq : (splitState state).2 = secret :=
        hfree _ _ (Or.inr ⟨i, _, state, hcall, rfl, rfl⟩) (inPlay_of_drawn hsecret) htaken.secret
      rw [toConsumed_oauthRow] at hconsumed
      cases hconsumed
      rw [huser] at hissuer
      rw [← heq] at hsecret
      exact ⟨j, _, _, hreply, ⟨htaken, hstores, hsecret⟩, hissuer, rfl⟩
  | issueRedirect | issueSelect | consumeOauth | consumeGithubApp =>
    cases hallowed with
    | free hs => simp [Effect.writes] at hs

include hgithubApp hfree in
theorem githubApp_redeems {userId : Nat} {state : String} {stage : GithubAppStateStage} {reply : StateReply}
    (hcall : calls[i]? = some (.consumeGithubApp userId state stage))
    (hended : (States.after w calls schedule).pool i = .pure reply)
    : ∃ j, ∃ (row : IntegrationGithubAppState) (consumed : ConsumedGithubAppState),
        reply = .githubAppConsumed consumed
          ∧
        Redeems .githubAppStates (States.after w calls schedule) i j userId state row
          ∧
        IssuedWith calls j userId stage consumed := by
  obtain ⟨row, consumed, htaken, hstage, hconsumed, hreply⟩ :=
    ended (.ok reply) StateCall.prog_allowed hcall hended reply rfl
  obtain ⟨p, rank, hfound⟩ := htaken.found
  obtain ⟨j, hstores⟩ := stored_of_found hgithubApp hfound
  obtain ⟨issuer, mk, h, id, now, hissuer, hallowed, hrow, hsuffix⟩ := inserted_of_stores hstores
  -- the two kinds of issued states are redeemed in the same way
  have hissue : ∀ {userId' : Nat} {stage' : GithubAppStateStage} {target : StateTarget}
      {result : SelectResult} {uuid secret : String} {issuedAt : Date} {id : Nat},
      row = githubAppRow userId' stage' target result uuid secret issuedAt id →
      Drawn h issuedAt uuid secret → userId' = userId ∧ stage' = stage ∧
        Redeems .githubAppStates (States.after w calls schedule) i j userId state row := by
    intro userId' stage' target result uuid secret issuedAt id hrow hdrawn
    have hsecret : ⟨.randomBytes, secret⟩ ∈ own j (States.after w calls schedule).trace :=
      hsuffix.subset hdrawn.mem
    have hhash : Platform.sha256Hex (splitState state).2 = Platform.sha256Hex secret := by
      rw [htaken.secret, hrow]
      rfl
    -- equal hashes mean equal secrets, as both are in play
    have heq : (splitState state).2 = secret :=
      hfree _ _ (Or.inr ⟨i, _, state, hcall, rfl, rfl⟩) (inPlay_of_drawn hsecret) hhash
    rw [← heq] at hsecret
    have huser : FlowState.userId row = userId := htaken.user
    rw [hrow] at huser hstage
    exact ⟨huser, hstage, htaken, hstores, hsecret⟩
  cases issuer with
  | issueRedirect userId' target =>
    cases hallowed with
    | free hs => simp [Effect.writes] at hs
    | insert hdrawn hfirst =>
      obtain ⟨rfl, rfl, hredeems⟩ := hissue hrow hdrawn
      subst hrow
      refine ⟨j, _, consumed, hreply, hredeems, ?_⟩
      simp only [GithubAppStateService.toConsumed, targetOf_githubAppRow] at hconsumed
      cases hconsumed
      exact .redirect hissuer
  | issueSelect userId' target candidates verifiedBy =>
    cases hallowed with
    | free hs => simp [Effect.writes] at hs
    | insert hdrawn hfirst =>
      obtain ⟨rfl, rfl, hredeems⟩ := hissue hrow hdrawn
      subst hrow
      refine ⟨j, _, consumed, hreply, hredeems, ?_⟩
      simp only [GithubAppStateService.toConsumed, targetOf_githubAppRow] at hconsumed
      unfold githubAppRow at hconsumed
      dsimp only at hconsumed
      split at hconsumed
      . cases hconsumed
        exact .select hissuer
      . simp at hconsumed
  | issueOauth | consumeOauth | consumeGithubApp =>
    cases hallowed with
    | free hs => simp [Effect.writes] at hs

end Consumed

theorem eq_of_drawn (hdrawn : ((States.after w calls schedule).trace.filterMap drawnBytes).Nodup)
    {secret : String}
    (hi : (⟨.randomBytes, secret⟩ : (s : Effect) × Answer s) ∈ own i (States.after w calls schedule).trace)
    (hj : (⟨.randomBytes, secret⟩ : (s : Effect) × Answer s) ∈ own j (States.after w calls schedule).trace)
    : i = j := by
  obtain ⟨x, hx, rfl, hxran⟩ := mem_own.mp hi
  obtain ⟨y, hy, rfl, hyran⟩ := mem_own.mp hj
  have heq : x = y := by
    apply eq_of_nodup_filterMap hdrawn hx hy (b := secret)
    . rw [drawnBytes, hxran]
    . rw [drawnBytes, hyran]
  rw [heq]

theorem Redeems.once [FlowState (Row t)] {i' userId userId' : Nat} {state state' : String} {row row' : Row t}
    (hempty : (w.db t).rows = [])
    (hredeems : Redeems t (States.after w calls schedule) i j userId state row)
    (hredeems' : Redeems t (States.after w calls schedule) i' j userId' state' row')
    : i = i' := by
  have heq := eq_of_stores hredeems.stored hredeems'.stored
  subst heq
  exact eq_of_removed hempty hredeems.taken.removed hredeems'.taken.removed

/--
Whatever the order of the steps of any number of calls, each state is consumed at most once, before it has
expired, by the user that it was issued to and at its own stage, and yields what it was issued with.
-/
theorem states_single_use (hoauth : (w.db .oauthStates).rows = [])
    (hgithubApp : (w.db .githubAppStates).rows = [])
    (hfree : CollisionFree calls (States.after w calls schedule).trace)
    (hdrawn : ((States.after w calls schedule).trace.filterMap drawnBytes).Nodup)
    : SingleUse calls (States.after w calls schedule) where
  oauth := by
    intro i userId state consumed hcall hended
    obtain ⟨j, row, consumed', heq, hredeems, hissuer, hverifier⟩ :=
      oauth_redeems hoauth hfree hcall hended
    cases heq
    refine ⟨j, row, hredeems, hissuer, hverifier, fun reply hreply => ?_⟩
    obtain ⟨secret, now, hdrawn', hrow, rfl⟩ :=
      ended (.ok reply) StateCall.prog_allowed hissuer hreply reply rfl row hredeems.stored
    have hhash : Platform.sha256Hex (splitState state).2 = Platform.sha256Hex secret := by
      rw [hredeems.taken.secret, hrow]
      rfl
    rw [hfree _ _ (inPlay_of_drawn hredeems.drawn) (inPlay_of_drawn hdrawn') hhash, hverifier]
  githubApp := by
    intro i userId state stage consumed hcall hended
    obtain ⟨j, row, consumed', heq, hredeems, hissued⟩ :=
      githubApp_redeems hgithubApp hfree hcall hended
    cases heq
    refine ⟨j, row, hredeems, hissued, fun reply hreply => ?_⟩
    have hpromised : ∀ {stage : GithubAppStateStage} {target : StateTarget} {result : SelectResult},
        PromisesGithubApp userId stage target result (own j (States.after w calls schedule).trace)
          (.ok reply) → reply = .githubAppIssued (row.uuid ++ "." ++ (splitState state).2) := by
      intro stage target result hpromises
      obtain ⟨secret, now, hdrawn', hrow, rfl⟩ := hpromises reply rfl row hredeems.stored
      have hhash : Platform.sha256Hex (splitState state).2 = Platform.sha256Hex secret := by
        rw [hredeems.taken.secret, hrow]
        rfl
      rw [hfree _ _ (inPlay_of_drawn hredeems.drawn) (inPlay_of_drawn hdrawn') hhash]
    cases hissued with
    | redirect hissuer => exact hpromised (ended (.ok reply) StateCall.prog_allowed hissuer hreply)
    | select hissuer => exact hpromised (ended (.ok reply) StateCall.prog_allowed hissuer hreply)
  oauthOnce := fun _ _ _ _ _ _ _ _ _ => Redeems.once hoauth
  githubAppOnce := fun _ _ _ _ _ _ _ _ _ => Redeems.once hgithubApp
  -- both calls have taken the row that was issued with the state, and a row is removed once
  once := by
    intro i i' call call' state reply reply' hcall hcall' hstate hstate' hended hended'
    cases call with
    | consumeOauth userId state₁ =>
      cases hstate
      obtain ⟨j, row, _, _, hredeems, hissuer, _⟩ := oauth_redeems hoauth hfree hcall hended
      cases call' with
      | consumeOauth userId' state₂ =>
        cases hstate'
        obtain ⟨j', row', _, _, hredeems', _⟩ := oauth_redeems hoauth hfree hcall' hended'
        obtain rfl := eq_of_drawn hdrawn hredeems.drawn hredeems'.drawn
        exact hredeems.once hoauth hredeems'
      | consumeGithubApp userId' state₂ stage' =>
        cases hstate'
        obtain ⟨j', row', _, _, hredeems', hissued'⟩ := githubApp_redeems hgithubApp hfree hcall' hended'
        obtain rfl := eq_of_drawn hdrawn hredeems.drawn hredeems'.drawn
        cases hissued' with
        | redirect hissuer' | select hissuer' => simp [hissuer] at hissuer'
      | _ => simp [StateCall.state?] at hstate'
    | consumeGithubApp userId state₁ stage =>
      cases hstate
      obtain ⟨j, row, _, _, hredeems, hissued⟩ := githubApp_redeems hgithubApp hfree hcall hended
      cases call' with
      | consumeOauth userId' state₂ =>
        cases hstate'
        obtain ⟨j', row', _, _, hredeems', hissuer', _⟩ := oauth_redeems hoauth hfree hcall' hended'
        obtain rfl := eq_of_drawn hdrawn hredeems.drawn hredeems'.drawn
        cases hissued with
        | redirect hissuer | select hissuer => simp [hissuer] at hissuer'
      | consumeGithubApp userId' state₂ stage' =>
        cases hstate'
        obtain ⟨j', row', _, _, hredeems', _⟩ := githubApp_redeems hgithubApp hfree hcall' hended'
        obtain rfl := eq_of_drawn hdrawn hredeems.drawn hredeems'.drawn
        exact hredeems.once hgithubApp hredeems'
      | _ => simp [StateCall.state?] at hstate'
    | _ => simp [StateCall.state?] at hstate

end Run

end FlowStates

section Runs

attribute [local instance] Kerghan.Sample.platform Sample.crypto

abbrev sampleState : String :=
  String.ofList (List.replicate 36 'a' ++ '.' :: List.replicate 43 'b')

abbrev presentedTwice : List StateCall :=
  [.issueOauth 1 (.create "ci"), .consumeOauth 1 sampleState, .consumeOauth 1 sampleState]

/--
Both calls that present the state read its row before either of them deletes it.
-/
abbrev presentedAtOnce : Schedule :=
  Sample.scheduleIn
    (fun k => { Sample.env k with
      uuid := String.ofList (List.replicate 36 'a')
      bytes := String.ofList (List.replicate 43 (if k = 4 then 'b' else 'c')) })
    [0, 0, 0, 0, 0, 0, 0, 1, 2, 1, 2, 1, 2]

theorem states_single_use_at_once
    : let run := States.after Sample.world presentedTwice presentedAtOnce
      run.pool 1 = .pure (.oauthConsumed ⟨.create "ci", String.ofList (List.replicate 43 'c')⟩)
        ∧
      ∀ reply, run.pool 2 ≠ .pure reply := by
  intro run
  have hended : run.pool 1 =
      .pure (.oauthConsumed ⟨.create "ci", String.ofList (List.replicate 43 'c')⟩) := rfl
  refine ⟨hended, fun reply hreply => ?_⟩
  have hfree : CollisionFree presentedTwice run.trace := fun _ _ _ _ heq => heq
  have hdrawn : (run.trace.filterMap drawnBytes).Nodup := by decide
  have heq := (states_single_use rfl rfl hfree hdrawn).once 1 2 _ _ sampleState _ reply rfl rfl rfl rfl
    hended hreply
  exact absurd heq (by decide)

end Runs

end Kerghan.Integrations
