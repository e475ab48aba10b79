import Kerghan.Integrations.Lemmas.Test
import Kerghan.Integrations.Sample
import Kerghan.Integrations.Secrets.Steps

/-!
This module contains the proof that the columns on the status of an integration agree with each other, and
that a transient outcome leaves all of them but the last test alone.
-/

namespace Kerghan.Integrations

structure Consistent (r : Integration) : Prop where
  reason : r.statusReason.isSome = true ↔ r.status = .invalid
  success : r.lastTestResult = some .success → r.status = .active
  rejected : r.lastTestResult = some .rejected → r.status = .invalid ∨ r.status = .expired
  undecryptable : r.lastTestResult = some .undecryptable → r.status = .undecryptable

theorem Records.consistent {type : IntegrationType} {now : Date} {outcome : TestOutcome}
    {changes : Integration → Integration} (hrecords : Records type now outcome changes) {r : Integration}
    (hr : Consistent r)
    : Consistent (changes r) := by
  cases hrecords with
  | active => constructor <;> simp [IntegrationConnectionTestService.activeColumns]
  | invalid => constructor <;> simp [IntegrationConnectionTestService.rejectedColumns]
  | expired => constructor <;> simp [IntegrationConnectionTestService.rejectedColumns]
  | transient =>
    constructor
    . exact hr.reason
    . simp [IntegrationConnectionTestService.transientColumns]
    . simp [IntegrationConnectionTestService.transientColumns]
    . simp [IntegrationConnectionTestService.transientColumns]

section Status

variable [Platform] [Crypto] [Locale] {cfg : IntegrationsConfig} {calls : List IntegrationsCall}
variable {trace : List IntegrationsEntry} {x : IntegrationsEntry}

omit [Locale] in
theorem Touches.consistent {call : IntegrationsCall} {h : IntegrationsHistory} {r : Integration}
    {changes : Integration → Integration} (htouches : Touches cfg call h r changes) (hr : Consistent r)
    : Consistent (changes r) := by
  cases htouches with
  | replace => constructor <;> simp [SealedCredential.freshColumns]
  | rename => exact ⟨hr.reason, hr.success, hr.rejected, hr.undecryptable⟩
  | claim => exact ⟨hr.reason, hr.success, hr.rejected, hr.undecryptable⟩
  | undecryptable => constructor <;> simp [IntegrationConnectionTestService.undecryptableColumns]
  | record _ _ _ _ _ hrecords => exact hrecords.consistent hr
  | rewrite => exact ⟨hr.reason, hr.success, hr.rejected, hr.undecryptable⟩

theorem IntegrationsStep.consistent (hx : IntegrationsStep cfg calls trace x)
    (hbefore : ∀ r ∈ (x.before.db .integrations).rows, Consistent r) {r' : Integration}
    (hr' : r' ∈ (x.after.db .integrations).rows)
    : Consistent r' := by
  cases hx.origin hr' with
  | kept hold => exact hbefore r' hold
  | inserted _ _ _ _ _ hrow =>
    rw [hrow]
    constructor <;> simp [IntegrationsService.createdRow]
  | updated _ hr _ _ htouches hrow =>
    rw [hrow]
    exact htouches.consistent (hbefore _ hr)

inductive Passed (x : IntegrationsEntry) (r' : Integration) : Prop where
  | kept (hold : r' ∈ (x.before.db .integrations).rows)
  | tested {r : Integration} (hr : r ∈ (x.before.db .integrations).rows)
    (hrow : r' = { r with lastTestedAt := r'.lastTestedAt, lastTestResult := r'.lastTestResult })
  | rewritten {r : Integration} {id userId : Nat} {keyId : String} {encrypted : EncryptedSecret}
    (hr : r ∈ (x.before.db .integrations).rows)
    (hrewrite : x.effect = .db (rewriteSecretSql id userId keyId encrypted))
    (hrow : r' = { r with secret := encrypted })

theorem passed_of_passing (hx : IntegrationsStep cfg calls trace x) {call : IntegrationsCall}
    (hcall : calls[x.call]? = some call) (htest : call.storesCredential = false)
    (hpassing : ∀ p f, ∀ affected : Nat, ⟨x.effect, x.resp⟩ = ran (.update .integrations p f) affected →
      IsPassing (.update .integrations p f))
    {r' : Integration} (hr' : r' ∈ (x.after.db .integrations).rows)
    : Passed x r' := by
  cases hx.origin hr' with
  | kept hold => exact .kept hold
  | inserted hcall' _ hvalidated =>
    cases hcall.symm.trans hcall'
    cases hvalidated <;> simp [IntegrationsCall.storesCredential] at htest
  | @updated _ r p changes affected _ hr hran hp _ hrow =>
    have heffect : x.effect = .db (.update .integrations p fun _ => changes) := congrArg Sigma.fst hran
    have hkind := hpassing p _ affected hran
    generalize hs : (Stmt.update .integrations p fun _ => changes : Statement) = s at hkind heffect
    have hchanges : ∀ p' f, s = .update .integrations p' f → changes = f 0 := by
      intro p' f heq
      obtain ⟨_, _, hf⟩ := Stmt.update.inj (hs.trans heq)
      exact congrFun (eq_of_heq hf) 0
    cases hkind with
    | claim =>
      obtain rfl := hchanges _ _ rfl
      exact .tested hr (by rw [hrow])
    | rewrite =>
      obtain rfl := hchanges _ _ rfl
      exact .rewritten hr heffect hrow
    | transient =>
      obtain rfl := hchanges _ _ rfl
      exact .tested hr (by rw [hrow]; rfl)

theorem IntegrationsStep.transient (hx : IntegrationsStep cfg calls trace x) {r' : Integration}
    (hr' : r' ∈ (x.after.db .integrations).rows) (htransient : r'.lastTestResult = some .transientError)
    : ∃ r ∈ (x.before.db .integrations).rows,
        r.id = r'.id
          ∧
        (r.lastTestResult = some .transientError
          ∨
        r' = { r with lastTestedAt := r'.lastTestedAt, lastTestResult := r'.lastTestResult }) := by
  cases hx.origin hr' with
  | kept hold => exact ⟨r', hold, rfl, Or.inl htransient⟩
  | inserted _ _ _ _ _ hrow =>
    rw [hrow] at htransient
    simp [IntegrationsService.createdRow] at htransient
  | @updated _ r _ _ _ _ hr _ _ htouches hrow =>
    subst hrow
    refine ⟨r, hr, (htouches.sameRow r).id.symm, ?_⟩
    cases htouches with
    | replace => simp [SealedCredential.freshColumns] at htransient
    | rename => exact Or.inl htransient
    | claim => exact Or.inl htransient
    | undecryptable => simp [IntegrationConnectionTestService.undecryptableColumns] at htransient
    | rewrite => exact Or.inl htransient
    | record _ _ _ _ _ hrecords =>
      cases hrecords with
      | active => simp [IntegrationConnectionTestService.activeColumns] at htransient
      | invalid => simp [IntegrationConnectionTestService.rejectedColumns] at htransient
      | expired => simp [IntegrationConnectionTestService.rejectedColumns] at htransient
      | transient => exact Or.inr rfl

/--
Whatever the order of the steps of any number of calls and whatever GitHub answers, the columns on the status
of every integration agree. A step that records a transient outcome changes nothing else, and a test that
throws has changed nothing but the last test (and the key that the secret is encrypted under).
-/
theorem status_consistent {w : World} (hw : ∀ r ∈ (w.db .integrations).rows, Consistent r)
    (calls : List IntegrationsCall) (schedule : Schedule)
    : (∀ r ∈ ((Calls.after w (calls.map (IntegrationsCall.prog cfg)) schedule).world.db .integrations).rows,
        Consistent r)
        ∧
      (∀ x ∈ (Calls.after w (calls.map (IntegrationsCall.prog cfg)) schedule).trace,
        ∀ r' ∈ (x.after.db .integrations).rows, r'.lastTestResult = some .transientError →
          ∃ r ∈ (x.before.db .integrations).rows,
            r.id = r'.id
              ∧
            (r.lastTestResult = some .transientError
              ∨
            r' = { r with lastTestedAt := r'.lastTestedAt, lastTestResult := r'.lastTestResult }))
        ∧
      ∀ i userId uuid e, calls[i]? = some (.test userId uuid) →
        (Calls.after w (calls.map (IntegrationsCall.prog cfg)) schedule).pool i = .ofExcept (.error e) →
        ∀ x ∈ (Calls.after w (calls.map (IntegrationsCall.prog cfg)) schedule).trace, x.call = i →
          ∀ r' ∈ (x.after.db .integrations).rows, Passed x r' := by
  have hdoes : ∀ call : IntegrationsCall, (call.prog cfg).Meets Answers (Does cfg call)
      (fun h' _ => call.Promises cfg h') [] := fun call => call.prog_does
  have hmeets := start_meets hdoes w calls
  have hstep : ∀ {later x earlier},
      (Calls.after w (calls.map (IntegrationsCall.prog cfg)) schedule).trace = later ++ x :: earlier →
      IntegrationsStep cfg calls earlier x :=
    fun hsplit => Config.performs_of_split answers_exec hmeets rfl schedule hsplit
  refine ⟨?_, ?_, ?_⟩
  . exact Config.run_induction (A := fun _ => True)
      (I := fun w' _ => ∀ r ∈ (w'.db .integrations).rows, Consistent r) (fun _ _ _ => trivial)
      (fun _ _ _ hx hbefore _ hr' => IntegrationsStep.consistent hx hbefore hr') answers_exec hmeets hw
      schedule trivial
  . intro x hmem r' hr' htransient
    obtain ⟨later, earlier, hsplit⟩ := List.append_of_mem hmem
    exact (hstep hsplit).transient hr' htransient
  . intro i userId uuid e hcall hended x hmem hi r' hr'
    have htest : ((Calls.start w (calls.map (IntegrationsCall.prog cfg))).pool i).Meets Answers (Tests cfg userId uuid)
        (fun h' r => ∀ e, r = .error e → Passing h') [] := by
      simp only [Calls.start, List.getElem?_map, hcall, Option.map_some, Option.getD_some]
      refine IntegrationConnectionTestService.test_tests.map (fun _ _ _ _ heq => ?_) fun _ _ hq e heq => ?_
      . simp at heq
      . exact hq e (by simpa using heq)
    -- a test that throws has told nothing in any of its updates
    have hrun := Config.meets_pool_run answers_exec htest schedule
    obtain ⟨later, earlier, hsplit⟩ := List.append_of_mem hmem
    subst hi
    apply passed_of_passing (hstep hsplit) hcall rfl _ hr'
    intro p f affected hran
    have hpassing : Passing (own x.call (Calls.after w (calls.map (IntegrationsCall.prog cfg)) schedule).trace) := by
      unfold Calls.after at hended
      rw [hended] at hrun
      exact hrun e rfl
    exact hpassing p f affected (mem_own.mpr ⟨x, hmem, rfl, hran⟩)

end Status

section Runs

attribute [local instance] Kerghan.Sample.platform Sample.crypto Sample.locale

abbrev unanswered : Calls IntegrationsReply :=
  Calls.after (Sample.storing (Sample.integration ⟨[1], "k1"⟩ "ghp_a"))
    ([.test 1 Sample.integrationUuid].map (IntegrationsCall.prog Sample.config))
    (Sample.schedule (List.replicate 6 0))

theorem status_consistent_unanswered
    : (∀ r ∈ (unanswered.world.db .integrations).rows, Consistent r)
        ∧
      (unanswered.world.db .integrations).rows.map (fun r => (r.status, r.lastTestResult)) =
        [(.active, some .transientError)] :=
  ⟨(status_consistent (by
      intro r hr
      obtain rfl := List.mem_singleton.mp hr
      constructor <;> simp) _ _).1, rfl⟩

end Runs

end Kerghan.Integrations
