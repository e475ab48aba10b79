import Kerghan.Integrations.Lemmas.Redirects
import Kerghan.Integrations.Sample

/-!
This module contains the proof that an integration that is answered has been written, as long as no integration
is deleted between its lookup and its update.
-/

namespace Kerghan.Integrations

open IntegrationConnectionTestService

def IntegrationsCall.changes : IntegrationsCall → Bool
  | .rename .. | .replaceCredential .. | .test .. | .oauthAppCallback .. | .githubAppCallback ..
  | .selectInstallation .. => true
  | _ => false

section Written

variable [Platform] {x : IntegrationsEntry}

/--
An update by the id of an integration is made while the integration is still there.
-/
def StillThere (x : IntegrationsEntry) : Prop :=
  ∀ id userId changes, x.effect = .db (updateIntegration id userId changes) →
    ∃ r ∈ (x.before.db .integrations).rows, r.id = id ∧ r.userId = userId

/--
The statement finds the rows that it updates, unless it is the claim of a test.
-/
def hitsRow (x : IntegrationsEntry) : Bool :=
  match x.effect with
  | .db (.update .integrations p _) => (x.before.db .integrations).rows.any p
  | _ => true

theorem stillThere_of_hitsRow (hhits : hitsRow x = true) : StillThere x := by
  intro id userId changes heq
  unfold hitsRow at hhits
  rw [heq] at hhits
  obtain ⟨r, hr, hp⟩ := List.any_eq_true.mp hhits
  simp only [Bool.and_eq_true, beq_iff_eq] at hp
  exact ⟨r, hr, hp⟩

/--
`row` has the columns that a step writes to a row of the table at this time. What it does not write is what its
call has found before.
-/
def Writes (earlier : List IntegrationsEntry) (x : IntegrationsEntry) (row : Integration) : Prop :=
  ∃ loaded : Integration, ∃ changes,
    InHand (own x.call earlier) loaded
      ∧
    x.effect = .db (updateIntegration loaded.id loaded.userId changes)
      ∧
    StoredAs row (changes loaded)
      ∧
    ∃ r ∈ (x.before.db .integrations).rows,
      r.id = loaded.id
        ∧
      r.userId = loaded.userId
        ∧
      changes r ∈ (x.after.db .integrations).rows

/--
The integration is gone: it is not found, or it is updated after it has been deleted.
-/
def Gone (x : IntegrationsEntry) : Prop :=
  (∃ uuid userId, ⟨x.effect, x.resp⟩ = ran (findIntegration uuid userId) none)
    ∨
  ∃ id userId changes, x.effect = .db (updateIntegration id userId changes)
    ∧
  ∀ r ∈ (x.before.db .integrations).rows, ¬(r.id = id ∧ r.userId = userId)

structure NoPhantom (calls : List IntegrationsCall) (run : Calls IntegrationsReply) : Prop where
  written : ∀ i call reply row, calls[i]? = some call → call.changes = true →
    run.pool i = .ofExcept (.ok reply) → reply.changed = some row →
    ∃ later x earlier, run.trace = later ++ x :: earlier ∧ x.call = i ∧ Writes earlier x row
  missing : ∀ i call r, calls[i]? = some call → call.changes = true → run.pool i = .ofExcept r →
    (∃ x ∈ run.trace, x.call = i ∧ Gone x) → r = .error integrationNotFound

theorem Writes.of_written {trace : List IntegrationsEntry} {i : Nat} {row : Integration}
    (hexecuted : ∀ x ∈ trace, x.Executed Effect.exec) (hthere : ∀ x ∈ trace, StillThere x)
    (hwritten : Written (own i trace) row)
    : ∃ later x earlier, trace = later ++ x :: earlier ∧ x.call = i ∧ Writes earlier x row := by
  obtain ⟨newer, older, loaded, changes, affected, hown, hinHand, hstored⟩ := hwritten
  obtain ⟨later, x, earlier, hsplit, hcall, hran, _, holder⟩ := split_of_own_eq hown
  have hx : x ∈ trace := by
    rw [hsplit]
    exact List.mem_append_right _ (List.mem_cons_self ..)
  rw [← holder, ← hcall] at hinHand
  have heffect : x.effect = .db (updateIntegration loaded.id loaded.userId changes) :=
    congrArg Sigma.fst hran
  obtain ⟨r, hr, hid, huser⟩ := hthere x hx _ _ _ heffect
  obtain ⟨now, _, hafter⟩ := (hexecuted x hx).updated hran
  refine ⟨later, x, earlier, hsplit, hcall, loaded, changes, hinHand, heffect, hstored, r, hr, hid, huser, ?_⟩
  rw [show (x.after.db .integrations).rows = _ from hafter]
  refine List.mem_map.mpr ⟨r, hr, ?_⟩
  rw [if_pos (by simp [hid, huser])]

variable [Crypto] [Locale] {cfg : IntegrationsConfig}

theorem IntegrationsCall.prog_answers (hcollation : ∃ a b, sameText a b = false) {call : IntegrationsCall}
    (hcall : call.changes = true)
    : (call.prog cfg).Meets Answers Any
        (fun h' r =>
          Decided MissesOnly h' r
            ∧
          ∀ reply row, r = .ok reply → reply.changed = some row → Written h' row) [] := by
  by_cases hreplies : call.replies = true
  . refine (call.prog_replies hcollation hreplies).mono fun h' r _ hreplied => ⟨?_, fun reply row heq hrow => ?_⟩
    . exact fun newer ev older heq e hd => hreplied.decided newer ev older heq e (Or.inl hd)
    . refine hreplied.written reply row heq ?_
      cases call <;> first | exact hrow | simp [IntegrationsCall.changes] at hcall
  . cases call with
    | test =>
      refine (test_misses .nil).map (fun h' v hq => ⟨hq.1.undecided.decided, fun reply row heq hrow => ?_⟩)
        fun h' e hq => ⟨hq.1.error, by simp⟩
      cases heq
      cases hrow
      exact hq.2 v rfl
    | _ => simp_all [IntegrationsCall.changes, IntegrationsCall.replies]

/--
Whatever the order of the steps of any number of calls: if every update by id finds its integration, what a call
answers has been written, and a call that does not find its integration answers 404.
-/
theorem no_phantom (hcollation : ∃ a b, sameText a b = false) {w : World} {calls : List IntegrationsCall}
    {schedule : Schedule}
    (hthere : ∀ x ∈ (Calls.after w (calls.map (IntegrationsCall.prog cfg)) schedule).trace, StillThere x)
    : NoPhantom calls (Calls.after w (calls.map (IntegrationsCall.prog cfg)) schedule) := by
  have hanswers : ∀ call : IntegrationsCall, (call.prog cfg).Meets Answers Any
      (fun h' r => call.changes = true → Decided MissesOnly h' r ∧
        ∀ reply row, r = .ok reply → reply.changed = some row → Written h' row) [] := by
    intro call
    by_cases hcall : call.changes = true
    . exact (call.prog_answers hcollation hcall).mono fun _ _ _ hq _ => hq
    . exact (call.prog_does.imp fun _ _ _ => trivial).mono fun _ _ _ _ hchanges => absurd hchanges hcall
  have hexecuted : ∀ x ∈ (Calls.after w (calls.map (IntegrationsCall.prog cfg)) schedule).trace,
      x.Executed Effect.exec := by
    intro x hx
    obtain ⟨later, earlier, hsplit⟩ := List.append_of_mem hx
    exact (Config.performs_of_split answers_exec
      (start_meets (fun call => IntegrationsCall.prog_does call) w calls) rfl schedule hsplit).answered
  constructor
  . intro i call reply row hcall hchanges hended hrow
    have hanswered := ended (.ok reply) hanswers hcall hended hchanges
    exact Writes.of_written hexecuted hthere (hanswered.2 reply row rfl hrow)
  . intro i call r hcall hchanges hended ⟨x, hx, hi, hgone⟩
    have hdecided := (ended r hanswers hcall hended hchanges).1
    rcases hgone with ⟨uuid, userId, hran⟩ | ⟨id, userId, changes, heffect, hnone⟩
    . obtain ⟨newer, older, hsplit⟩ := List.append_of_mem (mem_own.mpr ⟨x, hx, hi, hran⟩)
      exact hdecided newer _ older hsplit integrationNotFound ⟨⟨uuid, userId, rfl⟩, rfl⟩
    . obtain ⟨r', hr', hfound⟩ := hthere x hx id userId changes heffect
      exact absurd hfound (hnone r' hr')

end Written

section Runs

attribute [local instance] Kerghan.Sample.platform Sample.crypto Sample.locale

abbrev renamed (order : List Nat) : Calls IntegrationsReply :=
  Calls.after (Sample.storing (Sample.integration ⟨[1], "k1"⟩ "ghp_a"))
    ([.rename 1 Sample.integrationUuid "home", .delete 1 Sample.integrationUuid].map
      (IntegrationsCall.prog Sample.config)) (Sample.schedule order)

theorem no_phantom_renamed
    : NoPhantom [.rename 1 Sample.integrationUuid "home", .delete 1 Sample.integrationUuid]
        (renamed [0, 0, 0])
        ∧
      ((renamed [0, 0, 0]).world.db .integrations).rows.map Integration.label = ["home"] := by
  refine ⟨no_phantom ⟨"a", "b", by decide⟩ fun x hx => stillThere_of_hitsRow ?_, rfl⟩
  have hhits : ∀ x ∈ (renamed [0, 0, 0]).trace, hitsRow x = true := by decide
  exact hhits x hx

/--
The integration is deleted between the lookup and the update of a rename, which answers it all the same.
-/
theorem not_no_phantom
    : ¬NoPhantom [.rename 1 Sample.integrationUuid "home", .delete 1 Sample.integrationUuid]
        (renamed [0, 0, 1, 1, 0]) := by
  intro hphantom
  have hgone : ∃ x ∈ (renamed [0, 0, 1, 1, 0]).trace, x.call = 0 ∧ Gone x :=
    ⟨(renamed [0, 0, 1, 1, 0]).trace[0], List.getElem_mem _, rfl, Or.inr ⟨1, 1, _, rfl, by
      intro r hr
      exact absurd hr List.not_mem_nil⟩⟩
  have hended : (renamed [0, 0, 1, 1, 0]).pool 0 = .ofExcept (.ok (.integration
      { Sample.integration ⟨[1], "k1"⟩ "ghp_a" with label := "home", labelNormalized := "home" })) := rfl
  have hanswered := hphantom.missing 0 _ _ rfl rfl hended hgone
  simp at hanswered

end Runs

end Kerghan.Integrations
