import Kerghan.Integrations.Lemmas.Replies

/-!
This module contains the proof that the reply of every call that writes an integration says what it has seen
and written.
-/

namespace Kerghan.Integrations

open IntegrationCredentialService IntegrationStoreService

abbrev Any : IntegrationsHistory → Effect → Prop :=
  fun _ _ => True

section Fresh

variable [Platform] {D : IntegrationsHistory → (s : Effect) × Answer s → Thrown → Prop}
variable {h h' : IntegrationsHistory} {T : Type}

omit [Platform] in
theorem Fresh.cons {ev : (s : Effect) × Answer s} (hfresh : Fresh D h) (hev : ∀ e, ¬D h ev e)
    (hread : ∀ s : Statement, ∀ a, ev = ran s a → s.table = .integrations → s.isRead = true)
    : Fresh D (ev :: h) where
  undecided := hfresh.undecided.cons hev
  unchanged hchanged := hfresh.unchanged (hchanged.of_cons hread)

theorem Fresh.replied {updated : T → Option Integration} {e : Thrown} (hfresh : Fresh D h)
    : Replied D updated h (.error e) where
  decided := hfresh.undecided.decided
  written _ _ heq := by simp at heq
  unchanged _ _ := hfresh.unchanged

theorem Fresh.replied_cons {updated : T → Option Integration} {e : Thrown} {ev : (s : Effect) × Answer s}
    (hfresh : Fresh D h) (hev : ∀ e', D h ev e' → e = e')
    (hread : ∀ s : Statement, ∀ a, ev = ran s a → s.table = .integrations → s.isRead = true)
    : Replied D updated (ev :: h) (.error e) where
  decided := hfresh.undecided.decided_cons fun e' hd => by rw [hev e' hd]
  written _ _ heq := by simp at heq
  unchanged _ _ hchanged := hfresh.unchanged (hchanged.of_cons hread)

theorem Replied.of_ok {updated : T → Option Integration} {v : T} (hundecided : Undecided D h)
    (hwritten : ∀ row, updated v = some row → Written h row)
    : Replied D updated h (.ok v) where
  decided := hundecided.decided
  written v' row heq hrow := by
    cases heq
    exact hwritten row hrow
  unchanged _ heq := by simp at heq

theorem Replied.error {T' : Type} {updated : T → Option Integration} {updated' : T' → Option Integration}
    {e : Thrown} (hreplied : Replied D updated h (.error e))
    : Replied D updated' h (.error e) where
  decided := hreplied.decided.error
  written _ _ heq := by simp at heq
  unchanged _ _ := hreplied.unchanged e rfl

abbrev OnIntegrations (D : IntegrationsHistory → (s : Effect) × Answer s → Thrown → Prop) : Prop :=
  ∀ older ev e, D older ev e → ev.1.isOnIntegrations = true

abbrev Calmly (h h' : IntegrationsHistory) : Prop :=
  ∃ newer, h' = newer ++ h ∧ ∀ ev ∈ newer, ev.1.isOnIntegrations = false

section Calmly

omit [Platform]

theorem Calmly.cons {ev : (s : Effect) × Answer s} (hcalm : ev.1.isOnIntegrations = false) : Calmly h (ev :: h) :=
  ⟨[ev], rfl, by simpa using hcalm⟩

variable (hcalmly : Calmly h h')

include hcalmly

theorem Calmly.split {newer older : IntegrationsHistory} {ev : (s : Effect) × Answer s}
    (heq : h' = newer ++ ev :: older) (hev : ev.1.isOnIntegrations = true)
    : ∃ newer', h = newer' ++ ev :: older := by
  obtain ⟨added, rfl, hadded⟩ := hcalmly
  rcases List.append_eq_append_iff.mp heq with ⟨newer', _, hh⟩ | ⟨calm, hsplit, hh⟩
  . exact ⟨newer', hh⟩
  . cases calm with
    | nil => exact ⟨[], by simpa using hh.symm⟩
    | cons ev' calm =>
      obtain ⟨rfl, _⟩ := List.cons.inj hh
      have hcalm := hadded ev (by simp [hsplit])
      rw [hev] at hcalm
      simp at hcalm

theorem Calmly.undecided (hD : OnIntegrations D) (hundecided : Undecided D h) : Undecided D h' := by
  intro newer ev older heq e hd
  obtain ⟨newer', hsplit⟩ := hcalmly.split heq (hD older ev e hd)
  exact hundecided newer' ev older hsplit e hd

theorem Calmly.changed (hchanged : Changed h') : Changed h := by
  obtain ⟨s, a, htable, hread, hmem⟩ := hchanged
  obtain ⟨newer, older, heq⟩ := List.append_of_mem hmem
  obtain ⟨newer', hsplit⟩ := hcalmly.split heq (show (s.table == .integrations) = true from beq_iff_eq.mpr htable)
  exact ⟨s, a, htable, hread, by simp [hsplit]⟩

theorem Calmly.fresh (hD : OnIntegrations D) (hfresh : Fresh D h) : Fresh D h' where
  undecided := hcalmly.undecided hD hfresh.undecided
  unchanged hchanged := hfresh.unchanged (hcalmly.changed hchanged)

end Calmly

theorem Calmly.replied {updated : T → Option Integration} {e : Thrown} (hcalmly : Calmly h h')
    (hD : OnIntegrations D) (hreplied : Replied D updated h (.error e))
    : Replied D updated h' (.error e) where
  decided newer ev older heq e' hd := by
    obtain ⟨newer', hsplit⟩ := hcalmly.split heq (hD older ev e' hd)
    exact hreplied.decided newer' ev older hsplit e' hd
  written _ _ heq := by simp at heq
  unchanged _ _ hchanged := hreplied.unchanged e rfl (hcalmly.changed hchanged)

omit [Platform] in
theorem calm_fresh {C : IntegrationsHistory → Effect → Prop} {prog : Api T}
    {Q : IntegrationsHistory → Except Thrown T → Prop} (hprog : prog.Meets Answers C Q h)
    (hcalm : ∀ h s, C h s → s.isOnIntegrations = false)
    (hD : OnIntegrations D) (hfresh : Fresh D h)
    : prog.Meets Answers Any (fun h' r => Q h' r ∧ Fresh D h' ∧ lastLoaded h' = lastLoaded h) h := by
  refine ((hprog.added hcalm).imp fun _ _ _ => trivial).mono fun h' r _ ⟨hq, (hadded : Calmly h h')⟩ => ?_
  exact ⟨hq, hadded.fresh hD hfresh, lastLoaded_of_added hadded⟩

omit [Platform] in
theorem elsewhere_fresh {prog : Api T} {Q : IntegrationsHistory → Except Thrown T → Prop}
    (hprog : prog.Meets Answers Elsewhere Q h)
    (hD : OnIntegrations D) (hfresh : Fresh D h)
    : prog.Meets Answers Any (fun h' r => Q h' r ∧ Fresh D h' ∧ lastLoaded h' = lastLoaded h) h :=
  calm_fresh hprog (fun _ _ hs => not_isOnIntegrations_of_isElsewhere hs) hD hfresh

end Fresh

section Store

variable [Platform] {cfg : IntegrationsConfig} {h h' : IntegrationsHistory} {userId : Nat} {T : Type}
variable {updated : T → Option Integration}

theorem decides_isOnIntegrations : OnIntegrations (Decides cfg) :=
  fun _ _ _ hd => hd.isOnIntegrations

theorem Fresh.cons_calm {ev : (s : Effect) × Answer s} (hfresh : Fresh (Decides cfg) h)
    (hcalm : ev.1.isOnIntegrations = false)
    : Fresh (Decides cfg) (ev :: h) :=
  (Calmly.cons hcalm).fresh decides_isOnIntegrations hfresh

theorem Fresh.cons_failed {s : Statement} {e : DbError} (hfresh : Fresh (Decides cfg) h)
    (hs : s.isRead = true)
    : Fresh (Decides cfg) (failed s e :: h) := by
  refine hfresh.cons ?_ fun _ _ heq => absurd heq failed_ne_ran
  intro e' hd
  cases s with
  | find => exact absurd hd (by simp [Decides, Misses, Refuses])
  | all => exact absurd hd (by simp [Decides, Misses, Refuses])
  | count => exact absurd hd (by simp [Decides, Misses, Refuses])
  | _ => simp at hs

theorem findOwned_replies (hcollation : ∃ a b, sameText a b = false) {uuid : String}
    (hfresh : Fresh (Decides cfg) h)
    : (findOwned userId uuid).Meets Answers Any
        (fun h' r =>
          (∀ e, r = .error e → Replied (Decides cfg) updated h' (.error e))
            ∧
          ∀ row, r = .ok row → Fresh (Decides cfg) h' ∧ lastLoaded h' = some row ∧ Loaded h' userId uuid row)
        h := by
  unfold findOwned
  split
  . rw [Api.meets_query]
    refine ⟨trivial, fun found _ => ?_, fun e => ⟨fun e' heq => ?_, by simp⟩⟩
    . cases found with
      | none =>
        refine ⟨fun e heq => ?_, by simp⟩
        cases heq
        apply hfresh.replied_cons
        . rintro e' (⟨_, rfl⟩ | hrefuses)
          . rfl
          . exact absurd hrefuses id
        . intro s a hran _
          cases hran
          rfl
      | some row =>
        refine ⟨by simp, fun row' heq => ?_⟩
        cases heq
        refine ⟨hfresh.cons (fun e => not_decides_found hcollation) ?_, rfl, List.mem_cons_self ..⟩
        intro s a hran _
        cases hran
        rfl
    . cases heq
      exact (hfresh.cons_failed rfl).replied
  . refine ⟨fun e heq => ?_, by simp⟩
    cases heq
    exact hfresh.replied

theorem assertLabelFree_replies (hcollation : ∃ a b, sameText a b = false) {labelNormalized : String}
    {exceptId : Option Nat} (hexcept : exceptId = (lastLoaded h).map Integration.id)
    (hfresh : Fresh (Decides cfg) h)
    : (assertLabelFree userId labelNormalized exceptId).Meets Answers Any
        (fun h' r =>
          (∀ e, r = .error e → Replied (Decides cfg) updated h' (.error e))
            ∧
          ∀ v, r = .ok v → Fresh (Decides cfg) h') h := by
  have hread : ∀ found : Option Integration, ∀ s : Statement, ∀ a,
      ran (findByLabel userId labelNormalized) found = ran s a → s.table = .integrations → s.isRead = true := by
    intro found s a hran _
    cases hran
    rfl
  unfold assertLabelFree
  rw [Api.meets_query]
  refine ⟨trivial, fun holder _ => ?_, fun e => ⟨fun e' heq => ?_, by simp⟩⟩
  . cases holder with
    | none =>
      exact ⟨by simp, fun v _ => hfresh.cons (fun e => not_decides_free hcollation) (hread none)⟩
    | some holder =>
      dsimp only
      split
      . next hsame =>
        refine ⟨by simp, fun v _ => hfresh.cons (fun e hd => ?_) (hread (some holder))⟩
        rcases hd with hmisses | ⟨_, hother, _⟩
        . exact hmisses
        . rw [hexcept] at hsame
          obtain ⟨row, hrow, hid⟩ := Option.map_eq_some_iff.mp hsame.symm
          exact hother row hrow hid
      . refine ⟨fun e heq => ?_, by simp⟩
        cases heq
        refine hfresh.replied_cons (fun e' hd => ?_) (hread (some holder))
        rcases hd with hmisses | ⟨_, _, rfl⟩
        . exact absurd hmisses id
        . rfl
  . cases heq
    exact (hfresh.cons_failed rfl).replied

theorem Fresh.cons_count (hfresh : Fresh (Decides cfg) h) (updated : T → Option Integration) (userId n : Nat)
    : (maxPerUser cfg ≤ (n : Nat) →
        Replied (Decides cfg) updated (ran (countIntegrations userId) n :: h) (.error limitReached))
        ∧
      (¬maxPerUser cfg ≤ (n : Nat) → Fresh (Decides cfg) (ran (countIntegrations userId) n :: h)) := by
  have hread : ∀ s : Statement, ∀ a, ran (countIntegrations userId) n = ran s a →
      s.table = .integrations → s.isRead = true := by
    intro s a hran _
    cases hran
    rfl
  constructor
  . intro _
    refine hfresh.replied_cons (fun e' hd => ?_) hread
    rcases hd with hmisses | ⟨_, rfl⟩
    . exact absurd hmisses id
    . rfl
  . intro hbelow
    refine hfresh.cons (fun e' hd => ?_) hread
    rcases hd with hmisses | ⟨hfull, _⟩
    . exact hmisses
    . exact hbelow hfull

theorem assertCreatable_replies [Locale] (hcollation : ∃ a b, sameText a b = false) {label : String}
    (hlast : lastLoaded h = none) (hfresh : Fresh (Decides cfg) h)
    : (IntegrationsService.assertCreatable cfg userId label).Meets Answers Any
        (fun h' r =>
          (∀ e, r = .error e → Replied (Decides cfg) updated h' (.error e))
            ∧
          ∀ v, r = .ok v → Fresh (Decides cfg) h') h := by
  unfold IntegrationsService.assertCreatable countOwned
  rw [Api.meets_query]
  refine ⟨trivial, fun n _ => ?_, fun e => ⟨fun e' heq => ?_, by simp⟩⟩
  . obtain ⟨hfull, hbelow⟩ := hfresh.cons_count updated userId n
    split
    . next hle => exact ⟨fun e heq => by cases heq; exact hfull hle, by simp⟩
    . next hlt => exact assertLabelFree_replies hcollation (by simp [lastLoaded, hlast]) (hbelow hlt)
  . cases heq
    exact (hfresh.cons_failed rfl).replied

/--
What an error becomes behind `guardLabelRace`.
-/
def raced (e : Thrown) : Thrown :=
  if e = .database .duplicateEntry then labelTaken else e

/--
A write behind `guardLabelRace`.
-/
structure Raced (cfg : IntegrationsConfig) (updated : T → Option Integration) {V : Type}
    (W : IntegrationsHistory → Prop) (h : IntegrationsHistory) (r : Except Thrown V) : Prop where
  error : ∀ e, r = .error e → Replied (Decides cfg) updated h (.error (raced e))
  ok : ∀ v, r = .ok v → Undecided (Decides cfg) h ∧ W h

theorem Fresh.raced {V : Type} {W : IntegrationsHistory → Prop} {e : Thrown} (hfresh : Fresh (Decides cfg) h)
    : Raced cfg updated W h (.error e : Except Thrown V) where
  error e' _ := hfresh.replied
  ok _ heq := by simp at heq

theorem Fresh.raced_failed {V : Type} {W : IntegrationsHistory → Prop} {s : Statement} {e : DbError}
    (hfresh : Fresh (Decides cfg) h) (hs : s.isRead = false)
    : Raced cfg updated W (failed s e :: h) (.error (.database e) : Except Thrown V) where
  error e' heq := by
    cases heq
    refine hfresh.replied_cons (fun e' hd => ?_) fun _ _ heq => absurd heq failed_ne_ran
    have hrefuses : Refuses cfg h (failed s e) e' := by
      rcases hd with hmisses | hrefuses
      . cases s <;> exact absurd hmisses (by simp [Misses])
      . exact hrefuses
    cases e with
    | queryFailed => cases s <;> exact absurd hrefuses (by simp [Refuses])
    | duplicateEntry =>
      rw [Integrations.raced, if_pos rfl]
      unfold Refuses at hrefuses
      split at hrefuses
      . next heq => cases heq
      . next heq => cases heq
      . exact hrefuses.symm
      . exact hrefuses.symm
      . exact absurd hrefuses id
  ok _ heq := by simp at heq

theorem guardLabelRace_replies {V : Type} {W : IntegrationsHistory → Prop} {write : Api V}
    (hwrite : write.Meets Answers Any (Raced cfg updated W) h)
    : (guardLabelRace write).Meets Answers Any
        (fun h' r =>
          (∀ e, r = .error e → Replied (Decides cfg) updated h' (.error e))
            ∧
          ∀ v, r = .ok v → Undecided (Decides cfg) h' ∧ W h') h := by
  unfold guardLabelRace
  refine hwrite.tryCatch (fun h' v _ hq => ⟨by simp, hq.ok⟩) fun h' e _ hq => ?_
  have hreplied := hq.error e rfl
  unfold raced at hreplied
  split
  . next heq =>
    rw [if_pos heq] at hreplied
    exact ⟨fun e heq => by cases heq; exact hreplied, by simp⟩
  . next heq =>
    rw [if_neg heq] at hreplied
    exact ⟨fun e heq => by cases heq; exact hreplied, by simp⟩

theorem updateOwned_replies (updated : T → Option Integration) {row : Integration}
    {changes : (Date → Date) → Integration → Integration} (hinHand : InHand h row)
    (hstored : StoredAs (changes id row) (changes toDatetime row)) (hfresh : Fresh (Decides cfg) h)
    : (updateOwned row changes).Meets Answers Any
        (fun h' r =>
          (∀ e, r = .error e → Replied (Decides cfg) updated h' (.error e))
            ∧
          ∀ row', r = .ok row' → Undecided (Decides cfg) h' ∧ Written h' row') h := by
  unfold updateOwned
  have hwrite : (Api.query (updateIntegration row.id row.userId (changes toDatetime))).Meets Answers Any
      (Raced cfg updated fun h' => Written h' (changes id row)) h := by
    refine Api.meets_last.mpr ⟨trivial, fun affected _ => ⟨by simp, fun _ _ => ⟨?_, ?_⟩⟩,
      fun e => hfresh.raced_failed rfl⟩
    . exact hfresh.undecided.cons fun e hd => absurd hd (by simp [Decides, Misses, Refuses])
    . exact .of_cons hinHand hstored
  refine (guardLabelRace_replies hwrite).bind (fun h' affected _ hq => ?_) (fun h' e _ hq => ?_)
  . refine ⟨by simp, fun row' heq => ?_⟩
    cases heq
    exact hq.2 affected rfl
  . exact ⟨fun e' heq => by cases heq; exact hq.1 e rfl, by simp⟩

theorem Calmly.raced {V : Type} {W : IntegrationsHistory → Prop} {r : Except Thrown V} (hcalmly : Calmly h h')
    (hraced : Raced cfg updated W h r) (hW : W h → W h')
    : Raced cfg updated W h' r where
  error e heq := hcalmly.replied decides_isOnIntegrations (hraced.error e heq)
  ok v heq := by
    obtain ⟨hundecided, hw⟩ := hraced.ok v heq
    exact ⟨hcalmly.undecided decides_isOnIntegrations hundecided, hW hw⟩

theorem insertWithinCap_replies (updated : T → Option Integration) {mk : (Date → Date) → Nat → Integration}
    (hfresh : Fresh (Decides cfg) h)
    : (insertWithinCap userId mk (maxPerUser cfg)).Meets Answers Any
        (fun h' r =>
          (∀ e, r = .error e → Replied (Decides cfg) updated h' (.error e))
            ∧
          ∀ row, r = .ok row → Undecided (Decides cfg) h') h := by
  -- what is done under the lock, from any history in which nothing has been decided
  have hbody : ∀ h₁, Fresh (Decides cfg) h₁ → (do
      if (← countOwned userId) ≥ maxPerUser cfg then
        throw limitReached
      else
        let row : Integration ← Api.query (insertIntegration (mk toDatetime))
        pure (mk id row.id) : Api Integration).Meets Answers Any
      (Raced cfg updated fun _ => True) h₁ := by
    intro h₁ hfresh₁
    unfold countOwned
    rw [Api.meets_query]
    refine ⟨trivial, fun n _ => ?_, fun e => (hfresh₁.cons_failed rfl).raced⟩
    obtain ⟨hfull, hbelow⟩ := hfresh₁.cons_count updated userId n
    split
    . next hle => exact ⟨fun e heq => by cases heq; exact hfull hle, by simp⟩
    . next hlt =>
      rw [Api.meets_query]
      refine ⟨trivial, fun row _ => ⟨by simp, fun _ _ => ⟨?_, trivial⟩⟩,
        fun e => (hbelow hlt).raced_failed rfl⟩
      exact (hbelow hlt).undecided.cons fun e hd => absurd hd (by simp [Decides, Misses, Refuses])
  unfold insertWithinCap
  refine (guardLabelRace_replies (W := fun _ => True) ?_).mono fun h' r _ hq =>
    ⟨hq.1, fun row heq => (hq.2 row heq).1⟩
  unfold transaction
  have hmeets : (IntegrationCredentialAbuseGuardService.ensureLockoutRow userId).Meets Answers (Reserves cfg userId)
      (fun h' _ => capturedNow h' = capturedNow h) h := ensureLockoutRow_reserves
  refine (elsewhere_fresh (hmeets.imp ?_) decides_isOnIntegrations hfresh).bind ?_ ?_
  . intro _ _ hs
    cases hs <;> rfl
  . intro h₁ _ _ ⟨_, hfresh₁, _⟩
    unfold lockOwner
    rw [Prog.bind_assoc, Prog.perform_bind]
    refine ⟨trivial, fun answer _ => ?_⟩
    have hfresh₂ : Fresh (Decides cfg) (⟨.lockOwner userId, answer⟩ :: h₁) :=
      (Calmly.cons rfl).fresh decides_isOnIntegrations hfresh₁
    cases answer with
    | error e => exact hfresh₂.raced
    | ok =>
      dsimp only
      rw [Prog.pure_bind]
      refine (outcome_meets (hbody _ hfresh₂)).bind (fun h₃ result _ ⟨result', heq, hraced⟩ => ?_)
        (fun _ _ _ ⟨_, heq, _⟩ => by simp at heq)
      cases heq
      rw [Prog.perform_bind]
      refine ⟨trivial, fun _ _ => ofExcept_meets.mono fun h₄ r _ ⟨hsame, hr⟩ => ?_⟩
      subst hsame hr
      exact (Calmly.cons rfl).raced hraced id
  . intro h₁ e _ ⟨_, hfresh₁, _⟩
    exact hfresh₁.raced

end Store

section Test

variable [Platform] [Crypto] {cfg : IntegrationsConfig} {h : IntegrationsHistory} {userId : Nat}

namespace IntegrationConnectionTestService

open IntegrationTestCooldownService

/--
A missing integration decides what is answered, nothing else does.
-/
abbrev MissesOnly : IntegrationsHistory → (s : Effect) × Answer s → Thrown → Prop :=
  fun _ => Misses

omit [Crypto] in
theorem missesOnly_isOnIntegrations : OnIntegrations MissesOnly :=
  fun _ _ _ hmisses => hmisses.isOnIntegrations

omit [Crypto] in
theorem elsewhere_misses {T : Type} {prog : Api T} {Q : IntegrationsHistory → Except Thrown T → Prop}
    (hprog : prog.Meets Answers Elsewhere Q h) (hundecided : Undecided MissesOnly h)
    : prog.Meets Answers Any (fun h' _ => Undecided MissesOnly h') h := by
  refine ((hprog.added fun _ _ hs => not_isOnIntegrations_of_isElsewhere hs).imp fun _ _ _ => trivial).mono ?_
  exact fun h' r _ ⟨_, (hadded : Calmly h h')⟩ => hadded.undecided missesOnly_isOnIntegrations hundecided

omit [Crypto] in
theorem undecided_update {p : Integration → Bool} {f : Date → Integration → Integration}
    {a : Answer (.db (.update .integrations p f))} (hundecided : Undecided MissesOnly h)
    : Undecided MissesOnly (⟨.db (.update .integrations p f), a⟩ :: h) :=
  hundecided.cons fun _ hd => absurd hd (by simp [Misses])

omit [Crypto] in
theorem updateOwned_misses {row : Integration} {changes : (Date → Date) → Integration → Integration}
    (hinHand : InHand h row) (hstored : StoredAs (changes id row) (changes toDatetime row))
    (hundecided : Undecided MissesOnly h)
    : (updateOwned row changes).Meets Answers Any
        (fun h' r => Undecided MissesOnly h' ∧ ∀ row', r = .ok row' → Written h' row') h := by
  have hwrite : (guardLabelRace (Api.query (updateIntegration row.id row.userId (changes toDatetime)))).Meets
      Answers Any
      (fun h' r => Undecided MissesOnly h' ∧ ∀ affected, r = .ok affected → Written h' (changes id row)) h := by
    unfold guardLabelRace
    refine Prog.Meets.tryCatch (Q := fun h' r =>
      Undecided MissesOnly h' ∧ ∀ affected, r = .ok affected → Written h' (changes id row)) ?_
      (fun _ _ _ hq => hq) fun h₁ e _ hq => ?_
    . refine Api.meets_last.mpr ⟨trivial, fun affected _ => ⟨undecided_update hundecided, fun _ _ => ?_⟩,
        fun e => ⟨undecided_update hundecided, by simp⟩⟩
      exact .of_cons hinHand hstored
    . split
      . exact ⟨hq.1, by simp⟩
      . exact ⟨hq.1, by simp⟩
  unfold updateOwned
  refine hwrite.bind (fun h₁ affected _ hq => ?_) (fun _ _ _ hq => ⟨hq.1, by simp⟩)
  refine ⟨hq.1, fun row' heq => ?_⟩
  cases heq
  exact hq.2 affected rfl

omit [Crypto] in
theorem record_misses {row : Integration} {outcome : TestOutcome} {now : Date} (hinHand : InHand h row)
    (hundecided : Undecided MissesOnly h)
    : (record row outcome now).Meets Answers Any
        (fun h' r => Undecided MissesOnly h' ∧ ∀ row', r = .ok row' → Written h' row') h := by
  unfold record
  split
  . refine ofExcept_meets.bind (fun h₁ described _ ⟨hsame, _⟩ => ?_) (fun h₁ e _ ⟨hsame, _⟩ => ?_)
    . subst hsame
      exact updateOwned_misses hinHand ⟨rfl, Or.inr rfl⟩ hundecided
    . subst hsame
      exact ⟨hundecided, by simp⟩
  . exact updateOwned_misses hinHand ⟨rfl, Or.inr rfl⟩ hundecided
  . exact updateOwned_misses hinHand ⟨rfl, Or.inr rfl⟩ hundecided
  . refine (updateOwned_misses hinHand ⟨rfl, Or.inr rfl⟩ hundecided).bind (fun h₁ _ _ hq => ?_)
      (fun _ _ _ hq => ⟨hq.1, by simp⟩)
    split
    . exact ⟨hq.1, by simp⟩
    . exact ⟨hq.1, by simp⟩

theorem reencryptIfPrevious_misses {uuid : String} {row : Integration} (hloaded : Loaded h userId uuid row)
    (hundecided : Undecided MissesOnly h)
    : (reencryptIfPrevious cfg row).Meets Answers Any
        (fun h' r => Undecided MissesOnly h' ∧ ∀ row', r = .ok row' → InHand h' row') h := by
  unfold reencryptIfPrevious
  dsimp only
  split
  . refine (elsewhere_misses reencrypt_meets hundecided).bind (fun h₁ encrypted hsuffix hundecided₁ => ?_)
      (fun _ _ _ hq => ⟨hq, by simp⟩)
    cases encrypted with
    | none =>
      refine ⟨hundecided₁, fun row' heq => ?_⟩
      cases heq
      exact .loaded (hsuffix.subset hloaded)
    | some encrypted =>
      dsimp only
      unfold rewriteSecret
      rw [Prog.bind_assoc, Api.meets_query]
      refine ⟨trivial, fun affected _ => ?_, fun _ => ⟨undecided_update hundecided₁, by simp⟩⟩
      have hloaded₁ : Loaded (ran (rewriteSecretSql row.id row.userId row.secret.keyId encrypted) affected :: h₁)
          userId uuid row := List.mem_cons_of_mem _ (hsuffix.subset hloaded)
      split
      . refine ⟨undecided_update hundecided₁, fun row' heq => ?_⟩
        cases heq
        exact .loaded hloaded₁
      . next haffected =>
        refine ⟨undecided_update hundecided₁, fun row' heq => ?_⟩
        cases heq
        exact .rewritten hloaded₁ haffected (List.mem_cons_self ..)
  . refine ⟨hundecided, fun row' heq => ?_⟩
    cases heq
    exact .loaded hloaded

omit [Crypto] in
theorem findIntegration_misses {uuid : String} {T : Type} {prog : Option Integration → Api T}
    {Q : IntegrationsHistory → Except Thrown T → Prop} (hundecided : Undecided MissesOnly h)
    (hfound : ∀ h' row, Undecided MissesOnly h' → Loaded h' userId uuid row →
      (prog (some row)).Meets Answers Any Q h')
    (hmissing : ∀ h', Decided MissesOnly h' (.error integrationNotFound : Except Thrown T) →
      (prog none).Meets Answers Any Q h')
    (hfailed : ∀ h' e, Undecided MissesOnly h' → Q h' (.error e))
    : (Api.query (findIntegration uuid userId) >>= prog).Meets Answers Any Q h := by
  rw [Api.meets_query]
  refine ⟨trivial, fun found _ => ?_, fun e => hfailed _ _ ?_⟩
  . cases found with
    | none =>
      apply hmissing
      apply hundecided.decided_cons
      rintro e ⟨_, rfl⟩
      rfl
    | some row => exact hfound _ row (hundecided.cons fun _ hd => hd) (List.mem_cons_self ..)
  . exact hundecided.cons fun e hd => absurd hd (by simp [Misses])

omit [Crypto] in
theorem findOwned_misses {uuid : String} (hundecided : Undecided MissesOnly h)
    : (findOwned userId uuid).Meets Answers Any
        (fun h' r => Decided MissesOnly h' r ∧ ∀ row, r = .ok row → Loaded h' userId uuid row) h := by
  unfold findOwned
  split
  . apply findIntegration_misses hundecided
    . intro h₁ row hundecided₁ hloaded
      refine ⟨hundecided₁.decided, fun row' heq => ?_⟩
      cases heq
      exact hloaded
    . exact fun _ hdecided => ⟨hdecided, by simp⟩
    . exact fun _ _ hundecided₁ => ⟨hundecided₁.decided, by simp⟩
  . exact ⟨hundecided.decided, by simp⟩

omit [Crypto] in
theorem claim_misses {uuid : String} {now : Date} (hundecided : Undecided MissesOnly h)
    : (claim cfg uuid userId now).Meets Answers Any (fun h' r => Decided MissesOnly h' r) h := by
  unfold claim
  rw [Api.meets_query]
  refine ⟨trivial, fun affected _ => ?_, fun _ => (undecided_update hundecided).decided⟩
  split
  . exact (undecided_update hundecided).decided
  . unfold remainingSeconds
    rw [Prog.bind_assoc]
    apply findIntegration_misses (undecided_update hundecided)
    . exact fun _ _ hundecided₁ _ => hundecided₁.decided
    . exact fun _ hdecided => hdecided.error
    . exact fun _ _ hundecided₁ => hundecided₁.decided

/--
What a test answers if the integration is missing, and what it has written otherwise.
-/
theorem test_misses {uuid : String} (hundecided : Undecided MissesOnly h)
    : (test cfg userId uuid).Meets Answers Any
        (fun h' r => Decided MissesOnly h' r ∧ ∀ row', r = .ok row' → Written h' row') h := by
  unfold test
  refine (findOwned_misses hundecided).bind (fun h₁ row _ ⟨hdecided₁, hfound⟩ => ?_)
    (fun h₁ e _ hq => ⟨hq.1.error, by simp⟩)
  rw [Api.meets_now]
  refine ⟨trivial, fun now => ?_⟩
  have hundecided₁ : Undecided MissesOnly (clock now :: h₁) :=
    (Calmly.cons rfl).undecided missesOnly_isOnIntegrations hdecided₁.undecided
  refine (claim_misses hundecided₁).bind (fun h₂ claim hsuffix₂ hdecided₂ => ?_)
    (fun h₂ e _ hdecided => ⟨hdecided.error, by simp⟩)
  have hundecided₂ := hdecided₂.undecided
  have hloaded : Loaded h₂ userId uuid row := hsuffix₂.subset (List.mem_cons_of_mem _ (hfound row rfl))
  cases claim with
  | refused retryAfterSeconds => exact ⟨hundecided₂.decided, by simp⟩
  | claimed =>
    dsimp only
    split
    . exact (updateOwned_misses (.loaded hloaded) ⟨rfl, Or.inr rfl⟩ hundecided₂).mono
        fun _ _ _ hq => ⟨hq.1.decided, hq.2⟩
    . refine (reencryptIfPrevious_misses hloaded hundecided₂).bind
        (fun h₃ row' _ ⟨hundecided₃, hinHand⟩ => ?_) (fun _ _ _ hq => ⟨hq.1.decided, by simp⟩)
      refine (elsewhere_misses testSecret_meets hundecided₃).bind (fun h₄ outcome hsuffix₄ hundecided₄ => ?_)
        (fun _ _ _ hundecided₄ => ⟨hundecided₄.decided, by simp⟩)
      exact (record_misses ((hinHand row' rfl).mono hsuffix₄.subset) hundecided₄).mono
        fun _ _ _ hq => ⟨hq.1.decided, hq.2⟩

end IntegrationConnectionTestService

end Test

section Calls

variable [Platform] [Crypto] [Locale] {cfg : IntegrationsConfig} {h : IntegrationsHistory} {userId : Nat}

variable (hcollation : ∃ a b, sameText a b = false)

include hcollation

namespace IntegrationsService

omit [Crypto] in
theorem rename_replies {uuid label : String} (hfresh : Fresh (Decides cfg) h)
    : (rename userId uuid label).Meets Answers Any (Replied (Decides cfg) some) h := by
  unfold rename
  refine (findOwned_replies hcollation hfresh).bind (fun h₁ row _ hq => ?_) (fun h₁ e _ hq => hq.1 e rfl)
  obtain ⟨hfresh₁, hlast, hloaded⟩ := hq.2 row rfl
  have hexcept : some row.id = (lastLoaded h₁).map Integration.id := by
    rw [hlast]
    rfl
  refine (assertLabelFree_replies hcollation hexcept hfresh₁).bind (fun h₂ _ hsuffix₂ hq => ?_)
    (fun h₂ e _ hq => hq.1 e rfl)
  refine (updateOwned_replies some (.loaded (hsuffix₂.subset hloaded)) ⟨rfl, Or.inl rfl⟩ (hq.2 () rfl)).mono
    fun h' r _ hq => ?_
  cases r with
  | error e => exact hq.1 e rfl
  | ok row' => exact .of_ok (hq.2 row' rfl).1 fun _ heq => by cases heq; exact (hq.2 row' rfl).2

omit [Locale] in
theorem replaceCredential_replies {uuid : String} {credential : Json} (hfresh : Fresh (Decides cfg) h)
    : (replaceCredential cfg userId uuid credential).Meets Answers Any (Replied (Decides cfg) some) h := by
  unfold replaceCredential
  refine (findOwned_replies hcollation hfresh).bind (fun h₁ row _ hq => ?_) (fun h₁ e _ hq => hq.1 e rfl)
  obtain ⟨hfresh₁, _, hloaded⟩ := hq.2 row rfl
  refine ofExcept_meets.bind (fun h₂ parsed _ ⟨hsame, hparsed⟩ => ?_) (fun h₂ e _ ⟨hsame, _⟩ => ?_)
  . subst hsame
    obtain ⟨_, token, _, rfl⟩ := parse_ok hparsed.symm
    refine (elsewhere_fresh assertNotLocked_meets decides_isOnIntegrations hfresh₁).bind
      (fun h₃ _ hsuffix₃ ⟨_, hfresh₃, _⟩ => ?_) (fun _ _ _ hq => hq.2.1.replied)
    refine (elsewhere_fresh validate_pat_meets decides_isOnIntegrations hfresh₃).bind
      (fun h₄ validated hsuffix₄ ⟨_, hfresh₄, _⟩ => ?_) (fun _ _ _ hq => hq.2.1.replied)
    refine (elsewhere_fresh sealCredential_meets decides_isOnIntegrations hfresh₄).bind
      (fun h₅ credential hsuffix₅ ⟨_, hfresh₅, _⟩ => ?_) (fun _ _ _ hq => hq.2.1.replied)
    rw [Api.meets_now]
    refine ⟨trivial, fun now => ?_⟩
    have hinHand : InHand (clock now :: h₅) row :=
      .loaded (List.mem_cons_of_mem _ (hsuffix₅.subset (hsuffix₄.subset (hsuffix₃.subset hloaded))))
    refine (updateOwned_replies some hinHand ⟨rfl, Or.inr rfl⟩ (hfresh₅.cons_calm rfl)).mono fun h' r _ hq => ?_
    cases r with
    | error e => exact hq.1 e rfl
    | ok row' => exact .of_ok (hq.2 row' rfl).1 fun _ heq => by cases heq; exact (hq.2 row' rfl).2
  . subst hsame
    exact hfresh₁.replied

theorem create_replies {dto : CreateIntegrationDto} (hlast : lastLoaded h = none)
    (hfresh : Fresh (Decides cfg) h)
    : (create cfg userId dto).Meets Answers Any (Replied (Decides cfg) fun _ => none) h := by
  unfold create
  refine ofExcept_meets.bind (fun h₁ parsed _ ⟨hsame, hparsed⟩ => ?_) (fun h₁ e _ ⟨hsame, _⟩ => ?_)
  . subst hsame
    obtain ⟨_, token, _, rfl⟩ := parse_ok hparsed.symm
    refine (elsewhere_fresh assertNotLocked_meets decides_isOnIntegrations hfresh).bind
      (fun h₂ _ _ ⟨_, hfresh₂, hlast₂⟩ => ?_) (fun _ _ _ hq => hq.2.1.replied)
    refine (assertCreatable_replies hcollation (hlast₂.trans hlast) hfresh₂).bind (fun h₃ _ _ hq => ?_)
      (fun h₃ e _ hq => hq.1 e rfl)
    refine (elsewhere_fresh validate_pat_meets decides_isOnIntegrations (hq.2 () rfl)).bind
      (fun h₄ validated _ ⟨_, hfresh₄, _⟩ => ?_) (fun _ _ _ hq => hq.2.1.replied)
    rw [Api.meets_randomUUID]
    refine ⟨trivial, fun uuid => ?_⟩
    rw [Api.meets_now]
    refine ⟨trivial, fun now => ?_⟩
    refine (elsewhere_fresh sealCredential_meets decides_isOnIntegrations
      ((hfresh₄.cons_calm rfl).cons_calm rfl)).bind
      (fun h₅ credential _ ⟨_, hfresh₅, _⟩ => ?_) (fun _ _ _ hq => hq.2.1.replied)
    refine (insertWithinCap_replies (fun _ : Integration => none) hfresh₅).mono fun h' r _ hq => ?_
    cases r with
    | error e => exact hq.1 e rfl
    | ok row => exact .of_ok (hq.2 row rfl) (by simp)
  . subst hsame
    exact hfresh.replied

end IntegrationsService

end Calls

end Kerghan.Integrations
