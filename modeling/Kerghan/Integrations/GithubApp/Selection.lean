import Mathlib.Data.String.Basic
import Kerghan.Core.Impl.ClientRequest
import Kerghan.Integrations.FlowStates.Contract
import Kerghan.Integrations.GithubApp.Verification
import Kerghan.Integrations.Lemmas.Flows
import Kerghan.Integrations.Sample

/-!
This module contains the proof that a selection of installations offers exactly what can be selected with
its state.
-/

namespace Kerghan.Integrations

open GithubAppStateService GithubAppSelectionService

/--
What is required of `localeCompare`: it orders texts, and those that it takes for equal with them.
-/
structure ConsistentLocale [Locale] : Prop where
  swap : ∀ a b, 0 ≤ Locale.localeCompare a b ↔ Locale.localeCompare b a ≤ 0
  trans : ∀ a b c, Locale.localeCompare a b ≤ 0 → Locale.localeCompare b c ≤ 0 → Locale.localeCompare a c ≤ 0

/--
The order in which installations are offered: by the login of their account, whatever its case, and by
their id.
-/
def Precedes [Locale] (a b : GithubAppSelectionEntry) : Prop :=
  let order := Locale.localeCompare (Locale.toLowerCase a.accountLogin) (Locale.toLowerCase b.accountLogin)
  order < 0 ∨ order = 0 ∧ a.installationId < b.installationId

def Accepts (app : EnabledGithubAppConfig) (consumed : ConsumedGithubAppState) (installationId : Int) : Prop :=
  validateCandidate app consumed installationId =
    GithubAppStrategy.validateInstallation app installationId (consumed.verifiedBy.getD "")

/--
Whoever takes the row in time selects for its target, and among these installations.
-/
def Redeemable [Platform] (app : EnabledGithubAppConfig) (userId : Nat) (target : StateTarget)
    (ids : List Int) (row : IntegrationGithubAppState) : Prop :=
  ∀ state events result, (consume userId state .select).Returns events result →
    Taken .githubAppStates userId state row events.reverse →
      ∃ consumed, result = .ok consumed ∧ consumed.target = target ∧
        ∀ installationId, Accepts app consumed installationId ↔ installationId ∈ ids

structure OffersWhatItAccepts [Platform] [Locale] (app : EnabledGithubAppConfig) (userId : Nat)
    (target : StateTarget) (installations : List GithubUserInstallation) (verifiedBy : String) : Prop where
  length_le : (selectionEntries installations).length ≤ 100
  nodup : ((selectionEntries installations).map GithubAppSelectionEntry.installationId).Nodup
  ordered : (selectionEntries installations).Pairwise Precedes
  order_irrelevant : (installations.map GithubUserInstallation.installationId).Nodup →
    ∀ listed, listed.Perm installations → selectionEntries listed = selectionEntries installations
  accepted : ∀ events selection,
    (offer userId target installations verifiedBy).Returns events (.ok selection) →
      (∀ ev ∈ events, Answers ev.1 ev.2) →
        selection.installations = selectionEntries installations
          ∧
        ∃ row secret, Stores .githubAppStates events row
          ∧
        selection.state = row.uuid ++ "." ++ secret
          ∧
        Redeemable app userId target (selection.installations.map GithubAppSelectionEntry.installationId) row

section Entries

variable {installations : List GithubUserInstallation}

def entryOf (installation : GithubUserInstallation) : GithubAppSelectionEntry :=
  ⟨installation.installationId, installation.accountLogin, installation.accountType⟩

theorem addEntry_nodup {unique : List GithubAppSelectionEntry}
    (hunique : (unique.map GithubAppSelectionEntry.installationId).Nodup)
    (installation : GithubUserInstallation)
    : ((addEntry unique installation).map GithubAppSelectionEntry.installationId).Nodup := by
  unfold addEntry
  split
  . exact hunique
  . next hnew =>
    rw [List.map_append, List.map_singleton]
    exact List.Nodup.append hunique (List.nodup_singleton _) (by simpa using hnew)

theorem foldl_addEntry_nodup (installations : List GithubUserInstallation)
    {unique : List GithubAppSelectionEntry}
    (hunique : (unique.map GithubAppSelectionEntry.installationId).Nodup)
    : ((installations.foldl addEntry unique).map GithubAppSelectionEntry.installationId).Nodup := by
  induction installations generalizing unique with
  | nil => exact hunique
  | cons installation installations ih => exact ih (addEntry_nodup hunique installation)

theorem foldl_addEntry_eq_map {unique : List GithubAppSelectionEntry}
    (hnodup : (unique.map GithubAppSelectionEntry.installationId ++
      installations.map GithubUserInstallation.installationId).Nodup)
    : installations.foldl addEntry unique = unique ++ installations.map entryOf := by
  induction installations generalizing unique with
  | nil => simp
  | cons installation installations ih =>
    have hnew : installation.installationId ∉ unique.map GithubAppSelectionEntry.installationId := by
      intro hmem
      have hdisjoint := List.disjoint_of_nodup_append hnodup
      exact hdisjoint hmem (List.mem_cons_self ..)
    have hstep : addEntry unique installation = unique ++ [entryOf installation] := if_neg hnew
    rw [List.foldl_cons, hstep, ih, List.map_cons, List.append_assoc, List.singleton_append]
    simpa [entryOf] using hnodup

variable [Locale] (hlocale : ConsistentLocale)

theorem compareEntries_le_iff {a b : GithubAppSelectionEntry}
    : compareEntries a b ≤ 0 ↔
        Precedes a b ∨
          Locale.localeCompare (Locale.toLowerCase a.accountLogin) (Locale.toLowerCase b.accountLogin) = 0 ∧
            a.installationId = b.installationId := by
  unfold compareEntries Precedes
  dsimp only
  split
  . omega
  . omega

include hlocale

theorem compareEntries_total (a b : GithubAppSelectionEntry)
    : compareEntries a b ≤ 0 ∨ compareEntries b a ≤ 0 := by
  have hswap := hlocale.swap (Locale.toLowerCase a.accountLogin) (Locale.toLowerCase b.accountLogin)
  have hswap' := hlocale.swap (Locale.toLowerCase b.accountLogin) (Locale.toLowerCase a.accountLogin)
  rw [compareEntries_le_iff, compareEntries_le_iff]
  unfold Precedes
  omega

theorem compareEntries_trans (a b c : GithubAppSelectionEntry) (hab : compareEntries a b ≤ 0)
    (hbc : compareEntries b c ≤ 0)
    : compareEntries a c ≤ 0 := by
  rw [compareEntries_le_iff] at hab hbc ⊢
  unfold Precedes at hab hbc ⊢
  dsimp only at hab hbc ⊢
  generalize Locale.toLowerCase a.accountLogin = x at hab hbc ⊢
  generalize Locale.toLowerCase b.accountLogin = y at hab hbc ⊢
  generalize Locale.toLowerCase c.accountLogin = z at hab hbc ⊢
  have hxy : Locale.localeCompare x y ≤ 0 := by omega
  have hyz : Locale.localeCompare y z ≤ 0 := by omega
  have hxz := hlocale.trans x y z hxy hyz
  have hzx := hlocale.swap x z
  -- a text that is equal to both ends of a chain is equal to what is between them
  have hyx : Locale.localeCompare z x ≤ 0 → Locale.localeCompare y x ≤ 0 := hlocale.trans y z x hyz
  have hzy : Locale.localeCompare z x ≤ 0 → Locale.localeCompare z y ≤ 0 := fun h => hlocale.trans z x y h hxy
  have hswap := hlocale.swap x y
  have hswap' := hlocale.swap y z
  omega

theorem pairwise_compareEntries (entries : List GithubAppSelectionEntry)
    : (entries.insertionSort fun a b => compareEntries a b ≤ 0).Pairwise fun a b => compareEntries a b ≤ 0 := by
  have : Std.Total fun a b : GithubAppSelectionEntry => compareEntries a b ≤ 0 :=
    ⟨compareEntries_total hlocale⟩
  have : IsTrans GithubAppSelectionEntry fun a b => compareEntries a b ≤ 0 :=
    ⟨compareEntries_trans hlocale⟩
  exact List.pairwise_insertionSort _ entries

omit hlocale in
theorem selectionEntries_nodup
    : ((selectionEntries installations).map GithubAppSelectionEntry.installationId).Nodup := by
  have hunique := @foldl_addEntry_nodup installations [] List.nodup_nil
  have hperm := (List.perm_insertionSort (fun a b => compareEntries a b ≤ 0)
    (installations.foldl addEntry [])).map GithubAppSelectionEntry.installationId
  unfold selectionEntries
  rw [List.map_take]
  exact ((hperm.nodup_iff).mpr hunique).sublist (List.take_sublist ..)

theorem selectionEntries_ordered : (selectionEntries installations).Pairwise Precedes := by
  have hsorted : (selectionEntries installations).Pairwise fun a b => compareEntries a b ≤ 0 :=
    (pairwise_compareEntries hlocale _).sublist (List.take_sublist ..)
  have hdistinct := List.pairwise_map.mp (@selectionEntries_nodup installations _)
  refine (hsorted.and hdistinct).imp ?_
  intro a b ⟨hle, hne⟩
  cases compareEntries_le_iff.mp hle with
  | inl hprecedes => exact hprecedes
  | inr hsame => exact absurd hsame.2 hne

theorem selectionEntries_perm {listed : List GithubUserInstallation}
    (hnodup : (installations.map GithubUserInstallation.installationId).Nodup)
    (hperm : listed.Perm installations)
    : selectionEntries listed = selectionEntries installations := by
  have hnodup' : (listed.map GithubUserInstallation.installationId).Nodup :=
    (hperm.map _).nodup_iff.mpr hnodup
  unfold selectionEntries
  rw [@foldl_addEntry_eq_map _ [] hnodup, @foldl_addEntry_eq_map _ [] hnodup', List.nil_append,
    List.nil_append]
  congr 1
  refine List.Perm.eq_of_pairwise ?_ (pairwise_compareEntries hlocale _) (pairwise_compareEntries hlocale _) ?_
  . intro a b ha hb hab hba
    rw [List.mem_insertionSort, List.mem_map] at ha hb
    have ⟨i, hi, hia⟩ := ha
    have ⟨j, hj, hjb⟩ := hb
    have hid : i.installationId = j.installationId := by
      rw [compareEntries_le_iff] at hab hba
      unfold Precedes at hab hba
      dsimp only at hab hba
      have hswap := hlocale.swap (Locale.toLowerCase a.accountLogin) (Locale.toLowerCase b.accountLogin)
      have hswap' := hlocale.swap (Locale.toLowerCase b.accountLogin) (Locale.toLowerCase a.accountLogin)
      have hsame : a.installationId = b.installationId := by omega
      rw [← hia, ← hjb] at hsame
      exact hsame
    have hsame : i = j := List.inj_on_of_nodup_map hnodup (hperm.subset hi) hj hid
    rw [← hia, ← hjb, hsame]
  . exact (List.perm_insertionSort _ _).trans
      ((hperm.map entryOf).trans (List.perm_insertionSort _ _).symm)

end Entries

section RoundTrip

variable {app : EnabledGithubAppConfig} {userId : Nat} {target : StateTarget}
variable {consumed : ConsumedGithubAppState} {installationId : Int}

theorem accepts_iff : Accepts app consumed installationId ↔ installationId ∈ consumed.candidates := by
  unfold Accepts validateCandidate
  constructor
  . intro haccepts
    split at haccepts
    . next hmem => exact hmem
    . -- the check of an installation asks GitHub first
      cases haccepts
  . intro hmem
    rw [if_pos hmem]

variable [Platform]

theorem consume_returns {row : IntegrationGithubAppState} {state : String} {events : Events}
    {result : Except Thrown ConsumedGithubAppState} (hstage : row.stage = .select)
    (hrow : toConsumed row = some consumed) (h : (consume userId state .select).Returns events result)
    (htaken : Taken .githubAppStates userId state row events.reverse)
    : result = .ok consumed := by
  obtain ⟨⟨p, rank, hfound⟩, hremoved, _, _, hsecret, now, hnow, hunexpired⟩ := htaken
  rw [List.mem_reverse] at hfound hremoved
  unfold consume at h
  have ⟨now', rest, hevents, hrest⟩ := Api.returns_now h
  subst hevents
  split at hrest
  . dsimp only at hrest
    -- every way in which the row has not been found contradicts `hfound`
    cases Api.returns_query hrest with
    | inr hfailed =>
      have ⟨e, hevents, _⟩ := hfailed
      subst hevents
      simp at hfound
    | inl hread =>
      have ⟨found, rest', hevents', hrest'⟩ := hread
      subst hevents'
      cases found with
      | none =>
        have ⟨hnil, _⟩ := Prog.returns_throw hrest'
        subst hnil
        simp at hfound
      | some row' =>
        dsimp only at hrest'
        cases Api.returns_query hrest' with
        | inr hfailed =>
          have ⟨e, hevents, _⟩ := hfailed
          subst hevents
          simp at hremoved
        | inl hdeleted =>
          have ⟨affected, rest'', hevents'', hrest''⟩ := hdeleted
          subst hevents''
          have hnil : rest'' = [] := by
            split at hrest''
            . split at hrest''
              . exact (Prog.returns_pure hrest'').1
              . exact (Prog.returns_throw hrest'').1
            . exact (Prog.returns_throw hrest'').1
          subst hnil
          have hsame : row = row' := by
            simp only [List.mem_cons, List.not_mem_nil, or_false] at hfound
            rcases hfound with heq | heq | heq
            . cases heq
            . cases heq
              rfl
            . cases heq
          have hone : affected = (1 : Nat) := by
            simp only [List.mem_cons, List.not_mem_nil, or_false] at hremoved
            rcases hremoved with heq | heq | heq
            . cases heq
            . cases heq
            . have hresp := eq_of_heq (Sigma.mk.inj heq).2
              exact (Except.ok.inj hresp).symm
          have htime : now' = now := Option.some.inj hnow
          subst hsame
          have hvalid : (affected == (1 : Nat) && secretMatches (splitState state).2 row.secretHash
              && decide (row.expiresAt > now') && row.stage == .select) = true := by
            have hmatches : secretMatches (splitState state).2 row.secretHash = true := beq_iff_eq.mpr hsecret
            rw [hmatches, hstage, hone, htime, decide_eq_true (show row.expiresAt > now from hunexpired)]
            rfl
          rw [if_pos hvalid, hrow] at hrest''
          exact (Prog.returns_pure hrest'').2
  . have ⟨hrest, _⟩ := Prog.returns_throw hrest
    subst hrest
    simp at hfound

theorem toConsumed_select {ids : List Int} {verifiedBy uuid secret : String} {now : Date} {id : Nat}
    (hids : ∀ installationId ∈ ids, isPositiveId installationId = true)
    (hlogin : isGithubLogin (some verifiedBy) = true)
    : toConsumed (githubAppRow userId .select target ⟨some ids, some verifiedBy⟩ uuid secret now id) =
        some ⟨target, ids, some verifiedBy⟩ := by
  have hlist : isCandidateList (some ids) = true := List.all_eq_true.mpr hids
  unfold toConsumed
  rw [targetOf_githubAppRow]
  unfold githubAppRow
  dsimp only
  rw [hlist, hlogin]
  rfl

theorem issue_stored {stage : GithubAppStateStage} {result : SelectResult} {h : IntegrationsHistory}
    : (issue userId stage target result).Meets Answers (fun _ _ => True)
        (fun h' r => ∀ state, r = .ok state → ∃ uuid secret now id,
          Stores .githubAppStates h' (githubAppRow userId stage target result uuid secret now id) ∧
            state = uuid ++ "." ++ secret) h := by
  unfold issue
  rw [Api.meets_now]
  refine ⟨trivial, fun now => ?_⟩
  rw [Api.meets_query]
  refine ⟨trivial, fun purged _ => ?_, by simp⟩
  apply (Prog.meets_true (prunePending userId)).bind
  . intro h' _ _ _
    rw [Api.meets_randomUUID]
    refine ⟨trivial, fun uuid => ?_⟩
    rw [Api.meets_randomBytes]
    refine ⟨trivial, fun secret => ?_⟩
    rw [Api.meets_query]
    refine ⟨trivial, fun stored hstored => ?_, by simp⟩
    intro state heq
    cases heq
    obtain ⟨id, _, rfl⟩ := hstored
    exact ⟨uuid, secret, now, id, ⟨_, List.mem_cons_self ..⟩, rfl⟩
  . intro _ _ _ _ _ heq
    cases heq

variable [Locale] {installations : List GithubUserInstallation} {verifiedBy : String}

omit [Platform] in
theorem length_selectionEntries_le : (selectionEntries installations).length ≤ 100 :=
  List.length_take_le ..

theorem offer_returns (hids : ∀ i ∈ installations, isPositiveId i.installationId = true)
    (hlogin : isGithubLogin (some verifiedBy) = true) {events : Events} {selection : GithubAppSelection}
    (h : (offer userId target installations verifiedBy).Returns events (.ok selection))
    (hanswers : ∀ ev ∈ events, Answers ev.1 ev.2)
    : selection.installations = selectionEntries installations ∧
        ∃ row secret, Stores .githubAppStates events row ∧ selection.state = row.uuid ++ "." ++ secret ∧
          Redeemable app userId target (selection.installations.map GithubAppSelectionEntry.installationId)
            row := by
  unfold offer at h
  cases Prog.returns_bind h with
  | inr herror =>
    have ⟨_, herror, _⟩ := herror
    cases herror
  | inl hissued =>
    have ⟨state, first, rest, hevents, hfirst, hrest⟩ := hissued
    have ⟨hrest, hselection⟩ := Prog.returns_pure hrest
    subst hevents hrest
    cases hselection
    rw [List.append_nil] at hanswers ⊢
    have ⟨uuid, secret, now, id, ⟨mk, hstored⟩, hstate⟩ :=
      issue_stored.of_returns (h := []) hfirst hanswers state rfl
    rw [List.append_nil, List.mem_reverse] at hstored
    have htake : ((selectionEntries installations).map GithubAppSelectionEntry.installationId).take
        GITHUB_APP_MAX_CANDIDATES =
          (selectionEntries installations).map GithubAppSelectionEntry.installationId := by
      apply List.take_of_length_le
      rw [List.length_map]
      exact length_selectionEntries_le
    have hpositive : ∀ installationId ∈
        (selectionEntries installations).map GithubAppSelectionEntry.installationId,
        isPositiveId installationId = true := by
      intro installationId hmem
      have ⟨entry, hentry, heq⟩ := List.mem_map.mp hmem
      have ⟨i, hi, hid⟩ := List.mem_map.mp (mem_selectionEntries hentry)
      rw [← heq, ← hid]
      exact hids i hi
    refine ⟨rfl, _, secret, ⟨mk, hstored⟩, hstate, ?_⟩
    intro state' events' result hconsume htaken
    rw [htake] at htaken
    refine ⟨_, consume_returns rfl (toConsumed_select hpositive hlogin) hconsume htaken, rfl, ?_⟩
    intro installationId
    exact accepts_iff

theorem offersWhatItAccepts (hlocale : ConsistentLocale)
    (hids : ∀ i ∈ installations, isPositiveId i.installationId = true)
    (hlogin : isGithubLogin (some verifiedBy) = true)
    : OffersWhatItAccepts app userId target installations verifiedBy where
  length_le := length_selectionEntries_le
  nodup := selectionEntries_nodup
  ordered := selectionEntries_ordered hlocale
  order_irrelevant hnodup _ hperm := selectionEntries_perm hlocale hnodup hperm
  accepted _ _ h hanswers := offer_returns hids hlogin h hanswers

end RoundTrip

section Sample

abbrev asciiLocale : Locale where
  toLowerCase := Kerghan.toLowerCase
  localeCompare a b := if a < b then -1 else if b < a then 1 else 0

attribute [local instance] Kerghan.Sample.platform asciiLocale

theorem localeCompare_le_iff (a b : String) : Locale.localeCompare a b ≤ 0 ↔ a ≤ b := by
  change (if a < b then (-1 : Int) else if b < a then 1 else 0) ≤ 0 ↔ a ≤ b
  rcases lt_trichotomy a b with hlt | heq | hgt
  . simp [hlt, hlt.le]
  . simp [heq]
  . simp [hgt, hgt.asymm, not_le.mpr hgt]

theorem localeCompare_nonneg_iff (a b : String) : 0 ≤ Locale.localeCompare a b ↔ b ≤ a := by
  change 0 ≤ (if a < b then (-1 : Int) else if b < a then 1 else 0) ↔ b ≤ a
  rcases lt_trichotomy a b with hlt | heq | hgt
  . simp [hlt, not_le.mpr hlt]
  . simp [heq]
  . simp [hgt.asymm, hgt, hgt.le]

theorem asciiLocale_consistent : ConsistentLocale where
  swap a b := (localeCompare_nonneg_iff a b).trans (localeCompare_le_iff b a).symm
  trans a b c hab hbc := by
    rw [localeCompare_le_iff] at hab hbc ⊢
    exact le_trans hab hbc

theorem offersWhatItAccepts_example
    : OffersWhatItAccepts GithubAppUserVerificationService.exampleApp 1 (.create "work")
        [
          GithubAppUserVerificationService.exampleInstallation 2 7,
          GithubAppUserVerificationService.exampleInstallation 1 7
        ] "ann" :=
  offersWhatItAccepts asciiLocale_consistent (by decide) (by decide)

end Sample

end Kerghan.Integrations
