import Kerghan.Integrations.CoolOff.Burst
import Kerghan.Integrations.Lemmas.Installation

/-!
This module contains what a call has done once it has checked the cool-off, looked an integration up, sealed
a credential or stored it.
-/

namespace Kerghan.Integrations

open IntegrationCredentialAbuseGuardService IntegrationCredentialService IntegrationStoreService

/--
No token has been given to the call since `h`.
-/
abbrev NothingObtained (h h' : IntegrationsHistory) : Prop :=
  ∀ token, Obtained h' token → Obtained h token

theorem nothingObtained_of_added {h h' : IntegrationsHistory}
    (hadded : ∃ newer, h' = newer ++ h ∧ ∀ ev ∈ newer, ∀ request, ev.1 ≠ Effect.exchangeOauthCode request)
    : NothingObtained h h' := by
  obtain ⟨newer, rfl, hnewer⟩ := hadded
  intro token ⟨request, answer, hmem, htoken⟩
  rcases List.mem_append.mp hmem with hnew | hold
  . exact absurd rfl (hnewer _ hnew request)
  . exact ⟨request, answer, hold, htoken⟩

variable [Platform] {h : IntegrationsHistory}

section Attempt

variable {cfg : IntegrationsConfig} {userId : Nat} {T : Type}

omit [Platform] in
theorem assertNotLocked_meets
    : (assertNotLocked userId).Meets Answers Elsewhere (fun h' _ => NothingObtained h h') h := by
  unfold assertNotLocked isLockedOut
  rw [Prog.bind_assoc, Api.meets_query]
  refine ⟨rfl, fun lockout _ => ?_, fun _ t ht => ht.of_cons (by simp)⟩
  cases lockout with
  | none => exact fun t ht => ht.of_cons (by simp)
  | some lockout =>
    dsimp only
    split
    . exact fun t ht => ht.of_cons (by simp)
    . rw [Prog.bind_assoc, Api.meets_now]
      refine ⟨rfl, fun now => ?_⟩
      rw [Prog.pure_bind]
      split
      . exact fun t ht => (ht.of_cons (by simp)).of_cons (by simp)
      . exact fun t ht => (ht.of_cons (by simp)).of_cons (by simp)

theorem reserveAttempt_meets
    : (reserveAttempt cfg userId).Meets Answers Elsewhere (fun h' _ => NothingObtained h h') h := by
  have hmeets : (reserveAttempt cfg userId).Meets Answers (Reserves cfg userId) (fun _ _ => True) h :=
    reserveAttempt_reserves
  have hreserves := hmeets.added
    (P := fun s => s.isElsewhere = true ∧ ∀ request, s ≠ .exchangeOauthCode request) ?_
  . refine (hreserves.imp ?_).mono fun h' _ _ ⟨_, newer, heq, hnewer⟩ =>
      nothingObtained_of_added ⟨newer, heq, fun ev hev => (hnewer ev hev).2⟩
    intro _ _ hs
    cases hs <;> rfl
  . intro _ _ hs
    cases hs <;> exact ⟨rfl, by simp⟩

omit [Platform] in
theorem settleFailure_meets {error : Thrown}
    : (settleFailure userId error).Meets Answers Elsewhere (fun h' _ => NothingObtained h h') h := by
  have hrelease : ∀ e : Thrown, (do
      releaseAttempt userId
      pure e : Api Thrown).Meets Answers Elsewhere (fun h' _ => NothingObtained h h') h := by
    intro e
    unfold releaseAttempt
    rw [Prog.bind_assoc, Api.meets_query]
    exact ⟨rfl, fun _ _ t ht => ht.of_cons (by simp), fun _ t ht => ht.of_cons (by simp)⟩
  unfold settleFailure
  split
  . split
    . exact ⟨rfl, fun _ _ t ht => ht.of_cons (by simp)⟩
    . exact hrelease _
  . exact hrelease _

/--
What can become of an attempt: it may be refused, or what it runs may return or throw, or what it runs may
return while the cool-off cannot be settled.
-/
inductive Attempted (userId : Nat) (resetsCoolOff : T → Bool) (Q : IntegrationsHistory → Except Thrown T → Prop)
    (h h' : IntegrationsHistory) : Except Thrown T → Prop where
  | refused {e : Thrown} (hnothing : NothingObtained h h') : Attempted userId resetsCoolOff Q h h' (.error e)
  | returned {h₁ : IntegrationsHistory} {v : T} (hrun : Q h₁ (.ok v)) (hsuffix : h₁ <:+ h')
    (hnothing : NothingObtained h₁ h')
    : Attempted userId resetsCoolOff Q h h' (.ok v)
  | threw {h₁ : IntegrationsHistory} {e e' : Thrown} (hrun : Q h₁ (.error e)) (hsuffix : h₁ <:+ h')
    (hnothing : NothingObtained h₁ h')
    : Attempted userId resetsCoolOff Q h h' (.error e')
  | unsettled {h₁ : IntegrationsHistory} {v : T} {e : DbError} {e' : Thrown} (hrun : Q h₁ (.ok v))
    (hsuffix : h₁ <:+ h') (hnothing : NothingObtained h₁ h')
    (hfailed : failed (if resetsCoolOff v then resetLockout userId else releaseAttemptSql userId) e ∈ h')
    : Attempted userId resetsCoolOff Q h h' (.error e')

theorem attempt_meets {run : Api T} {resetsCoolOff : T → Bool}
    {Q : IntegrationsHistory → Except Thrown T → Prop}
    (hrun : ∀ h₁, h <:+ h₁ → NothingObtained h h₁ → run.Meets Answers Elsewhere Q h₁)
    : (attempt cfg userId run resetsCoolOff).Meets Answers Elsewhere
        (fun h' r => Attempted userId resetsCoolOff Q h h' r) h := by
  unfold attempt
  apply reserveAttempt_meets.bind
  . intro h₁ reserved hsuffix hnothing
    split
    . apply (outcome_meets (hrun h₁ hsuffix hnothing)).bind
      . intro h₂ result hsuffix' ⟨result', heq, hq⟩
        cases heq
        cases result with
        | ok v =>
          dsimp only
          unfold settle reset releaseAttempt
          split
          . next hresets =>
            simp only [Prog.bind_assoc]
            rw [Api.meets_query]
            refine ⟨rfl, fun _ _ => ?_, fun e => ?_⟩
            . exact .returned hq (List.suffix_cons ..) fun t ht => ht.of_cons (by simp)
            . refine .unsettled hq (List.suffix_cons ..) (fun t ht => ht.of_cons (by simp)) (e := e) ?_
              rw [if_pos hresets]
              exact List.mem_cons_self ..
          . next hreleases =>
            simp only [Prog.bind_assoc]
            rw [Api.meets_query]
            refine ⟨rfl, fun _ _ => ?_, fun e => ?_⟩
            . exact .returned hq (List.suffix_cons ..) fun t ht => ht.of_cons (by simp)
            . refine .unsettled hq (List.suffix_cons ..) (fun t ht => ht.of_cons (by simp)) (e := e) ?_
              rw [if_neg hreleases]
              exact List.mem_cons_self ..
        | error error =>
          dsimp only
          apply settleFailure_meets.bind
          . intro h₃ e hsuffix'' hnothing'
            exact .threw hq hsuffix'' hnothing'
          . intro h₃ e hsuffix'' hnothing'
            exact .threw hq hsuffix'' hnothing'
      . intro h₂ e _ ⟨_, heq, _⟩
        simp at heq
    . exact .refused hnothing
  . intro h₁ e _ hnothing
    exact .refused hnothing

end Attempt

section Seal

variable [Crypto] {keys : IntegrationsKey}

omit [Platform] in
theorem encryptBuffer_meets {plaintext uuid : String} {type : IntegrationType}
    : (IntegrationsEncryptionService.encryptBuffer keys plaintext uuid type).Meets Answers Elsewhere
        (fun h' r => NothingObtained h h' ∧ ∃ iv, r = .ok (encryptedAs keys plaintext uuid type iv)) h :=
  ⟨rfl, fun iv _ => ⟨fun t ht => ht.of_cons (by simp), iv, rfl⟩⟩

omit [Platform] in
theorem sealCredential_meets {type : IntegrationType} {validated : ValidatedCredential} {uuid : String}
    : (sealCredential keys type validated uuid).Meets Answers Elsewhere
        (fun h' r => NothingObtained h h' ∧
          ∀ credential, r = .ok credential → SealedAs keys type validated uuid credential) h := by
  unfold sealCredential IntegrationsEncryptionService.encrypt
  apply encryptBuffer_meets.bind
  . intro h₁ encrypted _ ⟨hnothing, iv, heq⟩
    cases heq
    apply ofExcept_meets.bind
    . intro h₂ metadata _ ⟨hsame, hmetadata⟩
      subst hsame
      refine ⟨hnothing, fun credential heq => ?_⟩
      cases heq
      exact ⟨⟨iv, rfl⟩, rfl, rfl, hmetadata.symm⟩
    . intro h₂ e _ ⟨hsame, _⟩
      subst hsame
      exact ⟨hnothing, by simp⟩
  . intro _ _ _ ⟨_, _, heq⟩
    simp at heq

omit [Platform] in
theorem reencrypt_meets {secret : EncryptedSecret} {uuid : String} {type : IntegrationType}
    : (IntegrationsEncryptionService.reencrypt keys secret uuid type).Meets Answers Elsewhere
        (fun _ r => ∀ encrypted, r = .ok (some encrypted) → ∃ plaintext iv,
          IntegrationsEncryptionService.decryptBuffer keys secret uuid type = some plaintext
            ∧
          encrypted = encryptedAs keys plaintext uuid type iv) h := by
  unfold IntegrationsEncryptionService.reencrypt
  split
  . simp
  . next plaintext hplaintext =>
    refine encryptBuffer_meets.map ?_ ?_
    . intro _ encrypted ⟨_, iv, heq⟩ encrypted' heq'
      cases heq
      cases heq'
      exact ⟨plaintext, iv, hplaintext, rfl⟩
    . simp

end Seal

section Store

abbrev Quiet : IntegrationsHistory → Effect → Prop :=
  fun _ s => s.isQuiet = true

variable {C : IntegrationsHistory → Effect → Prop} {userId : Nat}

omit [Platform] in
theorem isQuiet_of_isElsewhere {s : Effect} (hs : s.isElsewhere = true) : s.isQuiet = true := by
  cases s with
  | db s => exact Bool.or_eq_true_iff.mpr (Or.inr hs)
  | _ => rfl

theorem findOwned_meets {uuid : String}
    : (findOwned userId uuid).Meets Answers Quiet
        (fun h' r => NothingObtained h h' ∧ ∀ row, r = .ok row →
          h' = ran (findIntegration uuid userId) (some row) :: h) h := by
  unfold findOwned
  split
  . rw [Api.meets_query]
    refine ⟨rfl, fun row _ => ?_, fun _ => ⟨fun t ht => ht.of_cons (by simp), by simp⟩⟩
    cases row with
    | none => exact ⟨fun t ht => ht.of_cons (by simp), by simp⟩
    | some row =>
      refine ⟨fun t ht => ht.of_cons (by simp), fun row' heq => ?_⟩
      cases heq
      rfl
  . exact ⟨fun t ht => ht, by simp⟩

omit [Platform] in
theorem countOwned_meets
    : (countOwned userId).Meets Answers Quiet (fun h' _ => NothingObtained h h') h :=
  Api.meets_last.mpr ⟨rfl, fun _ _ t ht => ht.of_cons (by simp), fun _ t ht => ht.of_cons (by simp)⟩

theorem assertLabelFree_meets {labelNormalized : String} {exceptId : Option Nat}
    : (assertLabelFree userId labelNormalized exceptId).Meets Answers Quiet
        (fun h' _ => NothingObtained h h') h := by
  unfold assertLabelFree
  rw [Api.meets_query]
  refine ⟨rfl, fun holder _ => ?_, fun _ t ht => ht.of_cons (by simp)⟩
  cases holder with
  | none => exact fun t ht => ht.of_cons (by simp)
  | some holder =>
    dsimp only
    split
    . exact fun t ht => ht.of_cons (by simp)
    . exact fun t ht => ht.of_cons (by simp)

omit [Platform] in
theorem guardLabelRace_meets {T : Type} {write : Api T} {Q : IntegrationsHistory → Except Thrown T → Prop}
    (hwrite : write.Meets Answers C Q h)
    : (guardLabelRace write).Meets Answers C
        (fun h' r => Q h' r ∨ ∃ e e', Q h' (.error e) ∧ r = .error e') h := by
  unfold guardLabelRace
  refine hwrite.tryCatch (fun _ _ _ hq => Or.inl hq) fun h' e _ hq => ?_
  split
  . exact Or.inr ⟨e, _, hq, rfl⟩
  . exact Or.inl hq

theorem insertWithinCap_meets (cfg : IntegrationsConfig) {mk : (Date → Date) → Nat → Integration} {maxPerUser : Int}
    (hquiet : ∀ h s, Effect.isQuiet s = true → C h s)
    (hinsert : ∀ h', h <:+ h' → C h' (.db (insertIntegration (mk toDatetime))))
    : (insertWithinCap userId mk maxPerUser).Meets Answers C
        (fun h' r => NothingObtained h h' ∧
          ∀ row, r = .ok row → ∃ stored, ran (insertIntegration (mk toDatetime)) stored ∈ h') h := by
  -- what is done under the lock, from any later history
  have hbody : ∀ h₁, h <:+ h₁ → (do
      if (← countOwned userId) ≥ maxPerUser then
        throw limitReached
      else
        let row : Integration ← Api.query (insertIntegration (mk toDatetime))
        pure (mk id row.id) : Api Integration).Meets Answers C
      (fun h' r => NothingObtained h₁ h' ∧
        ∀ row, r = .ok row → ∃ stored, ran (insertIntegration (mk toDatetime)) stored ∈ h') h₁ := by
    intro h₁ hsuffix
    apply (countOwned_meets.imp fun _ _ hs => hquiet _ _ hs).bind
    . intro h₂ _ hsuffix' hnothing
      split
      . exact ⟨hnothing, by simp⟩
      . rw [Api.meets_query]
        refine ⟨hinsert _ (hsuffix.trans hsuffix'), fun row _ => ?_,
          fun _ => ⟨fun t ht => hnothing t (ht.of_cons (by simp)), by simp⟩⟩
        refine ⟨fun t ht => hnothing t (ht.of_cons (by simp)), fun row' heq => ?_⟩
        exact ⟨row, List.mem_cons_self ..⟩
    . exact fun _ _ _ hnothing => ⟨hnothing, by simp⟩
  have htransaction : (transaction userId do
      if (← countOwned userId) ≥ maxPerUser then
        throw limitReached
      else
        let row : Integration ← Api.query (insertIntegration (mk toDatetime))
        pure (mk id row.id)).Meets Answers C
      (fun h' r => NothingObtained h h' ∧
        ∀ row, r = .ok row → ∃ stored, ran (insertIntegration (mk toDatetime)) stored ∈ h') h := by
    unfold transaction
    have hmeets : (ensureLockoutRow userId).Meets Answers (Reserves cfg userId)
        (fun h' _ => capturedNow h' = capturedNow h) h := ensureLockoutRow_reserves
    have hensure := hmeets.added
      (P := fun s => s.isQuiet = true ∧ ∀ request, s ≠ .exchangeOauthCode request) ?_
    . refine (hensure.imp ?_).bind ?_ ?_
      . intro _ _ hs
        cases hs with
        | now => exact hquiet _ _ rfl
        | ensure => exact hquiet _ _ rfl
        | reserve => exact hquiet _ _ rfl
      . intro h₁ _ hsuffix ⟨_, hadded⟩
        have hnothing : NothingObtained h h₁ := by
          obtain ⟨newer, heq, hnewer⟩ := hadded
          exact nothingObtained_of_added ⟨newer, heq, fun ev hev => (hnewer ev hev).2⟩
        unfold lockOwner
        rw [Prog.bind_assoc, Prog.perform_bind]
        refine ⟨hquiet _ _ rfl, fun answer _ => ?_⟩
        cases answer with
        | error e => exact ⟨fun t ht => hnothing t (ht.of_cons (by simp)), by simp⟩
        | ok =>
          dsimp only
          rw [Prog.pure_bind]
          apply (outcome_meets (hbody _ (hsuffix.trans (List.suffix_cons ..)))).bind
          . intro h₂ result _ ⟨result', heq, hnothing', hinserted⟩
            cases heq
            rw [Prog.perform_bind]
            refine ⟨hquiet _ _ rfl, fun _ _ => ?_⟩
            refine ofExcept_meets.mono fun h₃ r _ ⟨hsame, hr⟩ => ?_
            subst hsame
            subst hr
            refine ⟨fun t ht => ?_, fun row heq => ?_⟩
            . exact hnothing t ((hnothing' t (ht.of_cons (by simp))).of_cons (by simp))
            . obtain ⟨stored, hmem⟩ := hinserted row heq
              exact ⟨stored, List.mem_cons_of_mem _ hmem⟩
          . intro _ _ _ ⟨_, heq, _⟩
            simp at heq
      . intro h₁ e _ ⟨_, newer, heq, hnewer⟩
        exact ⟨nothingObtained_of_added ⟨newer, heq, fun ev hev => (hnewer ev hev).2⟩, by simp⟩
    . intro _ _ hs
      cases hs <;> exact ⟨rfl, by simp⟩
  -- an insert that loses the race for the label only ends with another error
  refine (guardLabelRace_meets htransaction).mono fun h' r _ hq => ?_
  rcases hq with hq | ⟨e, e', hq, rfl⟩
  . exact hq
  . exact ⟨hq.1, by simp⟩

omit [Platform] in
theorem updateOwned_meets {row : Integration} {changes : (Date → Date) → Integration → Integration}
    (hupdate : C h (.db (updateIntegration row.id row.userId (changes toDatetime))))
    : (updateOwned row changes).Meets Answers C
        (fun h' r =>
          (∃ affected : Nat, h' = ran (updateIntegration row.id row.userId (changes toDatetime)) affected :: h ∧
            r = .ok (changes id row))
            ∨
          ∃ e e', h' = failed (updateIntegration row.id row.userId (changes toDatetime)) e :: h ∧ r = .error e') h := by
  unfold updateOwned
  have hwrite : (Api.query (updateIntegration row.id row.userId (changes toDatetime))).Meets Answers C
      (fun h' r =>
        (∃ affected : Nat, h' = ran (updateIntegration row.id row.userId (changes toDatetime)) affected :: h ∧
          r = .ok affected)
          ∨
        ∃ e e', h' = failed (updateIntegration row.id row.userId (changes toDatetime)) e :: h ∧ r = .error e') h :=
    Api.meets_last.mpr ⟨hupdate, fun affected _ => Or.inl ⟨affected, rfl, rfl⟩,
      fun e => Or.inr ⟨e, _, rfl, rfl⟩⟩
  apply (guardLabelRace_meets hwrite).bind
  . intro h' affected _ hq
    rcases hq with (⟨affected', hran, _⟩ | ⟨_, _, _, heq⟩) | ⟨_, _, _, heq⟩
    . exact Or.inl ⟨affected', hran, rfl⟩
    . simp at heq
    . simp at heq
  . intro h' e _ hq
    rcases hq with (⟨_, _, heq⟩ | ⟨e', _, hran, _⟩) | ⟨_, _, ⟨_, _, heq⟩ | ⟨e', _, hran, _⟩, _⟩
    . simp at heq
    . exact Or.inr ⟨e', e, hran, rfl⟩
    . simp at heq
    . exact Or.inr ⟨e', e, hran, rfl⟩

omit [Platform] in
theorem rewriteSecret_meets {row : Integration} {encrypted : EncryptedSecret} {expectedKeyId : String}
    (hrewrite : C h (.db (rewriteSecretSql row.id row.userId expectedKeyId encrypted)))
    : (rewriteSecret row encrypted expectedKeyId).Meets Answers C
        (fun _ r => ∀ row', r = .ok (some row') → row' = { row with secret := encrypted }) h := by
  unfold rewriteSecret
  rw [Api.meets_query]
  refine ⟨hrewrite, fun affected _ => ?_, fun _ => by simp⟩
  split
  . simp
  . intro row' heq
    cases heq
    rfl

omit [Platform] in
theorem findBySecretKeyIdsForOperator_meets {keyIds : List String} {afterId limit : Nat}
    : (findBySecretKeyIdsForOperator keyIds afterId limit).Meets Answers Quiet
        (fun h' r => ∀ rows, r = .ok rows → ∀ row ∈ rows,
          Read h' row ∧ row.secret.keyId ∈ keyIds) h := by
  unfold findBySecretKeyIdsForOperator
  split
  . intro rows heq row hrow
    cases heq
    exact absurd hrow List.not_mem_nil
  . rw [Api.meets_query]
    refine ⟨rfl, fun found hfound => ?_, by simp⟩
    intro rows heq row hrow
    cases heq
    have hmem : row ∈ (found : List Integration) :=
      (List.mem_insertionSort _).mp (List.mem_of_mem_take hrow)
    obtain ⟨hkey, _⟩ := Bool.and_eq_true_iff.mp (hfound row hmem)
    exact ⟨Or.inr ⟨_, found, List.mem_cons_self .., hmem⟩, List.contains_iff_mem.mp hkey⟩

end Store

end Kerghan.Integrations
