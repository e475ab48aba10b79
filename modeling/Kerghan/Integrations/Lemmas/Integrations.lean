import Kerghan.Integrations.Lemmas.Store

/-!
This module contains the proof that the calls of `IntegrationsService`, the connection test and the key
rotation respect the contract.
-/

namespace Kerghan.Integrations

open IntegrationCredentialService IntegrationStoreService

variable {h h' : IntegrationsHistory}

def UpdatedIntegration (h : IntegrationsHistory) : Prop :=
  ∃ p f, ∃ affected : Nat, ran (.update .integrations p f) affected ∈ h

def Effect.updatesIntegrations : Effect → Bool
  | .db (.update .integrations _ _) => true
  | _ => false

def Effect.isOnIntegrations : Effect → Bool
  | .db s => s.table == .integrations
  | _ => false

def Effect.isCapped : Effect → Bool
  | .lockOwner _ | .unlockOwner _ | .db (.count .integrations _) | .db (.insert .integrations _) => true
  | _ => false

theorem not_isOnIntegrations_of_isElsewhere {s : Effect} (hs : s.isElsewhere = true)
    : s.isOnIntegrations = false := by
  cases s with
  | db s =>
    simp only [Effect.isElsewhere, Bool.or_eq_true, beq_iff_eq] at hs
    unfold Effect.isOnIntegrations
    dsimp only
    rcases hs with hs | hs
    . rw [hs]
      rfl
    . rw [hs]
      rfl
  | _ => rfl

theorem not_updates_of_isQuiet {s : Effect} (hs : s.isQuiet = true) : s.updatesIntegrations = false := by
  unfold Effect.updatesIntegrations
  split
  . simp [Effect.isQuiet, Effect.isElsewhere] at hs
  . rfl

section Added

variable {T : Type} {prog : Api T} {Q : IntegrationsHistory → Except Thrown T → Prop}

theorem UpdatedIntegration.of_cons {ev : (s : Effect) × Answer s}
    (hev : ∀ p f, ∀ affected : Nat, ev ≠ ran (.update .integrations p f) affected)
    (hupdated : UpdatedIntegration (ev :: h))
    : UpdatedIntegration h := by
  obtain ⟨p, f, affected, hmem⟩ := hupdated
  rcases List.mem_cons.mp hmem with heq | hold
  . exact absurd heq.symm (hev p f affected)
  . exact ⟨p, f, affected, hold⟩

theorem updatedIntegration_of_added
    (hadded : ∃ newer, h' = newer ++ h ∧ ∀ ev ∈ newer, ev.1.updatesIntegrations = false)
    (hupdated : UpdatedIntegration h')
    : UpdatedIntegration h := by
  obtain ⟨newer, rfl, hnewer⟩ := hadded
  obtain ⟨p, f, affected, hmem⟩ := hupdated
  rcases List.mem_append.mp hmem with hnew | hold
  . exact absurd (hnewer _ hnew) (by simp [Effect.updatesIntegrations])
  . exact ⟨p, f, affected, hold⟩

theorem lastLoaded_of_added
    (hadded : ∃ newer, h' = newer ++ h ∧ ∀ ev ∈ newer, ev.1.isOnIntegrations = false)
    : lastLoaded h' = lastLoaded h := by
  obtain ⟨newer, rfl, hnewer⟩ := hadded
  induction newer with
  | nil => rfl
  | cons ev newer ih =>
    have hrest := ih fun ev hev => hnewer ev (List.mem_cons_of_mem _ hev)
    have hcalm := hnewer ev (List.mem_cons_self ..)
    rw [List.cons_append, ← hrest]
    conv_lhs => unfold lastLoaded
    split
    . next heq => simp at heq
    . next heq =>
      cases heq
      simp [Effect.isOnIntegrations] at hcalm
    . next heq =>
      cases heq
      rfl

theorem elsewhere_keeps (hprog : prog.Meets Answers Elsewhere Q h)
    : prog.Meets Answers Elsewhere (fun h' r =>
        Q h' r ∧ lastLoaded h' = lastLoaded h ∧ (UpdatedIntegration h' → UpdatedIntegration h)) h := by
  refine (hprog.added fun _ _ hs => hs).mono fun h' r _ ⟨hq, newer, heq, hnewer⟩ => ?_
  refine ⟨hq, lastLoaded_of_added ⟨newer, heq, fun ev hev =>
    not_isOnIntegrations_of_isElsewhere (hnewer ev hev)⟩, ?_⟩
  exact updatedIntegration_of_added ⟨newer, heq, fun ev hev =>
    not_updates_of_isQuiet (isQuiet_of_isElsewhere (hnewer ev hev))⟩

theorem quiet_keeps (hprog : prog.Meets Answers Quiet Q h)
    : prog.Meets Answers Quiet (fun h' r => Q h' r ∧ (UpdatedIntegration h' → UpdatedIntegration h)) h := by
  refine (hprog.added fun _ _ hs => not_updates_of_isQuiet hs).mono fun h' r _ ⟨hq, hadded⟩ => ?_
  exact ⟨hq, updatedIntegration_of_added hadded⟩

end Added

variable [Platform] [Crypto] [Locale] {cfg : IntegrationsConfig} {call : IntegrationsCall} {userId : Nat}

section Allowed

variable {T : Type} {prog : Api T} {Q : IntegrationsHistory → Except Thrown T → Prop}

theorem quiet_does (hprog : prog.Meets Answers Quiet Q h) : prog.Meets Answers (Does cfg call) Q h :=
  hprog.imp fun _ _ hs => .quiet hs

theorem elsewhere_does (hprog : prog.Meets Answers Elsewhere Q h) : prog.Meets Answers (Does cfg call) Q h :=
  hprog.imp fun _ _ hs => .quiet (isQuiet_of_isElsewhere hs)

end Allowed

section Credential

omit [Platform] [Crypto] [Locale] in
theorem parse_ok {type : IntegrationType} {credential : Json} {parsed : ParsedCredential}
    (hparsed : parse type credential = .ok parsed)
    : type = .pat ∧ ∃ token, checkCredential credential = .ok token ∧ parsed = .pat token := by
  cases type with
  | pat =>
    unfold parse parsePatCredential at hparsed
    cases hchecked : checkCredential credential with
    | error problem =>
      rw [hchecked] at hparsed
      cases hparsed
    | ok token =>
      rw [hchecked] at hparsed
      cases hparsed
      exact ⟨rfl, token, rfl, rfl⟩
  | _ => cases hparsed

omit [Crypto] [Locale] in
theorem validate_pat_meets {token : String}
    : (validate cfg userId (.pat token)).Meets Answers Elsewhere
        (fun h' r => ∀ validated, r = .ok validated → IsPat h' token validated) h := by
  unfold validate
  refine (attempt_meets (Q := fun h' r => ∀ validated, r = .ok validated → IsPat h' token validated)
    fun h₁ _ _ => PatStrategy.validate_meets.mono fun _ _ _ hq => hq.2).mono fun h' r _ hattempted => ?_
  intro validated heq
  subst heq
  cases hattempted with
  | returned hrun hsuffix _ => exact (hrun validated rfl).mono hsuffix.subset

omit [Crypto] in
theorem assertCreatable_meets {label : String}
    : (IntegrationsService.assertCreatable cfg userId label).Meets Answers Quiet
        (fun h' _ => NothingObtained h h') h := by
  unfold IntegrationsService.assertCreatable
  apply countOwned_meets.bind
  . intro h₁ _ _ hnothing
    split
    . exact hnothing
    . exact assertLabelFree_meets.mono fun _ _ _ hnothing' t ht => hnothing t (hnothing' t ht)
  . intro _ _ _ hnothing
    exact hnothing

end Credential

namespace IntegrationsService

theorem create_does {dto : CreateIntegrationDto}
    : (create cfg userId dto).Meets Answers (Does cfg (.create userId dto)) (fun _ _ => True) h := by
  unfold create
  apply ofExcept_meets.bind
  . intro h₀ parsed _ ⟨hsame, hparsed⟩
    subst hsame
    obtain ⟨htype, token, hchecked, rfl⟩ := parse_ok hparsed.symm
    refine (elsewhere_does assertNotLocked_meets).bind (fun h₁ _ _ _ => ?_) (fun _ _ _ _ => trivial)
    refine (quiet_does assertCreatable_meets).bind (fun h₂ _ _ _ => ?_) (fun _ _ _ _ => trivial)
    refine (elsewhere_does validate_pat_meets).bind (fun h₃ validated _ hpat => ?_) (fun _ _ _ _ => trivial)
    rw [Api.meets_randomUUID]
    refine ⟨.quiet rfl, fun uuid => ?_⟩
    rw [Api.meets_now]
    refine ⟨.quiet rfl, fun now => ?_⟩
    refine (elsewhere_does sealCredential_meets).bind (fun h₄ credential hsuffix hsealed => ?_)
      (fun _ _ _ _ => trivial)
    have hsuffix₃ : h₃ ⊆ h₄ := fun ev hev =>
      hsuffix.subset (List.mem_cons_of_mem _ (List.mem_cons_of_mem _ hev))
    have hvalidated : Validated cfg h₄ (.create userId dto) userId dto.type validated := by
      rw [htype]
      exact .created htype hchecked ((hpat validated rfl).mono hsuffix₃)
    refine (insertWithinCap_meets cfg (fun _ _ hs => .quiet hs) fun h₅ hsuffix' => ?_).mono
      fun _ _ _ _ => trivial
    have huuid : ⟨.randomUUID, uuid⟩ ∈ h₄ :=
      hsuffix.subset (List.mem_cons_of_mem _ (List.mem_cons_self ..))
    exact .insert (hvalidated.mono cfg hsuffix'.subset) (hsuffix'.subset huuid) (hsealed.2 credential rfl)
  . intro _ _ _ _
    trivial

theorem rename_does {uuid label : String}
    : (rename userId uuid label).Meets Answers (Does cfg (.rename userId uuid label))
        (fun _ _ => True) h := by
  unfold rename
  refine (quiet_does findOwned_meets).bind (fun h₁ row _ _ => ?_) (fun _ _ _ _ => trivial)
  refine (quiet_does assertLabelFree_meets).bind (fun h₂ _ _ _ => ?_) (fun _ _ _ _ => trivial)
  exact (updateOwned_meets .rename).mono fun _ _ _ _ => trivial

theorem replaceCredential_does {uuid : String} {credential : Json}
    : (replaceCredential cfg userId uuid credential).Meets Answers
        (Does cfg (.replaceCredential userId uuid credential)) (fun _ _ => True) h := by
  unfold replaceCredential
  refine (quiet_does findOwned_meets).bind (fun h₁ row _ hfound => ?_) (fun _ _ _ _ => trivial)
  apply ofExcept_meets.bind
  . intro h₀ parsed _ ⟨hsame, hparsed⟩
    subst hsame
    obtain ⟨htype, token, hchecked, rfl⟩ := parse_ok hparsed.symm
    have hmem : Loaded h₀ userId uuid row := by
      rw [hfound.2 row rfl]
      exact List.mem_cons_self ..
    have hlast : lastLoaded h₀ = some row := by
      rw [hfound.2 row rfl]
      rfl
    refine (elsewhere_does (elsewhere_keeps assertNotLocked_meets)).bind
      (fun h₂ _ hsuffix₂ hkeeps₂ => ?_) (fun _ _ _ _ => trivial)
    refine (elsewhere_does (elsewhere_keeps validate_pat_meets)).bind
      (fun h₃ validated hsuffix₃ hkeeps₃ => ?_) (fun _ _ _ _ => trivial)
    refine (elsewhere_does (elsewhere_keeps sealCredential_meets)).bind
      (fun h₄ sealed hsuffix₄ hkeeps₄ => ?_) (fun _ _ _ _ => trivial)
    rw [Api.meets_now]
    refine ⟨.quiet rfl, fun now => ?_⟩
    refine (updateOwned_meets ?_).mono fun _ _ _ _ => trivial
    have hsub : h₄ ⊆ clock now :: h₄ := List.subset_cons_self ..
    have hloaded : Loaded (clock now :: h₄) userId uuid row :=
      hsub (hsuffix₄.subset (hsuffix₃.subset (hsuffix₂.subset hmem)))
    have hlast₄ : lastLoaded (clock now :: h₄) = some row :=
      hkeeps₄.2.1.trans (hkeeps₃.2.1.trans (hkeeps₂.2.1.trans hlast))
    have hvalidated : Validated cfg (clock now :: h₄) (.replaceCredential userId uuid credential) userId
        row.type validated := by
      rw [htype]
      exact .replaced hchecked (((hkeeps₃.1 validated rfl).mono hsuffix₄.subset).mono hsub)
    exact .replace hvalidated hloaded rfl hloaded hlast₄ (hkeeps₄.1.2 sealed rfl)
  . intro _ _ _ _
    trivial

omit [Platform] [Locale] in
theorem cleanUp_meets {row : Integration}
    : (cleanUp cfg row).Meets Answers Elsewhere (fun h' _ => CleanedUp cfg h' row) h := by
  have hguarded {body : Api Unit}
      (hbody : body.Meets Answers Elsewhere (fun h' r => r = .ok () ∧ CleanedUp cfg h' row) h)
      : (tryCatch body fun _ => pure ()).Meets Answers Elsewhere (fun h' _ => CleanedUp cfg h' row) h := by
    refine hbody.tryCatch (fun _ _ _ hq => hq.2) fun _ _ _ hq => ?_
    simp at hq
  unfold cleanUp
  apply hguarded
  split
  . next htype =>
    rw [htype]
    unfold OauthAppStrategy.onDelete
    split
    . next token hsecret =>
      refine OauthAppRevocationService.revoke_meets.mono ?_
      rintro h' r _ ⟨heq, _, hrevoked⟩
      refine ⟨heq, ?_⟩
      intro token' app _ hsecret' happ hclient
      cases hsecret.symm.trans hsecret'
      exact hrevoked app happ hclient
    . next hother => exact ⟨rfl, fun token app _ hsecret _ _ => absurd hsecret (hother token)⟩
  . next hpat => exact ⟨rfl, fun _ _ htype => by simp [hpat] at htype⟩
  . next hgithubApp => exact ⟨rfl, fun _ _ htype => by simp [hgithubApp] at htype⟩

theorem delete_does {uuid : String}
    : (delete cfg userId uuid).Meets Answers (Does cfg (.delete userId uuid)) (fun _ _ => True) h := by
  unfold delete
  refine (quiet_does findOwned_meets).bind (fun h₁ row _ hfound => ?_) (fun _ _ _ _ => trivial)
  refine (elsewhere_does (elsewhere_keeps cleanUp_meets)).bind (fun h₂ _ _ hkeeps => ?_)
    (fun _ _ _ _ => trivial)
  unfold deleteOwned
  rw [Api.meets_query]
  refine ⟨.delete ?_ hkeeps.1, fun _ _ => trivial, fun _ => trivial⟩
  rw [hkeeps.2.1, hfound.2 row rfl]
  rfl

end IntegrationsService

namespace IntegrationConnectionTestService

theorem reencryptIfPrevious_does {uuid : String} {row : Integration} (hread : Read h row)
    : (reencryptIfPrevious cfg row).Meets Answers (Does cfg (.test userId uuid))
        (fun h' r => lastLoaded h' = lastLoaded h ∧ ∀ row', r = .ok row' →
          ∃ encrypted, row' = { row with secret := encrypted }) h := by
  unfold reencryptIfPrevious
  dsimp only
  split
  . next hprevious =>
    have hkey : row.secret.keyId ≠ cfg.keys.current.keyId := by
      intro heq
      simp [IntegrationsEncryptionService.isPreviousKeyId, IntegrationsEncryptionService.isCurrentKeyId,
        heq] at hprevious
    apply (elsewhere_does (elsewhere_keeps reencrypt_meets)).bind
    . intro h₁ encrypted hsuffix hkeeps
      cases encrypted with
      | none => exact ⟨hkeeps.2.1, fun row' heq => ⟨row.secret, (Except.ok.inj heq).symm⟩⟩
      | some encrypted =>
        obtain ⟨plaintext, iv, hplaintext, heq⟩ := hkeeps.1 encrypted rfl
        subst heq
        have hread₁ : Read h₁ row := by
          rcases hread with ⟨p, rank, hmem⟩ | ⟨p, rows, hmem, hrow⟩
          . exact Or.inl ⟨p, rank, hsuffix.subset hmem⟩
          . exact Or.inr ⟨p, rows, hsuffix.subset hmem, hrow⟩
        dsimp only
        unfold rewriteSecret
        rw [Prog.bind_assoc, Api.meets_query]
        refine ⟨.rewrite (Or.inl ⟨userId, uuid, rfl⟩) hread₁ hkey hplaintext, fun affected _ => ?_,
          fun _ => ⟨hkeeps.2.1, by simp⟩⟩
        split
        . exact ⟨hkeeps.2.1, fun row' heq => ⟨row.secret, (Except.ok.inj heq).symm⟩⟩
        . exact ⟨hkeeps.2.1, fun row' heq => ⟨_, (Except.ok.inj heq).symm⟩⟩
    . intro h₁ e _ hkeeps
      exact ⟨hkeeps.2.1, by simp⟩
  . exact ⟨rfl, fun row' heq => ⟨row.secret, (Except.ok.inj heq).symm⟩⟩

theorem record_does {uuid : String} {row : Integration} {encrypted : EncryptedSecret} {secret : Payload}
    {events : IntegrationsHistory} {outcome : TestOutcome} {now : Date} (hlast : lastLoaded h = some row)
    (hsecret : decryptRow cfg.keys row.type row = some secret)
    (htested : (testSecret cfg secret { row with secret := encrypted }).Returns events (.ok outcome))
    (hevents : events ⊆ h)
    : (record { row with secret := encrypted } outcome now).Meets Answers (Does cfg (.test userId uuid))
        (fun _ _ => True) h := by
  have hupdate : ∀ changes : (Date → Date) → Integration → Integration,
      Records row.type (toDatetime now) outcome (changes toDatetime) →
      (updateOwned { row with secret := encrypted } changes).Meets Answers (Does cfg (.test userId uuid))
        (fun _ _ => True) h := by
    intro changes hrecords
    have hdoes : Does cfg (.test userId uuid) h
        (.db (updateIntegration row.id row.userId (changes toDatetime))) :=
      .record hlast hsecret htested hevents hrecords
    refine (updateOwned_meets ?_).mono fun _ _ _ _ => trivial
    exact hdoes
  unfold record
  split
  . next githubLogin expiresAt metadata =>
    apply ofExcept_meets.bind
    . intro h₁ described _ ⟨hsame, hdescribed⟩
      subst hsame
      exact hupdate _ (.active hdescribed.symm)
    . intro _ _ _ _
      trivial
  . exact hupdate _ .invalid
  . exact hupdate _ .expired
  . apply (hupdate _ .transient).bind
    . intro _ _ _ _
      split <;> trivial
    . intro _ _ _ _
      trivial

theorem test_does {uuid : String}
    : (test cfg userId uuid).Meets Answers (Does cfg (.test userId uuid)) (fun _ _ => True) h := by
  unfold test
  refine (quiet_does findOwned_meets).bind (fun h₁ row _ hfound => ?_) (fun _ _ _ _ => trivial)
  have hh₁ := hfound.2 row rfl
  rw [Api.meets_now]
  refine ⟨.quiet rfl, fun now => ?_⟩
  unfold IntegrationTestCooldownService.claim
  rw [Prog.bind_assoc, Api.meets_query]
  refine ⟨.claim, fun affected _ => ?_, fun _ => trivial⟩
  split
  . rw [Prog.pure_bind]
    have hlast : lastLoaded (ran (claimTest row.uuid userId now
        (now - IntegrationTestCooldownService.cooldownMs cfg)) affected :: clock now :: h₁) = some row := by
      rw [hh₁]
      rfl
    have hread : Read (ran (claimTest row.uuid userId now
        (now - IntegrationTestCooldownService.cooldownMs cfg)) affected :: clock now :: h₁) row := by
      rw [hh₁]
      exact Or.inl ⟨_, _, List.mem_cons_of_mem _ (List.mem_cons_of_mem _ (List.mem_cons_self ..))⟩
    dsimp only
    split
    . next hsecret =>
      exact (updateOwned_meets (.undecryptable hlast hsecret)).mono fun _ _ _ _ => trivial
    . next secret hsecret =>
      refine (reencryptIfPrevious_does hread).bind (fun h₂ row' _ hrow => ?_) (fun _ _ _ _ => trivial)
      obtain ⟨encrypted, rfl⟩ := hrow.2 row' rfl
      refine (elsewhere_does (elsewhere_keeps testSecret_meets).returns).bind
        (fun h₃ outcome _ ⟨hkeeps, events, hh₃, htested⟩ => ?_) (fun _ _ _ _ => trivial)
      refine record_does ((hkeeps.2.1.trans hrow.1).trans hlast) hsecret htested ?_
      intro ev hev
      rw [hh₃]
      exact List.mem_append_left _ (List.mem_reverse.mpr hev)
  . unfold IntegrationTestCooldownService.remainingSeconds
    simp only [Prog.bind_assoc]
    rw [Api.meets_query]
    refine ⟨.quiet rfl, fun found _ => ?_, fun _ => trivial⟩
    cases found <;> trivial

end IntegrationConnectionTestService

namespace IntegrationsKeyRotationService

/--
The rows of a batch have been read, and their secrets are under a previous key.
-/
abbrev Batch (cfg : IntegrationsConfig) (h : IntegrationsHistory) (rows : List Integration) : Prop :=
  ∀ row ∈ rows, Read h row ∧ row.secret.keyId ≠ cfg.keys.current.keyId

theorem reencryptRows_does {batches : Nat} {rows : List Integration} {result : ReencryptResult}
    (hrows : Batch cfg h rows)
    : (reencryptRows cfg rows result).Meets Answers (Does cfg (.reencrypt batches)) (fun _ _ => True) h := by
  induction rows generalizing h result with
  | nil => trivial
  | cons row rows ih =>
    unfold reencryptRows reencryptRow
    have hmono : ∀ {h₁ row}, h <:+ h₁ → Read h row → Read h₁ row := by
      intro h₁ row hsuffix hread
      rcases hread with ⟨p, rank, hmem⟩ | ⟨p, rows, hmem, hrow⟩
      . exact Or.inl ⟨p, rank, hsuffix.subset hmem⟩
      . exact Or.inr ⟨p, rows, hsuffix.subset hmem, hrow⟩
    have hrest : ∀ {h₁ result}, h <:+ h₁ → (reencryptRows cfg rows result).Meets Answers
        (Does cfg (.reencrypt batches)) (fun _ _ => True) h₁ := by
      intro h₁ result hsuffix
      refine ih fun row' hrow' => ?_
      obtain ⟨hread, hkey⟩ := hrows row' (List.mem_cons_of_mem _ hrow')
      exact ⟨hmono hsuffix hread, hkey⟩
    simp only [Prog.bind_assoc]
    refine (elsewhere_does reencrypt_meets).bind (fun h₁ encrypted hsuffix hencrypted => ?_)
      (fun _ _ _ _ => trivial)
    cases encrypted with
    | none => exact hrest hsuffix
    | some encrypted =>
      obtain ⟨plaintext, iv, hplaintext, heq⟩ := hencrypted encrypted rfl
      subst heq
      obtain ⟨hread, hkey⟩ := hrows row (List.mem_cons_self ..)
      dsimp only
      simp only [Prog.bind_assoc]
      refine (rewriteSecret_meets (.rewrite (Or.inr ⟨batches, rfl⟩) (hmono hsuffix hread) hkey
        hplaintext)).bind (fun h₂ rewritten hsuffix' _ => ?_) (fun _ _ _ _ => trivial)
      cases rewritten with
      | none => exact hrest (hsuffix.trans hsuffix')
      | some row' => exact hrest (hsuffix.trans hsuffix')

theorem reencryptFrom_does {fuel batches afterId : Nat} {result : ReencryptResult}
    : (reencryptFrom cfg afterId result fuel).Meets Answers (Does cfg (.reencrypt batches))
        (fun _ _ => True) h := by
  induction fuel generalizing h afterId result with
  | zero => trivial
  | succ fuel ih =>
    unfold reencryptFrom
    refine (quiet_does findBySecretKeyIdsForOperator_meets).bind (fun h₁ batch _ hbatch => ?_)
      (fun _ _ _ _ => trivial)
    have hrows : Batch cfg h₁ batch := by
      intro row hrow
      obtain ⟨hread, hkey⟩ := hbatch batch rfl row hrow
      refine ⟨hread, fun heq => ?_⟩
      rw [heq] at hkey
      exact (List.nodup_cons.mp cfg.keys.distinct).1 hkey
    refine (reencryptRows_does hrows).bind (fun h₂ result' _ _ => ?_) (fun _ _ _ _ => trivial)
    split
    . exact ih
    . trivial

end IntegrationsKeyRotationService

end Kerghan.Integrations
