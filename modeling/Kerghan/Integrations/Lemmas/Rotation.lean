import Kerghan.Integrations.Lemmas.Integrations
import Kerghan.Store.Paging

/-!
This module contains what a re-encryption visits and counts, and that it writes to what it has visited only.
-/

namespace Kerghan.Integrations

open IntegrationStoreService IntegrationsKeyRotationService IntegrationsEncryptionService

def visited : IntegrationsHistory → List Integration
  | [] => []
  | ⟨.db (.all .integrations _), .ok rows⟩ :: h =>
    visited h ++ Paging.page Integration.id REENCRYPT_BATCH_SIZE rows
  | _ :: h => visited h

def Effect.readsBatch : Effect → Bool
  | .db (.all .integrations _) => true
  | _ => false

theorem visited_cases (ev : (s : Effect) × Answer s) (h : IntegrationsHistory)
    : (ev.1.readsBatch = true ∧ ∃ p rows, ev = ran (.all .integrations p) rows ∧
        visited (ev :: h) = visited h ++ Paging.page Integration.id REENCRYPT_BATCH_SIZE rows)
        ∨
      visited (ev :: h) = visited h := by
  generalize hvisited : visited (ev :: h) = rows
  unfold visited at hvisited
  split at hvisited
  . next heq => simp at heq
  . next p rows _ heq =>
    cases heq
    exact Or.inl ⟨rfl, p, rows, rfl, hvisited.symm⟩
  . next heq =>
    cases heq
    exact Or.inr hvisited.symm

theorem visited_cons {ev : (s : Effect) × Answer s} {h : IntegrationsHistory} (hev : ev.1.readsBatch = false)
    : visited (ev :: h) = visited h := by
  rcases visited_cases ev h with ⟨hreads, _⟩ | hsame
  . rw [hev] at hreads
    simp at hreads
  . exact hsame

theorem mem_visited_cons {ev : (s : Effect) × Answer s} {h : IntegrationsHistory} {row : Integration}
    (hrow : row ∈ visited (ev :: h))
    : row ∈ visited h ∨ ∃ p rows, ev = ran (.all .integrations p) rows ∧ row ∈ rows := by
  rcases visited_cases ev h with ⟨_, p, rows, hran, hvisited⟩ | hsame
  . rw [hvisited] at hrow
    rcases List.mem_append.mp hrow with hold | hnew
    . exact Or.inl hold
    . exact Or.inr ⟨p, rows, hran, Paging.mem_of_mem_page hnew⟩
  . rw [hsame] at hrow
    exact Or.inl hrow

theorem visited_mono {h h' : IntegrationsHistory} (hsuffix : h <:+ h') {row : Integration}
    (hrow : row ∈ visited h)
    : row ∈ visited h' := by
  obtain ⟨newer, rfl⟩ := hsuffix
  induction newer with
  | nil => exact hrow
  | cons ev newer ih =>
    rw [List.cons_append]
    rcases visited_cases ev (newer ++ h) with ⟨_, _, _, _, hvisited⟩ | hsame
    . rw [hvisited]
      exact List.mem_append_left _ ih
    . rw [hsame]
      exact ih

def DbFailed (h : IntegrationsHistory) (e : Thrown) : Prop :=
  ∃ s err, failed s err ∈ h ∧ e = .database err

namespace IntegrationsKeyRotationService

def ReencryptResult.total (result : ReencryptResult) : Nat :=
  result.reencrypted + result.skippedUndecryptable + result.skippedChanged

end IntegrationsKeyRotationService

variable [Crypto] (cfg : IntegrationsConfig)

def isPrevious (row : Integration) : Bool :=
  (previousKeyIds cfg.keys).contains row.secret.keyId

/--
What a re-encryption asks for to rewrite a row whose secret has this plaintext.
-/
abbrev rewriting (row : Integration) (plaintext : String) (iv : Buffer) : Statement :=
  rewriteSecretSql row.id row.userId row.secret.keyId (encryptedAs cfg.keys plaintext row.uuid row.type iv)

section Tallied

/--
`result'` is `result` with `rows` counted.
-/
structure Tallied (rows : List Integration) (h : IntegrationsHistory) (result result' : ReencryptResult)
    : Prop where
  total : result'.total = result.total + rows.length
  undecryptable : result'.skippedUndecryptable =
    result.skippedUndecryptable + rows.countP fun row => (plaintextOf cfg row).isNone
  rewritten : ∀ row ∈ rows, ∀ plaintext, plaintextOf cfg row = some plaintext →
    ∃ iv, ∃ affected : Nat, ran (rewriting cfg row plaintext iv) affected ∈ h

variable {cfg} {rows rows' : List Integration} {h h' : IntegrationsHistory}
variable {result result' result'' : ReencryptResult}

theorem Tallied.nil : Tallied cfg [] h result result where
  total := by simp
  undecryptable := by simp
  rewritten := by simp

theorem Tallied.append (hfirst : Tallied cfg rows h result result') (hsecond : Tallied cfg rows' h' result' result'')
    (hsub : h ⊆ h')
    : Tallied cfg (rows ++ rows') h' result result'' where
  total := by
    rw [hsecond.total, hfirst.total, List.length_append, Nat.add_assoc]
  undecryptable := by
    rw [hsecond.undecryptable, hfirst.undecryptable, List.countP_append, Nat.add_assoc]
  rewritten := by
    intro row hrow plaintext hplaintext
    rcases List.mem_append.mp hrow with hleft | hright
    . obtain ⟨iv, affected, hmem⟩ := hfirst.rewritten row hleft plaintext hplaintext
      exact ⟨iv, affected, hsub hmem⟩
    . exact hsecond.rewritten row hright plaintext hplaintext

end Tallied

section Rotates

inductive Rotates (h : IntegrationsHistory) : Effect → Prop where
  | free {s : Effect} (hs : s.writes = false) : Rotates h s
  | rewrite {row : Integration} {plaintext : String} {iv : Buffer} (hvisited : row ∈ visited h)
    (hplaintext : plaintextOf cfg row = some plaintext) : Rotates h (.db (rewriting cfg row plaintext iv))

/--
`rows` have been counted, and no more have been visited.
-/
structure Counts (rows : List Integration) (h : IntegrationsHistory) (result : ReencryptResult)
    (h' : IntegrationsHistory) (r : Except Thrown ReencryptResult) : Prop where
  visited : visited h' = visited h
  failed : ∀ e, r = .error e → DbFailed h' e
  tally : ∀ result', r = .ok result' → Tallied cfg rows h' result result'

variable {cfg} {h : IntegrationsHistory}

theorem reencryptRow_rotates {row : Integration} {result : ReencryptResult} (hvisited : row ∈ visited h)
    : (reencryptRow cfg row result).Meets Answers (Rotates cfg) (Counts cfg [row] h result) h := by
  unfold reencryptRow IntegrationsEncryptionService.reencrypt
  dsimp only
  cases hplaintext : decryptBuffer cfg.keys row.secret row.uuid row.type with
  | none =>
    -- however the row is counted, it is the only one that this step accounts for
    have htally : Tallied cfg [row] h result
        { result with skippedUndecryptable := result.skippedUndecryptable + 1 } := by
      refine ⟨?_, by simp [plaintextOf, hplaintext], ?_⟩
      . simp only [ReencryptResult.total, List.length_singleton]
        omega
      . intro row' hrow' plaintext hsome
        rw [List.mem_singleton.mp hrow', plaintextOf, hplaintext] at hsome
        simp at hsome
    refine ⟨rfl, by simp, fun result' heq => ?_⟩
    cases heq
    exact htally
  | some plaintext =>
    have hencrypt : (some <$> encryptBuffer cfg.keys plaintext row.uuid row.type).Meets Answers (Rotates cfg)
        (fun h' r => ∃ iv, h' = ⟨.randomIv, iv⟩ :: h ∧
          r = .ok (some (encryptedAs cfg.keys plaintext row.uuid row.type iv))) h :=
      ⟨.free rfl, fun iv _ => ⟨iv, rfl, rfl⟩⟩
    apply hencrypt.bind _ (fun _ _ _ ⟨_, _, heq⟩ => by simp at heq)
    intro h₁ encrypted _ ⟨iv, hh₁, heq⟩
    cases hh₁
    cases heq
    have hsame : ∀ {ev : (s : Effect) × Answer s}, ev.1.readsBatch = false →
        visited (ev :: ⟨.randomIv, iv⟩ :: h) = visited h := by
      intro ev hev
      rw [visited_cons hev, visited_cons (h := h) rfl]
    have htally : ∀ {affected : Nat} {result' : ReencryptResult},
        result'.total = result.total + 1 → result'.skippedUndecryptable = result.skippedUndecryptable →
        Tallied cfg [row] (ran (rewriting cfg row plaintext iv) affected :: ⟨.randomIv, iv⟩ :: h) result
          result' := by
      intro affected result' htotal hskipped
      refine ⟨htotal, by simp [plaintextOf, hplaintext, hskipped], ?_⟩
      intro row' hrow' plaintext' hsome
      obtain rfl := List.mem_singleton.mp hrow'
      rw [plaintextOf, hplaintext] at hsome
      cases hsome
      exact ⟨iv, affected, List.mem_cons_self ..⟩
    have hrewrite : Rotates cfg (⟨.randomIv, iv⟩ :: h) (.db (rewriting cfg row plaintext iv)) := by
      apply Rotates.rewrite
      . rw [visited_cons rfl]
        exact hvisited
      . exact hplaintext
    dsimp only
    unfold rewriteSecret
    rw [Prog.bind_assoc, Api.meets_query]
    refine ⟨hrewrite, fun affected _ => ?_, fun err => ⟨hsame rfl, ?_, by simp⟩⟩
    . split
      . refine ⟨hsame rfl, by simp, fun result' heq => ?_⟩
        cases heq
        apply htally
        . simp only [ReencryptResult.total]
          omega
        . rfl
      . refine ⟨hsame rfl, by simp, fun result' heq => ?_⟩
        cases heq
        apply htally
        . simp only [ReencryptResult.total]
          omega
        . rfl
    . intro e heq
      exact ⟨_, err, List.mem_cons_self .., (Except.error.inj heq).symm⟩

theorem reencryptRows_rotates {rows : List Integration} {result : ReencryptResult}
    (hvisited : ∀ row ∈ rows, row ∈ visited h)
    : (reencryptRows cfg rows result).Meets Answers (Rotates cfg) (Counts cfg rows h result) h := by
  induction rows generalizing h result with
  | nil =>
    refine ⟨rfl, by simp, fun result' heq => ?_⟩
    cases heq
    exact .nil
  | cons row rows ih =>
    unfold reencryptRows
    apply (reencryptRow_rotates (hvisited row (List.mem_cons_self ..))).bind
    . intro h₁ result₁ _ hcounts
      have hrest : ∀ row' ∈ rows, row' ∈ visited h₁ := by
        intro row' hrow'
        rw [hcounts.visited]
        exact hvisited row' (List.mem_cons_of_mem _ hrow')
      refine (ih hrest).mono fun h₂ r hsuffix hcounts' => ?_
      refine ⟨hcounts'.visited.trans hcounts.visited, hcounts'.failed, fun result' heq => ?_⟩
      exact (hcounts.tally result₁ rfl).append (hcounts'.tally result' heq) hsuffix.subset
    . intro h₁ e _ hcounts
      exact ⟨hcounts.visited, hcounts.failed, by simp⟩

end Rotates

section Loop

/--
A batch is taken from what the statement has found, if there is a previous key at all.
-/
def Batched (h : IntegrationsHistory) (answer : Nat × List Integration) : Prop :=
  (previousKeyIds cfg.keys = [] ∧ answer.2 = [])
    ∨
  ran (allBySecretKeyIds (previousKeyIds cfg.keys) answer.1) answer.2 ∈ h

/--
A loop over batches that has been given up only if it had no batches left. It has visited `rows`.
-/
structure Looped (afterId batches : Nat) (rows : List Integration) (h : IntegrationsHistory)
    (answers : List (Nat × List Integration)) (ended : Bool) : Prop where
  loop : Paging.Loop Integration.id REENCRYPT_BATCH_SIZE afterId answers rows ended
  givenUp : ended = false → answers.length = batches
  found : ∀ answer ∈ answers, Batched cfg h answer

/--
What a re-encryption has made of `result`.
-/
structure Reencrypted (afterId batches : Nat) (h : IntegrationsHistory) (result : ReencryptResult)
    (h' : IntegrationsHistory) (result' : ReencryptResult) : Prop where
  looped : ∃ answers rows ended,
    Looped cfg afterId batches rows h' answers ended
      ∧
    visited h' = visited h ++ rows
      ∧
    Tallied cfg rows h' result result'

variable {cfg} {h h' : IntegrationsHistory}

omit [Crypto] in
theorem Batched.mono {answer : Nat × List Integration} (hfound : Batched cfg h answer) (hsub : h ⊆ h')
    : Batched cfg h' answer := by
  rcases hfound with hnone | hmem
  . exact Or.inl hnone
  . exact Or.inr (hsub hmem)

theorem findBySecretKeyIdsForOperator_rotates {afterId : Nat}
    : (findBySecretKeyIdsForOperator (previousKeyIds cfg.keys) afterId REENCRYPT_BATCH_SIZE).Meets Answers
        (Rotates cfg)
        (fun h' r =>
          (∀ e, r = .error e → DbFailed h' e)
            ∧
          ∀ batch, r = .ok batch → ∃ rows,
            batch = Paging.page Integration.id REENCRYPT_BATCH_SIZE rows
              ∧
            Batched cfg h' (afterId, rows)
              ∧
            visited h' = visited h ++ batch) h := by
  unfold findBySecretKeyIdsForOperator
  split
  . next hnone =>
    refine ⟨by simp, fun batch heq => ?_⟩
    cases heq
    exact ⟨[], rfl, Or.inl ⟨List.length_eq_zero_iff.mp hnone, rfl⟩, (List.append_nil _).symm⟩
  . rw [Api.meets_query]
    refine ⟨.free rfl, fun rows _ => ⟨by simp, fun batch heq => ?_⟩, fun err => ⟨fun e heq => ?_, by simp⟩⟩
    . cases heq
      exact ⟨rows, rfl, Or.inr (List.mem_cons_self ..), rfl⟩
    . exact ⟨_, err, List.mem_cons_self .., (Except.error.inj heq).symm⟩

theorem reencryptFrom_rotates {afterId batches : Nat} {result : ReencryptResult}
    : (reencryptFrom cfg afterId result batches).Meets Answers (Rotates cfg)
        (fun h' r =>
          (∀ e, r = .error e → DbFailed h' e)
            ∧
          ∀ result', r = .ok result' → Reencrypted cfg afterId batches h result h' result') h := by
  induction batches generalizing h afterId result with
  | zero =>
    refine ⟨by simp, fun result' heq => ?_⟩
    cases heq
    exact ⟨⟨[], [], false, ⟨.givenUp, fun _ => rfl, by simp⟩, (List.append_nil _).symm, .nil⟩⟩
  | succ batches ih =>
    unfold reencryptFrom
    apply findBySecretKeyIdsForOperator_rotates.bind _ (fun _ _ _ hq => ⟨by simpa using hq.1, by simp⟩)
    rintro h₁ batch _ ⟨_, hbatch⟩
    obtain ⟨rows, hpage, hfound, hvisited₁⟩ := hbatch batch rfl
    have hmem : ∀ row ∈ batch, row ∈ visited h₁ := by
      intro row hrow
      rw [hvisited₁]
      exact List.mem_append_right _ hrow
    apply (reencryptRows_rotates hmem).bind _ (fun _ _ _ hq => ⟨by simpa using hq.failed, by simp⟩)
    intro h₂ result₂ hsuffix₂ hcounts
    have htally := hcounts.tally result₂ rfl
    have hvisited₂ : visited h₂ = visited h ++ batch := hcounts.visited.trans hvisited₁
    have hfound₂ : Batched cfg h₂ (afterId, rows) := hfound.mono hsuffix₂.subset
    subst hpage
    split
    . next hfull =>
      refine ih.mono ?_
      rintro h₃ r hsuffix₃ ⟨hfailed, hreencrypted⟩
      refine ⟨hfailed, fun result' heq => ?_⟩
      obtain ⟨answers, rows', ended, hlooped, hvisited₃, htally'⟩ := (hreencrypted result' heq).looped
      refine ⟨⟨(afterId, rows) :: answers, _, ended, ⟨.next hfull hlooped.loop, ?_, ?_⟩, ?_,
        htally.append htally' hsuffix₃.subset⟩⟩
      . intro hended
        rw [List.length_cons, hlooped.givenUp hended]
      . intro answer hanswer
        rcases List.mem_cons.mp hanswer with rfl | hlater
        . exact hfound₂.mono hsuffix₃.subset
        . exact hlooped.found answer hlater
      . rw [hvisited₃, hvisited₂, List.append_assoc]
    . next hshort =>
      refine ⟨by simp, fun result' heq => ?_⟩
      cases heq
      refine ⟨⟨[(afterId, rows)], _, true, ⟨.last hshort, by simp, ?_⟩, hvisited₂, htally⟩⟩
      intro answer hanswer
      rw [List.mem_singleton.mp hanswer]
      exact hfound₂

end Loop

end Kerghan.Integrations
