import Kerghan.Integrations.Lemmas.Rotation
import Kerghan.Integrations.Sample
import Kerghan.Integrations.Secrets.Steps

/-!
This module contains the proof that the operator's re-encryption is complete: whoever else is at work, it visits
the integrations that are under a previous key, and leaves none of them behind but those that it has counted as
undecryptable.
-/

namespace Kerghan.Integrations

open IntegrationStoreService IntegrationsKeyRotationService IntegrationsEncryptionService

section Rotation

variable [Platform] {cfg : IntegrationsConfig} {calls : List IntegrationsCall}
variable {trace : List IntegrationsEntry} {x : IntegrationsEntry} {h h' : IntegrationsHistory}

omit [Platform] in
theorem ne_current_of_isPrevious {row : Integration} (hprevious : isPrevious cfg row = true)
    : row.secret.keyId ≠ cfg.keys.current.keyId := by
  intro heq
  have hmem : row.secret.keyId ∈ previousKeyIds cfg.keys := List.contains_iff_mem.mp hprevious
  rw [heq] at hmem
  exact (List.nodup_cons.mp cfg.keys.distinct).1 hmem

section Remains

variable [Crypto] [Locale]

/--
A secret that is not under the current key has been there before and after every step.
-/
def Remains (cfg : IntegrationsConfig) (w : World) (trace : List IntegrationsEntry) : Prop :=
  ∀ r ∈ (w.db .integrations).rows, r.secret.keyId ≠ cfg.keys.current.keyId → ∀ x ∈ trace,
    (∃ r' ∈ (x.before.db .integrations).rows, SameRow r' r ∧ r.secret = r'.secret)
      ∧
    ∃ r' ∈ (x.after.db .integrations).rows, SameRow r' r ∧ r.secret = r'.secret

theorem Remains.step (hx : IntegrationsStep cfg calls trace x) (hremains : Remains cfg x.before trace)
    : Remains cfg x.after (x :: trace) := by
  intro r' hr' hkey y hy
  obtain ⟨r, hr, hsame, hsecret⟩ := hx.previous hr' hkey
  rcases List.mem_cons.mp hy with rfl | hold
  . exact ⟨⟨r, hr, hsame, hsecret⟩, r', hr', .refl r', rfl⟩
  . rw [hsecret] at hkey
    obtain ⟨⟨r₁, hr₁, hsame₁, hsecret₁⟩, r₂, hr₂, hsame₂, hsecret₂⟩ := hremains r hr hkey y hold
    exact ⟨⟨r₁, hr₁, hsame₁.trans hsame, hsecret.trans hsecret₁⟩,
      r₂, hr₂, hsame₂.trans hsame, hsecret.trans hsecret₂⟩

end Remains

section Batches

variable {i batches : Nat} {rows : List Integration} {answers : List (Nat × List Integration)} {ended : Bool}

theorem Batched.read (hexecuted : ∀ x ∈ trace, x.Executed Effect.exec) {answer : Nat × List Integration}
    (hbatched : Batched cfg (own i trace) answer)
    : (previousKeyIds cfg.keys = [] ∧ answer.2 = [])
        ∨
      ∃ x ∈ trace, x.call = i ∧ answer.2 = (x.before.db .integrations).rows.filter
        fun row => isPrevious cfg row && decide (row.id > answer.1) := by
  rcases hbatched with hnone | hmem
  . exact Or.inl hnone
  . obtain ⟨x, hx, hcall, hran⟩ := mem_own.mp hmem
    exact Or.inr ⟨x, hx, hcall, (hexecuted x hx).listed hran⟩

variable (hexecuted : ∀ x ∈ trace, x.Executed Effect.exec)
variable (hlooped : Looped cfg 0 batches rows (own i trace) answers ended)

include hexecuted hlooped

theorem Looped.previous {row : Integration} (hrow : row ∈ rows)
    : isPrevious cfg row = true ∧ ∃ x ∈ trace, x.call = i ∧ row ∈ (x.before.db .integrations).rows := by
  obtain ⟨answer, hanswer, hmem⟩ := hlooped.loop.found hrow
  rcases (hlooped.found answer hanswer).read hexecuted with ⟨_, hnone⟩ | ⟨x, hx, hcall, heq⟩
  . rw [hnone] at hmem
    exact absurd hmem List.not_mem_nil
  . rw [heq, List.mem_filter, Bool.and_eq_true_iff] at hmem
    exact ⟨hmem.2.1, x, hx, hcall, hmem.1⟩

theorem Looped.nodup : (rows.map Integration.id).Nodup := by
  have hafter : ∀ answer ∈ answers, ∀ r ∈ answer.2, answer.1 < r.id := by
    intro answer hanswer r hr
    rcases (hlooped.found answer hanswer).read hexecuted with ⟨_, hnone⟩ | ⟨x, _, _, heq⟩
    . rw [hnone] at hr
      exact absurd hr List.not_mem_nil
    . rw [heq, List.mem_filter, Bool.and_eq_true_iff] at hr
      exact of_decide_eq_true hr.2.2
  have hids : ∀ answer ∈ answers, (answer.2.map Integration.id).Nodup := by
    intro answer hanswer
    rcases (hlooped.found answer hanswer).read hexecuted with ⟨_, hnone⟩ | ⟨x, _, _, heq⟩
    . rw [hnone]
      exact .nil
    . rw [heq]
      apply List.Nodup.sublist (List.filter_sublist.map _)
      exact List.pairwise_map.mpr ((x.before.db .integrations).distinct.imp fun hdistinct => hdistinct.1)
  apply List.pairwise_map.mpr
  exact (hlooped.loop.pairwise_lt hafter hids).imp fun hlt => Nat.ne_of_lt hlt

theorem Looped.covers {k : Nat} (hended : ended = true) (hpositive : 0 < k)
    (hnone : previousKeyIds cfg.keys ≠ [])
    (hthere : ∀ x ∈ trace, ∃ r ∈ (x.before.db .integrations).rows, r.id = k ∧ isPrevious cfg r = true)
    : ∃ row ∈ rows, row.id = k := by
  apply hlooped.loop.covers hended hpositive
  intro answer hanswer hlt
  rcases (hlooped.found answer hanswer).read hexecuted with ⟨hempty, _⟩ | ⟨x, hx, _, heq⟩
  . exact absurd hempty hnone
  . obtain ⟨r, hr, hid, hprevious⟩ := hthere x hx
    refine ⟨r, ?_, hid⟩
    rw [heq, List.mem_filter, Bool.and_eq_true_iff, hid]
    exact ⟨hr, hprevious, decide_eq_true hlt⟩

variable [Crypto]

theorem Looped.remaining {w : World} {result result' : ReencryptResult} (hended : ended = true)
    (htallied : Tallied cfg rows (own i trace) result result') (hremains : Remains cfg w trace)
    {r : Integration} (hr : r ∈ (w.db .integrations).rows) (hpositive : 0 < r.id)
    (hprevious : isPrevious cfg r = true)
    : plaintextOf cfg r = none ∧ ∃ row ∈ rows, row.id = r.id ∧ plaintextOf cfg row = none := by
  have hkey := ne_current_of_isPrevious hprevious
  have hthere : ∀ x ∈ trace, ∃ r' ∈ (x.before.db .integrations).rows, r'.id = r.id ∧ isPrevious cfg r' = true := by
    intro x hx
    obtain ⟨⟨r', hr', hsame, hsecret⟩, _⟩ := hremains r hr hkey x hx
    refine ⟨r', hr', hsame.id.symm, ?_⟩
    unfold isPrevious at hprevious ⊢
    rwa [← hsecret]
  have hnone : previousKeyIds cfg.keys ≠ [] := by
    intro hempty
    simp [isPrevious, hempty] at hprevious
  obtain ⟨row, hrow, hid⟩ := hlooped.covers hexecuted hended hpositive hnone hthere
  obtain ⟨_, x, hx, _, hmem⟩ := hlooped.previous hexecuted hrow
  obtain ⟨⟨r', hr', hsame, hsecret⟩, _⟩ := hremains r hr hkey x hx
  obtain rfl : row = r' := Table.eq_of_id_eq hmem hr' (hid.trans hsame.id)
  have hplaintext : plaintextOf cfg r = plaintextOf cfg row := by
    unfold plaintextOf
    rw [hsame.uuid, hsame.type, hsecret]
  have hundecryptable : plaintextOf cfg row = none := by
    cases hsome : plaintextOf cfg row with
    | none => rfl
    | some plaintext =>
      -- The row would have been rewritten, and nothing could have undone this.
      obtain ⟨iv, affected, hwritten⟩ := htallied.rewritten row hrow plaintext hsome
      obtain ⟨y, hy, _, hran⟩ := mem_own.mp hwritten
      obtain ⟨⟨r₁, hr₁, hsame₁, hsecret₁⟩, r₂, hr₂, hsame₂, hsecret₂⟩ := hremains r hr hkey y hy
      obtain ⟨_, _, hafter⟩ := (hexecuted y hy).updated hran
      have hmatches : (r₁.id == row.id && r₁.userId == row.userId && r₁.secret.keyId == row.secret.keyId) = true := by
        rw [← hsame₁.id, ← hsame₁.userId, ← hsecret₁, hsame.id, hsame.userId, hsecret]
        simp
      have hrewritten : { r₁ with secret := encryptedAs cfg.keys plaintext row.uuid row.type iv } ∈
          (y.after.db .integrations).rows := by
        rw [show (y.after.db .integrations).rows = _ from hafter]
        have hmap := List.mem_map_of_mem (f := fun r : Integration =>
          if r.id == row.id && r.userId == row.userId && r.secret.keyId == row.secret.keyId then
            { r with secret := encryptedAs cfg.keys plaintext row.uuid row.type iv } else r) hr₁
        rwa [if_pos hmatches] at hmap
      have hsame' : { r₁ with secret := encryptedAs cfg.keys plaintext row.uuid row.type iv } = r₂ :=
        Table.eq_of_id_eq hrewritten hr₂ (hsame₁.id.symm.trans hsame₂.id)
      rw [← hsame'] at hsecret₂
      exact absurd (congrArg EncryptedSecret.keyId hsecret₂) hkey
  exact ⟨hplaintext.trans hundecryptable, row, hrow, hid, hundecryptable⟩

end Batches

section Alone

variable [Crypto]

/--
What a re-encryption makes of a row: nothing, or the same row with its own plaintext under the current key.
-/
inductive Rewrites (cfg : IntegrationsConfig) (h : IntegrationsHistory) (row : Integration) : Integration → Prop where
  | kept : Rewrites cfg h row row
  | rewritten {plaintext : String} {iv : Buffer} (hvisited : row ∈ visited h)
    (hplaintext : plaintextOf cfg row = some plaintext)
    : Rewrites cfg h row { row with secret := encryptedAs cfg.keys plaintext row.uuid row.type iv }

variable {row row' : Integration}

omit [Platform] in
theorem Rewrites.mono (hrewrites : Rewrites cfg h row row') (hsuffix : h <:+ h') : Rewrites cfg h' row row' := by
  cases hrewrites with
  | kept => exact .kept
  | rewritten hvisited hplaintext => exact .rewritten (visited_mono hsuffix hvisited) hplaintext

omit [Platform] in
theorem Rewrites.of_isPrevious (hrewrites : Rewrites cfg h row row') (hprevious : isPrevious cfg row' = true)
    : row' = row := by
  cases hrewrites with
  | kept => rfl
  | rewritten => exact absurd rfl (ne_current_of_isPrevious hprevious)

omit [Platform] [Crypto] in
theorem exists_of_forall₂_right {α β : Type} {R : α → β → Prop} {l : List α} {l' : List β}
    (hrel : List.Forall₂ R l l') {b : β} (hb : b ∈ l')
    : ∃ a ∈ l, R a b := by
  induction hrel with
  | nil => exact absurd hb List.not_mem_nil
  | @cons a b' l l' hhead _ ih =>
    rcases List.mem_cons.mp hb with rfl | htail
    . exact ⟨a, List.mem_cons_self .., hhead⟩
    . obtain ⟨a', ha', hr⟩ := ih htail
      exact ⟨a', List.mem_cons_of_mem _ ha', hr⟩

/--
A re-encryption that no one else comes in between only rewrites rows as they have been at the start.
-/
structure Alone (cfg : IntegrationsConfig) (start w : World) (h : IntegrationsHistory) : Prop where
  rows : List.Forall₂ (Rewrites cfg h) (start.db .integrations).rows (w.db .integrations).rows
  read : ∀ row ∈ visited h, row ∈ (start.db .integrations).rows

variable {start : World} {i : Nat}

theorem Alone.init : Alone cfg start start [] where
  rows := List.forall₂_same.mpr fun _ _ => .kept
  read _ hrow := absurd hrow List.not_mem_nil

theorem Alone.same {w w' : World} (hsame : w'.db .integrations = w.db .integrations) (hsuffix : h <:+ h')
    (hvisited : ∀ row ∈ visited h', row ∈ (start.db .integrations).rows)
    (halone : Alone cfg start w h)
    : Alone cfg start w' h' where
  rows := by
    rw [hsame]
    exact halone.rows.imp fun _ _ hrewrites => hrewrites.mono hsuffix
  read := hvisited

theorem Alone.step (hexecuted : x.Executed Effect.exec)
    (hrotates : x.call = i → Rotates cfg (own i trace) x.effect)
    (hquiet : x.call ≠ i → x.after.db .integrations = x.before.db .integrations)
    (hprevious : ∀ row ∈ visited (own i (x :: trace)), isPrevious cfg row = true)
    (halone : Alone cfg start x.before (own i trace))
    : Alone cfg start x.after (own i (x :: trace)) := by
  -- only the re-encryption itself moves the integrations
  by_cases hcall : x.call = i
  . subst hcall
    have hsuffix : own x.call trace <:+ own x.call (x :: trace) := own_suffix (List.suffix_cons _ _)
    have hvisited : ∀ row ∈ visited (own x.call (x :: trace)), row ∈ (start.db .integrations).rows := by
      intro row hrow
      have hkey := hprevious row hrow
      rw [own_cons_self] at hrow
      rcases mem_visited_cons hrow with hold | ⟨p, rows, hran, hmem⟩
      . exact halone.read row hold
      . rw [hexecuted.listed hran] at hmem
        obtain ⟨row₀, hrow₀, hrewrites⟩ := exists_of_forall₂_right halone.rows (List.mem_filter.mp hmem).1
        rwa [hrewrites.of_isPrevious hkey]
    rcases hexecuted.table_cases .integrations with hsame | ⟨s, a, _, hran, _, htable, hread⟩
    . exact halone.same hsame hsuffix hvisited
    . have hrotates := hrotates rfl
      rw [show x.effect = .db s from congrArg Sigma.fst hran] at hrotates
      cases hrotates with
      | free hs =>
        rw [Effect.writes, hread] at hs
        simp at hs
      | @rewrite row plaintext iv hrow hplaintext =>
        refine ⟨?_, hvisited⟩
        obtain ⟨_, _, hafter⟩ := hexecuted.updated hran
        rw [show (x.after.db .integrations).rows = _ from hafter, List.forall₂_map_right_iff]
        have hrows : List.Forall₂ (fun r r' => r ∈ (start.db .integrations).rows ∧
            Rewrites cfg (own x.call trace) r r') (start.db .integrations).rows (x.before.db .integrations).rows :=
          (List.forall₂_and_left _ _).mpr ⟨fun _ hr => hr, halone.rows⟩
        refine hrows.imp ?_
        rintro r r' ⟨hr, hrewrites⟩
        split
        . next hmatches =>
          simp only [Bool.and_eq_true, beq_iff_eq] at hmatches
          have hold := visited_mono hsuffix hrow
          obtain rfl : r' = r := by
            apply hrewrites.of_isPrevious
            have hkey := hprevious row hold
            unfold isPrevious at hkey ⊢
            rwa [hmatches.2]
          obtain rfl : r' = row := Table.eq_of_id_eq hr (hvisited row hold) hmatches.1.1
          exact .rewritten hold hplaintext
        . exact hrewrites.mono hsuffix
  . apply halone.same (hquiet hcall) (own_suffix (List.suffix_cons _ _))
    rw [own_cons_of_ne hcall]
    exact halone.read

end Alone

section Complete

variable [Crypto]

/--
What a re-encryption without anyone coming in between makes of a row.
-/
structure Moved (cfg : IntegrationsConfig) (row row' : Integration) : Prop where
  secret : row' = { row with secret := row'.secret }
  plaintext : plaintextOf cfg row' = plaintextOf cfg row
  previous : isPrevious cfg row' = (isPrevious cfg row && (plaintextOf cfg row).isNone)
  untouched : isPrevious cfg row = false → row' = row

omit [Platform] in
theorem Rewrites.moved {row row' : Integration} (hrewrites : Rewrites cfg h row row')
    (hvisited : ∀ row ∈ visited h, isPrevious cfg row = true)
    (hleft : isPrevious cfg row' = true → plaintextOf cfg row' = none)
    : Moved cfg row row' := by
  cases hrewrites with
  | kept =>
    refine ⟨rfl, rfl, ?_, fun _ => rfl⟩
    cases hprevious : isPrevious cfg row with
    | false => rfl
    | true => simp [hleft hprevious]
  | @rewritten plaintext iv hrow hplaintext =>
    have hdecrypted : plaintextOf cfg { row with secret := encryptedAs cfg.keys plaintext row.uuid row.type iv } =
        some plaintext := decryptBuffer_encryptedAs
    refine ⟨rfl, hdecrypted.trans hplaintext.symm, ?_, fun hother => ?_⟩
    . rw [hplaintext, Option.isNone_some, Bool.and_false]
      by_contra hprevious
      rw [hleft (Bool.eq_true_of_not_eq_false hprevious)] at hdecrypted
      simp at hdecrypted
    . rw [hvisited row hrow] at hother
      simp at hother

variable [Locale] (cfg)

/--
What holds when the re-encryption with the history `h` has returned `result` and has left the world `w`.
-/
structure Finished (w : World) (h : IntegrationsHistory) (result : ReencryptResult) : Prop where
  stopped : ∃ answers, Paging.Loop Integration.id REENCRYPT_BATCH_SIZE 0 answers (visited h) true
  once : ((visited h).map Integration.id).Nodup
  previous : ∀ row ∈ visited h, isPrevious cfg row = true
  counted : result.reencrypted + result.skippedUndecryptable + result.skippedChanged = (visited h).length
  left : ∀ r ∈ (w.db .integrations).rows, isPrevious cfg r = true →
    plaintextOf cfg r = none ∧ ∃ row ∈ visited h, row.id = r.id
  none : result.skippedUndecryptable = 0 → ∀ r ∈ (w.db .integrations).rows, isPrevious cfg r = false

/--
What also holds if no one else has written to the integrations since `start`.
-/
structure Undisturbed (start w : World) (h : IntegrationsHistory) : Prop where
  every : ∀ row ∈ (start.db .integrations).rows, isPrevious cfg row = true → row ∈ visited h
  rows : List.Forall₂ (Moved cfg) (start.db .integrations).rows (w.db .integrations).rows
  again : ∀ (calls : List IntegrationsCall) schedule i batches result, calls[i]? = some (.reencrypt batches) →
    (Calls.after w (calls.map (IntegrationsCall.prog cfg)) schedule).pool i =
      .ofExcept (.ok (.reencrypted result)) →
    result.reencrypted = 0

structure Complete (start : World) (run : Calls IntegrationsReply) (i : Nat) : Prop where
  ends : ∀ e, ∃ n, ∃ result, (run.run Effect.exec (List.replicate n (i, e))).pool i = .ofExcept result
  fails : ∀ e, run.pool i = .ofExcept (.error e) → DbFailed (own i run.trace) e
  returns : ∀ reply, run.pool i = .ofExcept (.ok reply) → ∃ result,
    reply = .reencrypted result
      ∧
    Finished cfg run.world (own i run.trace) result
      ∧
    ((∀ x ∈ run.trace, x.call ≠ i → x.after.db .integrations = x.before.db .integrations) →
      Undisturbed cfg start run.world (own i run.trace))

variable {cfg}

theorem IntegrationsCall.prog_rotates (cfg : IntegrationsConfig) (call : IntegrationsCall)
    : (call.prog cfg).Meets Answers (fun h s => ∀ batches, call = .reencrypt batches → Rotates cfg h s)
        (fun h' r => ∀ batches, call = .reencrypt batches →
          (∀ e, r = .error e → DbFailed h' e)
            ∧
          ∀ reply, r = .ok reply → ∃ result,
            reply = .reencrypted result ∧ Reencrypted cfg 0 batches [] ⟨0, 0, 0⟩ h' result) [] := by
  by_cases hcall : ∃ batches, call = .reencrypt batches
  . obtain ⟨batches, rfl⟩ := hcall
    apply Prog.Meets.map (reencryptFrom_rotates.imp fun _ _ hrotates _ _ => hrotates)
    . intro h' result ⟨_, hreencrypted⟩ batches' heq
      cases heq
      refine ⟨by simp, fun reply hreply => ⟨result, ?_, hreencrypted result rfl⟩⟩
      exact (Except.ok.inj hreply).symm
    . intro h' e ⟨hfailed, _⟩ _ _
      exact ⟨fun e' heq => hfailed e' (by rw [← Except.error.inj heq]), by simp⟩
  . refine (call.prog_does.imp fun _ _ _ batches heq => ?_).mono fun _ _ _ _ batches heq => ?_
    . exact absurd ⟨batches, heq⟩ hcall
    . exact absurd ⟨batches, heq⟩ hcall

section Run

variable {start : World} {schedule : Schedule} {i batches : Nat} {run : Calls IntegrationsReply}
variable (hrun : Calls.after start (calls.map (IntegrationsCall.prog cfg)) schedule = run)

include hrun

theorem reencrypted_steps : ∀ {later x earlier}, run.trace = later ++ x :: earlier →
    IntegrationsStep cfg calls earlier x := by
  subst hrun
  exact fun hsplit => performs_integrations start calls schedule hsplit

theorem reencrypted_executed : ∀ x ∈ run.trace, x.Executed Effect.exec := by
  intro x hx
  obtain ⟨later, earlier, hsplit⟩ := List.append_of_mem hx
  exact (reencrypted_steps hrun hsplit).answered

theorem reencrypted_originals : Originals cfg start run.world run.trace ∧ Remains cfg run.world run.trace := by
  subst hrun
  exact Config.run_induction_trace (I := fun w t => Originals cfg start w t ∧ Remains cfg w t) rfl
    ⟨.init, fun _ _ _ x hx => absurd hx List.not_mem_nil⟩ fun later x earlier hsplit hi =>
      ⟨hi.1.step (performs_integrations start calls schedule hsplit),
        hi.2.step (performs_integrations start calls schedule hsplit)⟩

theorem reencrypted_looped (hcall : calls[i]? = some (.reencrypt batches)) {reply : IntegrationsReply}
    (hended : run.pool i = .ofExcept (.ok reply))
    : ∃ result answers ended,
        reply = .reencrypted result
          ∧
        Looped cfg 0 batches (visited (own i run.trace)) (own i run.trace) answers ended
          ∧
        Tallied cfg (visited (own i run.trace)) (own i run.trace) ⟨0, 0, 0⟩ result := by
  subst hrun
  obtain ⟨_, hreturned⟩ := ended (.ok reply) (IntegrationsCall.prog_rotates cfg) hcall hended batches rfl
  obtain ⟨result, hreply, hreencrypted⟩ := hreturned reply rfl
  obtain ⟨answers, rows, ended, hlooped, hvisited, htallied⟩ := hreencrypted.looped
  rw [show visited [] = [] from rfl, List.nil_append] at hvisited
  rw [hvisited]
  exact ⟨result, answers, ended, hreply, hlooped, htallied⟩

theorem visited_start {answers : List (Nat × List Integration)} {ended : Bool}
    (hlooped : Looped cfg 0 batches (visited (own i run.trace)) (own i run.trace) answers ended)
    {row : Integration} (hrow : row ∈ visited (own i run.trace))
    : ∃ r ∈ (start.db .integrations).rows,
        r.id = row.id ∧ isPrevious cfg r = true ∧ plaintextOf cfg r = plaintextOf cfg row := by
  obtain ⟨hprevious, x, hx, _, hmem⟩ := hlooped.previous (reencrypted_executed hrun) hrow
  obtain ⟨later, earlier, hsplit⟩ := List.append_of_mem hx
  have hkey := ne_current_of_isPrevious hprevious
  have horiginals : Originals cfg start x.before earlier := by
    subst hrun
    exact (Config.run_induction_split (A := fun _ => True) (fun _ _ _ => trivial)
      (fun _ _ _ hx hi => Originals.step hx hi) answers_exec (start_meets IntegrationsCall.prog_does start calls)
      .init rfl schedule trivial hsplit).1
  obtain ⟨r, hr, hsame, hsecret⟩ := horiginals.stored row hmem hkey
  refine ⟨r, hr, hsame.id.symm, ?_, ?_⟩
  . unfold isPrevious at hprevious ⊢
    rwa [← hsecret]
  . unfold plaintextOf
    rw [hsame.uuid, hsame.type, hsecret]

theorem visited_length_le {answers : List (Nat × List Integration)} {ended : Bool}
    (hlooped : Looped cfg 0 batches (visited (own i run.trace)) (own i run.trace) answers ended)
    : (visited (own i run.trace)).length ≤ (start.db .integrations).rows.countP (isPrevious cfg) := by
  have hsub : (visited (own i run.trace)).map Integration.id ⊆
      ((start.db .integrations).rows.filter (isPrevious cfg)).map Integration.id := by
    intro k hk
    obtain ⟨row, hrow, rfl⟩ := List.mem_map.mp hk
    obtain ⟨r, hr, hid, hprevious, _⟩ := visited_start hrun hlooped hrow
    exact List.mem_map.mpr ⟨r, List.mem_filter.mpr ⟨hr, hprevious⟩, hid⟩
  have hle := (List.subperm_of_subset (hlooped.nodup (reencrypted_executed hrun)) hsub).length_le
  rwa [List.length_map, List.length_map, ← List.countP_eq_length_filter] at hle

theorem looped_ended {answers : List (Nat × List Integration)} {ended : Bool}
    (hlooped : Looped cfg 0 batches (visited (own i run.trace)) (own i run.trace) answers ended)
    (hbatches : (start.db .integrations).rows.countP (isPrevious cfg) < batches * REENCRYPT_BATCH_SIZE)
    : ended = true := by
  cases hended : ended with
  | true => rfl
  | false =>
    subst hended
    have hfull := hlooped.loop.length_le
    have hle := visited_length_le hrun hlooped
    rw [hlooped.givenUp rfl] at hfull
    simp only [Bool.false_eq_true, if_false, Nat.add_zero] at hfull
    omega

theorem again_nothing (hcall : calls[i]? = some (.reencrypt batches))
    (hstart : ∀ r ∈ (start.db .integrations).rows, isPrevious cfg r = true → plaintextOf cfg r = none)
    {result : ReencryptResult} (hended : run.pool i = .ofExcept (.ok (.reencrypted result)))
    : result.reencrypted = 0 := by
  obtain ⟨result', answers, ended, heq, hlooped, htallied⟩ := reencrypted_looped hrun hcall hended
  cases heq
  have hall : (visited (own i run.trace)).countP (fun row => (plaintextOf cfg row).isNone) =
      (visited (own i run.trace)).length := by
    apply List.countP_eq_length.mpr
    intro row hrow
    obtain ⟨r, hr, _, hprevious, hplaintext⟩ := visited_start hrun hlooped hrow
    rw [← hplaintext, hstart r hr hprevious]
    rfl
  have htotal := htallied.total
  have hundecryptable := htallied.undecryptable
  rw [hall] at hundecryptable
  simp only [ReencryptResult.total] at htotal
  omega

theorem reencrypted_alone (hcall : calls[i]? = some (.reencrypt batches)) {result : ReencryptResult}
    (hfinished : Finished cfg run.world (own i run.trace) result)
    (hquiet : ∀ x ∈ run.trace, x.call ≠ i → x.after.db .integrations = x.before.db .integrations)
    : Alone cfg start run.world (own i run.trace) := by
  have hexecuted := reencrypted_executed hrun
  have hrotates : ∀ {later x earlier}, run.trace = later ++ x :: earlier → x.call = i →
      Rotates cfg (own i earlier) x.effect := by
    subst hrun
    intro later x earlier hsplit hi
    obtain ⟨call, hcall', hrotates⟩ := (Config.performs_of_split answers_exec
      (start_meets (IntegrationsCall.prog_rotates cfg) start calls) rfl schedule
      hsplit).allowed
    rw [hi, hcall] at hcall'
    rw [hi] at hrotates
    exact hrotates batches (Option.some.inj hcall').symm
  have hsuffix : ∀ {later x earlier}, run.trace = later ++ x :: earlier →
      own i (x :: earlier) <:+ own i run.trace := by
    intro later x earlier hsplit
    apply own_suffix
    rw [hsplit]
    exact List.suffix_append _ _
  subst hrun
  refine Config.run_induction_trace (I := fun w t => Alone cfg start w (own i t)) rfl .init
    fun later x earlier hsplit halone => ?_
  have hx : x ∈ (Calls.after start (calls.map (IntegrationsCall.prog cfg)) schedule).trace := by
    have hmem : x ∈ later ++ x :: earlier := List.mem_append_right _ (List.mem_cons_self ..)
    rw [← hsplit] at hmem
    exact hmem
  exact halone.step (hexecuted x hx) (hrotates hsplit) (hquiet x hx)
    fun row hrow => hfinished.previous row (visited_mono (hsuffix hsplit) hrow)

theorem reencrypted_undisturbed (hcall : calls[i]? = some (.reencrypt batches)) {result : ReencryptResult}
    (hfinished : Finished cfg run.world (own i run.trace) result)
    (hquiet : ∀ x ∈ run.trace, x.call ≠ i → x.after.db .integrations = x.before.db .integrations)
    : Undisturbed cfg start run.world (own i run.trace) := by
  have halone := reencrypted_alone hrun hcall hfinished hquiet
  constructor
  . intro row hrow hprevious
    obtain ⟨row', hrow', hrewrites⟩ := exists_of_forall₂_right (R := flip (Rewrites cfg (own i run.trace)))
      halone.rows.flip hrow
    cases hrewrites with
    | kept =>
      obtain ⟨_, visitedRow, hvisited, hid⟩ := hfinished.left row hrow' hprevious
      obtain rfl : visitedRow = row := Table.eq_of_id_eq (halone.read visitedRow hvisited) hrow hid
      exact hvisited
    | rewritten hvisited => exact hvisited
  . refine List.forall₂_iff_zip.mpr ⟨halone.rows.length_eq, fun {r r'} hzip => ?_⟩
    exact ((List.forall₂_iff_zip.mp halone.rows).2 hzip).moved hfinished.previous fun hprevious =>
      (hfinished.left r' (List.of_mem_zip hzip).2 hprevious).1
  . intro calls' schedule' i' batches' result' hcall' hended
    exact again_nothing rfl hcall' (fun r hr hprevious => (hfinished.left r hr hprevious).1) hended

variable (hids : ∀ r ∈ (start.db .integrations).rows, 0 < r.id)

include hids

theorem reencrypted_finished {answers : List (Nat × List Integration)} {result : ReencryptResult}
    (hlooped : Looped cfg 0 batches (visited (own i run.trace)) (own i run.trace) answers true)
    (htallied : Tallied cfg (visited (own i run.trace)) (own i run.trace) ⟨0, 0, 0⟩ result)
    : Finished cfg run.world (own i run.trace) result := by
  have hexecuted := reencrypted_executed hrun
  obtain ⟨horiginals, hremains⟩ := reencrypted_originals hrun
  have hleft : ∀ r ∈ (run.world.db .integrations).rows, isPrevious cfg r = true →
      plaintextOf cfg r = none ∧
        ∃ row ∈ visited (own i run.trace), row.id = r.id ∧ plaintextOf cfg row = none := by
    intro r hr hprevious
    obtain ⟨r₀, hr₀, hsame, _⟩ := horiginals.stored r hr (ne_current_of_isPrevious hprevious)
    have hpositive : 0 < r.id := by
      rw [hsame.id]
      exact hids r₀ hr₀
    exact hlooped.remaining hexecuted rfl htallied hremains hr hpositive hprevious
  constructor
  . exact ⟨answers, hlooped.loop⟩
  . exact hlooped.nodup hexecuted
  . exact fun row hrow => (hlooped.previous hexecuted hrow).1
  . have htotal := htallied.total
    simp only [ReencryptResult.total] at htotal
    omega
  . intro r hr hprevious
    obtain ⟨hplaintext, row, hrow, hid, _⟩ := hleft r hr hprevious
    exact ⟨hplaintext, row, hrow, hid⟩
  . intro hzero r hr
    by_contra hprevious
    obtain ⟨_, row, hrow, _, hplaintext⟩ := hleft r hr (Bool.eq_true_of_not_eq_false hprevious)
    have hnone : (visited (own i run.trace)).countP (fun row => (plaintextOf cfg row).isNone) = 0 := by
      have hundecryptable := htallied.undecryptable
      simp only at hundecryptable
      omega
    have hdecryptable := List.countP_eq_zero.mp hnone row hrow
    rw [hplaintext] at hdecryptable
    exact hdecryptable rfl

end Run

/--
Whoever else is at work, the operator's re-encryption ends, it counts every row that it visits once, and it
leaves no row under a previous key behind but those that it has found undecryptable.
-/
theorem reencrypt_complete (calls : List IntegrationsCall) {start : World} {i batches : Nat} (schedule : Schedule)
    (hcall : calls[i]? = some (.reencrypt batches)) (hids : ∀ r ∈ (start.db .integrations).rows, 0 < r.id)
    (hbatches : (start.db .integrations).rows.countP (isPrevious cfg) < batches * REENCRYPT_BATCH_SIZE)
    : Complete cfg start (Calls.after start (calls.map (IntegrationsCall.prog cfg)) schedule) i := by
  constructor
  . exact Config.exists_ended _ i
  . intro e hended
    exact (ended (.error e) (IntegrationsCall.prog_rotates cfg) hcall hended batches rfl).1 e rfl
  . intro reply hended
    obtain ⟨result, answers, ended, hreply, hlooped, htallied⟩ := reencrypted_looped rfl hcall hended
    obtain rfl := looped_ended rfl hlooped hbatches
    have hfinished := reencrypted_finished rfl hids hlooped htallied
    exact ⟨result, hreply, hfinished, reencrypted_undisturbed rfl hcall hfinished⟩

end Complete

end Rotation

section Runs

attribute [local instance] Kerghan.Sample.platform Sample.crypto Sample.locale

/--
A secret under the previous key is moved to the current key.
-/
abbrev reencryptedAlone : Calls IntegrationsReply :=
  Calls.after (Sample.storing (Sample.integration ⟨[0], "k0"⟩ "ghp_old"))
    ([.reencrypt 1].map (IntegrationsCall.prog Sample.config)) (Sample.schedule (List.replicate 3 0))

theorem reencrypt_complete_alone
    : Complete Sample.config (Sample.storing (Sample.integration ⟨[0], "k0"⟩ "ghp_old")) reencryptedAlone 0
        ∧
      reencryptedAlone.pool 0 = .ofExcept (.ok (.reencrypted ⟨1, 0, 0⟩)) :=
  ⟨reencrypt_complete [.reencrypt 1] _ rfl (by decide) (by decide), rfl⟩

end Runs

end Kerghan.Integrations
