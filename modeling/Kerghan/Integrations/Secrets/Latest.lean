import Kerghan.Integrations.Sample
import Kerghan.Integrations.Secrets.Payload
import Kerghan.Integrations.Secrets.Steps

/-!
This module contains the proof that the secret of an integration is the one that has been stored last: a
re-encryption neither overwrites a newer secret nor brings back an older one.
-/

namespace Kerghan.Integrations

section Latest

variable [Platform] [Crypto] [Locale]

/--
The effect writes the integration `id`: it inserts this row, or it updates it.
-/
def Effect.writesRow (before : World) (id : Nat) : (s : Effect) → Answer s → Bool
  | .db (.insert .integrations _), .ok row => row.id == id
  | .db (.update .integrations p _), .ok _ =>
    (before.db .integrations).rows.any fun r => r.id == id && p r
  | _, _ => false

/--
A call that stores credentials writes the integration `id`.
-/
def writesCredential (calls : List IntegrationsCall) (id : Nat) (x : IntegrationsEntry) : Bool :=
  (calls[x.call]?).any IntegrationsCall.storesCredential && x.effect.writesRow x.before id x.resp

/--
The secret of the integration `r` is the one that a call has validated and stored last, or else the one that
the integration had at the start.
-/
structure Latest (cfg : IntegrationsConfig) (calls : List IntegrationsCall) (start : World)
    (trace : List IntegrationsEntry) (r : Integration) : Prop where
  written : ∀ later x earlier, trace = later ++ x :: earlier → writesCredential calls r.id x = true →
    (∀ y ∈ later, writesCredential calls r.id y = false) →
    ∃ call validated, ∃ r' ∈ (x.after.db .integrations).rows,
      calls[x.call]? = some call
        ∧
      Validated cfg (own x.call earlier) call r.userId r.type validated
        ∧
      r'.id = r.id
        ∧
      decryptRow cfg.keys r'.type r' = some validated.secret
        ∧
      decryptRow cfg.keys r.type r = some validated.secret
  original : (∀ x ∈ trace, writesCredential calls r.id x = false) →
    ∃ r₀ ∈ (start.db .integrations).rows, SameRow r₀ r ∧ plaintextOf cfg r = plaintextOf cfg r₀

variable {cfg : IntegrationsConfig} {calls : List IntegrationsCall} {trace : List IntegrationsEntry}
variable {x : IntegrationsEntry} {start : World}

omit [Locale] [Crypto] in
theorem Validated.storesCredential {h : IntegrationsHistory} {call : IntegrationsCall} {userId : Nat}
    {type : IntegrationType} {validated : ValidatedCredential}
    (hvalidated : Validated cfg h call userId type validated)
    : call.storesCredential = true := by
  cases hvalidated <;> rfl

omit [Locale] [Platform] in
theorem decryptRow_congr {r r' : Integration} (htype : r'.type = r.type)
    (hplaintext : plaintextOf cfg r' = plaintextOf cfg r)
    : decryptRow cfg.keys r'.type r' = decryptRow cfg.keys r.type r := by
  unfold plaintextOf at hplaintext
  unfold decryptRow IntegrationsEncryptionService.decrypt
  rw [hplaintext, htype]

omit [Crypto] [Locale] in
theorem writesRow_of_ran {s : Statement} {a : s.Answer} (hran : ⟨x.effect, x.resp⟩ = ran s a) (id : Nat)
    : x.effect.writesRow x.before id x.resp = (Effect.db s).writesRow x.before id (.ok a) :=
  congrArg (fun ev : (s : Effect) × Answer s => ev.1.writesRow x.before id ev.2) hran

omit [Crypto] [Locale] in
theorem writesRow_eq_false {id : Nat}
    (hinsert : ∀ mk row, ⟨x.effect, x.resp⟩ = ran (.insert .integrations mk) row → row.id ≠ id)
    (hupdate : ∀ p f, ∀ affected : Nat, ⟨x.effect, x.resp⟩ = ran (.update .integrations p f) affected →
      ∀ r ∈ (x.before.db .integrations).rows, r.id = id → p r = false)
    : x.effect.writesRow x.before id x.resp = false := by
  unfold Effect.writesRow
  split
  . next mk row heffect hresp =>
    have hran : ⟨x.effect, x.resp⟩ = ran (.insert .integrations mk) row := Sigma.ext heffect hresp
    simpa using hinsert mk row hran
  . next p f affected heffect hresp =>
    have hran : ⟨x.effect, x.resp⟩ = ran (.update .integrations p f) affected := Sigma.ext heffect hresp
    simp only [List.any_eq_false, Bool.and_eq_true, beq_iff_eq, not_and, Bool.not_eq_true]
    exact hupdate p f affected hran
  . rfl

omit [Crypto] [Locale] in
theorem writesCredential_eq_false {call : IntegrationsCall} (hcall : calls[x.call]? = some call)
    (hstores : call.storesCredential = false) (id : Nat)
    : writesCredential calls id x = false := by
  unfold writesCredential
  rw [hcall, Option.any_some, hstores, Bool.false_and]

omit [Crypto] [Locale] in
theorem writesCredential_eq_true {call : IntegrationsCall} (hcall : calls[x.call]? = some call)
    (hstores : call.storesCredential = true) {id : Nat}
    (hwrites : x.effect.writesRow x.before id x.resp = true)
    : writesCredential calls id x = true := by
  unfold writesCredential
  rw [hcall, Option.any_some, hstores, hwrites, Bool.true_and]

theorem IntegrationsStep.secret (hx : IntegrationsStep cfg calls trace x)
    (hidentities : Identities x.before trace) (hknown : KnownByUuid x.before trace)
    (horiginals : Originals cfg start x.before trace) {r' : Integration}
    (hr' : r' ∈ (x.after.db .integrations).rows)
    : (writesCredential calls r'.id x = true
        ∧
      ∃ call validated,
        calls[x.call]? = some call
          ∧
        Validated cfg (own x.call trace) call r'.userId r'.type validated
          ∧
        plaintextOf cfg r' = some (Crypto.stringify validated.secret.toJson))
        ∨
      (writesCredential calls r'.id x = false
        ∧
      ∃ r ∈ (x.before.db .integrations).rows, SameRow r r' ∧ plaintextOf cfg r' = plaintextOf cfg r) := by
  cases hx.origin hr' with
  | kept hold hinsert hupdate =>
    refine Or.inr ⟨?_, r', hold, .refl r', rfl⟩
    have hwrites : x.effect.writesRow x.before r'.id x.resp = false := by
      apply writesRow_eq_false hinsert
      intro p f affected hran r hr hid
      rw [Table.eq_of_id_eq hr hold hid]
      exact hupdate p f affected hran
    unfold writesCredential
    rw [hwrites, Bool.and_false]
  | @inserted call userId type provider label uuid validated credential now id mk hcall hran hvalidated _
      hsealed hrow =>
    left
    refine ⟨?_, call, validated, hcall, ?_, ?_⟩
    . apply writesCredential_eq_true hcall hvalidated.storesCredential
      rw [writesRow_of_ran hran]
      exact beq_self_eq_true _
    . rw [hrow]
      exact hvalidated
    . subst hrow
      exact hsealed.plaintext rfl rfl rfl
  | @updated call r p changes affected hcall hr hran hp htouches hrow =>
    have hsame : SameRow r r' := hrow ▸ htouches.sameRow r
    -- every write but the last kind leaves the secret of `r` readable as it is
    have hkept : call.storesCredential = false → plaintextOf cfg r' = plaintextOf cfg r →
        writesCredential calls r'.id x = false ∧
          ∃ r ∈ (x.before.db .integrations).rows, SameRow r r' ∧ plaintextOf cfg r' = plaintextOf cfg r :=
      fun hstores hplaintext => ⟨writesCredential_eq_false hcall hstores _, r, hr, hsame, hplaintext⟩
    cases htouches with
    | rename hstores =>
      right
      subst hrow
      exact hkept hstores rfl
    | claim hstores =>
      right
      subst hrow
      exact hkept hstores rfl
    | undecryptable hcall' =>
      right
      subst hrow hcall'
      exact hkept rfl rfl
    | record hcall' _ _ _ _ hrecords =>
      right
      subst hcall'
      apply hkept rfl
      unfold plaintextOf
      rw [hsame.uuid, hsame.type, hrow, (hrecords.sameRow r).2]
    | rewrite hcall' hread hprevious hplaintext hid hkey =>
      right
      have hstores : call.storesCredential = false := by
        rcases hcall' with ⟨_, _, rfl⟩ | ⟨_, rfl⟩
        . rfl
        . rfl
      apply hkept hstores
      obtain ⟨hbefore, hafter⟩ := horiginals.rewritten hr hread hprevious hplaintext hid hkey
      subst hrow
      exact hafter.trans hbefore.symm
    | @replace userId type uuid checked row validated credential now hvalidated hchecked htype hloaded _
        hsealed hid =>
      left
      obtain ⟨hrow', hchecked'⟩ := hidentities.same hknown hloaded hchecked hr hid
      have htype' : r'.type = type := hsame.type.trans (hchecked'.type.trans htype)
      have huser : r'.userId = userId :=
        hsame.userId.trans (hrow'.userId.trans (hidentities.loaded _ _ _ _ hloaded).2)
      refine ⟨?_, call, validated, hcall, ?_, ?_⟩
      . apply writesCredential_eq_true hcall hvalidated.storesCredential
        rw [writesRow_of_ran hran]
        refine List.any_eq_true.mpr ⟨r, hr, ?_⟩
        rw [hp, hsame.id, beq_self_eq_true, Bool.true_and]
      . rw [htype', huser]
        exact hvalidated
      . exact hsealed.plaintext (by rw [hrow]; rfl) (hsame.uuid.trans hrow'.uuid) htype'

omit [Locale] in
theorem Latest.init {r : Integration} (hr : r ∈ (start.db .integrations).rows)
    : Latest cfg calls start [] r where
  written later x earlier hsplit := by simp at hsplit
  original _ := ⟨r, hr, .refl r, rfl⟩

theorem Latest.step (hx : IntegrationsStep cfg calls trace x) (hidentities : Identities x.before trace)
    (hknown : KnownByUuid x.before trace) (horiginals : Originals cfg start x.before trace)
    (hlatest : ∀ r ∈ (x.before.db .integrations).rows, Latest cfg calls start trace r)
    {r' : Integration} (hr' : r' ∈ (x.after.db .integrations).rows)
    : Latest cfg calls start (x :: trace) r' := by
  rcases hx.secret hidentities hknown horiginals hr' with
    ⟨hwrites, call, validated, hcall, hvalidated, hplaintext⟩ | ⟨hquiet, r, hr, hsame, hplaintext⟩
  . have hsecret : decryptRow cfg.keys r'.type r' = some validated.secret := hvalidated.decryptRow hplaintext
    constructor
    . intro later y earlier hsplit _ hlater
      cases later with
      | nil =>
        obtain ⟨rfl, rfl⟩ := List.cons.inj hsplit
        exact ⟨call, validated, r', hr', hcall, hvalidated, rfl, hsecret, hsecret⟩
      | cons z later =>
        obtain ⟨rfl, _⟩ := List.cons.inj hsplit
        rw [hlater x (List.mem_cons_self ..)] at hwrites
        simp at hwrites
    . intro hnone
      rw [hnone x (List.mem_cons_self ..)] at hwrites
      simp at hwrites
  . have hr := hlatest r hr
    constructor
    . intro later y earlier hsplit hwrites hlater
      cases later with
      | nil =>
        obtain ⟨rfl, _⟩ := List.cons.inj hsplit
        rw [hwrites] at hquiet
        simp at hquiet
      | cons z later =>
        obtain ⟨rfl, htrace⟩ := List.cons.inj hsplit
        rw [hsame.id] at hwrites hlater
        obtain ⟨call, validated, r₁, hr₁, hcall, hvalidated, hid, hsecret₁, hsecret⟩ :=
          hr.written later y earlier htrace hwrites fun z hz => hlater z (List.mem_cons_of_mem _ hz)
        rw [← hsame.type, ← hsame.userId] at hvalidated
        refine ⟨call, validated, r₁, hr₁, hcall, hvalidated, hid.trans hsame.id.symm, hsecret₁, ?_⟩
        rw [decryptRow_congr hsame.type hplaintext]
        exact hsecret
    . intro hnone
      rw [hsame.id] at hnone
      obtain ⟨r₀, hr₀, hsame₀, hplaintext₀⟩ :=
        hr.original fun y hy => hnone y (List.mem_cons_of_mem _ hy)
      exact ⟨r₀, hr₀, hsame₀.trans hsame, hplaintext.trans hplaintext₀⟩

/--
Whatever the order of the steps of any number of calls that store, test and re-encrypt credentials, every
integration decrypts to the secret that has been stored last, and no other step changes what it decrypts to.
-/
theorem latest_secret_wins {calls : List IntegrationsCall} (hcalls : ∀ call ∈ calls, call.deletes = false)
    (w : World) (schedule : Schedule)
    : (∀ r ∈ ((Calls.after w (calls.map (IntegrationsCall.prog cfg)) schedule).world.db .integrations).rows,
        Latest cfg calls w (Calls.after w (calls.map (IntegrationsCall.prog cfg)) schedule).trace r)
        ∧
      ∀ later x earlier,
        (Calls.after w (calls.map (IntegrationsCall.prog cfg)) schedule).trace = later ++ x :: earlier →
        ∀ r' ∈ (x.after.db .integrations).rows, writesCredential calls r'.id x = false →
          ∃ r ∈ (x.before.db .integrations).rows, SameRow r r' ∧ plaintextOf cfg r' = plaintextOf cfg r := by
  have hdoes : ∀ call : IntegrationsCall, (call.prog cfg).Meets Answers (Does cfg call)
      (fun h' _ => call.Promises cfg h') [] := fun call => call.prog_does
  have hmeets := start_meets hdoes w calls
  let I : World → List IntegrationsEntry → Prop := fun w' t =>
    Identities w' t ∧ KnownByUuid w' t ∧ Originals cfg w w' t ∧
      ∀ r ∈ (w'.db .integrations).rows, Latest cfg calls w t r
  have hnew : NewUuids (Calls.after w (calls.map (IntegrationsCall.prog cfg)) schedule).trace :=
    newUuids_run hcalls schedule
  have hstep : ∀ x t, NewUuids (x :: t) → IntegrationsStep cfg calls t x → I x.before t → I x.after (x :: t) := by
    intro x t hnew hx ⟨hidentities, hknown, horiginals, hlatest⟩
    refine ⟨hidentities.step hx, hknown.step hx hnew, horiginals.step hx, fun r' hr' => ?_⟩
    exact Latest.step hx hidentities hknown horiginals hlatest hr'
  have hinit : I w [] := ⟨.init, .init, .init, fun _ hr => .init hr⟩
  constructor
  . exact (Config.run_induction (A := NewUuids) (fun _ _ => NewUuids.tail) hstep answers_exec hmeets hinit
      schedule hnew).2.2.2
  . intro later x earlier hsplit r' hr' hquiet
    obtain ⟨⟨hidentities, hknown, horiginals, _⟩, _⟩ := Config.run_induction_split (A := NewUuids)
      (fun _ _ => NewUuids.tail) hstep answers_exec hmeets hinit rfl schedule hnew hsplit
    have hx := performs_integrations w calls schedule hsplit
    rcases hx.secret hidentities hknown horiginals hr' with ⟨hwrites, _⟩ | ⟨_, hkept⟩
    . rw [hwrites] at hquiet
      simp at hquiet
    . exact hkept

end Latest

section Runs

attribute [local instance] Kerghan.Sample.platform Sample.crypto Sample.locale

abbrev reencrypting : List IntegrationsCall :=
  [
    .reencrypt 1,
    .replaceCredential 1 Sample.integrationUuid (.object [("token", .string "ghp_new")])
  ]

/--
The operator's re-encryption has read the old secret, and writes it after the credential has been replaced.
-/
abbrev reencryptedLate : Calls IntegrationsReply :=
  Calls.after (Sample.storing (Sample.integration ⟨[0], "k0"⟩ "ghp_old"))
    (reencrypting.map (IntegrationsCall.prog Sample.config))
    (Sample.scheduleIn Sample.answering ([0] ++ List.replicate 11 1 ++ [0, 0]))

theorem latest_secret_wins_late
    : (∀ r ∈ (reencryptedLate.world.db .integrations).rows,
        Latest Sample.config reencrypting (Sample.storing (Sample.integration ⟨[0], "k0"⟩ "ghp_old"))
          reencryptedLate.trace r)
        ∧
      (reencryptedLate.world.db .integrations).rows.map (decryptRow Sample.config.keys .pat) =
        [some (.pat "ghp_new")] :=
  ⟨(latest_secret_wins (by decide) _ _).1, rfl⟩

end Runs

end Kerghan.Integrations
