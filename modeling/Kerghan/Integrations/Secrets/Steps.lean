import Kerghan.Integrations.Lemmas.Flows

/-!
This module contains what a single step makes of an integration and of its secret, and how long the secrets
stay what they were at the start of a run.
-/

namespace Kerghan.Integrations

section Crypto

variable [Crypto] {keys : IntegrationsKey}

omit [Crypto] in
theorem byId_current : IntegrationsEncryptionService.byId keys keys.current.keyId = some keys.current.key := by
  simp [IntegrationsEncryptionService.byId]

theorem decryptBuffer_encryptedAs {plaintext uuid : String} {type : IntegrationType} {iv : Buffer}
    : IntegrationsEncryptionService.decryptBuffer keys (encryptedAs keys plaintext uuid type iv) uuid type =
        some plaintext := by
  unfold IntegrationsEncryptionService.decryptBuffer
  rw [show (encryptedAs keys plaintext uuid type iv).keyId = keys.current.keyId from rfl, byId_current]
  exact Crypto.decrypt_encrypt ..

theorem SealedAs.plaintext [Platform] {cfg : IntegrationsConfig} {type : IntegrationType}
    {validated : ValidatedCredential} {uuid : String} {credential : SealedCredential} {r : Integration}
    (hsealed : SealedAs cfg.keys type validated uuid credential) (hsecret : r.secret = credential.secret)
    (huuid : r.uuid = uuid) (htype : r.type = type)
    : plaintextOf cfg r = some (Crypto.stringify validated.secret.toJson) := by
  obtain ⟨iv, hsealedSecret⟩ := hsealed.secret
  unfold plaintextOf
  rw [hsecret, huuid, htype, hsealedSecret]
  exact decryptBuffer_encryptedAs

end Crypto

variable [Platform] [Crypto] [Locale]

/--
The calls that store a credential: the only ones that create rows or replace their secrets.
-/
def IntegrationsCall.storesCredential : IntegrationsCall → Bool
  | .create .. | .replaceCredential .. | .oauthAppCallback .. | .githubAppCallback ..
  | .selectInstallation .. => true
  | _ => false

section Touches

variable (cfg : IntegrationsConfig)

/--
What a call may do to the row `r`, as it is before the step.
-/
inductive Touches (call : IntegrationsCall) (h : IntegrationsHistory) (r : Integration)
    : (Integration → Integration) → Prop where
  | replace {userId : Nat} {type : IntegrationType} {uuid : String} {checked row : Integration}
    {validated : ValidatedCredential} {credential : SealedCredential} {now : Date}
    (hvalidated : Validated cfg h call userId type validated) (hchecked : Loaded h userId uuid checked)
    (htype : checked.type = type) (hloaded : Loaded h userId uuid row) (hlast : lastLoaded h = some row)
    (hsealed : SealedAs cfg.keys type validated row.uuid credential) (hid : r.id = row.id)
    : Touches call h r (credential.freshColumns now)
  | rename {label labelNormalized : String} (hcall : call.storesCredential = false)
    : Touches call h r fun row => { row with label, labelNormalized }
  | claim {now : Date} (hcall : call.storesCredential = false)
    : Touches call h r fun row => { row with lastTestedAt := some now }
  | undecryptable {userId : Nat} {uuid : String} {row : Integration} {now : Date}
    (hcall : call = .test userId uuid) (hlast : lastLoaded h = some row)
    (hsecret : decryptRow cfg.keys row.type row = none) (hid : r.id = row.id)
    : Touches call h r (IntegrationConnectionTestService.undecryptableColumns now)
  | record {userId : Nat} {uuid : String} {row : Integration} {secret : Payload}
    {encrypted : EncryptedSecret} {events : IntegrationsHistory} {outcome : TestOutcome}
    {changes : Integration → Integration} {now : Date} (hcall : call = .test userId uuid)
    (hlast : lastLoaded h = some row) (hsecret : decryptRow cfg.keys row.type row = some secret)
    (htested : (testSecret cfg secret { row with secret := encrypted }).Returns events (.ok outcome))
    (hevents : events ⊆ h) (hrecords : Records row.type now outcome changes) (hid : r.id = row.id)
    : Touches call h r changes
  | rewrite {row : Integration} {plaintext : String} {iv : Buffer}
    (hcall : (∃ userId uuid, call = .test userId uuid) ∨ ∃ batches, call = .reencrypt batches)
    (hread : Read h row) (hprevious : row.secret.keyId ≠ cfg.keys.current.keyId)
    (hplaintext : IntegrationsEncryptionService.decryptBuffer cfg.keys row.secret row.uuid row.type =
      some plaintext)
    (hid : r.id = row.id) (hkey : r.secret.keyId = row.secret.keyId)
    : Touches call h r fun r =>
        { r with secret := encryptedAs cfg.keys plaintext row.uuid row.type iv }

end Touches

structure SameRow (r r' : Integration) : Prop where
  id : r'.id = r.id
  uuid : r'.uuid = r.uuid
  userId : r'.userId = r.userId
  type : r'.type = r.type

omit [Platform] [Crypto] [Locale] in
theorem SameRow.refl (r : Integration) : SameRow r r := ⟨rfl, rfl, rfl, rfl⟩

omit [Platform] [Crypto] [Locale] in
theorem SameRow.trans {r r' r'' : Integration} (h : SameRow r r') (h' : SameRow r' r'') : SameRow r r'' :=
  ⟨h'.id.trans h.id, h'.uuid.trans h.uuid, h'.userId.trans h.userId, h'.type.trans h.type⟩

variable {cfg : IntegrationsConfig} {call : IntegrationsCall} {h : IntegrationsHistory}

omit [Platform] [Crypto] [Locale] in
theorem Records.sameRow {type : IntegrationType} {now : Date} {outcome : TestOutcome}
    {changes : Integration → Integration} (hrecords : Records type now outcome changes) (r : Integration)
    : SameRow r (changes r) ∧ (changes r).secret = r.secret := by
  cases hrecords <;> exact ⟨⟨rfl, rfl, rfl, rfl⟩, rfl⟩

omit [Locale] in
theorem Touches.sameRow {r : Integration} {changes : Integration → Integration}
    (htouches : Touches cfg call h r changes) (r' : Integration)
    : SameRow r' (changes r') := by
  cases htouches with
  | record _ _ _ _ _ hrecords => exact (hrecords.sameRow r').1
  | replace | rename | claim | undecryptable | rewrite => exact ⟨rfl, rfl, rfl, rfl⟩

section Step

variable {calls : List IntegrationsCall} {trace : List IntegrationsEntry} {x : IntegrationsEntry}

abbrev IntegrationsStep (cfg : IntegrationsConfig) (calls : List IntegrationsCall)
    (trace : List IntegrationsEntry) (x : IntegrationsEntry) : Prop :=
  Config.Performs Effect.exec (fun i h s => ∃ call, calls[i]? = some call ∧ Does cfg call h s) trace x

theorem performs_integrations (w : World) (calls : List IntegrationsCall) (schedule : Schedule)
    {later earlier : List IntegrationsEntry}
    (hsplit : (Calls.after w (calls.map (IntegrationsCall.prog cfg)) schedule).trace =
      later ++ x :: earlier)
    : IntegrationsStep cfg calls earlier x :=
  Config.performs_of_split answers_exec (start_meets IntegrationsCall.prog_does w calls) rfl schedule hsplit

inductive Origin (cfg : IntegrationsConfig) (calls : List IntegrationsCall)
    (trace : List IntegrationsEntry) (x : IntegrationsEntry) (r' : Integration) : Prop where
  | kept (hold : r' ∈ (x.before.db .integrations).rows)
    (hinsert : ∀ mk row, ⟨x.effect, x.resp⟩ = ran (.insert .integrations mk) row → row.id ≠ r'.id)
    (hupdate : ∀ p f, ∀ affected : Nat, ⟨x.effect, x.resp⟩ = ran (.update .integrations p f) affected →
      p r' = false)
  | inserted {call : IntegrationsCall} {userId : Nat} {type : IntegrationType}
    {provider label uuid : String} {validated : ValidatedCredential} {credential : SealedCredential}
    {now : Date} {id : Nat} {mk : Nat → Int → Integration} (hcall : calls[x.call]? = some call)
    (hran : ⟨x.effect, x.resp⟩ = ran (.insert .integrations mk) r')
    (hvalidated : Validated cfg (own x.call trace) call userId type validated)
    (huuid : ⟨.randomUUID, uuid⟩ ∈ own x.call trace)
    (hsealed : SealedAs cfg.keys type validated uuid credential)
    (hrow : r' = IntegrationsService.createdRow userId provider type label uuid credential now id)
  | updated {call : IntegrationsCall} {r : Integration} {p : Integration → Bool}
    {changes : Integration → Integration} {affected : Nat} (hcall : calls[x.call]? = some call)
    (hr : r ∈ (x.before.db .integrations).rows)
    (hran : ⟨x.effect, x.resp⟩ = ran (.update .integrations p fun _ => changes) affected)
    (hp : p r = true) (htouches : Touches cfg call (own x.call trace) r changes) (hrow : r' = changes r)

theorem Does.touches {p : Integration → Bool} {f : Int → Integration → Integration} {r : Integration}
    (hdoes : Does cfg call h (.db (.update .integrations p f))) (hp : p r = true)
    : ∃ changes, f = (fun _ => changes) ∧ Touches cfg call h r changes := by
  have hkey : ∀ {id userId : Nat}, (r.id == id && r.userId == userId) = true → r.id = id :=
    fun hp => beq_iff_eq.mp (Bool.and_eq_true_iff.mp hp).1
  cases hdoes with
  | quiet hs => simp [Effect.isQuiet, Effect.isElsewhere] at hs
  | replace hvalidated hchecked htype hloaded hlast hsealed =>
    exact ⟨_, rfl, .replace hvalidated hchecked htype hloaded hlast hsealed (hkey hp)⟩
  | rename => exact ⟨_, rfl, .rename rfl⟩
  | claim => exact ⟨_, rfl, .claim rfl⟩
  | undecryptable hlast hsecret => exact ⟨_, rfl, .undecryptable rfl hlast hsecret (hkey hp)⟩
  | record hlast hsecret htested hevents hrecords =>
    exact ⟨_, rfl, .record rfl hlast hsecret htested hevents hrecords (hkey hp)⟩
  | rewrite hcall hread hprevious hplaintext =>
    obtain ⟨hid, hk⟩ := Bool.and_eq_true_iff.mp hp
    exact ⟨_, rfl, .rewrite hcall hread hprevious hplaintext (hkey hid) (beq_iff_eq.mp hk)⟩
  | issue hissues => cases hissues with | free hs => simp [Effect.writes] at hs
  | consume hconsumes => cases hconsumes with | free hs => simp [Effect.writes] at hs
  | offer _ _ _ _ _ hissues => cases hissues with | free hs => simp [Effect.writes] at hs

theorem Does.created {mk : Nat → Int → Integration}
    (hdoes : Does cfg call h (.db (.insert .integrations mk)))
    : ∃ userId type provider label uuid validated credential now,
        mk = (fun id _ =>
          IntegrationsService.createdRow userId provider type label uuid credential now id)
          ∧
        Validated cfg h call userId type validated
          ∧
        ⟨.randomUUID, uuid⟩ ∈ h
          ∧
        SealedAs cfg.keys type validated uuid credential := by
  cases hdoes with
  | quiet hs => simp [Effect.isQuiet, Effect.isElsewhere] at hs
  | insert hvalidated huuid hsealed => exact ⟨_, _, _, _, _, _, _, _, rfl, hvalidated, huuid, hsealed⟩
  | issue hissues => cases hissues with | free hs => simp [Effect.writes] at hs
  | consume hconsumes => cases hconsumes with | free hs => simp [Effect.writes] at hs
  | offer _ _ _ _ _ hissues => cases hissues with | free hs => simp [Effect.writes] at hs

theorem IntegrationsStep.inserted_id (hx : IntegrationsStep cfg calls trace x) {mk : Nat → Int → Integration}
    {row : Integration} (hran : ⟨x.effect, x.resp⟩ = ran (.insert .integrations mk) row)
    : row.id = (x.before.db .integrations).nextId := by
  have hexecuted : x.Executed Effect.exec := hx.answered
  obtain ⟨call, _, hdoes⟩ := hx.allowed
  rw [show x.effect = .db (.insert .integrations mk) from congrArg Sigma.fst hran] at hdoes
  obtain ⟨_, _, _, _, _, _, _, _, rfl, _⟩ := hdoes.created
  obtain ⟨_, hrow, _⟩ := hexecuted.inserted hran
  rw [hrow]
  rfl

theorem IntegrationsStep.origin (hx : IntegrationsStep cfg calls trace x) {r' : Integration}
    (hr' : r' ∈ (x.after.db .integrations).rows)
    : Origin cfg calls trace x r' := by
  have hexecuted : x.Executed Effect.exec := hx.answered
  obtain ⟨call, hcall, hdoes⟩ := hx.allowed
  have hid : ∀ mk row, ⟨x.effect, x.resp⟩ = ran (.insert .integrations mk) row →
      ∀ id now, (mk id now).id = id := by
    intro mk row hran
    have heffect : x.effect = .db (.insert .integrations mk) := congrArg Sigma.fst hran
    rw [heffect] at hdoes
    obtain ⟨_, _, _, _, _, _, _, _, rfl, _⟩ := hdoes.created
    exact fun _ _ => rfl
  rcases hexecuted.row_cases hid hr' with
    ⟨hold, hinsert, hupdate⟩ | ⟨mk, hran⟩ | ⟨p, f, affected, now, r, hr, hran, hp, hrow⟩
  . exact .kept hold hinsert hupdate
  . have heffect : x.effect = .db (.insert .integrations mk) := congrArg Sigma.fst hran
    rw [heffect] at hdoes
    obtain ⟨_, _, _, _, _, _, _, _, rfl, hvalidated, huuid, hsealed⟩ := hdoes.created
    obtain ⟨_, hrow, _⟩ := hexecuted.inserted hran
    exact .inserted hcall hran hvalidated huuid hsealed hrow
  . have heffect : x.effect = .db (.update .integrations p f) := congrArg Sigma.fst hran
    rw [heffect] at hdoes
    obtain ⟨changes, rfl, htouches⟩ := hdoes.touches hp
    exact .updated hcall hr hran hp htouches hrow

theorem Read.of_cons (hx : IntegrationsStep cfg calls trace x) {i : Nat} {row : Integration}
    (hread : Read (own i (x :: trace)) row)
    : Read (own i trace) row ∨ i = x.call ∧ row ∈ (x.before.db .integrations).rows := by
  have hexecuted : x.Executed Effect.exec := hx.answered
  rcases hread with ⟨p, rank, hmem⟩ | ⟨p, rows, hmem, hrow⟩
  . rcases mem_own_cons.mp hmem with ⟨hcall, hran⟩ | hold
    . exact Or.inr ⟨hcall.symm, (hexecuted.found_mem hran).1⟩
    . exact Or.inl (Or.inl ⟨p, rank, hold⟩)
  . rcases mem_own_cons.mp hmem with ⟨hcall, hran⟩ | hold
    . rw [hexecuted.listed hran] at hrow
      exact Or.inr ⟨hcall.symm, (List.mem_filter.mp hrow).1⟩
    . exact Or.inl (Or.inr ⟨p, rows, hold, hrow⟩)

end Step

section Identity

def IntegrationsCall.deletes : IntegrationsCall → Bool
  | .delete .. => true
  | _ => false

theorem Does.deletes {p : Integration → Bool} (hdoes : Does cfg call h (.db (.delete .integrations p)))
    : call.deletes = true := by
  cases hdoes with
  | quiet hs => simp [Effect.isQuiet, Effect.isElsewhere] at hs
  | delete => rfl
  | issue hissues => cases hissues with | free hs => simp [Effect.writes] at hs
  | consume hconsumes => cases hconsumes with | free hs => simp [Effect.writes] at hs
  | offer _ _ _ _ _ hissues => cases hissues with | free hs => simp [Effect.writes] at hs

/--
No integration is inserted with the uuid of one that has been read: `randomUUID` never draws a uuid again.
-/
def NewUuids (trace : List IntegrationsEntry) : Prop :=
  ∀ later x earlier, trace = later ++ x :: earlier →
    ∀ mk r, ⟨x.effect, x.resp⟩ = ran (.insert .integrations mk) r →
      ∀ i r₀, Read (own i earlier) r₀ → sameText r.uuid r₀.uuid = false

structure Identities (w : World) (trace : List IntegrationsEntry) : Prop where
  known : ∀ i r, Read (own i trace) r → r.id < (w.db .integrations).nextId ∧
    ∀ r' ∈ (w.db .integrations).rows, r'.id = r.id → SameRow r r'
  loaded : ∀ i userId uuid r, Loaded (own i trace) userId uuid r →
    sameText r.uuid uuid = true ∧ r.userId = userId

/--
The same goes for the integration that has its uuid.
-/
def KnownByUuid (w : World) (trace : List IntegrationsEntry) : Prop :=
  ∀ i r, Read (own i trace) r → ∀ r' ∈ (w.db .integrations).rows, sameText r'.uuid r.uuid = true → SameRow r r'

variable {calls : List IntegrationsCall} {trace : List IntegrationsEntry} {x : IntegrationsEntry}

theorem IntegrationsStep.keeps (hx : IntegrationsStep cfg calls trace x)
    (hcalls : ∀ call ∈ calls, call.deletes = false) {r : Integration}
    (hr : r ∈ (x.before.db .integrations).rows)
    : ∃ r' ∈ (x.after.db .integrations).rows, SameRow r r' := by
  have hexecuted : x.Executed Effect.exec := hx.answered
  obtain ⟨call, hcall, hdoes⟩ := hx.allowed
  rcases hexecuted.table_cases .integrations with hsame | ⟨s, a, e, hran, hexec, htable, hread⟩
  . refine ⟨r, ?_, .refl r⟩
    rw [show (x.after.db .integrations) = x.before.db .integrations from hsame]
    exact hr
  . have heffect : x.effect = .db s := congrArg Sigma.fst hran
    rw [heffect] at hdoes
    cases s with
    | find => simp at hread
    | all => simp at hread
    | count => simp at hread
    | insert t mk =>
      obtain rfl : t = .integrations := htable
      obtain ⟨_, _, hafter, _⟩ := hexecuted.inserted hran
      refine ⟨r, ?_, .refl r⟩
      rw [show (x.after.db .integrations).rows = _ from hafter]
      exact List.mem_append_left _ hr
    | update t p f =>
      obtain rfl : t = .integrations := htable
      obtain ⟨now, _, hafter⟩ := hexecuted.updated hran
      refine ⟨if p r then f now r else r, ?_, ?_⟩
      . rw [show (x.after.db .integrations).rows = _ from hafter]
        exact List.mem_map_of_mem hr
      . split
        . next hp =>
          obtain ⟨changes, rfl, htouches⟩ := hdoes.touches hp
          exact htouches.sameRow r
        . exact .refl r
    | delete t p =>
      obtain rfl : t = .integrations := htable
      have hdeletes := hcalls call (List.mem_of_getElem? hcall)
      rw [hdoes.deletes] at hdeletes
      simp at hdeletes

omit [Crypto] [Locale] in
theorem NewUuids.tail (hnew : NewUuids (x :: trace)) : NewUuids trace :=
  fun later y earlier hsplit => hnew (x :: later) y earlier (by rw [hsplit]; rfl)

omit [Crypto] [Locale] in
theorem Identities.init {w : World} : Identities w [] where
  known i r hread := by
    rcases hread with ⟨_, _, hmem⟩ | ⟨_, _, hmem, _⟩
    . exact absurd hmem List.not_mem_nil
    . exact absurd hmem List.not_mem_nil
  loaded _ _ _ _ hloaded := absurd hloaded List.not_mem_nil

omit [Crypto] [Locale] in
theorem KnownByUuid.init {w : World} : KnownByUuid w [] := by
  rintro i r (⟨_, _, hmem⟩ | ⟨_, _, hmem, _⟩)
  . exact absurd hmem List.not_mem_nil
  . exact absurd hmem List.not_mem_nil

theorem IntegrationsStep.version (hx : IntegrationsStep cfg calls trace x) {r' : Integration}
    (hr' : r' ∈ (x.after.db .integrations).rows)
    : (∃ r ∈ (x.before.db .integrations).rows, SameRow r r') ∨
      ∃ mk, ⟨x.effect, x.resp⟩ = ran (.insert .integrations mk) r' := by
  cases hx.origin hr' with
  | kept hold => exact Or.inl ⟨r', hold, .refl r'⟩
  | inserted _ hran => exact Or.inr ⟨_, hran⟩
  | @updated _ r _ _ _ _ hr _ _ htouches hrow =>
    subst hrow
    exact Or.inl ⟨r, hr, htouches.sameRow r⟩

theorem Identities.step (hx : IntegrationsStep cfg calls trace x) (hidentities : Identities x.before trace)
    : Identities x.after (x :: trace) where
  known := by
    intro i r hread
    have hknown : r.id < (x.before.db .integrations).nextId ∧
        ∀ r' ∈ (x.before.db .integrations).rows, r'.id = r.id → SameRow r r' := by
      rcases hread.of_cons hx with hold | ⟨_, hmem⟩
      . exact hidentities.known i r hold
      . refine ⟨(x.before.db .integrations).id_lt r hmem, fun r' hr' hid => ?_⟩
        rw [Table.eq_of_id_eq hr' hmem hid]
        exact .refl r
    refine ⟨Nat.lt_of_lt_of_le hknown.1 (Entry.Executed.nextId_le hx.answered .integrations), ?_⟩
    intro r'' hr'' hid
    rcases hx.version hr'' with ⟨r', hr', hsame⟩ | ⟨_, hran⟩
    . exact (hknown.2 r' hr' (hsame.id.symm.trans hid)).trans hsame
    . rw [hx.inserted_id hran] at hid
      exact absurd hid (Nat.ne_of_gt hknown.1)
  loaded := by
    intro i userId uuid r hloaded
    have hexecuted : x.Executed Effect.exec := hx.answered
    rcases mem_own_cons.mp hloaded with ⟨_, hran⟩ | hold
    . obtain ⟨huuid, huser⟩ := Bool.and_eq_true_iff.mp (hexecuted.found_mem hran).2
      exact ⟨huuid, beq_iff_eq.mp huser⟩
    . exact hidentities.loaded i userId uuid r hold

theorem KnownByUuid.step (hx : IntegrationsStep cfg calls trace x) (hnew : NewUuids (x :: trace))
    (hknown : KnownByUuid x.before trace)
    : KnownByUuid x.after (x :: trace) := by
  have hinserted : ∀ {r₀ r'' : Integration} {mk} (_ : ⟨x.effect, x.resp⟩ = ran (.insert .integrations mk) r'')
      {i : Nat}, Read (own i trace) r₀ → sameText r''.uuid r₀.uuid = false :=
    fun hran _ hold => hnew [] x trace rfl _ _ hran _ _ hold
  intro i r hread r'' hr'' huuid
  rcases hread.of_cons hx with hold | ⟨_, hmem⟩
  . rcases hx.version hr'' with ⟨r', hr', hsame⟩ | ⟨_, hran⟩
    . rw [hsame.uuid] at huuid
      exact (hknown i r hold r' hr' huuid).trans hsame
    . rw [hinserted hran hold] at huuid
      simp at huuid
  . rcases hx.version hr'' with ⟨r', hr', hsame⟩ | ⟨_, hran⟩
    . rw [hsame.uuid] at huuid
      have hrow : r' = r := Table.eq_of_clash hr' hmem (by simp [Entity.clash, huuid])
      rw [← hrow]
      exact hsame
    . obtain ⟨_, _, hafter, _⟩ := Entry.Executed.inserted hx.answered hran
      have hkept : r ∈ (x.after.db .integrations).rows := by
        rw [show (x.after.db .integrations).rows = _ from hafter]
        exact List.mem_append_left _ hmem
      rw [Table.eq_of_clash hr'' hkept (by simp [Entity.clash, huuid])]
      exact .refl r

omit [Crypto] [Locale] in
theorem Identities.same (hidentities : Identities x.before trace) (hknown : KnownByUuid x.before trace)
    {i userId : Nat} {uuid : String} {row row' r : Integration} (hloaded : Loaded (own i trace) userId uuid row)
    (hloaded' : Loaded (own i trace) userId uuid row') (hr : r ∈ (x.before.db .integrations).rows)
    (hid : r.id = row.id)
    : SameRow row r ∧ SameRow row' r := by
  have hsame : SameRow row r := (hidentities.known i row (Or.inl ⟨_, _, hloaded⟩)).2 r hr hid
  refine ⟨hsame, hknown i row' (Or.inl ⟨_, _, hloaded'⟩) r hr ?_⟩
  rw [hsame.uuid]
  refine sameText_trans (hidentities.loaded i userId uuid row hloaded).1 ?_
  rw [sameText_comm]
  exact (hidentities.loaded i userId uuid row' hloaded').1

theorem newUuids_run {w : World} (hcalls : ∀ call ∈ calls, call.deletes = false) (schedule : Schedule)
    : NewUuids (Calls.after w (calls.map (IntegrationsCall.prog cfg)) schedule).trace := by
  let I : World → List IntegrationsEntry → Prop := fun w t =>
    NewUuids t ∧ ∀ i r, Read (own i t) r → ∃ r' ∈ (w.db .integrations).rows, SameRow r r'
  have hstep : ∀ x t, True → IntegrationsStep cfg calls t x → I x.before t → I x.after (x :: t) := by
    intro x t _ hx ⟨hnew, hthere⟩
    constructor
    . intro later y earlier hsplit mk r hran i r₀ hread
      cases later with
      | cons _ later => exact hnew later y earlier (List.cons.inj hsplit).2 mk r hran i r₀ hread
      | nil =>
        obtain ⟨rfl, rfl⟩ := List.cons.inj hsplit
        obtain ⟨r₁, hr₁, hsame⟩ := hthere i r₀ hread
        obtain ⟨_, _, hafter, _⟩ := Entry.Executed.inserted hx.answered hran
        have hdistinct := (x.after.db .integrations).distinct
        rw [show (x.after.db .integrations).rows = _ from hafter] at hdistinct
        have hclash := ((List.pairwise_append.mp hdistinct).2.2 r₁ hr₁ r (List.mem_singleton_self r)).2
        simp only [Entity.clash, Bool.or_eq_false_iff] at hclash
        rw [sameText_comm, ← hsame.uuid]
        exact hclash.1
    . intro i r hread
      rcases hread.of_cons hx with hold | ⟨_, hmem⟩
      . obtain ⟨r', hr', hsame⟩ := hthere i r hold
        obtain ⟨r'', hr'', hsame'⟩ := hx.keeps hcalls hr'
        exact ⟨r'', hr'', hsame.trans hsame'⟩
      . exact hx.keeps hcalls hmem
  have hinit : I w [] := by
    refine ⟨fun later y earlier hsplit => by simp at hsplit, ?_⟩
    rintro i r (⟨_, _, hmem⟩ | ⟨_, _, hmem, _⟩)
    . exact absurd hmem List.not_mem_nil
    . exact absurd hmem List.not_mem_nil
  exact (Config.run_induction (A := fun _ => True) (fun _ _ _ => trivial) hstep answers_exec
    (start_meets IntegrationsCall.prog_does w calls) hinit schedule trivial).1

end Identity

section Original

/--
A secret that is not under the current key is the one that the integration had at the start.
-/
def Original (cfg : IntegrationsConfig) (start : World) (r : Integration) : Prop :=
  r.secret.keyId ≠ cfg.keys.current.keyId →
    ∃ r₀ ∈ (start.db .integrations).rows, SameRow r₀ r ∧ r.secret = r₀.secret

structure Originals (cfg : IntegrationsConfig) (start w : World) (trace : List IntegrationsEntry) : Prop where
  stored : ∀ r ∈ (w.db .integrations).rows, Original cfg start r
  read : ∀ i r, Read (own i trace) r → Original cfg start r

variable {calls : List IntegrationsCall} {trace : List IntegrationsEntry} {x : IntegrationsEntry}
variable {start : World}

omit [Crypto] [Locale] in
theorem Originals.init : Originals cfg start start [] where
  stored r hr _ := ⟨r, hr, .refl r, rfl⟩
  read i r hread := by
    rcases hread with ⟨_, _, hmem⟩ | ⟨_, _, hmem, _⟩
    . exact absurd hmem List.not_mem_nil
    . exact absurd hmem List.not_mem_nil

theorem IntegrationsStep.previous (hx : IntegrationsStep cfg calls trace x) {r' : Integration}
    (hr' : r' ∈ (x.after.db .integrations).rows) (hkey : r'.secret.keyId ≠ cfg.keys.current.keyId)
    : ∃ r ∈ (x.before.db .integrations).rows, SameRow r r' ∧ r'.secret = r.secret := by
  cases hx.origin hr' with
  | kept hold => exact ⟨r', hold, .refl r', rfl⟩
  | inserted _ _ _ _ hsealed hrow =>
    obtain ⟨iv, hsecret⟩ := hsealed.secret
    rw [hrow] at hkey
    exact absurd (congrArg EncryptedSecret.keyId hsecret) hkey
  | @updated _ r _ _ _ _ hr _ _ htouches hrow =>
    cases htouches with
    | replace _ _ _ _ _ hsealed =>
      obtain ⟨iv, hsecret⟩ := hsealed.secret
      rw [hrow] at hkey
      exact absurd (congrArg EncryptedSecret.keyId hsecret) hkey
    | record _ _ _ _ _ hrecords =>
      subst hrow
      exact ⟨r, hr, (hrecords.sameRow r).1, (hrecords.sameRow r).2⟩
    | rewrite =>
      rw [hrow] at hkey
      exact absurd rfl hkey
    | rename | claim | undecryptable =>
      subst hrow
      exact ⟨r, hr, ⟨rfl, rfl, rfl, rfl⟩, rfl⟩

theorem Originals.step (hx : IntegrationsStep cfg calls trace x)
    (horiginals : Originals cfg start x.before trace)
    : Originals cfg start x.after (x :: trace) where
  stored := by
    intro r' hr' hkey
    obtain ⟨r, hr, hsame, hsecret⟩ := hx.previous hr' hkey
    rw [hsecret] at hkey
    obtain ⟨r₀, hr₀, hsame₀, hsecret₀⟩ := horiginals.stored r hr hkey
    exact ⟨r₀, hr₀, hsame₀.trans hsame, hsecret.trans hsecret₀⟩
  read := by
    intro i r hread
    rcases hread.of_cons hx with hold | ⟨_, hmem⟩
    . exact horiginals.read i r hold
    . exact horiginals.stored r hmem

omit [Locale] in
theorem Originals.rewritten (horiginals : Originals cfg start x.before trace) {i : Nat}
    {r row : Integration} {plaintext : String} {iv : Buffer}
    (hr : r ∈ (x.before.db .integrations).rows) (hread : Read (own i trace) row)
    (hprevious : row.secret.keyId ≠ cfg.keys.current.keyId)
    (hplaintext : IntegrationsEncryptionService.decryptBuffer cfg.keys row.secret row.uuid row.type =
      some plaintext)
    (hid : r.id = row.id) (hkey : r.secret.keyId = row.secret.keyId)
    : IntegrationsEncryptionService.decryptBuffer cfg.keys r.secret r.uuid r.type = some plaintext ∧
      IntegrationsEncryptionService.decryptBuffer cfg.keys
        (encryptedAs cfg.keys plaintext row.uuid row.type iv) r.uuid r.type = some plaintext := by
  obtain ⟨r₀, hr₀, hsame, hsecret⟩ := horiginals.stored r hr (by rwa [hkey])
  obtain ⟨r₁, hr₁, hsame', hsecret'⟩ := horiginals.read i row hread hprevious
  have heq : r₀ = r₁ := Table.eq_of_id_eq hr₀ hr₁ (hsame.id.symm.trans (hid.trans hsame'.id))
  subst heq
  have huuid : r.uuid = row.uuid := hsame.uuid.trans hsame'.uuid.symm
  have htype : r.type = row.type := hsame.type.trans hsame'.type.symm
  rw [huuid, htype, hsecret, ← hsecret']
  exact ⟨hplaintext, decryptBuffer_encryptedAs⟩

end Original

end Kerghan.Integrations
