import Kerghan.Integrations.Secrets.Payload
import Kerghan.Integrations.Secrets.Steps
import Kerghan.Integrations.Sample

/-!
This module contains the proof that stored secrets stay readable, whatever is called and however often the server
is restarted with other keys, and that none of them can be read as the secret of another integration.
-/

namespace Kerghan.Integrations

open IntegrationsEncryptionService

section Binding

theorem IntegrationType.name_injective {type type' : IntegrationType} (h : type.name = type'.name) : type = type' := by
  cases type <;> cases type' <;> simp_all [IntegrationType.name]

theorem not_mem_name (type : IntegrationType) : ':' ∉ type.name.toList := by
  cases type <;> simp [IntegrationType.name]

theorem append_colon_injective {text text' name name' : List Char} (hname : ':' ∉ name) (hname' : ':' ∉ name')
    (h : text ++ ':' :: name = text' ++ ':' :: name')
    : text = text' ∧ name = name' := by
  rcases List.append_eq_append_iff.mp h with ⟨middle, htext, hrest⟩ | ⟨middle, htext, hrest⟩
  . cases middle with
    | nil =>
      simp only [List.nil_append, List.cons.injEq, true_and] at hrest
      exact ⟨by rw [htext, List.append_nil], hrest⟩
    | cons c middle =>
      rw [List.cons_append, List.cons.injEq] at hrest
      have hmem : ':' ∈ name := by
        rw [hrest.2]
        exact List.mem_append_right _ (List.mem_cons_self ..)
      exact absurd hmem hname
  . cases middle with
    | nil =>
      simp only [List.nil_append, List.cons.injEq, true_and] at hrest
      exact ⟨by rw [htext, List.append_nil], hrest.symm⟩
    | cons c middle =>
      rw [List.cons_append, List.cons.injEq] at hrest
      have hmem : ':' ∈ name' := by
        rw [hrest.2]
        exact List.mem_append_right _ (List.mem_cons_self ..)
      exact absurd hmem hname'

theorem aadFor_injective {uuid uuid' : String} {type type' : IntegrationType}
    (h : aadFor uuid type = aadFor uuid' type')
    : uuid = uuid' ∧ type = type' := by
  have hlists := congrArg String.toList h
  simp only [aadFor, String.toList_append] at hlists
  rw [show ":".toList = [':'] from rfl, List.append_assoc, List.append_assoc, List.singleton_append,
    List.singleton_append] at hlists
  have ⟨huuid, hname⟩ := append_colon_injective (not_mem_name type) (not_mem_name type') hlists
  exact ⟨String.toList_injective huuid, IntegrationType.name_injective (String.toList_injective hname)⟩

end Binding

section Sealed

variable [Crypto]

/--
What AES-GCM is trusted with: a ciphertext with its tag is refused under any other AAD.
-/
def Authenticates : Prop :=
  ∀ key iv aad aad' plaintext, aad ≠ aad' →
    Crypto.decrypt key iv aad' (Crypto.encrypt key iv aad plaintext).1 (Crypto.encrypt key iv aad plaintext).2 = none

/--
The integration has the secret `payload`, sealed for itself under one of the keys.
-/
structure Holds (keys : IntegrationsKey) (r : Integration) (payload : Payload) : Prop where
  secret : ∃ key, byId keys r.secret.keyId = some key ∧ (r.secret.ciphertext, r.secret.authTag) =
    Crypto.encrypt key r.secret.iv (aadFor r.uuid r.type) (Crypto.stringify payload.toJson)
  parses : Crypto.parse (Crypto.stringify payload.toJson) = some payload.toJson
  accepted : parseSecretPayload r.type payload.toJson = some payload

/--
The secret is opened for its own integration only.
-/
structure Readable (keys : IntegrationsKey) (r : Integration) : Prop where
  decrypts : ∃ payload, decryptRow keys r.type r = some payload
  bound : Authenticates → ∀ uuid type, ¬(uuid = r.uuid ∧ type = r.type) → decryptBuffer keys r.secret uuid type = none

variable {keys : IntegrationsKey} {r : Integration} {payload : Payload}

theorem Holds.plaintext (hholds : Holds keys r payload)
    : decryptBuffer keys r.secret r.uuid r.type = some (Crypto.stringify payload.toJson) := by
  have ⟨key, hkey, heq⟩ := hholds.secret
  rw [Prod.ext_iff] at heq
  dsimp only at heq
  unfold decryptBuffer
  rw [hkey]
  dsimp only
  rw [heq.1, heq.2]
  exact Crypto.decrypt_encrypt ..

theorem Holds.readable (hholds : Holds keys r payload) : Readable keys r where
  decrypts := by
    refine ⟨payload, ?_⟩
    unfold decryptRow decrypt
    rw [hholds.plaintext, Option.bind_some, hholds.parses, Option.bind_some]
    exact hholds.accepted
  bound := by
    intro hauthenticates uuid type hother
    have ⟨key, hkey, heq⟩ := hholds.secret
    rw [Prod.ext_iff] at heq
    dsimp only at heq
    unfold decryptBuffer
    rw [hkey]
    dsimp only
    rw [heq.1, heq.2]
    apply hauthenticates
    intro haad
    have ⟨huuid, htype⟩ := aadFor_injective haad
    exact hother ⟨huuid.symm, htype.symm⟩

theorem holds_encryptedAs {iv : Buffer}
    (hsecret : r.secret = encryptedAs keys (Crypto.stringify payload.toJson) r.uuid r.type iv)
    (hparses : Crypto.parse (Crypto.stringify payload.toJson) = some payload.toJson)
    (haccepted : parseSecretPayload r.type payload.toJson = some payload)
    : Holds keys r payload where
  secret := by
    refine ⟨keys.current.key, ?_, ?_⟩
    . rw [hsecret]
      exact byId_current
    . rw [hsecret]
      rfl
  parses := hparses
  accepted := haccepted

theorem Holds.of_same {r' : Integration} (hholds : Holds keys r payload) (hsecret : r'.secret = r.secret)
    (huuid : r'.uuid = r.uuid) (htype : r'.type = r.type)
    : Holds keys r' payload where
  secret := by
    rw [hsecret, huuid, htype]
    exact hholds.secret
  parses := hholds.parses
  accepted := by
    rw [htype]
    exact hholds.accepted

end Sealed

section Kept

variable [Platform] [Crypto] [Locale] {cfg : IntegrationsConfig} {calls : List IntegrationsCall}
variable {trace : List IntegrationsEntry} {x : IntegrationsEntry} {start : World}

omit [Locale] in
theorem Validated.holds {h : IntegrationsHistory} {call : IntegrationsCall} {userId : Nat} {type : IntegrationType}
    {validated : ValidatedCredential} (hvalidated : Validated cfg h call userId type validated) {r : Integration}
    {iv : Buffer} (htype : r.type = type)
    (hsecret : r.secret = encryptedAs cfg.keys (Crypto.stringify validated.secret.toJson) r.uuid r.type iv)
    : Holds cfg.keys r validated.secret := by
  apply holds_encryptedAs hsecret (parse_stringify hvalidated)
  rw [htype]
  exact hvalidated.parseSecretPayload

theorem IntegrationsStep.holds (hx : IntegrationsStep cfg calls trace x) (hidentities : Identities x.before trace)
    (hknown : KnownByUuid x.before trace) (horiginals : Originals cfg start x.before trace)
    (hbefore : ∀ r ∈ (x.before.db .integrations).rows, ∃ payload, Holds cfg.keys r payload) {r' : Integration}
    (hr' : r' ∈ (x.after.db .integrations).rows)
    : ∃ payload, Holds cfg.keys r' payload := by
  cases hx.origin hr' with
  | kept hold => exact hbefore r' hold
  | inserted _ _ hvalidated _ hsealed hrow =>
    have ⟨iv, hsecret⟩ := hsealed.secret
    refine ⟨_, @Validated.holds _ _ _ _ _ _ _ _ hvalidated _ iv (congrArg Integration.type hrow) ?_⟩
    rw [hrow]
    exact hsecret
  | @updated call r p changes affected hcall hr hran hp htouches hrow =>
    have ⟨payload, hholds⟩ := hbefore r hr
    have hsame : SameRow r r' := hrow ▸ htouches.sameRow r
    -- All updates but a replacement and a re-encryption leave the secret as it is.
    have hkept : r'.secret = r.secret → ∃ payload, Holds cfg.keys r' payload :=
      fun hsecret => ⟨payload, hholds.of_same hsecret hsame.uuid hsame.type⟩
    cases htouches with
    | rename | claim =>
      apply hkept
      rw [hrow]
    | undecryptable =>
      apply hkept
      rw [hrow]
      rfl
    | record _ _ _ _ _ hrecords =>
      apply hkept
      rw [hrow]
      exact (hrecords.sameRow r).2
    | @rewrite row plaintext iv _ hread hprevious hplaintext hid hkey =>
      have hsame₁ : SameRow row r := (hidentities.known _ _ hread).2 r hr hid
      have hdecrypts :=
        (@Originals.rewritten _ _ _ _ _ _ horiginals _ _ _ _ iv hr hread hprevious hplaintext hid hkey).1
      have hpayload : plaintext = Crypto.stringify payload.toJson :=
        Option.some.inj (hdecrypts.symm.trans hholds.plaintext)
      refine ⟨payload, @holds_encryptedAs _ _ _ _ iv ?_ hholds.parses ?_⟩
      . rw [hrow, hpayload, hsame₁.uuid, hsame₁.type]
      . rw [hsame.type]
        exact hholds.accepted
    | @replace userId type uuid checked row validated credential now hvalidated hchecked htype hloaded _ hsealed
        hid =>
      have ⟨hrow', hchecked'⟩ := hidentities.same hknown hloaded hchecked hr hid
      have ⟨iv, hsecret⟩ := hsealed.secret
      have htype' : r'.type = type := hsame.type.trans (hchecked'.type.trans htype)
      refine ⟨_, @Validated.holds _ _ _ _ _ _ _ _ hvalidated _ iv htype' ?_⟩
      rw [htype', hsame.uuid, hrow'.uuid, hrow]
      exact hsecret

theorem holds_run (hbefore : ∀ r ∈ (start.db .integrations).rows, ∃ payload, Holds cfg.keys r payload)
    (schedule : Schedule)
    (hnew : NewUuids (Calls.after start (calls.map (IntegrationsCall.prog cfg)) schedule).trace)
    : ∀ r ∈ ((Calls.after start (calls.map (IntegrationsCall.prog cfg)) schedule).world.db .integrations).rows,
        ∃ payload, Holds cfg.keys r payload := by
  let I : World → List IntegrationsEntry → Prop := fun w t =>
    Identities w t ∧ KnownByUuid w t ∧ Originals cfg start w t ∧
      ∀ r ∈ (w.db .integrations).rows, ∃ payload, Holds cfg.keys r payload
  have hstep : ∀ x t, NewUuids (x :: t) → IntegrationsStep cfg calls t x → I x.before t → I x.after (x :: t) := by
    intro x t hnew hx ⟨hidentities, hknown, horiginals, hholds⟩
    refine ⟨hidentities.step hx, hknown.step hx hnew, horiginals.step hx, fun r hr => ?_⟩
    exact hx.holds hidentities hknown horiginals hholds hr
  have hinit : I start [] := ⟨.init, .init, .init, hbefore⟩
  exact (Config.run_induction (A := NewUuids) (fun _ _ => NewUuids.tail) hstep answers_exec
    (start_meets IntegrationsCall.prog_does start calls) hinit schedule hnew).2.2.2

end Kept

section Deployed

variable [Platform] [Crypto] [Locale]

/--
The new keys have every key that a secret of the database is sealed under.
-/
def KeepsKeys (w : World) (keys keys' : IntegrationsKey) : Prop :=
  ∀ r ∈ (w.db .integrations).rows, ∀ key, byId keys r.secret.keyId = some key → byId keys' r.secret.keyId = some key

/--
The configuration and the database after any number of runs and restarts. A restart ends the calls in flight where
they are, and releases their locks.
-/
inductive Deployed (first : IntegrationsConfig) (start : World) : IntegrationsConfig → World → Prop where
  | started : Deployed first start first start
  | ran {cfg : IntegrationsConfig} {w : World} (hdeployed : Deployed first start cfg w)
    {calls : List IntegrationsCall} (schedule : Schedule)
    (hnew : (∀ call ∈ calls, call.deletes = false) ∨
      NewUuids (Calls.after w (calls.map (IntegrationsCall.prog cfg)) schedule).trace)
    : Deployed first start cfg (Calls.after w (calls.map (IntegrationsCall.prog cfg)) schedule).world
  | restarted {cfg cfg' : IntegrationsConfig} {w : World} (hdeployed : Deployed first start cfg w)
    (hkeys : KeepsKeys w cfg.keys cfg'.keys)
    : Deployed first start cfg' { w with locked := fun _ => false }

variable {first cfg : IntegrationsConfig} {start w : World}

/--
Whatever is called, in any order of its steps, and whenever the server is restarted with keys that keep those in use:
if no uuid of a deleted integration is drawn again, every secret can be read, by its own integration only.
-/
theorem secrets_kept (hstart : ∀ r ∈ (start.db .integrations).rows, ∃ payload, Holds first.keys r payload)
    (hdeployed : Deployed first start cfg w)
    : ∀ r ∈ (w.db .integrations).rows, Readable cfg.keys r := by
  have hholds : ∀ r ∈ (w.db .integrations).rows, ∃ payload, Holds cfg.keys r payload := by
    induction hdeployed with
    | started => exact hstart
    | ran _ schedule hnew ih => exact holds_run ih schedule (hnew.elim (newUuids_run · schedule) id)
    | restarted _ hkeys ih =>
      intro r hr
      have ⟨payload, hholds⟩ := ih r hr
      have ⟨key, hkey, hsealed⟩ := hholds.secret
      exact ⟨payload, ⟨key, hkeys r hr key hkey, hsealed⟩, hholds.parses, hholds.accepted⟩
  intro r hr
  have ⟨payload, hpayload⟩ := hholds r hr
  exact hpayload.readable

end Deployed

section Runs

attribute [local instance] Kerghan.Sample.platform Sample.crypto Sample.locale

/--
The sample configuration after its current key has been retired.
-/
abbrev rotatedConfig : IntegrationsConfig :=
  { Sample.config with
    keys := { current := ⟨[2], "k2"⟩, previous := [⟨[1], "k1"⟩, ⟨[0], "k0"⟩], distinct := by decide } }

abbrev rotatedStart : World :=
  Sample.storing (Sample.integration ⟨[0], "k0"⟩ "ghp_a")

/--
The secret is read under the retired key, and written under the new one.
-/
abbrev rotated : Calls IntegrationsReply :=
  Calls.after rotatedStart ([.reencrypt 1].map (IntegrationsCall.prog rotatedConfig))
    (Sample.schedule (List.replicate 4 0))

theorem secrets_kept_rotated
    : (∀ r ∈ (rotatedStart.db .integrations).rows, r.secret.keyId = "k0")
        ∧
      ∀ r ∈ (rotated.world.db .integrations).rows, r.secret.keyId = "k2" ∧ Readable rotatedConfig.keys r := by
  have hstart : ∀ r ∈ (rotatedStart.db .integrations).rows, ∃ payload, Holds Sample.config.keys r payload := by
    intro r hr
    rw [List.mem_singleton.mp hr]
    exact ⟨.pat "ghp_a", ⟨[0], rfl, rfl⟩, rfl, rfl⟩
  have hkeys : KeepsKeys rotatedStart Sample.config.keys rotatedConfig.keys := by
    intro r hr key hkey
    rw [List.mem_singleton.mp hr] at hkey ⊢
    exact hkey
  have hdeployed : Deployed Sample.config rotatedStart rotatedConfig rotated.world :=
    .ran (.restarted .started hkeys) _ (Or.inl (by decide))
  have hkept := secrets_kept hstart hdeployed
  have hcurrent : ∀ r ∈ (rotated.world.db .integrations).rows, r.secret.keyId = "k2" := by decide
  exact ⟨by decide, fun r hr => ⟨hcurrent r hr, hkept r hr⟩⟩

end Runs

end Kerghan.Integrations
