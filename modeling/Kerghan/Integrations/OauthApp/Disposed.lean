import Kerghan.Integrations.OauthApp.Custody
import Kerghan.Integrations.Sample

/-!
This module contains the proof that no token of an OAuth App gets lost: once all calls have ended it is stored, or it
has been sent to GitHub for revocation.
-/

namespace Kerghan.Integrations

section Disposed

variable [Platform] [Crypto] [Locale] {cfg : IntegrationsConfig} {app : EnabledOauthAppConfig} {token : String}
variable {calls : List IntegrationsCall} {start : World} {schedule : Schedule}

theorem Supersedes.revoked (happ : cfg.oauthApp = some app)
    {later earlier : List IntegrationsEntry} {x : IntegrationsEntry}
    (hsplit : (Calls.after start (calls.map (IntegrationsCall.prog cfg)) schedule).trace = later ++ x :: earlier)
    (hsupersedes : Supersedes cfg calls app token earlier x) {result : Except Thrown IntegrationsReply}
    (hended : (Calls.after start (calls.map (IntegrationsCall.prog cfg)) schedule).pool x.call = .ofExcept result)
    : Revoked (own x.call (Calls.after start (calls.map (IntegrationsCall.prog cfg)) schedule).trace) token := by
  have ⟨userId, code, state, hcall⟩ := hsupersedes.callback
  have hdisposes := ended result IntegrationsCall.prog_disposes hcall hended userId code state rfl
  rw [hsplit] at hdisposes ⊢
  have hown : own x.call (later ++ x :: earlier) = own x.call later ++ ⟨x.effect, x.resp⟩ :: own x.call earlier := by
    rw [own_append, own_cons_self]
  rw [hown] at hdisposes ⊢
  have ⟨p, f, affected, hran⟩ := hsupersedes.updated
  rw [hran] at hdisposes ⊢
  have ⟨row, hlast, hbears⟩ := hsupersedes.loaded
  have ⟨token', hobtained, hother⟩ := hsupersedes.other
  have hupdated : UpdatedIntegration (ran (.update .integrations p f) affected :: own x.call earlier) :=
    ⟨p, f, affected, List.mem_cons_self ..⟩
  have hlast' : lastLoaded (own x.call later ++ ran (.update .integrations p f) affected :: own x.call earlier) =
      some row := by
    rw [lastLoaded_of_added (h := ran (.update .integrations p f) affected :: own x.call earlier) ⟨own x.call later,
      rfl, ?_⟩]
    . exact hlast
    -- the callback looks up nothing after its update, so what it revokes is what it has found before
    . intro ev hev
      have ⟨newer, older, hsplit'⟩ := List.append_of_mem hev
      apply not_isOnIntegrations_of_isElsewhere
      apply hdisposes.updatesLast newer ev (older ++ ran (.update .integrations p f) affected :: own x.call earlier)
      . rw [hsplit', List.append_assoc]
        rfl
      . exact ⟨p, f, affected, List.mem_append_right _ (List.mem_cons_self ..)⟩
  have hsuperseded := hdisposes.settles.superseded token' ?_ ?_ row token app hlast' ?_ happ hbears.clientId
  . rcases hsuperseded with hrevoked | hsame
    . exact hrevoked
    . exact absurd hsame.symm hother
  . have ⟨request, hexchanged⟩ := hobtained
    exact ⟨request, hexchanged.mono fun ev hev => List.mem_append_right _ (List.mem_cons_of_mem _ hev)⟩
  . exact ⟨p, f, affected, List.mem_append_right _ (List.mem_cons_self ..)⟩
  . exact hbears.secret

variable {i userId : Nat} {code state : String}

omit [Crypto] [Locale] in
theorem Obtained.of_split {trace later earlier : List IntegrationsEntry} {x : IntegrationsEntry}
    (hsplit : trace = later ++ x :: earlier) (hobtained : Obtained (own x.call earlier) token)
    : Obtained (own x.call trace) token := by
  have ⟨request, hexchanged⟩ := hobtained
  refine ⟨request, hexchanged.mono fun ev hev => ?_⟩
  rw [hsplit, own_append]
  exact List.mem_append_right _ ((own_suffix (List.suffix_cons ..)).subset hev)

theorem entrusted_of_inserted (happ : cfg.oauthApp = some app)
    (hcall : calls[i]? = some (.oauthAppCallback userId code state))
    (hinserted : InsertedIntegration
      (own i (Calls.after start (calls.map (IntegrationsCall.prog cfg)) schedule).trace))
    : ∃ token, Obtained (own i (Calls.after start (calls.map (IntegrationsCall.prog cfg)) schedule).trace) token
        ∧ Entrusted cfg app token start (Calls.after start (calls.map (IntegrationsCall.prog cfg)) schedule).trace := by
  have ⟨mk, row, hmem⟩ := hinserted
  have ⟨later, x, earlier, hsplit, hi, hran⟩ := split_of_mem_own hmem
  have hx := performs_integrations start calls schedule hsplit
  have hexecuted : x.Executed Effect.exec := hx.answered
  have ⟨call, hcall', hdoes⟩ := hx.allowed
  rw [hi, hcall] at hcall'
  cases hcall'
  rw [show x.effect = .db (.insert .integrations mk) from congrArg Sigma.fst hran] at hdoes
  have ⟨userId', type, provider, label, uuid, validated, credential, now, hmk, hvalidated, _, hsealed⟩ := hdoes.created
  have htype : type = .oauthApp := by cases hvalidated; rfl
  rw [htype] at hvalidated hsealed hmk
  have ⟨_, _, token, _, hsecret, hobtained⟩ := hvalidated.obtained
  have ⟨now', hrow, hafter, _⟩ := hexecuted.inserted hran
  rw [hmk] at hrow
  refine ⟨token, hi ▸ hobtained.of_split hsplit, .of_split hsplit (r := row) ?_ ?_⟩
  . rw [show (x.after.db .integrations).rows = _ from hafter]
    exact List.mem_append_right _ (List.mem_singleton_self _)
  . subst hrow
    exact hvalidated.bears happ hsecret rfl (hsealed.plaintext rfl rfl rfl) hsealed.metadata

theorem entrusted_of_updated (happ : cfg.oauthApp = some app)
    (hisolated : Isolated cfg calls (Calls.after start (calls.map (IntegrationsCall.prog cfg)) schedule).trace)
    (hcall : calls[i]? = some (.oauthAppCallback userId code state))
    (hupdated : UpdatedIntegration
      (own i (Calls.after start (calls.map (IntegrationsCall.prog cfg)) schedule).trace))
    : ∃ token, Obtained (own i (Calls.after start (calls.map (IntegrationsCall.prog cfg)) schedule).trace) token
        ∧ Entrusted cfg app token start (Calls.after start (calls.map (IntegrationsCall.prog cfg)) schedule).trace := by
  obtain ⟨p, f, affected, hmem⟩ := hupdated
  obtain ⟨later, x, earlier, hsplit, hi, hran⟩ := split_of_mem_own hmem
  have hx := performs_integrations start calls schedule hsplit
  have hexecuted : x.Executed Effect.exec := hx.answered
  have hmatching : Matching earlier :=
    (Config.run_induction_split (A := fun _ => True) (I := fun _ t => Matching t) (fun _ _ _ => trivial)
      (fun _ _ _ hx hmatching => hmatching.step hx) answers_exec (start_meets IntegrationsCall.prog_does start calls)
      .init rfl schedule trivial hsplit).1
  obtain ⟨call, hcall', hdoes⟩ := hx.allowed
  have hcall'' := hcall'
  rw [hi, hcall] at hcall''
  cases hcall''
  have heffect : x.effect = .db (.update .integrations p f) := congrArg Sigma.fst hran
  rw [heffect] at hdoes
  cases hdoes with
  | quiet hs => simp [Effect.isQuiet, Effect.isElsewhere] at hs
  | consume hconsumes => cases hconsumes with | free hs => simp [Effect.writes] at hs
  | rewrite hother => rcases hother with ⟨_, _, heq⟩ | ⟨_, heq⟩ <;> cases heq
  | @replace _ _ userId' type uuid checked row validated credential now hvalidated hchecked htype hloaded hlast
      hsealed =>
    -- the row is still there, so the update is not in vain
    have huntouched := hisolated later x earlier hsplit (Or.inl ⟨_, _, _, heffect⟩) (by rw [hcall']; rfl)
    obtain ⟨r, hr, hsame⟩ := huntouched.there row (mem_found_of_lastLoaded hlast)
    have hchecked' := huntouched.checked hmatching hloaded hchecked hr hsame.id
    have htype' : type = .oauthApp := by cases hvalidated; rfl
    rw [htype'] at hvalidated hsealed htype
    obtain ⟨_, _, token, _, hsecret, hobtained⟩ := hvalidated.obtained
    obtain ⟨now', _, hafter⟩ := hexecuted.updated hran
    refine ⟨token, hi ▸ hobtained.of_split hsplit, .of_split hsplit (r := credential.freshColumns now r) ?_ ?_⟩
    . rw [show (x.after.db .integrations).rows = _ from hafter]
      refine List.mem_map.mpr ⟨r, hr, ?_⟩
      rw [if_pos (by simp [hsame.id, hsame.userId])]
    . have hoauthApp : r.type = .oauthApp := hchecked'.type.trans htype
      refine hvalidated.bears happ hsecret hoauthApp ?_ hsealed.metadata
      exact hsealed.plaintext rfl hsame.uuid hoauthApp

def Accounted (cfg : IntegrationsConfig) (run : Calls IntegrationsReply) (token : String) : Prop :=
  (∃ r ∈ (run.world.db .integrations).rows, decryptRow cfg.keys .oauthApp r = some (.oauthApp token))
    ∨
  ∃ i, Revoked (own i run.trace) token

/--
Whatever the order of the steps of any number of calls, and whichever of them fail: if no two calls write one
integration at the same time, no token is lost once all calls have ended. Each one that an integration had, or that a
callback has been given, is stored or has been sent for revocation, unless the cool-off could not be reset.
-/
theorem tokens_disposed (happ : cfg.oauthApp = some app)
    (hisolated : Isolated cfg calls (Calls.after start (calls.map (IntegrationsCall.prog cfg)) schedule).trace)
    (hended : ∀ i call, calls[i]? = some call →
      ∃ result, (Calls.after start (calls.map (IntegrationsCall.prog cfg)) schedule).pool i = .ofExcept result)
    : let run := Calls.after start (calls.map (IntegrationsCall.prog cfg)) schedule
      (∀ token, ∀ r ∈ (start.db .integrations).rows, Bears cfg app token r → Accounted cfg run token)
        ∧
      ∀ i userId code state token, calls[i]? = some (.oauthAppCallback userId code state) →
        Obtained (own i run.trace) token →
        Accounted cfg run token ∨ ∃ e, failed (resetLockout userId) e ∈ own i run.trace := by
  intro run
  have haccounted (token : String) (hentrusted : Entrusted cfg app token start run.trace)
      : Accounted cfg run token := by
    rcases inCustody_run happ hisolated hentrusted with ⟨r, hr, hbears⟩ | ⟨later, x, earlier, hsplit, hsupersedes⟩ |
      hrevoked
    . exact Or.inl ⟨r, hr, hbears.secret⟩
    . have ⟨_, _, _, hcall⟩ := hsupersedes.callback
      have ⟨result, hended'⟩ := hended x.call _ hcall
      exact Or.inr ⟨x.call, hsupersedes.revoked happ hsplit hended'⟩
    . exact Or.inr hrevoked
  constructor
  . intro token r hr hbears
    exact haccounted token (Or.inl ⟨r, hr, hbears⟩)
  . intro i userId code state token hcall hobtained
    have ⟨result, hended'⟩ := hended i _ hcall
    have hdisposes := ended result IntegrationsCall.prog_disposes hcall hended' userId code state rfl
    rcases hdisposes.settles.settled token hobtained with hrevoked | hfailed | ⟨hwritten, honly⟩
    . exact Or.inl (Or.inr ⟨i, hrevoked⟩)
    . exact Or.inr hfailed
    . have ⟨token', hobtained', hentrusted⟩ :=
        hwritten.elim (entrusted_of_inserted happ hcall) (entrusted_of_updated happ hisolated hcall)
      cases honly token' hobtained'
      exact Or.inl (haccounted token hentrusted)

end Disposed

section Runs

attribute [local instance] Kerghan.Sample.platform Sample.crypto Sample.locale

abbrev connectedRow : Integration :=
  { Sample.integration ⟨[1], "k1"⟩ "gho_a" with
    type := .oauthApp
    metadata := .oauthApp ⟨["repo"], "client"⟩
    secret :=
      let sealed := Sample.encrypt [1] [] (IntegrationsEncryptionService.aadFor Sample.integrationUuid .oauthApp)
        (Sample.stringify (.object [("token", .string "gho_a")]))
      { keyId := "k1", iv := [], authTag := sealed.2, ciphertext := sealed.1 } }

abbrev exchanging (k : Nat) : Env :=
  { Sample.answering k with
    uuid := String.ofList (List.replicate 36 'a')
    bytes := String.ofList (List.replicate 43 'b')
    exchange := .ok { status := 200, accessToken := some "gho_b", error := none } }

abbrev reconnecting : List IntegrationsCall :=
  [
    .startOauthApp 1 none (some Sample.integrationUuid),
    .oauthAppCallback 1 "code" (String.ofList (List.replicate 36 'a' ++ '.' :: List.replicate 43 'b'))
  ]

abbrev reconnected : Calls IntegrationsReply :=
  Calls.after (Sample.storing connectedRow) (reconnecting.map (IntegrationsCall.prog Sample.config))
    (Sample.scheduleIn exchanging (List.replicate 20 0 ++ List.replicate 40 1))

set_option maxRecDepth 4000 in
theorem tokens_disposed_reconnected
    : (reconnected.world.db .integrations).rows.map (decryptRow Sample.config.keys .oauthApp) =
        [some (.oauthApp "gho_b")]
        ∧
      ∃ i, Revoked (own i reconnected.trace) "gho_a" := by
  have hrows : (reconnected.world.db .integrations).rows.map (decryptRow Sample.config.keys .oauthApp) =
      [some (.oauthApp "gho_b")] := rfl
  have hisolated : Isolated Sample.config reconnecting reconnected.trace := isolated_of_isolates rfl
  have hended : ∀ i call, reconnecting[i]? = some call → ∃ result, reconnected.pool i = .ofExcept result := by
    intro i call hcall
    cases i with
    | zero => exact ⟨.ok _, rfl⟩
    | succ i =>
      cases i with
      | zero => exact ⟨.ok _, rfl⟩
      | succ i => cases hcall
  refine ⟨hrows, ?_⟩
  have haccounted := (tokens_disposed rfl hisolated hended).1 "gho_a" connectedRow (List.mem_singleton_self _)
    ⟨rfl, rfl, rfl⟩
  rcases haccounted with ⟨r, hr, hsecret⟩ | hrevoked
  . have hmem := List.mem_map_of_mem (f := decryptRow Sample.config.keys .oauthApp) hr
    rw [hrows, hsecret] at hmem
    simp at hmem
  . exact hrevoked

/--
Two flows of the same integration, whose states and tokens differ.
-/
abbrev exchangingTwice (k : Nat) : Env :=
  { exchanging k with
    uuid := String.ofList (List.replicate 36 (if k < 9 then 'a' else 'c'))
    exchange := .ok { status := 200, accessToken := some (if k < 31 then "gho_b" else "gho_c"), error := none } }

abbrev reconnectingTwice : List IntegrationsCall :=
  [
    .startOauthApp 1 none (some Sample.integrationUuid),
    .startOauthApp 1 none (some Sample.integrationUuid),
    .oauthAppCallback 1 "code" (String.ofList (List.replicate 36 'a' ++ '.' :: List.replicate 43 'b')),
    .oauthAppCallback 1 "code" (String.ofList (List.replicate 36 'c' ++ '.' :: List.replicate 43 'b'))
  ]

/--
The second callback finds and updates the integration after the first one has found it.
-/
abbrev racedCallbacks : Calls IntegrationsReply :=
  Calls.after (Sample.storing connectedRow) (reconnectingTwice.map (IntegrationsCall.prog Sample.config))
    (Sample.scheduleIn exchangingTwice
      (List.replicate 9 0 ++ List.replicate 9 1 ++ List.replicate 13 2 ++ List.replicate 17 3 ++ List.replicate 4 2))

def Effect.revokedToken : Effect → Option String
  | .revokeOauthToken request => some request.token
  | _ => none

set_option maxRecDepth 4000 in
theorem not_accounted_raced
    : Obtained (own 3 racedCallbacks.trace) "gho_c" ∧ ¬Accounted Sample.config racedCallbacks "gho_c" := by
  have hrows : (racedCallbacks.world.db .integrations).rows.map (decryptRow Sample.config.keys .oauthApp) =
      [some (.oauthApp "gho_b")] := rfl
  have hrevoked : racedCallbacks.trace.filterMap (fun x => x.effect.revokedToken) = ["gho_a", "gho_a"] := rfl
  constructor
  . exact ⟨_, { status := 200, accessToken := some "gho_c", error := none },
      mem_own.mpr ⟨racedCallbacks.trace[12], List.getElem_mem _, rfl, rfl⟩, rfl, by decide⟩
  . intro haccounted
    rcases haccounted with ⟨r, hr, hsecret⟩ | ⟨i, request, answer, hmem, htoken⟩
    . have hmem := List.mem_map_of_mem (f := decryptRow Sample.config.keys .oauthApp) hr
      rw [hrows, hsecret] at hmem
      simp at hmem
    . have ⟨x, hx, _, hran⟩ := mem_own.mp hmem
      have heffect : x.effect.revokedToken = some "gho_c" := by
        rw [show x.effect = .revokeOauthToken request from congrArg Sigma.fst hran, Effect.revokedToken, htoken]
      have hrevokes : "gho_c" ∈ racedCallbacks.trace.filterMap fun x => x.effect.revokedToken :=
        List.mem_filterMap.mpr ⟨x, hx, heffect⟩
      rw [hrevoked] at hrevokes
      simp at hrevokes

end Runs

end Kerghan.Integrations
