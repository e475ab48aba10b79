import Kerghan.Auth.Sessions.ActiveRow

/-!
This module contains the proof that a session which has been revoked stays revoked, as long as no
refresh has rotated it without having stored the next refresh token, and a run in which one has.
-/

namespace Kerghan

section

variable [Platform] {cfg : AuthConfig} {calls : List Call} {t : List AuthEntry} {x : AuthEntry}

/--
The step `x` has stored the revocation of the refresh tokens that `criteria` cover.
-/
def Revocation (calls : List Call) (t : List AuthEntry) (x : AuthEntry) (criteria : TokenCriteria)
    : Prop :=
  ∃ call now reason, ∃ (affected : Nat),
    calls[x.call]? = some call
      ∧
    ⟨x.effect, x.resp⟩ = ran (revokeTokens criteria now reason) affected
      ∧
    Revokes call (own x.call t) criteria reason

/--
A revocation is aimed at a session if it covers one of its refresh tokens and is not to keep any of
them.
-/
structure Targets (t : List AuthEntry) (criteria : TokenCriteria) (sessionUuid : String) : Prop where
  covers : ∃ r, Minted t r ∧ r.sessionUuid = sessionUuid ∧ criteria.covers r = true
  other : ∀ r, Minted t r → r.sessionUuid = sessionUuid → criteria.notTokenHash ≠ some r.tokenHash

/--
No refresh of the session is halfway through, and if the revocation names a single refresh token, it
is the one that is active.
-/
structure Settled (calls : List Call) (t : List AuthEntry) (x : AuthEntry) (criteria : TokenCriteria)
    (sessionUuid : String) : Prop where
  not_rotating : ∀ i, ¬Rotating calls t i sessionUuid
  current : ∀ r ∈ (x.before .refreshTokens).rows, r.sessionUuid = sessionUuid → r.revokedAt = none →
    criteria.tokenHash.all (r.tokenHash == ·) = true ∧ criteria.id.all (r.id == ·) = true

structure Ended (calls : List Call) (db : AuthDb) (t : List AuthEntry) (sessionUuid : String)
    : Prop where
  minted : ∃ r, Minted t r ∧ r.sessionUuid = sessionUuid
  revoked : ∀ r ∈ (db .refreshTokens).rows, r.sessionUuid = sessionUuid → r.revokedAt ≠ none
  not_rotating : ∀ i, ¬Rotating calls t i sessionUuid

theorem Ended.step (hinv : SessionInv calls x.before t) (hx : Step calls t x) {sessionUuid : String}
    (h : Ended calls x.before t sessionUuid)
    : Ended calls x.after (x :: t) sessionUuid where
  minted := by
    obtain ⟨r, hminted, hsession⟩ := h.minted
    exact ⟨r, hminted.cons, hsession⟩
  revoked := by
    intro r' hr' hsession'
    rcases hx.tokens.1 r' hr' with ⟨r, hr, hchange⟩ | hcreated
    . have hrevoked := h.revoked r hr
        ((sessionUuid_of_tokenIdentity hchange.identity).symm.trans hsession')
      rw [hchange.eq_of_revoked hrevoked]
      exact hrevoked
    . obtain ⟨r, hminted, hsession⟩ := h.minted
      have := (hinv.replaces hcreated hminted (hsession'.trans hsession.symm)).1
      rw [hsession'] at this
      exact absurd this (h.not_rotating x.call)
  not_rotating := by
    intro i hrotating
    rcases hx.rotating hinv.seen hrotating with hold | ⟨_, _, r, hr, hactive, hsession, _⟩
    . exact h.not_rotating i hold
    . exact h.revoked r hr hsession hactive

theorem Targets.covers_of_current {criteria : TokenCriteria} {sessionUuid : String}
    (htargets : Targets t criteria sessionUuid)
    (hagree : ∀ r r', Minted t r → Minted t r' → r.sessionUuid = r'.sessionUuid → SameSession r r')
    {r : RefreshToken} (hminted : Minted t r) (hsession : r.sessionUuid = sessionUuid)
    (hhash : criteria.tokenHash.all (r.tokenHash == ·) = true)
    (hid : criteria.id.all (r.id == ·) = true)
    : criteria.covers r = true := by
  obtain ⟨r0, hminted0, hsession0, hcovers⟩ := htargets.covers
  have hsame := hagree r0 r hminted0 hminted (hsession0.trans hsession.symm)
  simp only [TokenCriteria.covers, Bool.and_eq_true] at hcovers ⊢
  obtain ⟨⟨⟨_, huser⟩, huuid⟩, hnotUuid⟩ := hcovers
  rw [hsame.userId] at huser
  rw [hsession0, ← hsession] at huuid hnotUuid
  refine ⟨⟨⟨⟨⟨hid, hhash⟩, ?_⟩, huser⟩, huuid⟩, hnotUuid⟩
  cases hkept : criteria.notTokenHash with
  | none => rfl
  | some kept =>
    have hother := htargets.other r hminted hsession
    rw [hkept] at hother
    simp only [Option.all_some, bne_iff_ne, ne_eq]
    intro heq
    exact hother (by rw [heq])

theorem reason_of_revokeTokens_eq {criteria criteria' : TokenCriteria} {now now' : Date}
    {reason reason' : RevokedReason} {affected affected' : Nat}
    (h : ran (revokeTokens criteria now reason) affected =
      ran (revokeTokens criteria' now' reason') affected')
    : reason = reason' :=
  reason_of_stmt_eq (AuthEffect.db.inj (congrArg Sigma.fst h))

theorem Revokes.ne_rotated {call : Call} {h : AuthHistory} {criteria : TokenCriteria}
    {reason : RevokedReason} (hrevokes : Revokes call h criteria reason)
    : reason ≠ .rotated := by
  cases hrevokes <;> simp

theorem Revocation.ended {criteria : TokenCriteria} {sessionUuid : String}
    (hrevocation : Revocation calls t x criteria) (hinv : SessionInv calls x.before t)
    (hx : Step calls t x) (htargets : Targets t criteria sessionUuid)
    (hsettled : Settled calls t x criteria sessionUuid)
    : Ended calls x.after (x :: t) sessionUuid := by
  obtain ⟨call, now, reason, affected, hcall, hran, hrevokes⟩ := hrevocation
  constructor
  . obtain ⟨r, hminted, hsession, _⟩ := htargets.covers
    exact ⟨r, hminted.cons, hsession⟩
  . intro r' hr' hsession'
    obtain ⟨now', _, hrows⟩ := hx.updated hran
    rw [hrows, List.mem_map] at hr'
    obtain ⟨r, hr, rfl⟩ := hr'
    split
    . simp
    . next hunmatched =>
      rw [if_neg hunmatched] at hsession'
      intro hactive
      have hcurrent := hsettled.current r hr hsession' hactive
      have hcovers := htargets.covers_of_current hinv.agree (hinv.seen.rows r hr) hsession'
        hcurrent.1 hcurrent.2
      simp [hactive, hcovers] at hunmatched
  . intro i hrotating
    rcases hx.rotating hinv.seen hrotating with hold | ⟨_, ⟨_, _, hrotate⟩, _⟩
    . exact hsettled.not_rotating i hold
    . exact hrevokes.ne_rotated (reason_of_revokeTokens_eq (hran.symm.trans hrotate))

/--
The revoking `UPDATE` of a call that does not rotate is a revocation.
-/
theorem Step.revocation (hx : Step calls t x) {criteria : TokenCriteria} {now : Date}
    {reason : RevokedReason} {affected : Nat}
    (hran : ⟨x.effect, x.resp⟩ = ran (revokeTokens criteria now reason) affected)
    (hrefresh : ∀ refreshToken, calls[x.call]? ≠ some (.refresh refreshToken))
    : ∃ criteria, Revocation calls t x criteria := by
  obtain ⟨call, hcall, hissues⟩ := hx.issues
  rw [show x.effect = _ from congrArg Sigma.fst hran] at hissues
  obtain ⟨s, a, hs, hran', hissues'⟩ : ∃ (s : AuthStmt) (a : s.Answer),
      s = revokeTokens criteria now reason ∧ ⟨x.effect, x.resp⟩ = ran s a ∧
        Issues call (own x.call t) (.db s) := ⟨_, affected, rfl, hran, hissues⟩
  have hwrite := hissues'.write (by simp [hs])
  simp only [show s.table = .refreshTokens by simp [hs]] at hwrite
  cases hwrite with
  | prune => simp at hs
  | insert => simp at hs
  | rotate hrotate =>
    rw [hrotate] at hcall
    exact absurd hcall (hrefresh _)
  | revoke hrevokes => exact ⟨_, call, _, _, a, hcall, hran', hrevokes⟩

theorem revocation_of_returned {db : AuthDb} {schedule : Schedule} {i : Nat} {call : Call}
    {reply : Reply} (hcall : calls[i]? = some call) (hrevokes : call.revokes = true)
    (hreturned : (Auth.after cfg db calls schedule).pool i = .pure reply)
    : ∃ later x earlier criteria,
        (Auth.after cfg db calls schedule).trace = later ++ x :: earlier
          ∧
        x.call = i
          ∧
        Revocation calls earlier x criteria := by
  obtain ⟨criteria, now, reason, affected, hmem⟩ :=
    ended (.ok reply) (prog_meets cfg call) hcall hreturned reply rfl hrevokes
  obtain ⟨later, x, earlier, hsplit, hi, hran⟩ := split_of_mem_own hmem
  have hrefresh : ∀ refreshToken, calls[x.call]? ≠ some (.refresh refreshToken) := by
    intro refreshToken hrefresh
    rw [hi, hcall, Option.some.injEq] at hrefresh
    simp [hrefresh, Call.revokes] at hrevokes
  obtain ⟨criteria', hrevocation⟩ := (step_of_split hsplit).revocation hran hrefresh
  exact ⟨later, x, earlier, criteria', hsplit, hi, hrevocation⟩

/--
Every revocation that meets `condition` when it is stored is final for the sessions it is aimed at.
-/
structure RevocationsFinal (calls : List Call) (c : Auth)
    (condition : List AuthEntry → AuthEntry → TokenCriteria → String → Prop) : Prop where
  stored : ∀ (i : Nat) (call : Call) (reply : Reply), calls[i]? = some call → call.revokes = true →
    c.pool i = .pure reply →
      ∃ later x earlier criteria,
        c.trace = later ++ x :: earlier ∧ x.call = i ∧ Revocation calls earlier x criteria
  final : ∀ later x earlier criteria sessionUuid, c.trace = later ++ x :: earlier →
    Revocation calls earlier x criteria → Targets earlier criteria sessionUuid →
      condition earlier x criteria sessionUuid →
        ∀ r ∈ (c.world .refreshTokens).rows, r.sessionUuid = sessionUuid → r.revokedAt ≠ none

theorem revocationsFinal {db : AuthDb} {schedule : Schedule}
    (hempty : (db .refreshTokens).rows = [])
    (hfresh : FreshUuids (Auth.after cfg db calls schedule).trace)
    : RevocationsFinal calls (Auth.after cfg db calls schedule) (Settled calls) := by
  have hinv := auth_induction (A := FreshUuids)
    (I := fun db t => SessionInv calls db t ∧
      ∀ later x earlier criteria sessionUuid, t = later ++ x :: earlier →
        Revocation calls earlier x criteria → Targets earlier criteria sessionUuid →
          Settled calls earlier x criteria sessionUuid → Ended calls db t sessionUuid)
    (fun _ _ => FreshUuids.tail) ?_ ⟨.init hempty, by simp⟩ schedule hfresh
  . constructor
    . exact fun _ _ _ => revocation_of_returned
    . intro later x earlier criteria sessionUuid hsplit hrevocation htargets hsettled
      exact (hinv.2 later x earlier criteria sessionUuid hsplit hrevocation htargets hsettled).revoked
  . intro x t hfresh hx ⟨hinv, hended⟩
    refine ⟨hinv.step hfresh hx, ?_⟩
    intro later y earlier criteria sessionUuid hsplit hrevocation htargets hsettled
    cases later with
    | nil =>
      simp only [List.nil_append, List.cons.injEq] at hsplit
      obtain ⟨rfl, rfl⟩ := hsplit
      exact hrevocation.ended hinv hx htargets hsettled
    | cons z later =>
      simp only [List.cons_append, List.cons.injEq] at hsplit
      have := hended later y earlier criteria sessionUuid hsplit.2 hrevocation htargets hsettled
      exact this.step hinv hx

end

section Runs

open Sample

attribute [local instance] platform

/--
A login, a refresh of its session, and an admin who changes the password of the user.
-/
def editCalls : List Call := [
  .login { username := "ann", password := "secret" },
  .refresh "bbbb",
  .editUser 1 { newPassword := some "other" }
]

def editedAfterRefresh : Schedule :=
  schedule (List.replicate 10 0 ++ List.replicate 12 1 ++ List.replicate 6 2)

/--
The password is changed after the refresh has rotated the refresh token, and before it stores the next
one.
-/
def editedDuringRefresh : Schedule :=
  schedule (List.replicate 10 0 ++ List.replicate 5 1 ++ List.replicate 6 2 ++ List.replicate 7 1)

theorem revocationsFinal_editedAfterRefresh
    : RevocationsFinal editCalls (Auth.after config (db ann) editCalls editedAfterRefresh)
        (Settled editCalls) :=
  revocationsFinal rfl (by decide)

theorem not_revocationsFinal
    : ¬RevocationsFinal editCalls (Auth.after config (db ann) editCalls editedDuringRefresh)
        (fun _ _ _ _ => True) := by
  intro hfinal
  have hactive : (⟨⟨1, "bbbbbbbbbbbbbbbbbbbbbbb", 1, 604800024⟩, 27, none, none, false, "uu", 8⟩ :
      RefreshToken) ∈ ((Auth.after config (db ann) editCalls editedDuringRefresh).world
        .refreshTokens).rows :=
    List.mem_of_getElem? (i := 1) rfl
  refine hfinal.final [_, _, _, _, _, _, _, _] _ _ (TokenService.userCriteria 1 none) "uu" rfl ?_ ?_
    trivial _ hactive rfl rfl
  . refine ⟨.editUser 1 { newPassword := some "other" }, 18, .adminPasswordChange, 0, rfl, rfl, ?_⟩
    exact .adminPasswordChange rfl (show { ann with passwordDigest := "other" }.id = 1 from rfl)
      (List.mem_of_getElem? (i := 1) rfl)
  . constructor
    . refine ⟨⟨⟨0, "bbbb", 1, 604800005⟩, 9, none, none, false, "uu", 8⟩, ?_, rfl, rfl⟩
      exact ⟨_, List.mem_of_getElem? (i := 9) rfl, "bbbb", 1, 604800005, false, ⟨"uu", 8⟩, rfl⟩
    . exact fun _ _ _ => nofun

end Runs

end Kerghan
