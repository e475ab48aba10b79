import Kerghan.Auth.Lemmas.Tokens
import Kerghan.Auth.Sample

/-!
This module contains the proof that an active session is exactly one row: no session has two unrevoked
refresh tokens at any time, and all refresh tokens of a session agree on whose session it is.
-/

namespace Kerghan

structure SameSession (r r' : RefreshToken) : Prop where
  userId : r.userId = r'.userId
  startedAt : r.startedAt = r'.startedAt
  keepSignedIn : r.keepSignedIn = r'.keepSignedIn

theorem SameSession.symm {r r' : RefreshToken} (h : SameSession r r') : SameSession r' r :=
  ⟨h.userId.symm, h.startedAt.symm, h.keepSignedIn.symm⟩

theorem SameSession.trans {r r' r'' : RefreshToken} (h : SameSession r r') (h' : SameSession r' r'')
    : SameSession r r'' :=
  ⟨h.userId.trans h'.userId, h.startedAt.trans h'.startedAt, h.keepSignedIn.trans h'.keepSignedIn⟩

section

variable [Platform] {cfg : AuthConfig} {calls : List Call} {t : List AuthEntry} {x : AuthEntry}

def drawnUuid (x : AuthEntry) : Option String :=
  match x.effect, x.resp with
  | .randomUUID, uuid => some uuid
  | _, _ => none

abbrev FreshUuids (t : List AuthEntry) : Prop :=
  (t.filterMap drawnUuid).Nodup

theorem drawnUuid_eq_some {uuid : String}
    : drawnUuid x = some uuid ↔
        (⟨x.effect, x.resp⟩ : (s : AuthEffect) × AuthAnswer s) = ⟨.randomUUID, uuid⟩ := by
  obtain ⟨i, before, effect, resp, after⟩ := x
  cases effect <;> simp [drawnUuid]

theorem FreshUuids.tail (h : FreshUuids (x :: t)) : FreshUuids t :=
  h.sublist ((List.sublist_cons_self x t).filterMap drawnUuid)

theorem FreshUuids.call_eq (h : FreshUuids t) {i j : Nat} {uuid : String}
    (hi : ⟨.randomUUID, uuid⟩ ∈ own i t) (hj : ⟨.randomUUID, uuid⟩ ∈ own j t)
    : i = j := by
  obtain ⟨y, hy, rfl, hdrew⟩ := mem_own.mp hi
  obtain ⟨z, hz, rfl, hdrew'⟩ := mem_own.mp hj
  rw [eq_of_nodup_filterMap h hy hz (drawnUuid_eq_some.mpr hdrew) (drawnUuid_eq_some.mpr hdrew')]

theorem FreshUuids.not_drawn (h : FreshUuids (x :: t)) {uuid : String} (hx : drawnUuid x = some uuid)
    {y : AuthEntry} (hy : y ∈ t)
    : drawnUuid y ≠ some uuid := by
  intro hdrawn
  rw [FreshUuids, List.filterMap_cons_some hx, List.nodup_cons] at h
  exact h.1 (List.mem_filterMap.mpr ⟨y, hy, hdrawn⟩)

/--
The `i`-th call has been presented this refresh token, and has rotated it then.
-/
def Rotated (calls : List Call) (t : List AuthEntry) (i : Nat) (refreshToken : String)
    (tokenRow : RefreshToken) : Prop :=
  calls[i]? = some (.refresh refreshToken)
    ∧
  ∃ now older,
    ran (revokeTokens { id := some tokenRow.id } now .rotated) (1 : Nat) :: older <:+ own i t
      ∧
    ran (findToken (hashToken refreshToken)) (some tokenRow) ∈ older

/--
The `i`-th call has rotated a refresh token of this session, and is yet to store the next one.
-/
def Rotating (calls : List Call) (t : List AuthEntry) (i : Nat) (sessionUuid : String) : Prop :=
  ∃ refreshToken tokenRow,
    Rotated calls t i refreshToken tokenRow
      ∧
    tokenRow.sessionUuid = sessionUuid
      ∧
    Unfinished (own i t)

theorem Rotated.mono {t' : List AuthEntry} {i : Nat} {refreshToken : String} {tokenRow : RefreshToken}
    (h : Rotated calls t i refreshToken tokenRow) (hsuffix : t <:+ t')
    : Rotated calls t' i refreshToken tokenRow := by
  obtain ⟨hcall, now, older, hrotated, hfound⟩ := h
  exact ⟨hcall, now, older, hrotated.trans (own_suffix hsuffix), hfound⟩

theorem Rotated.found {i : Nat} {refreshToken : String} {tokenRow : RefreshToken}
    (h : Rotated calls t i refreshToken tokenRow)
    : ran (findToken (hashToken refreshToken)) (some tokenRow) ∈ own i t := by
  obtain ⟨hcall, now, older, hrotated, hfound⟩ := h
  exact hrotated.subset (List.mem_cons_of_mem _ hfound)

theorem Rotating.minted {db : AuthDb} {i : Nat} {sessionUuid : String} (hseen : TokensSeen db t)
    (h : Rotating calls t i sessionUuid)
    : ∃ r, Minted t r ∧ r.sessionUuid = sessionUuid := by
  obtain ⟨refreshToken, tokenRow, hrotated, hsession, _⟩ := h
  exact ⟨tokenRow, hseen.found i tokenRow (found_of_ran hrotated.found), hsession⟩

theorem TokenCreated.origin {r : RefreshToken} (h : TokenCreated calls t x r)
    : ⟨.randomUUID, r.sessionUuid⟩ ∈ own x.call t ∨
        Rotating calls t x.call r.sessionUuid
          ∧
        ∃ tokenRow, Found (own x.call t) .refreshTokens tokenRow ∧
          tokenRow.sessionUuid = r.sessionUuid ∧ SameSession tokenRow r := by
  cases h with
  | mint hcall hran hhistory hmints hunfinished hexpires hbytes hnew hcontinued hrow =>
    rename_i session identity _ _ _ newer older
    subst hrow
    cases session with
    | none =>
      left
      rw [hhistory]
      exact List.mem_append_left _ (hnew rfl)
    | some session =>
      right
      have hidentity := hcontinued session rfl
      subst hidentity
      cases hmints with
      | refresh hrefresh hrotated hpresented hactive huser hid =>
        rename_i refreshToken tokenRow now older'
        subst hrotated
        have hsuffix : ran (revokeTokens { id := some tokenRow.id } now .rotated) (1 : Nat) :: older'
            <:+ own x.call t := by
          rw [hhistory]
          exact (List.suffix_cons _ _).trans (List.suffix_append _ _)
        rw [hrefresh] at hcall
        constructor
        . exact ⟨refreshToken, tokenRow, ⟨hcall, now, older', hsuffix, hpresented.found⟩, rfl, hunfinished⟩
        . refine ⟨tokenRow, ?_, rfl, hid.symm, rfl, rfl⟩
          exact found_of_ran (hsuffix.subset (List.mem_cons_of_mem _ hpresented.found))

structure SessionInv (calls : List Call) (db : AuthDb) (t : List AuthEntry) : Prop where
  seen : TokensSeen db t
  drawn : ∀ r, Minted t r → ∃ y ∈ t, drawnUuid y = some r.sessionUuid
  /-- A call that has drawn a UUID is the only one that can store a refresh token with it. -/
  fresh : ∀ i sessionUuid, ⟨.randomUUID, sessionUuid⟩ ∈ own i t → Unfinished (own i t) →
    ∀ r, Minted t r → r.sessionUuid ≠ sessionUuid
  agree : ∀ r r', Minted t r → Minted t r' → r.sessionUuid = r'.sessionUuid → SameSession r r'
  active : ∀ r ∈ (db .refreshTokens).rows, ∀ r' ∈ (db .refreshTokens).rows,
    r.revokedAt = none → r'.revokedAt = none → r.sessionUuid = r'.sessionUuid → r = r'
  rotating : ∀ i sessionUuid, Rotating calls t i sessionUuid →
    ∀ r ∈ (db .refreshTokens).rows, r.sessionUuid = sessionUuid → r.revokedAt ≠ none
  unique : ∀ i j sessionUuid, Rotating calls t i sessionUuid → Rotating calls t j sessionUuid → i = j
  reason : ∀ r ∈ (db .refreshTokens).rows, r.revokedAt = none → r.revokedReason = none

theorem SessionInv.init {db : AuthDb} (hempty : (db .refreshTokens).rows = [])
    : SessionInv calls db [] where
  seen := .init hempty
  drawn := by
    intro r ⟨y, hy, _⟩
    simp at hy
  fresh := by simp
  agree := by
    intro r r' ⟨y, hy, _⟩
    simp at hy
  active := by simp [hempty]
  rotating := by simp [hempty]
  unique := by
    intro i j sessionUuid ⟨_, _, ⟨_, _, _, hsuffix, _⟩, _⟩
    simp at hsuffix
  reason := by simp [hempty]

theorem Step.rotated (hx : Step calls t x) (hseen : TokensSeen x.before t) {i : Nat}
    {refreshToken : String} {tokenRow : RefreshToken}
    (hrotated : Rotated calls (x :: t) i refreshToken tokenRow)
    : Rotated calls t i refreshToken tokenRow ∨
        i = x.call
          ∧
        (∃ now, ⟨x.effect, x.resp⟩ =
          ran (revokeTokens { id := some tokenRow.id } now .rotated) (1 : Nat))
          ∧
        ∃ r ∈ (x.before .refreshTokens).rows,
          r.identity = tokenRow.identity ∧ r.revokedAt = none ∧
            ∀ r' ∈ (x.after .refreshTokens).rows, r'.id = r.id →
              r'.revokedAt ≠ none ∧ r'.revokedReason = some .rotated := by
  obtain ⟨hcall, now, older, hsuffix, hfound⟩ := hrotated
  by_cases hi : x.call = i
  . subst hi
    rw [own_cons_self] at hsuffix
    rcases List.suffix_cons_iff.mp hsuffix with hnew | hold
    . right
      simp only [List.cons.injEq] at hnew
      obtain ⟨hran, rfl⟩ := hnew
      refine ⟨rfl, ⟨now, hran.symm⟩, ?_⟩
      obtain ⟨now', hcount, hrows⟩ := hx.updated hran.symm
      have hpos : 0 < (x.before .refreshTokens).rows.countP fun r =>
          r.revokedAt.isNone && TokenCriteria.covers { id := some tokenRow.id } r := by
        rw [← hcount]
        exact Nat.one_pos
      obtain ⟨r, hr, hp⟩ := List.countP_pos_iff.mp hpos
      have hpr := hp
      simp only [TokenCriteria.covers, Option.all_some, Option.all_none, Bool.and_true,
        Bool.and_eq_true, Option.isNone_iff_eq_none, beq_iff_eq] at hpr
      obtain ⟨hactive, hid⟩ := hpr
      have hminted := hseen.found x.call tokenRow (found_of_ran hfound)
      refine ⟨r, hr, hseen.identity tokenRow hminted r hr hid, hactive, ?_⟩
      intro r' hr' hid'
      rw [hrows, List.mem_map] at hr'
      obtain ⟨r2, hr2, rfl⟩ := hr'
      have hid2 : r2.id = r.id := by
        rw [← hid']
        split <;> rfl
      have heq : r2 = r := Table.eq_of_id_eq hr2 hr hid2
      rw [heq, if_pos hp]
      simp
    . exact Or.inl ⟨hcall, now, older, hold, hfound⟩
  . rw [own_cons_of_ne hi] at hsuffix
    exact Or.inl ⟨hcall, now, older, hsuffix, hfound⟩

/--
A step lets a call rotate a session only if it revokes the unrevoked row of this session.
-/
theorem Step.rotating (hx : Step calls t x) (hseen : TokensSeen x.before t) {i : Nat}
    {sessionUuid : String} (hrotating : Rotating calls (x :: t) i sessionUuid)
    : Rotating calls t i sessionUuid ∨
        i = x.call
          ∧
        (∃ id now, ⟨x.effect, x.resp⟩ = ran (revokeTokens { id := some id } now .rotated) (1 : Nat))
          ∧
        ∃ r ∈ (x.before .refreshTokens).rows,
          r.revokedAt = none ∧ r.sessionUuid = sessionUuid ∧
            ∀ r' ∈ (x.after .refreshTokens).rows, r'.id = r.id → r'.revokedAt ≠ none := by
  obtain ⟨refreshToken, tokenRow, hrotated, hsession, hunfinished⟩ := hrotating
  rcases hx.rotated hseen hrotated with hold | ⟨hi, ⟨now, hran⟩, r, hr, hidentity, hactive, hrevoked⟩
  . refine Or.inl ⟨refreshToken, tokenRow, hold, hsession, fun ev hev => hunfinished ev ?_⟩
    exact mem_own_of_suffix (List.suffix_cons x t) hev
  . refine Or.inr ⟨hi, ⟨_, now, hran⟩, r, hr, hactive, ?_, fun r' hr' hid => (hrevoked r' hr' hid).1⟩
    exact (sessionUuid_of_tokenIdentity hidentity).trans hsession

theorem TokenCreated.eq {r r' : RefreshToken} (h : TokenCreated calls t x r)
    (h' : TokenCreated calls t x r')
    : r = r' := by
  cases h with
  | mint hcall hran =>
    cases h' with
    | mint hcall' hran' =>
      have := eq_of_heq (Sigma.mk.inj (hran.symm.trans hran')).2
      simpa using this

theorem TokenCreated.unfinished {r : RefreshToken} (h : TokenCreated calls t x r)
    : Unfinished (own x.call t) := by
  cases h with
  | mint hcall hran hhistory hmints hunfinished => exact hunfinished

theorem TokenCreated.insertsInto {r : RefreshToken} (h : TokenCreated calls t x r)
    : x.effect.insertsInto .refreshTokens = true := by
  cases h with
  | mint hcall hran =>
    rw [show x.effect = _ from congrArg Sigma.fst hran]
    rfl

theorem TokenCreated.active {r : RefreshToken} (h : TokenCreated calls t x r)
    : r.revokedAt = none ∧ r.revokedReason = none := by
  cases h with
  | mint hcall hran hhistory hmints hunfinished hexpires hbytes hnew hcontinued hrow =>
    rw [hrow]
    exact ⟨rfl, rfl⟩

theorem SessionInv.replaces (hinv : SessionInv calls x.before t) {r r' : RefreshToken}
    (hcreated : TokenCreated calls t x r) (hminted : Minted t r')
    (hsession : r.sessionUuid = r'.sessionUuid)
    : Rotating calls t x.call r.sessionUuid ∧ SameSession r r' := by
  rcases hcreated.origin with hdrawn | ⟨hrotating, tokenRow, hfound, htoken, hsame⟩
  . exact absurd hsession.symm (hinv.fresh x.call _ hdrawn hcreated.unfinished r' hminted)
  . have hagree := hinv.agree tokenRow r' (hinv.seen.found x.call tokenRow hfound) hminted
      (htoken.trans hsession)
    exact ⟨hrotating, hsame.symm.trans hagree⟩

section Step

variable (hfresh : FreshUuids (x :: t)) (hx : Step calls t x) (hinv : SessionInv calls x.before t)

include hinv hx

theorem SessionInv.drawn_step {r : RefreshToken} (hminted : Minted (x :: t) r)
    : ∃ y ∈ x :: t, drawnUuid y = some r.sessionUuid := by
  have hold : ∀ r, Minted t r → ∃ y ∈ x :: t, drawnUuid y = some r.sessionUuid := by
    intro r hminted
    obtain ⟨y, hy, hdrew⟩ := hinv.drawn r hminted
    exact ⟨y, List.mem_cons_of_mem _ hy, hdrew⟩
  rcases hminted.of_cons hx with hminted | hcreated
  . exact hold r hminted
  . rcases hcreated.origin with hdrawn | ⟨_, tokenRow, hfound, hsession, _⟩
    . obtain ⟨y, hy, _, hdrew⟩ := mem_own.mp hdrawn
      exact ⟨y, List.mem_cons_of_mem _ hy, drawnUuid_eq_some.mpr hdrew⟩
    . have := hold tokenRow (hinv.seen.found x.call tokenRow hfound)
      rwa [hsession] at this

include hfresh in
theorem SessionInv.fresh_step {i : Nat} {sessionUuid : String}
    (hdrawn : ⟨.randomUUID, sessionUuid⟩ ∈ own i (x :: t)) (hunfinished : Unfinished (own i (x :: t)))
    {r : RefreshToken} (hminted : Minted (x :: t) r)
    : r.sessionUuid ≠ sessionUuid := by
  have hunfinished' : Unfinished (own i t) :=
    fun ev hev => hunfinished ev (mem_own_of_suffix (List.suffix_cons x t) hev)
  rcases mem_own_cons.mp hdrawn with ⟨hcall, hdrew⟩ | hdrawn
  . -- a UUID that has just been drawn is not the UUID of any row
    intro hsession
    rcases hminted.of_cons hx with hminted | hcreated
    . obtain ⟨y, hy, hdrew'⟩ := hinv.drawn r hminted
      rw [hsession] at hdrew'
      exact hfresh.not_drawn (drawnUuid_eq_some.mpr hdrew) hy hdrew'
    . have := hcreated.insertsInto
      rw [show x.effect = .randomUUID from congrArg Sigma.fst hdrew] at this
      simp at this
  . rcases hminted.of_cons hx with hminted | hcreated
    . exact hinv.fresh i sessionUuid hdrawn hunfinished' r hminted
    . intro hsession
      rcases hcreated.origin with hdrawn' | ⟨_, tokenRow, hfound, htoken, _⟩
      . change ⟨.randomUUID, r.sessionUuid⟩ ∈ own x.call t at hdrawn'
        rw [hsession] at hdrawn'
        have hi := hfresh.tail.call_eq hdrawn hdrawn'
        subst hi
        rw [own_cons_self, unfinished_cons, hcreated.insertsInto] at hunfinished
        simp at hunfinished
      . refine hinv.fresh i sessionUuid hdrawn hunfinished' tokenRow ?_ ?_
        . exact hinv.seen.found x.call tokenRow hfound
        . exact htoken.trans hsession

theorem SessionInv.agree_step {r r' : RefreshToken} (hminted : Minted (x :: t) r)
    (hminted' : Minted (x :: t) r') (hsession : r.sessionUuid = r'.sessionUuid)
    : SameSession r r' := by
  have hidentity : ∀ r : RefreshToken, SameSession r r.identity := fun r => ⟨rfl, rfl, rfl⟩
  rcases hminted.of_cons hx with hold | hcreated
  . rcases hminted'.of_cons hx with hold' | hcreated'
    . exact hinv.agree r r' hold hold' hsession
    . have := (hinv.replaces hcreated' hold hsession.symm).2
      exact this.symm.trans (hidentity r').symm
  . rcases hminted'.of_cons hx with hold' | hcreated'
    . exact (hidentity r).trans (hinv.replaces hcreated hold' hsession).2
    . have := (hidentity r).trans (hcreated.eq hcreated' ▸ (hidentity r').symm)
      exact this

theorem SessionInv.active_step {r r' : RefreshToken} (hr : r ∈ (x.after .refreshTokens).rows)
    (hr' : r' ∈ (x.after .refreshTokens).rows) (hactive : r.revokedAt = none)
    (hactive' : r'.revokedAt = none) (hsession : r.sessionUuid = r'.sessionUuid)
    : r = r' := by
  have hbefore : ∀ {r r1}, TokenChange calls t x r1 r → r.revokedAt = none → r1.revokedAt = none := by
    intro r r1 hchange hactive
    by_cases hrevoked : r1.revokedAt = none
    . exact hrevoked
    . rw [← hchange.eq_of_revoked hrevoked]
      exact hactive
  -- a row that has just been stored replaces a row that is revoked
  have hcontra : ∀ {r r' r1}, TokenCreated calls t x r → r1 ∈ (x.before .refreshTokens).rows →
      TokenChange calls t x r1 r' → r'.revokedAt = none → r.sessionUuid = r'.sessionUuid → False := by
    intro r r' r1 hcreated hr1 hchange hactive hsession
    rw [sessionUuid_of_tokenIdentity hchange.identity] at hsession
    have hrotating := (hinv.replaces hcreated (hinv.seen.rows r1 hr1) hsession).1
    exact hinv.rotating x.call _ hrotating r1 hr1 hsession.symm (hbefore hchange hactive)
  rcases hx.tokens.1 r hr with ⟨r1, hr1, hchange⟩ | hcreated
  . rcases hx.tokens.1 r' hr' with ⟨r1', hr1', hchange'⟩ | hcreated'
    . have heq : r1 = r1' := by
        apply hinv.active r1 hr1 r1' hr1' (hbefore hchange hactive) (hbefore hchange' hactive')
        rw [← sessionUuid_of_tokenIdentity hchange.identity, hsession,
          sessionUuid_of_tokenIdentity hchange'.identity]
      subst heq
      refine Table.eq_of_id_eq hr hr' ?_
      exact (id_of_tokenIdentity hchange.identity).trans (id_of_tokenIdentity hchange'.identity).symm
    . exact (hcontra hcreated' hr1 hchange hactive hsession.symm).elim
  . rcases hx.tokens.1 r' hr' with ⟨r1', hr1', hchange'⟩ | hcreated'
    . exact (hcontra hcreated hr1' hchange' hactive' hsession).elim
    . exact hcreated.eq hcreated'

theorem SessionInv.rotating_step {i : Nat} {sessionUuid : String}
    (hrotating : Rotating calls (x :: t) i sessionUuid) {r' : RefreshToken}
    (hr' : r' ∈ (x.after .refreshTokens).rows) (hsession : r'.sessionUuid = sessionUuid)
    : r'.revokedAt ≠ none := by
  rcases hx.rotating hinv.seen hrotating with hold | ⟨_, ⟨_, _, hran⟩, r0, hr0, hactive, hsession0, hrevoked⟩
  . rcases hx.tokens.1 r' hr' with ⟨r, hr, hchange⟩ | hcreated
    . have hne : r.revokedAt ≠ none := by
        apply hinv.rotating i sessionUuid hold r hr
        rw [← sessionUuid_of_tokenIdentity hchange.identity, hsession]
      rw [hchange.eq_of_revoked hne]
      exact hne
    . obtain ⟨r1, hminted, hsession1⟩ := hold.minted hinv.seen
      have hown := (hinv.replaces hcreated hminted (hsession.trans hsession1.symm)).1
      rw [hsession] at hown
      have hi := hinv.unique i x.call sessionUuid hold hown
      obtain ⟨_, _, _, _, hunfinished⟩ := hrotating
      rw [hi, own_cons_self, unfinished_cons, hcreated.insertsInto] at hunfinished
      simp at hunfinished
  . rcases hx.tokens.1 r' hr' with ⟨r, hr, hchange⟩ | hcreated
    . have hsession' : r.sessionUuid = sessionUuid := by
        rw [← sessionUuid_of_tokenIdentity hchange.identity, hsession]
      by_cases hr1 : r.revokedAt = none
      . have heq := hinv.active r hr r0 hr0 hr1 hactive (hsession'.trans hsession0.symm)
        subst heq
        exact hrevoked r' hr' (id_of_tokenIdentity hchange.identity)
      . rw [hchange.eq_of_revoked hr1]
        exact hr1
    . have hinsert := hcreated.insertsInto
      rw [show x.effect = _ from congrArg Sigma.fst hran] at hinsert
      simp at hinsert

theorem SessionInv.unique_step {i j : Nat} {sessionUuid : String}
    (hi : Rotating calls (x :: t) i sessionUuid) (hj : Rotating calls (x :: t) j sessionUuid)
    : i = j := by
  rcases hx.rotating hinv.seen hi with hold | ⟨hi, _, r, hr, hactive, hsession, _⟩
  . rcases hx.rotating hinv.seen hj with hold' | ⟨_, _, r, hr, hactive, hsession, _⟩
    . exact hinv.unique i j sessionUuid hold hold'
    . exact absurd hactive (hinv.rotating i sessionUuid hold r hr hsession)
  . rcases hx.rotating hinv.seen hj with hold' | ⟨hj, _⟩
    . exact absurd hactive (hinv.rotating j sessionUuid hold' r hr hsession)
    . rw [hi, hj]

include hfresh in
theorem SessionInv.step : SessionInv calls x.after (x :: t) where
  seen := hinv.seen.step hx
  drawn := fun _ => hinv.drawn_step hx
  fresh := fun _ _ hdrawn hunfinished _ => hinv.fresh_step hfresh hx hdrawn hunfinished
  agree := fun _ _ => hinv.agree_step hx
  active := fun _ hr _ hr' => hinv.active_step hx hr hr'
  rotating := fun _ _ hrotating _ => hinv.rotating_step hx hrotating
  unique := fun _ _ _ => hinv.unique_step hx
  reason := by
    intro r' hr' hactive
    rcases hx.tokens.1 r' hr' with ⟨r, hr, hchange⟩ | hcreated
    . cases hchange with
      | keep => exact hinv.reason _ hr hactive
      | rotate => simp at hactive
      | revoke => simp at hactive
    . exact hcreated.active.2

end Step

structure SessionsConsistent (calls : List Call) (c : Auth) : Prop where
  active : ∀ r ∈ (c.world .refreshTokens).rows, ∀ r' ∈ (c.world .refreshTokens).rows,
    r.revokedAt = none → r'.revokedAt = none → r.sessionUuid = r'.sessionUuid → r = r'
  sameSession : ∀ r ∈ (c.world .refreshTokens).rows, ∀ r' ∈ (c.world .refreshTokens).rows,
    r.sessionUuid = r'.sessionUuid → SameSession r r'
  final : ∀ later x earlier, c.trace = later ++ x :: earlier →
    ∀ r ∈ (x.before .refreshTokens).rows, ∀ r' ∈ (x.after .refreshTokens).rows, r'.id = r.id →
      r.revokedAt ≠ none ∨ r.revokedReason ≠ none →
        r'.revokedAt = r.revokedAt ∧ r'.revokedReason = r.revokedReason
  kept : ∀ later x earlier, c.trace = later ++ x :: earlier →
    ∀ r ∈ (x.before .refreshTokens).rows,
      (∃ r' ∈ (x.after .refreshTokens).rows, r'.id = r.id) ∨ TokenPruned earlier x r

/--
Every step of a run that starts without sessions and never draws a UUID twice keeps the table of the
refresh tokens consistent.
-/
theorem sessionsConsistent {db : AuthDb} {schedule : Schedule}
    (hempty : (db .refreshTokens).rows = [])
    (hfresh : FreshUuids (Auth.after cfg db calls schedule).trace)
    : SessionsConsistent calls (Auth.after cfg db calls schedule) := by
  have hadm : ∀ x t, FreshUuids (x :: t) → FreshUuids t := fun _ _ => FreshUuids.tail
  have hstep : ∀ x t, FreshUuids (x :: t) → Step calls t x → SessionInv calls x.before t →
      SessionInv calls x.after (x :: t) := fun _ _ hfresh hx hinv => hinv.step hfresh hx
  have hinv := auth_induction hadm hstep (SessionInv.init hempty) schedule hfresh
  constructor
  . exact hinv.active
  . intro r hr r' hr' hsession
    exact hinv.agree r r' (hinv.seen.rows r hr) (hinv.seen.rows r' hr') hsession
  . intro later x earlier hsplit r hr r' hr' hid hset
    have hx := step_of_split hsplit
    have hearlier := (auth_induction_split hadm hstep (SessionInv.init hempty) schedule hfresh hsplit).1
    have hrevoked : r.revokedAt ≠ none := by
      intro hactive
      rcases hset with hset | hset
      . exact hset hactive
      . exact hset (hearlier.reason r hr hactive)
    rcases hx.tokens.1 r' hr' with ⟨r1, hr1, hchange⟩ | hcreated
    . have heq : r1 = r := by
        refine Table.eq_of_id_eq hr1 hr ?_
        exact (id_of_tokenIdentity hchange.identity).symm.trans hid
      subst heq
      rw [hchange.eq_of_revoked hrevoked]
      exact ⟨rfl, rfl⟩
    . have hlt : r.id < (x.before .refreshTokens).nextId := (x.before .refreshTokens).id_lt r hr
      rw [← hid, hcreated.id_eq] at hlt
      exact absurd hlt (Nat.lt_irrefl _)
  . intro later x earlier hsplit r hr
    refine ((step_of_split hsplit).tokens.2 r hr).imp ?_ id
    intro ⟨r', hr', hchange⟩
    exact ⟨r', hr', id_of_tokenIdentity hchange.identity⟩

end

section Runs

open Sample

attribute [local instance] platform

def refreshCalls : List Call := [
  .login { username := "ann", password := "secret" },
  .refresh "bbbb"
]

def refreshedOnce : Schedule :=
  schedule (List.replicate 10 0 ++ List.replicate 12 1)

theorem sessionsConsistent_refreshedOnce
    : SessionsConsistent refreshCalls (Auth.after config (db ann) refreshCalls refreshedOnce) :=
  sessionsConsistent rfl (by decide)

end Runs

end Kerghan
