import Kerghan.Auth.Lemmas.Run

/-!
This module contains what a single step of a run can do to the password reset tokens, and what follows
from the order in which a call resets a password.
-/

namespace Kerghan

/--
What a step can make of a password reset token `r`.
-/
inductive ResetChange (r : PasswordResetToken) : PasswordResetToken → Prop where
  | keep : ResetChange r r
  | markUsed {now : Date} : ResetChange r { r with usedAt := some now }

def PasswordResetToken.identity (r : PasswordResetToken) : PasswordResetToken :=
  { r with usedAt := none }

theorem ResetChange.identity {r r' : PasswordResetToken} (h : ResetChange r r')
    : r'.identity = r.identity := by
  cases h <;> rfl

theorem ResetChange.id_eq {r r' : PasswordResetToken} (h : ResetChange r r') : r'.id = r.id := by
  cases h <;> rfl

theorem ResetChange.used {r r' : PasswordResetToken} (h : ResetChange r r') (hused : r.usedAt ≠ none)
    : r'.usedAt ≠ none := by
  cases h with
  | keep => exact hused
  | markUsed => simp

variable [Platform] {calls : List Call} {t : List AuthEntry} {x : AuthEntry}

section Stages

variable {dto dto' : ResetPasswordDto} {tokenRow tokenRow' : PasswordResetToken} {h : AuthHistory}

theorem ResetReady.found {salt : String} (hready : ResetReady dto tokenRow salt h)
    : ran (findResetToken (hashToken dto.token)) (some tokenRow) ∈ h := by
  cases hready with
  | ready hunused => simp

theorem PasswordSet.found (hset : PasswordSet dto tokenRow h)
    : ran (findResetToken (hashToken dto.token)) (some tokenRow) ∈ h := by
  cases hset with
  | set hready => exact List.mem_cons_of_mem _ hready.found

theorem ResetReady.length {salt : String} (hready : ResetReady dto tokenRow salt h)
    : h.length = 4 := by
  cases hready with
  | ready hunused => rfl

theorem PasswordSet.length (hset : PasswordSet dto tokenRow h) : h.length = 5 := by
  cases hset with
  | set hready => rw [List.length_cons, hready.length]

theorem PasswordSet.unique {h₁ h₂ : AuthHistory} (hset : PasswordSet dto tokenRow h₁)
    (hset' : PasswordSet dto' tokenRow' h₂) (hsuffix : h₁ <:+ h) (hsuffix' : h₂ <:+ h)
    : tokenRow = tokenRow' := by
  have hlength : h₁.length = h₂.length := hset.length.trans hset'.length.symm
  have heq := (List.suffix_of_suffix_length_le hsuffix hsuffix' (Nat.le_of_eq hlength)).eq_of_length hlength
  cases hset with
  | set hready =>
    cases hset' with
    | set hready' =>
      cases hready with
      | ready hunused =>
        cases hready' with
        | ready hunused' =>
          simp only [List.cons.injEq, and_true] at heq
          have := answer_of_ran_eq heq.2.2.2.2
          rwa [Option.some.injEq] at this

theorem ResetMarked.passwordSet (hmarked : ResetMarked dto tokenRow h)
    : ∃ h', PasswordSet dto tokenRow h' ∧ h' <:+ h := by
  cases hmarked with
  | marked hset => exact ⟨_, hset, (List.suffix_cons _ _).trans (List.suffix_cons _ _)⟩

end Stages

/--
The step `x` has stored the password reset token `r`.
-/
def StoresReset (x : AuthEntry) (r : PasswordResetToken) : Prop :=
  ∃ userId tokenHash expiresAt,
    ⟨x.effect, x.resp⟩ = ran (insertResetToken userId tokenHash expiresAt) r

theorem StoresReset.inserted {r : PasswordResetToken} (hx : Step calls t x) (h : StoresReset x r)
    : r.id = (x.before .passwordResetTokens).nextId
        ∧
      (x.after .passwordResetTokens).nextId = (x.before .passwordResetTokens).nextId + 1 := by
  obtain ⟨userId, tokenHash, expiresAt, hinsert⟩ := h
  obtain ⟨now, hrow, _, hnext⟩ := hx.inserted hinsert
  exact ⟨congrArg (fun r : PasswordResetToken => r.id) hrow, hnext⟩

theorem StoresReset.drawn {r : PasswordResetToken} (hx : Step calls t x) (h : StoresReset x r)
    : (∃ token, ⟨.randomBytes, token⟩ ∈ own x.call t ∧ r.tokenHash = hashToken token)
        ∧
      ∀ ev ∈ own x.call t, ev.1.insertsInto .passwordResetTokens = false := by
  obtain ⟨userId, tokenHash, expiresAt, hinsert⟩ := h
  obtain ⟨now, hrow, _, _⟩ := hx.inserted hinsert
  obtain ⟨call, hcall, hissues⟩ := hx.issues
  rw [show x.effect = _ from congrArg Sigma.fst hinsert] at hissues
  obtain ⟨s, hs, hissues'⟩ : ∃ s : AuthStmt, s = insertResetToken userId tokenHash expiresAt ∧
      Issues call (own x.call t) (.db s) := ⟨_, rfl, hissues⟩
  have hwrite := hissues'.write (by simp [hs])
  simp only [show s.table = .passwordResetTokens by simp [hs]] at hwrite
  cases hwrite with
  | pruneExpired => simp at hs
  | pruneUsed => simp at hs
  | markUsed => simp at hs
  | insert hrecovers hbytes hfirst =>
    simp only [Stmt.insert.injEq, heq_eq_eq, true_and] at hs
    have hsame := congrArg (fun r : PasswordResetToken => r.tokenHash) (congrFun (congrFun hs 0) 0)
    refine ⟨⟨_, hbytes, ?_⟩, hfirst⟩
    rw [hrow]
    exact hsame.symm

theorem Step.resets (hx : Step calls t x) {r' : PasswordResetToken}
    (hr' : r' ∈ (x.after .passwordResetTokens).rows)
    : (∃ r ∈ (x.before .passwordResetTokens).rows, ResetChange r r') ∨ StoresReset x r' := by
  rcases hx.table_cases .passwordResetTokens with hsame | hwritten
  . rw [hsame] at hr'
    exact Or.inl ⟨r', hr', .keep⟩
  . obtain ⟨call, s, a, e, hcall, hran, hissues, hexec, htable, hread⟩ := hwritten
    have hwrite := hissues.write hread
    simp only [htable] at hwrite
    cases hwrite with
    | pruneExpired =>
      rw [(Stmt.exec_delete hexec).1] at hr'
      exact Or.inl ⟨r', List.mem_of_mem_filter hr', .keep⟩
    | pruneUsed =>
      rw [(Stmt.exec_delete hexec).1] at hr'
      exact Or.inl ⟨r', List.mem_of_mem_filter hr', .keep⟩
    | insert hrecovers hbytes hfirst =>
      obtain ⟨now, hrow, hrows, _⟩ := Stmt.exec_insert hexec
      rw [hrows] at hr'
      rcases List.mem_append.mp hr' with hr | hr
      . exact Or.inl ⟨r', hr, .keep⟩
      . rw [List.mem_singleton] at hr
        exact Or.inr ⟨_, _, _, hr ▸ hran⟩
    | markUsed hreset hhistory hset =>
      exact Or.inl ((Stmt.rows_update (fun _ => .keep) (fun _ _ _ => .markUsed) hexec).1 r' hr')

def ResetMinted (t : List AuthEntry) (r : PasswordResetToken) : Prop :=
  ∃ y ∈ t, StoresReset y r.identity

theorem ResetMinted.cons {r : PasswordResetToken} (h : ResetMinted t r) : ResetMinted (x :: t) r := by
  obtain ⟨y, hy, hstores⟩ := h
  exact ⟨y, List.mem_cons_of_mem _ hy, hstores⟩

theorem ResetMinted.congr {r r' : PasswordResetToken} (h : ResetMinted t r)
    (hidentity : r'.identity = r.identity)
    : ResetMinted t r' := by
  obtain ⟨y, hy, hstores⟩ := h
  exact ⟨y, hy, hidentity ▸ hstores⟩

def drawnHash (x : AuthEntry) : Option String :=
  match x.effect, x.resp with
  | .randomBytes, token => some (hashToken token)
  | _, _ => none

/--
No two tokens are drawn that have the same hash.
-/
abbrev FreshTokens (t : List AuthEntry) : Prop :=
  (t.filterMap drawnHash).Nodup

theorem FreshTokens.tail (h : FreshTokens (x :: t)) : FreshTokens t :=
  h.sublist ((List.sublist_cons_self x t).filterMap drawnHash)

theorem FreshTokens.call_eq (h : FreshTokens t) {i j : Nat} {token token' : String}
    (hi : ⟨.randomBytes, token⟩ ∈ own i t) (hj : ⟨.randomBytes, token'⟩ ∈ own j t)
    (hhash : hashToken token = hashToken token')
    : i = j := by
  have hdrawn : ∀ {y : AuthEntry} {token : String},
      (⟨y.effect, y.resp⟩ : (s : AuthEffect) × AuthAnswer s) = ⟨.randomBytes, token⟩ →
        drawnHash y = some (hashToken token) := by
    intro y token hdrew
    obtain ⟨i, before, effect, resp, after⟩ := y
    cases hdrew
    rfl
  obtain ⟨y, hy, rfl, hdrew⟩ := mem_own.mp hi
  obtain ⟨z, hz, rfl, hdrew'⟩ := mem_own.mp hj
  rw [eq_of_nodup_filterMap h hy hz (hdrawn hdrew) (hhash ▸ hdrawn hdrew')]

structure ResetsSeen (db : AuthDb) (t : List AuthEntry) : Prop where
  rows : ∀ r ∈ (db .passwordResetTokens).rows, ResetMinted t r
  found : ∀ i r, Found (own i t) .passwordResetTokens r → ResetMinted t r
  id_lt : ∀ r, ResetMinted t r → r.id < (db .passwordResetTokens).nextId
  drawn : ∀ y ∈ t, ∀ r, StoresReset y r →
    ∃ token, ⟨.randomBytes, token⟩ ∈ own y.call t ∧ r.tokenHash = hashToken token
  hash : ∀ r r', ResetMinted t r → ResetMinted t r' → r.tokenHash = r'.tokenHash → r.id = r'.id

theorem ResetsSeen.init {db : AuthDb} (hempty : (db .passwordResetTokens).rows = [])
    : ResetsSeen db [] where
  rows := by simp [hempty]
  found := by
    intro i r ⟨p, rank, hmem⟩
    simp at hmem
  id_lt := by
    intro r ⟨y, hy, _⟩
    simp at hy
  drawn := by simp
  hash := by
    intro r r' ⟨y, hy, _⟩
    simp at hy

theorem ResetsSeen.step (hfresh : FreshTokens (x :: t)) (hx : Step calls t x)
    (hseen : ResetsSeen x.before t)
    : ResetsSeen x.after (x :: t) where
  rows := by
    intro r' hr'
    rcases hx.resets hr' with ⟨r, hr, hchange⟩ | hstores
    . exact (hseen.rows r hr).cons.congr hchange.identity
    . obtain ⟨userId, tokenHash, expiresAt, hinsert⟩ := hstores
      obtain ⟨now, hrow, _⟩ := hx.inserted hinsert
      have hidentity : r'.identity = r' := by
        rw [hrow]
        rfl
      exact ⟨x, List.mem_cons_self .., hidentity.symm ▸ ⟨_, _, _, hinsert⟩⟩
  found := by
    intro i r ⟨p, rank, hmem⟩
    rcases mem_own_cons.mp hmem with ⟨_, hfind⟩ | hold
    . exact (hseen.rows r (hx.found_mem hfind).1).cons
    . exact (hseen.found i r ⟨p, rank, hold⟩).cons
  id_lt := by
    intro r ⟨y, hy, hstores⟩
    rcases List.mem_cons.mp hy with rfl | hold
    . obtain ⟨hid, hnext⟩ := hstores.inserted hx
      have hid' : r.id = (y.before .passwordResetTokens).nextId := hid
      omega
    . exact Nat.lt_of_lt_of_le (hseen.id_lt r ⟨y, hold, hstores⟩) (hx.nextId_le .passwordResetTokens)
  drawn := by
    intro y hy r hstores
    have hsuffix : own y.call t <:+ own y.call (x :: t) := own_suffix (List.suffix_cons x t)
    rcases List.mem_cons.mp hy with rfl | hold
    . obtain ⟨token, hdrawn, hhash⟩ := (hstores.drawn hx).1
      exact ⟨token, hsuffix.subset hdrawn, hhash⟩
    . obtain ⟨token, hdrawn, hhash⟩ := hseen.drawn y hold r hstores
      exact ⟨token, hsuffix.subset hdrawn, hhash⟩
  hash := by
    -- a token that has just been drawn cannot have the hash of an older one
    have hcontra : ∀ {r r' : PasswordResetToken}, StoresReset x r.identity → ResetMinted t r' →
        r.tokenHash ≠ r'.tokenHash := by
      intro r r' hstores ⟨y, hy, hstores'⟩ hhash
      obtain ⟨⟨token, hdrawn, htoken⟩, hfirst⟩ := hstores.drawn hx
      obtain ⟨token', hdrawn', htoken'⟩ := hseen.drawn y hy r'.identity hstores'
      have heq : hashToken token = hashToken token' := htoken.symm.trans (hhash.trans htoken')
      have hcall := hfresh.tail.call_eq hdrawn hdrawn' heq
      obtain ⟨_, _, _, hinsert⟩ := hstores'
      have := hfirst _ (mem_own.mpr ⟨y, hy, hcall.symm, hinsert⟩)
      simp at this
    intro r r' ⟨y, hy, hstores⟩ ⟨z, hz, hstores'⟩ hhash
    rcases List.mem_cons.mp hy with rfl | hold
    . rcases List.mem_cons.mp hz with rfl | hold'
      . exact (hstores.inserted hx).1.trans (hstores'.inserted hx).1.symm
      . exact absurd hhash (hcontra hstores ⟨z, hold', hstores'⟩)
    . rcases List.mem_cons.mp hz with rfl | hold'
      . exact absurd hhash.symm (hcontra hstores' ⟨y, hold, hstores⟩)
      . exact hseen.hash r r' ⟨y, hold, hstores⟩ ⟨z, hold', hstores'⟩ hhash

end Kerghan
