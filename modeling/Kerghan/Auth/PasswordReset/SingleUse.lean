import Kerghan.Auth.Lemmas.Resets
import Kerghan.Auth.Sessions.Revocation

/-!
This module contains the proof that a password reset token is used only once, as long as no password is
stored for a token that is used or about to be, and a run in which a token is used twice.
-/

namespace Kerghan

section

variable [Platform] {cfg : AuthConfig} {calls : List Call} {t : List AuthEntry} {x : AuthEntry}

/--
The `i`-th call has stored a password for this reset token, and is about to mark it as used.
-/
def Marking (calls : List Call) (t : List AuthEntry) (i tokenId : Nat) : Prop :=
  ∃ (dto : ResetPasswordDto) (tokenRow : PasswordResetToken),
    calls[i]? = some (.resetPassword dto)
      ∧
    tokenRow.id = tokenId
      ∧
    (PasswordSet dto tokenRow (own i t) ∨
      ∃ now older, own i t = clock now :: older ∧ PasswordSet dto tokenRow older)

/--
The `i`-th call has stored a password for this reset token, and has marked it as used.
-/
def Marked (calls : List Call) (t : List AuthEntry) (i : Nat) (dto : ResetPasswordDto)
    (tokenRow : PasswordResetToken) : Prop :=
  calls[i]? = some (.resetPassword dto) ∧ ∃ h, ResetMarked dto tokenRow h ∧ h <:+ own i t

/--
The `i`-th call is the one that uses this reset token.
-/
def Uses (calls : List Call) (t : List AuthEntry) (i tokenId : Nat) : Prop :=
  Marking calls t i tokenId ∨ ∃ dto tokenRow, Marked calls t i dto tokenRow ∧ tokenRow.id = tokenId

def StoresPassword (calls : List Call) (t : List AuthEntry) (x : AuthEntry)
    (tokenRow : PasswordResetToken) : Prop :=
  ∃ (dto : ResetPasswordDto) (salt : String) (affected : Nat),
    calls[x.call]? = some (.resetPassword dto)
      ∧
    ResetReady dto tokenRow salt (own x.call t)
      ∧
    ⟨x.effect, x.resp⟩ =
      ran (setPassword tokenRow.userId (Platform.bcryptHash salt dto.password)) affected

/--
Passwords are only stored for reset tokens that are still there and unused, and that no other call is
about to mark as used.
-/
def ResetsUnused (calls : List Call) (t : List AuthEntry) : Prop :=
  ∀ later x earlier, t = later ++ x :: earlier →
    ∀ tokenRow, StoresPassword calls earlier x tokenRow →
      (∃ r ∈ (x.before .passwordResetTokens).rows, r.id = tokenRow.id ∧ r.usedAt = none)
        ∧
      ∀ i, ¬Marking calls earlier i tokenRow.id

theorem ResetsUnused.of_append {later : List AuthEntry} (h : ResetsUnused calls (later ++ t))
    : ResetsUnused calls t := by
  intro later' y earlier hsplit
  refine h (later ++ later') y earlier ?_
  rw [hsplit, List.append_assoc]

theorem Marking.le_length {i tokenId : Nat} (h : Marking calls t i tokenId)
    : 5 ≤ (own i t).length := by
  obtain ⟨dto, tokenRow, _, _, hset | ⟨now, older, hhistory, hset⟩⟩ := h
  . exact Nat.le_of_eq hset.length.symm
  . rw [hhistory, List.length_cons, hset.length]
    omega

theorem Marked.cons {i : Nat} {dto : ResetPasswordDto} {tokenRow : PasswordResetToken}
    (h : Marked calls (x :: t) i dto tokenRow)
    : Marked calls t i dto tokenRow ∨
        Marking calls t i tokenRow.id
          ∧
        ∃ usedAt, ∃ (affected : Nat),
          ⟨x.effect, x.resp⟩ = ran (markResetTokenUsed tokenRow.id usedAt) affected := by
  obtain ⟨hcall, h, hmarked, hsuffix⟩ := h
  by_cases hi : x.call = i
  . subst hi
    rw [own_cons_self] at hsuffix
    rcases List.suffix_cons_iff.mp hsuffix with hnew | hold
    . right
      cases hmarked with
      | marked hset =>
        rename_i older usedAt affected
        rw [List.cons.injEq] at hnew
        refine ⟨⟨dto, tokenRow, hcall, rfl, Or.inr ⟨usedAt, older, hnew.2.symm, hset⟩⟩, ?_⟩
        exact ⟨usedAt, affected, hnew.1.symm⟩
    . exact Or.inl ⟨hcall, h, hmarked, hold⟩
  . rw [own_cons_of_ne hi] at hsuffix
    exact Or.inl ⟨hcall, h, hmarked, hsuffix⟩

theorem Marking.cons {i tokenId : Nat} (h : Marking calls (x :: t) i tokenId)
    : Marking calls t i tokenId ∨
        i = x.call ∧ ∃ tokenRow, StoresPassword calls t x tokenRow ∧ tokenRow.id = tokenId := by
  obtain ⟨dto, tokenRow, hcall, hid, hset⟩ := h
  by_cases hi : x.call = i
  . subst hi
    rw [own_cons_self] at hset
    rcases hset with hset | ⟨now, older, hhistory, hset⟩
    . right
      generalize hown : (⟨x.effect, x.resp⟩ :: own x.call t : AuthHistory) = h at hset
      cases hset with
      | set hready =>
        rw [List.cons.injEq] at hown
        rw [← hown.2] at hready
        exact ⟨rfl, tokenRow, ⟨dto, _, _, hcall, hready, hown.1⟩, hid⟩
    . rw [List.cons.injEq] at hhistory
      rw [← hhistory.2] at hset
      exact Or.inl ⟨dto, tokenRow, hcall, hid, Or.inl hset⟩
  . rw [own_cons_of_ne hi] at hset
    exact Or.inl ⟨dto, tokenRow, hcall, hid, hset⟩

theorem Uses.cons {i tokenId : Nat} (h : Uses calls (x :: t) i tokenId)
    : Uses calls t i tokenId ∨
        i = x.call ∧ ∃ tokenRow, StoresPassword calls t x tokenRow ∧ tokenRow.id = tokenId := by
  rcases h with hmarking | ⟨dto, tokenRow, hmarked, hid⟩
  . rcases hmarking.cons with hold | hnew
    . exact Or.inl (Or.inl hold)
    . exact Or.inr hnew
  . rcases hmarked.cons with hold | ⟨hmarking, _⟩
    . exact Or.inl (Or.inr ⟨dto, tokenRow, hold, hid⟩)
    . rw [hid] at hmarking
      exact Or.inl (Or.inl hmarking)

theorem Marked.found {i : Nat} {dto : ResetPasswordDto} {tokenRow : PasswordResetToken}
    (h : Marked calls t i dto tokenRow)
    : ran (findResetToken (hashToken dto.token)) (some tokenRow) ∈ own i t := by
  obtain ⟨hcall, h, hmarked, hsuffix⟩ := h
  obtain ⟨h', hset, hsuffix'⟩ := hmarked.passwordSet
  exact hsuffix.subset (hsuffix'.subset hset.found)

structure SingleUseInv (calls : List Call) (db : AuthDb) (t : List AuthEntry) : Prop where
  seen : ResetsSeen db t
  used : ∀ i dto tokenRow, Marked calls t i dto tokenRow →
    ∀ r ∈ (db .passwordResetTokens).rows, r.id = tokenRow.id → r.usedAt ≠ none
  unique : ∀ i j tokenId, Uses calls t i tokenId → Uses calls t j tokenId → i = j

theorem SingleUseInv.init {db : AuthDb} (hempty : (db .passwordResetTokens).rows = [])
    : SingleUseInv calls db [] where
  seen := .init hempty
  used := by simp [hempty]
  unique := by
    have hnone : ∀ i tokenId, ¬Uses calls ([] : List AuthEntry) i tokenId := by
      rintro i tokenId (⟨dto, tokenRow, _, _, hset | ⟨now, older, hhistory, _⟩⟩ | ⟨_, _, hmarked, _⟩)
      . exact absurd hset.length (by simp)
      . simp at hhistory
      . exact absurd hmarked.found (by simp)
    exact fun i j tokenId hi _ => absurd hi (hnone i tokenId)

section Step

variable (hunused : ResetsUnused calls (x :: t)) (hx : Step calls t x)
variable (hinv : SingleUseInv calls x.before t)

include hinv

include hx in
theorem SingleUseInv.used_step {i : Nat} {dto : ResetPasswordDto} {tokenRow : PasswordResetToken}
    (hmarked : Marked calls (x :: t) i dto tokenRow) {r' : PasswordResetToken}
    (hr' : r' ∈ (x.after .passwordResetTokens).rows) (hid : r'.id = tokenRow.id)
    : r'.usedAt ≠ none := by
  rcases hmarked.cons with hold | ⟨_, usedAt, affected, hran⟩
  . rcases hx.resets hr' with ⟨r, hr, hchange⟩ | hstores
    . exact hchange.used (hinv.used i dto tokenRow hold r hr (hchange.id_eq.symm.trans hid))
    . -- new reset tokens get new ids
      have hlt := hinv.seen.id_lt tokenRow (hinv.seen.found i tokenRow (found_of_ran hold.found))
      rw [← hid, (hstores.inserted hx).1] at hlt
      exact absurd hlt (Nat.lt_irrefl _)
  . obtain ⟨now, _, hrows⟩ := hx.updated hran
    rw [hrows, List.mem_map] at hr'
    obtain ⟨r, hr, rfl⟩ := hr'
    split
    . simp
    . next hother =>
      rw [if_neg hother] at hid
      simp [hid] at hother

include hunused in
theorem SingleUseInv.unused {tokenRow : PasswordResetToken}
    (hstores : StoresPassword calls t x tokenRow) (i : Nat)
    : ¬Uses calls t i tokenRow.id := by
  obtain ⟨⟨r, hr, hid, hfree⟩, hmarking⟩ := hunused [] x t rfl tokenRow hstores
  rintro (hi | ⟨dto, tokenRow', hmarked, hid'⟩)
  . exact hmarking i hi
  . exact hinv.used i dto tokenRow' hmarked r hr (hid.trans hid'.symm) hfree

include hx hunused in
theorem SingleUseInv.step (hfresh : FreshTokens (x :: t)) : SingleUseInv calls x.after (x :: t) where
  seen := hinv.seen.step hfresh hx
  used := fun _ _ _ hmarked _ => hinv.used_step hx hmarked
  unique := by
    intro i j tokenId hi hj
    rcases hi.cons with hi | ⟨hi, tokenRow, hstores, hid⟩
    . rcases hj.cons with hj | ⟨_, tokenRow, hstores, hid⟩
      . exact hinv.unique i j tokenId hi hj
      . rw [← hid] at hi
        exact absurd hi (hinv.unused hunused hstores i)
    . rcases hj.cons with hj | ⟨hj, _⟩
      . rw [← hid] at hj
        exact absurd hj (hinv.unused hunused hstores j)
      . rw [hi, hj]

end Step

structure SingleUse (calls : List Call) (c : Auth) : Prop where
  unique : ∀ (i j : Nat) (dto dto' : ResetPasswordDto) (reply reply' : Reply),
    calls[i]? = some (.resetPassword dto) → calls[j]? = some (.resetPassword dto') →
      dto.token = dto'.token → c.pool i = .pure reply → c.pool j = .pure reply' → i = j
  final : ∀ later x earlier, c.trace = later ++ x :: earlier →
    ∀ (i : Nat) (dto dto' : ResetPasswordDto) (tokenRow tokenRow' : PasswordResetToken),
      Marked calls earlier i dto tokenRow → calls[x.call]? = some (.resetPassword dto') →
        dto'.token = dto.token → ¬StoresPassword calls earlier x tokenRow'

theorem marked_of_returned {db : AuthDb} {schedule : Schedule} {i : Nat} {dto : ResetPasswordDto}
    {reply : Reply} (hcall : calls[i]? = some (.resetPassword dto))
    (hreturned : (Auth.after cfg db calls schedule).pool i = .pure reply)
    : ∃ tokenRow, Marked calls (Auth.after cfg db calls schedule).trace i dto tokenRow := by
  obtain ⟨later, x, earlier, criteria, hsplit, rfl, call, _, _, _, hcall', _, hrevokes⟩ :=
    revocation_of_returned hcall rfl hreturned
  rw [hcall, Option.some.injEq] at hcall'
  subst hcall'
  have hsuffix : own x.call earlier <:+ own x.call (Auth.after cfg db calls schedule).trace := by
    rw [hsplit]
    exact own_suffix ((List.suffix_cons _ _).trans (List.suffix_append _ _))
  cases hrevokes with
  | passwordReset hreset hmarked hsuffix' =>
    cases hreset
    exact ⟨_, hcall, _, hmarked, hsuffix'.trans hsuffix⟩
  | _ => contradiction

theorem ResetsSeen.id_eq {db : AuthDb} {schedule : Schedule} {db' : AuthDb}
    (hseen : ResetsSeen db' t) (hsuffix : t <:+ (Auth.after cfg db calls schedule).trace) {i j : Nat}
    {token : String} {tokenRow tokenRow' : PasswordResetToken}
    (hi : ran (findResetToken (hashToken token)) (some tokenRow) ∈ own i t)
    (hj : ran (findResetToken (hashToken token)) (some tokenRow') ∈ own j t)
    : tokenRow.id = tokenRow'.id := by
  have hhash : (tokenRow.tokenHash == hashToken token) = true :=
    found_where (mem_own_of_suffix hsuffix hi)
  have hhash' : (tokenRow'.tokenHash == hashToken token) = true :=
    found_where (mem_own_of_suffix hsuffix hj)
  apply hseen.hash tokenRow tokenRow'
  . exact hseen.found i tokenRow (found_of_ran hi)
  . exact hseen.found j tokenRow' (found_of_ran hj)
  . rw [eq_of_beq hhash, eq_of_beq hhash']

theorem singleUse {db : AuthDb} {schedule : Schedule}
    (hempty : (db .passwordResetTokens).rows = [])
    (hfresh : FreshTokens (Auth.after cfg db calls schedule).trace)
    (hunused : ResetsUnused calls (Auth.after cfg db calls schedule).trace)
    : SingleUse calls (Auth.after cfg db calls schedule) := by
  have hadm : ∀ x t, FreshTokens (x :: t) ∧ ResetsUnused calls (x :: t) →
      FreshTokens t ∧ ResetsUnused calls t :=
    fun x t h => ⟨h.1.tail, @ResetsUnused.of_append _ calls t [x] h.2⟩
  have hstep : ∀ x t, FreshTokens (x :: t) ∧ ResetsUnused calls (x :: t) → Step calls t x →
      SingleUseInv calls x.before t → SingleUseInv calls x.after (x :: t) :=
    fun _ _ h hx hinv => hinv.step h.2 hx h.1
  constructor
  . intro i j dto dto' reply reply' hcall hcall' htoken hreturned hreturned'
    have hinv := auth_induction (A := fun t => FreshTokens t ∧ ResetsUnused calls t) hadm hstep
      (SingleUseInv.init hempty) schedule ⟨hfresh, hunused⟩
    obtain ⟨tokenRow, hmarked⟩ := marked_of_returned hcall hreturned
    obtain ⟨tokenRow', hmarked'⟩ := marked_of_returned hcall' hreturned'
    have hid := hinv.seen.id_eq (List.suffix_refl _) hmarked.found (htoken ▸ hmarked'.found)
    exact hinv.unique i j tokenRow.id (Or.inr ⟨dto, tokenRow, hmarked, rfl⟩)
      (Or.inr ⟨dto', tokenRow', hmarked', hid.symm⟩)
  . intro later x earlier hsplit i dto dto' tokenRow tokenRow' hmarked hcall htoken hstores
    have hinv := (auth_induction_split (A := fun t => FreshTokens t ∧ ResetsUnused calls t) hadm hstep
      (SingleUseInv.init hempty) schedule ⟨hfresh, hunused⟩ hsplit).1
    have hsuffix : x :: earlier <:+ (Auth.after cfg db calls schedule).trace := by
      rw [hsplit]
      exact List.suffix_append _ _
    have hid : tokenRow.id = tokenRow'.id := by
      obtain ⟨dto'', salt, affected, hcall', hready, hran⟩ := hstores
      rw [hcall, Option.some.injEq, Call.resetPassword.injEq] at hcall'
      subst hcall'
      have hfound := hready.found
      rw [htoken] at hfound
      exact hinv.seen.id_eq ((List.suffix_cons _ _).trans hsuffix) hmarked.found hfound
    rw [hsplit] at hunused
    refine hinv.unused hunused.of_append hstores i (Or.inr ⟨dto, tokenRow, hmarked, hid⟩)

end

section Runs

open Sample

attribute [local instance] platform

def resetCalls : List Call := [
  .recover "ann@example.com",
  .resetPassword { token := "b", password := "other" },
  .resetPassword { token := "b", password := "third" }
]

def resetOnce : Schedule :=
  schedule (List.replicate 8 0 ++ List.replicate 9 1 ++ [2])

/--
The first call has found the token unused before the second one uses it.
-/
def resetTwice : Schedule :=
  schedule (List.replicate 8 0 ++ List.replicate 2 1 ++ List.replicate 9 2 ++ List.replicate 7 1)

def writesUsers : AuthEffect → Bool
  | .db s => s.table == .users && !s.isRead
  | _ => false

theorem singleUse_resetOnce
    : SingleUse resetCalls (Auth.after config (db ann) resetCalls resetOnce) := by
  refine singleUse rfl (by decide) ?_
  have hrows : ∀ x ∈ (Auth.after config (db ann) resetCalls resetOnce).trace,
      (∀ r ∈ (x.before .passwordResetTokens).rows, r.id = 0)
        ∧
      (writesUsers x.effect = true →
        ∃ r ∈ (x.before .passwordResetTokens).rows, r.usedAt = none) := by
    decide
  have hsecond : (own 2 (Auth.after config (db ann) resetCalls resetOnce).trace).length = 1 := by
    decide
  rintro later x earlier hsplit tokenRow ⟨dto, salt, affected, hcall, hready, hran⟩
  have hsuffix : earlier <:+ (Auth.after config (db ann) resetCalls resetOnce).trace := by
    rw [hsplit]
    exact (List.suffix_cons _ _).trans (List.suffix_append _ _)
  have hid : tokenRow.id = 0 := by
    obtain ⟨later', y, earlier', hsplit', _, hfind⟩ :=
      split_of_mem_own (mem_own_of_suffix hsuffix hready.found)
    exact (hrows y (by rw [hsplit']; simp)).1 _ ((step_of_split hsplit').found_mem hfind).1
  constructor
  . have hx := hrows x (by rw [hsplit]; simp)
    obtain ⟨r, hr, hfree⟩ := hx.2 (by rw [show x.effect = _ from congrArg Sigma.fst hran]; rfl)
    exact ⟨r, hr, (hx.1 r hr).trans hid.symm, hfree⟩
  . intro i hmarking
    have hresets : ∀ i dto, resetCalls[i]? = some (.resetPassword dto) → i = 1 ∨ i = 2 := by
      intro i dto hcall
      rcases i with _ | _ | _ | i
      . cases hcall
      . exact Or.inl rfl
      . exact Or.inr rfl
      . cases hcall
    have hnone : (own 2 earlier).length ≤ 1 := hsecond ▸ (own_suffix hsuffix).length_le
    have hready' := hready.length
    have hmarking' := hmarking.le_length
    obtain ⟨_, _, hreset, _⟩ := hmarking
    rcases hresets _ _ hcall with hx | hx <;> rw [hx] at hready'
    . rcases hresets _ _ hreset with hi | hi <;> rw [hi] at hmarking' <;> omega
    . omega

theorem not_singleUse
    : ¬SingleUse resetCalls (Auth.after config (db ann) resetCalls resetTwice) := by
  intro hsingle
  have := hsingle.unique 1 2 _ _ .done .done rfl rfl rfl rfl rfl
  omega

end Runs

end Kerghan
