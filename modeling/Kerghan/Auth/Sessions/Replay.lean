import Kerghan.Auth.Sessions.ActiveRow

/-!
This module contains the proof that presenting a refresh token which has been rotated is detected as
long as it has not expired, and that no other refresh token which cannot be used any more has any
effect when it is presented.
-/

namespace Kerghan

section

variable [Platform] {cfg : AuthConfig} {calls : List Call} {t : List AuthEntry} {x : AuthEntry}

def clockReading (x : AuthEntry) : Option Date :=
  match x.effect, x.resp with
  | .now, now => some now
  | _, _ => none

theorem clockReading_eq_some {now : Date}
    : clockReading x = some now ↔ ⟨x.effect, x.resp⟩ = clock now := by
  obtain ⟨i, before, effect, resp, after⟩ := x
  cases effect <;> simp [clockReading]

/--
How a refresh ends, by what it has read of the refresh token that was presented.
-/
inductive RefreshEnds (refreshToken : String) (h : AuthHistory) : Prop where
  | unknown (hhistory : h = [ran (findToken (hashToken refreshToken)) none])
  | expired {tokenRow : RefreshToken} {now : Date}
    (hhistory : h = [clock now, ran (findToken (hashToken refreshToken)) (some tokenRow)])
    (hexpired : tokenRow.expiresAt < now)
  | revoked {tokenRow : RefreshToken} {now : Date}
    (hhistory : h = [clock now, ran (findToken (hashToken refreshToken)) (some tokenRow)])
    (hrevoked : tokenRow.revokedReason ≠ some .rotated)
  | replayed {tokenRow : RefreshToken} {now now' : Date} {affected : Nat}
    (hhistory : h = [ran (revokeTokens { userId := some tokenRow.userId } now' .replayDetected) affected,
      clock now', clock now, ran (findToken (hashToken refreshToken)) (some tokenRow)])
  | active {tokenRow : RefreshToken} {now : Date}
    (hhistory : [clock now, ran (findToken (hashToken refreshToken)) (some tokenRow)] <:+ h)
    (hactive : tokenRow.revokedAt = none)

abbrev RefreshEnded {α : Type} (refreshToken : String) (h : AuthHistory) (r : Except HttpError α)
    : Prop :=
  (∀ e, r ≠ .error (.database e)) → RefreshEnds refreshToken h

theorem findActiveRefreshToken_ends (refreshToken : String)
    : (AuthService.findActiveRefreshToken refreshToken).Meets Answers (fun _ _ => True)
        (fun h r => match r with
          | .ok tokenRow => tokenRow.revokedAt = none ∧
            ∃ now, h = [clock now, ran (findToken (hashToken refreshToken)) (some tokenRow)]
          | .error e => RefreshEnded (α := Empty) refreshToken h (.error e)) [] := by
  unfold AuthService.findActiveRefreshToken
  rw [Api.meets_query]
  refine ⟨trivial, fun found _ => ?_, fun e hfailed => absurd rfl (hfailed e)⟩
  cases found with
  | none => exact fun _ => .unknown rfl
  | some tokenRow =>
    dsimp only
    rw [Api.meets_now]
    refine ⟨trivial, fun now => ?_⟩
    split
    . next hexpired => exact fun _ => .expired rfl hexpired
    . split
      . unfold AuthService.detectReplay
        split
        . unfold TokenService.revokeUserTokens
          simp only [Prog.bind_assoc]
          rw [Api.meets_now]
          refine ⟨trivial, fun now' => ?_⟩
          rw [Api.meets_query]
          refine ⟨trivial, fun affected _ _ => ?_, fun e hfailed => absurd rfl (hfailed e)⟩
          exact .replayed rfl
        . next hreason => exact fun _ => .revoked rfl hreason
      . next hactive => exact ⟨by simpa using hactive, now, rfl⟩

theorem refresh_ends (refreshToken : String)
    : ((Call.refresh refreshToken).prog cfg).Meets Answers (fun _ _ => True)
        (RefreshEnded refreshToken) [] := by
  unfold Call.prog AuthService.refresh
  simp only [Prog.map_eq, Prog.bind_assoc]
  refine (findActiveRefreshToken_ends refreshToken).bind ?_ ?_
  . intro h tokenRow _ ⟨hactive, now, hhistory⟩
    subst hhistory
    refine (Prog.meets_true _).mono fun h' _ _ hsuffix _ => ?_
    exact .active hsuffix hactive
  . intro h e _ hended hfailed
    refine hended fun e' he => hfailed e' ?_
    rw [Except.error.injEq] at he ⊢
    exact he

theorem Issues.presented {refreshToken : String} {h : AuthHistory} {s : AuthStmt}
    (hissues : Issues (.refresh refreshToken) h (.db s)) (hread : s.isRead = false)
    : ∃ tokenRow,
        Presented refreshToken tokenRow h
          ∧
        (tokenRow.revokedAt = none ∨ tokenRow.revokedReason = some .rotated) := by
  have hminted : ∀ {user keepSignedIn session newer older},
      h = newer ++ ⟨.issueTokens user keepSignedIn session, ()⟩ :: older →
      Mints (.refresh refreshToken) older user keepSignedIn session →
      ∃ tokenRow, Presented refreshToken tokenRow h ∧
        (tokenRow.revokedAt = none ∨ tokenRow.revokedReason = some .rotated) := by
    intro user keepSignedIn session newer older hhistory hmints
    cases hmints with
    | refresh hrefresh hrotated hpresented hactive =>
      cases hrefresh
      refine ⟨_, hpresented.mono ?_, Or.inl hactive⟩
      rw [hhistory, hrotated]
      exact (List.suffix_cons _ _).trans ((List.suffix_cons _ _).trans (List.suffix_append _ _))
    | _ => contradiction
  cases hissues with
  | read hread' => exact absurd (hread.symm.trans hread') Bool.false_ne_true
  | token hwrite =>
    cases hwrite with
    | prune hhistory hmints => exact hminted hhistory hmints
    | insert hhistory hmints => exact hminted hhistory hmints
    | rotate hrefresh hpresented hactive =>
      cases hrefresh
      exact ⟨_, hpresented, Or.inl hactive⟩
    | revoke hrevokes =>
      cases hrevokes with
      | replayDetected hrefresh hpresented hrotated =>
        cases hrefresh
        exact ⟨_, hpresented, Or.inr hrotated⟩
      | deniedRefresh hrefresh hpresented hactive =>
        cases hrefresh
        exact ⟨_, hpresented, Or.inl hactive⟩
      | _ => contradiction
  | request hwrite => cases hwrite <;> contradiction
  | user hwrite => cases hwrite <;> contradiction
  | reset hwrite => cases hwrite <;> contradiction
  | lockout hupdate => contradiction

/--
A rotated refresh token is still there, and still known as rotated, or the clock has been past its
expiry.
-/
def Kept (db : AuthDb) (t : List AuthEntry) (tokenRow : RefreshToken) : Prop :=
  (∃ r ∈ (db .refreshTokens).rows,
    r.identity = tokenRow.identity ∧ r.revokedAt ≠ none ∧ r.revokedReason = some .rotated)
    ∨
  ∃ y ∈ t, ∃ now, clockReading y = some now ∧ tokenRow.expiresAt < now

structure ReplayInv (calls : List Call) (db : AuthDb) (t : List AuthEntry) : Prop where
  seen : TokensSeen db t
  kept : ∀ i refreshToken tokenRow, Rotated calls t i refreshToken tokenRow → Kept db t tokenRow

theorem ReplayInv.init {db : AuthDb} (hempty : (db .refreshTokens).rows = [])
    : ReplayInv calls db [] where
  seen := .init hempty
  kept := by
    intro i refreshToken tokenRow ⟨_, _, _, hsuffix, _⟩
    simp at hsuffix

theorem TokenPruned.expired {r : RefreshToken} (h : TokenPruned t x r)
    : ∃ y ∈ x :: t, ∃ now, clockReading y = some now ∧ r.expiresAt < now := by
  cases h with
  | prune hran hnow huser hexpired =>
    obtain ⟨y, hy, _, hread⟩ := mem_own.mp hnow
    exact ⟨y, List.mem_cons_of_mem _ hy, _, clockReading_eq_some.mpr hread, hexpired⟩

theorem ReplayInv.step (hx : Step calls t x) (hinv : ReplayInv calls x.before t)
    : ReplayInv calls x.after (x :: t) where
  seen := hinv.seen.step hx
  kept := by
    intro i refreshToken tokenRow hrotated
    rcases hx.rotated hinv.seen hrotated with hold | ⟨_, _, r, hr, hidentity, _, hmarked⟩
    . rcases hinv.kept i refreshToken tokenRow hold with ⟨r, hr, hidentity, hrevoked, hreason⟩ | hexpired
      . rcases hx.tokens.2 r hr with ⟨r', hr', hchange⟩ | hpruned
        . rw [hchange.eq_of_revoked hrevoked] at hr'
          exact Or.inl ⟨r, hr', hidentity, hrevoked, hreason⟩
        . right
          rw [← expiresAt_of_tokenIdentity hidentity]
          exact hpruned.expired
      . obtain ⟨y, hy, now, hread, hexpired⟩ := hexpired
        exact Or.inr ⟨y, List.mem_cons_of_mem _ hy, now, hread, hexpired⟩
    . -- the row that has just been marked
      rcases hx.tokens.2 r hr with ⟨r', hr', hchange⟩ | hpruned
      . have := hmarked r' hr' (id_of_tokenIdentity hchange.identity)
        exact Or.inl ⟨r', hr', hchange.identity.trans hidentity, this⟩
      . right
        rw [← expiresAt_of_tokenIdentity hidentity]
        exact hpruned.expired

theorem replayInv {db : AuthDb} {schedule : Schedule} (hempty : (db .refreshTokens).rows = [])
    : ReplayInv calls (Auth.after cfg db calls schedule).world
        (Auth.after cfg db calls schedule).trace :=
  auth_induction (A := fun _ => True) (fun _ _ _ => trivial) (fun _ _ _ hx hinv => hinv.step hx)
    (.init hempty) schedule trivial

/--
The `i`-th call has made all steps in `during` and none before. The clock was not past `expiresAt`
before the call, and not when the call has read it for the check of the expiry, its second step.
-/
structure PresentedInTime (i : Nat) (during before : List AuthEntry) (expiresAt : Date) : Prop where
  alone : ∀ y ∈ during, y.call = i
  unstarted : ∀ y ∈ before, y.call ≠ i
  past : ∀ y ∈ before, ∀ now, clockReading y = some now → now ≤ expiresAt
  check : ∀ first now, [clock now, first] <:+ own i during → now ≤ expiresAt

structure DetectsReplay (calls : List Call) (c : Auth) : Prop where
  replayed : ∀ (i j : Nat) (refreshToken : String) (tokenRow : RefreshToken)
    (during before : List AuthEntry) (result : Except HttpError Reply),
      calls[i]? = some (.refresh refreshToken) → c.trace = during ++ before →
        Rotated calls before j refreshToken tokenRow →
          PresentedInTime i during before tokenRow.expiresAt → c.pool i = .ofExcept result →
            (∀ e, result ≠ .error (.database e)) →
              ∀ r ∈ (c.world .refreshTokens).rows, r.userId = tokenRow.userId → r.revokedAt ≠ none
  harmless : ∀ (i : Nat) (refreshToken : String) (later earlier : List AuthEntry) (y : AuthEntry),
    calls[i]? = some (.refresh refreshToken) → c.trace = later ++ y :: earlier → y.call = i →
      own i earlier = [] →
        (∀ r ∈ (y.before .refreshTokens).rows, r.tokenHash = hashToken refreshToken →
          r.revokedAt ≠ none ∧ r.revokedReason ≠ some .rotated ∨
            ∀ first now, [clock now, first] <:+ own i c.trace → r.expiresAt < now) →
          ∀ x ∈ c.trace, x.call = i → x.after = x.before
  kept : ∀ i refreshToken tokenRow, Rotated calls c.trace i refreshToken tokenRow →
    Kept c.world c.trace tokenRow

theorem PresentedInTime.found {db : AuthDb} {schedule : Schedule}
    (hempty : (db .refreshTokens).rows = []) {i j : Nat} {refreshToken : String}
    {tokenRow : RefreshToken} {during before : List AuthEntry}
    (hpresented : PresentedInTime i during before tokenRow.expiresAt)
    (htrace : (Auth.after cfg db calls schedule).trace = during ++ before)
    (hrotated : Rotated calls before j refreshToken tokenRow) {found : Option RefreshToken}
    (hfirst : [ran (findToken (hashToken refreshToken)) found] <:+ own i during)
    : ∃ r : RefreshToken,
        found = some r
          ∧
        r.identity = tokenRow.identity
          ∧
        r.revokedAt ≠ none
          ∧
        r.revokedReason = some .rotated := by
  have hhash : (tokenRow.tokenHash == hashToken refreshToken) = true := by
    have hread := (hrotated.mono (List.suffix_append during before)).found
    rw [← htrace] at hread
    exact found_where hread
  obtain ⟨d, z, hduring, hz⟩ : ∃ (d : List AuthEntry) (z : AuthEntry), during = d ++ [z] ∧
      ⟨z.effect, z.resp⟩ = ran (findToken (hashToken refreshToken)) found := by
    obtain ⟨newer, hmap⟩ := hfirst
    rw [own_eq_map hpresented.alone] at hmap
    obtain ⟨d, last, hsplit, _, hlast⟩ := List.map_eq_append_iff.mp hmap.symm
    obtain ⟨z, rfl, hz⟩ := List.map_eq_singleton_iff.mp hlast
    exact ⟨d, z, hsplit, hz⟩
  have hsplit : (Auth.after cfg db calls schedule).trace = d ++ z :: before := by
    rw [htrace, hduring, List.append_assoc, List.singleton_append]
  have hinv : ReplayInv calls z.before before :=
    (auth_induction_split (A := fun _ => True) (fun _ _ _ => trivial)
      (fun _ _ _ hx hinv => hinv.step hx) (.init hempty) schedule trivial hsplit).1
  rcases hinv.kept j refreshToken tokenRow hrotated with ⟨r, hr, hidentity, hmarked⟩ | hexpired
  . refine ⟨r, ?_, hidentity, hmarked⟩
    obtain ⟨choice, hchoice⟩ := (step_of_split hsplit).found hz
    rw [hchoice]
    have hwhere : (r.tokenHash == hashToken refreshToken) = true := by
      rw [tokenHash_of_tokenIdentity hidentity]
      exact hhash
    refine Table.first_eq_of_unique hr hwhere fun r' hr' hwhere' => ?_
    refine Table.eq_of_clash hr' hr (beq_iff_eq.mpr ?_)
    rw [eq_of_beq hwhere', eq_of_beq hwhere]
  . obtain ⟨y, hy, now, hread, hlt⟩ := hexpired
    exact absurd hlt (Int.not_lt.mpr (hpresented.past y hy now hread))

theorem PresentedInTime.revokes {db : AuthDb} {schedule : Schedule}
    (hempty : (db .refreshTokens).rows = []) {i j : Nat} {refreshToken : String}
    {tokenRow : RefreshToken} {during before : List AuthEntry}
    (hpresented : PresentedInTime i during before tokenRow.expiresAt)
    (hcall : calls[i]? = some (.refresh refreshToken))
    (htrace : (Auth.after cfg db calls schedule).trace = during ++ before)
    (hrotated : Rotated calls before j refreshToken tokenRow) {result : Except HttpError Reply}
    (hended : (Auth.after cfg db calls schedule).pool i = .ofExcept result)
    (hresult : ∀ e, result ≠ .error (.database e)) {r' : RefreshToken}
    (hr' : r' ∈ ((Auth.after cfg db calls schedule).world .refreshTokens).rows)
    (huser : r'.userId = tokenRow.userId)
    : r'.revokedAt ≠ none := by
  have hends := ended result (refresh_ends refreshToken) hcall hended hresult
  rw [htrace, own_append, own_eq_nil hpresented.unstarted, List.append_nil] at hends
  have hfound : ∀ found, [ran (findToken (hashToken refreshToken)) found] <:+ own i during → _ :=
    fun found hfirst => hpresented.found hempty htrace hrotated hfirst
  cases hends with
  | unknown hhistory =>
    obtain ⟨r, hr, _⟩ := hfound none (by simp only [hhistory, List.suffix_refl])
    simp at hr
  | expired hhistory hexpired =>
    rename_i row now
    obtain ⟨r, hr, hidentity, _⟩ := hfound (some row) (by simp only [hhistory, List.suffix_cons])
    rw [Option.some.injEq] at hr
    subst hr
    have hcheck := hpresented.check (ran (findToken (hashToken refreshToken)) (some row)) now
      (by simp only [hhistory, List.suffix_refl])
    rw [expiresAt_of_tokenIdentity hidentity] at hexpired
    exact absurd hexpired (Int.not_lt.mpr hcheck)
  | revoked hhistory hother =>
    rename_i row now
    obtain ⟨r, hr, _, _, hreason⟩ := hfound (some row) (by simp only [hhistory, List.suffix_cons])
    rw [Option.some.injEq] at hr
    subst hr
    exact absurd hreason hother
  | replayed hhistory =>
    rename_i row now now' affected
    have hsuffix : [ran (findToken (hashToken refreshToken)) (some row)] <:+ own i during := by
      rw [hhistory]
      exact List.suffix_append [_, _, _] _
    obtain ⟨r, hr, hidentity, _⟩ := hfound (some row) hsuffix
    rw [Option.some.injEq] at hr
    subst hr
    rw [own_eq_map hpresented.alone] at hhistory
    obtain ⟨x, earlier, hduring, hran, _⟩ := List.map_eq_cons_iff.mp hhistory
    have hsplit : (Auth.after cfg db calls schedule).trace = x :: (earlier ++ before) := by
      rw [htrace, hduring, List.cons_append]
    -- the revocation is the last thing that has happened
    have hworld : (Auth.after cfg db calls schedule).world = x.after :=
      Config.world_of_trace rfl hsplit
    obtain ⟨_, _, hrows⟩ := (@step_of_split _ cfg calls db schedule [] _ x hsplit).updated hran
    rw [hworld, hrows, List.mem_map] at hr'
    obtain ⟨r, _, rfl⟩ := hr'
    split
    . simp
    . next hunmatched =>
      rw [if_neg hunmatched, ← userId_of_tokenIdentity hidentity] at huser
      intro hactive
      simp [hactive, TokenCriteria.covers, huser] at hunmatched
  | active hhistory hactive =>
    rename_i row now
    obtain ⟨r, hr, _, hrevoked, _⟩ := hfound (some row) ((List.suffix_cons _ _).trans hhistory)
    rw [Option.some.injEq] at hr
    subst hr
    exact absurd hactive hrevoked
theorem eq_of_useless {db : AuthDb} {schedule : Schedule} {i : Nat} {refreshToken : String}
    {later earlier : List AuthEntry} {x y : AuthEntry}
    (hcall : calls[i]? = some (.refresh refreshToken))
    (htrace : (Auth.after cfg db calls schedule).trace = later ++ y :: earlier) (hi : y.call = i)
    (hfirst : own i earlier = [])
    (huseless : ∀ r ∈ (y.before .refreshTokens).rows, r.tokenHash = hashToken refreshToken →
      r.revokedAt ≠ none ∧ r.revokedReason ≠ some .rotated ∨
        ∀ first now, [clock now, first] <:+ own i (Auth.after cfg db calls schedule).trace →
          r.expiresAt < now)
    (hx : x ∈ (Auth.after cfg db calls schedule).trace) (hxi : x.call = i)
    : x.after = x.before := by
  obtain ⟨later', earlier', hsplit⟩ := List.append_of_mem hx
  have hstep : Step calls earlier' x := step_of_split hsplit
  funext table
  rcases hstep.table_cases table with hsame | ⟨call, s, a, e, hcall', hran, hissues, _, _, hread⟩
  . exact hsame
  . exfalso
    rw [hxi, hcall, Option.some.injEq] at hcall'
    subst hcall'
    rw [hxi] at hissues
    obtain ⟨tokenRow, ⟨now, hhistory, hunexpired⟩, husable⟩ := hissues.presented hread
    have hown : [clock now, ran (findToken (hashToken refreshToken)) (some tokenRow)] <:+
        own i (Auth.after cfg db calls schedule).trace := by
      refine hhistory.trans (own_suffix ?_)
      rw [hsplit]
      exact (List.suffix_cons _ _).trans (List.suffix_append _ _)
    have hown' : [⟨y.effect, y.resp⟩] <:+ own i (Auth.after cfg db calls schedule).trace := by
      have hsuffix : own i (y :: earlier) <:+ own i (Auth.after cfg db calls schedule).trace := by
        rw [htrace]
        exact own_suffix (List.suffix_append _ _)
      subst hi
      rwa [own_cons_self, hfirst] at hsuffix
    -- the first thing the call has done is to look the refresh token up
    have hlookup : ⟨y.effect, y.resp⟩ = ran (findToken (hashToken refreshToken)) (some tokenRow) := by
      have hlast := List.suffix_of_suffix_length_le hown' hown (by simp)
      rcases List.suffix_cons_iff.mp hlast with heq | hlast
      . simp at heq
      . simpa using List.IsSuffix.eq_of_length hlast rfl
    obtain ⟨hmem, hwhere⟩ := (step_of_split htrace).found_mem hlookup
    rcases huseless tokenRow hmem (eq_of_beq hwhere) with ⟨hrevoked, hreason⟩ | hexpired
    . rcases husable with hactive | hrotated
      . exact hrevoked hactive
      . exact hreason hrotated
    . exact hunexpired (hexpired _ now hown)

/--
A refresh token that is presented alone either has been rotated, and its session ends, or has no effect.
-/
theorem detectsReplay {db : AuthDb} {schedule : Schedule} (hempty : (db .refreshTokens).rows = [])
    : DetectsReplay calls (Auth.after cfg db calls schedule) where
  replayed := by
    intro i j refreshToken tokenRow during before result hcall htrace hrotated hpresented hended hresult r hr
      huser
    exact hpresented.revokes hempty hcall htrace hrotated hended hresult hr huser
  harmless := by
    intro i refreshToken later earlier y hcall htrace hi hfirst huseless x hx hxi
    exact eq_of_useless hcall htrace hi hfirst huseless hx hxi
  kept := (replayInv hempty).kept

end

section Runs

open Sample

attribute [local instance] platform

/--
A login, a refresh of its session, and the same refresh token presented again.
-/
def replayCalls : List Call :=
  refreshCalls ++ [.refresh "bbbb"]

def replayedOnce : Schedule :=
  schedule (List.replicate 10 0 ++ List.replicate 12 1 ++ List.replicate 4 2)

theorem detectsReplay_replayedOnce
    : DetectsReplay replayCalls (Auth.after config (db ann) replayCalls replayedOnce) :=
  detectsReplay rfl

end Runs

end Kerghan
