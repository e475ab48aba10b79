import Kerghan.Auth.Lemmas.Tokens

/-!
This module contains the proof that revoking the other sessions of a user spares the session whose
refresh token has been presented, whatever other calls do in the meantime.
-/

namespace Kerghan

variable [Platform] {cfg : AuthConfig} {calls : List Call} {t : List AuthEntry} {x : AuthEntry}
variable {userId : Nat} {refreshToken : Option String}

def PresentedRow (refreshToken : Option String) (row : RefreshToken) (h : AuthHistory) : Prop :=
  ∃ token, truthy refreshToken = some token ∧ ran (findToken (hashToken token)) (some row) ∈ h

abbrev otherSessions (userId : Nat) (sessionUuid : String) : TokenCriteria where
  userId := some userId
  notSessionUuid := some sessionUuid

/--
What `revokeOthers` has read before it revokes: the refresh token that has been presented is the user's
and was unrevoked and unexpired.
-/
inductive OthersChosen (userId : Nat) (refreshToken : Option String) (row : RefreshToken)
    : AuthHistory → Prop where
  | chosen {token : String} {checked now : Date} (htoken : truthy refreshToken = some token)
    (huser : row.userId = userId) (hactive : row.revokedAt = none) (hunexpired : row.expiresAt > checked)
    : OthersChosen userId refreshToken row
        [clock now, clock checked, ran (findToken (hashToken token)) (some row)]

/--
The only statement of `revokeOthers` that writes.
-/
inductive OthersWrite (userId : Nat) (refreshToken : Option String) (h : AuthHistory)
    : AuthEffect → Prop where
  | revoke {row : RefreshToken} {now : Date} (hchosen : OthersChosen userId refreshToken row h)
    : OthersWrite userId refreshToken h
        (.db (revokeTokens (otherSessions userId row.sessionUuid) now .userRevoked))

/--
The step `x` has revoked the sessions of the user other than that of `row`.
-/
structure RevokedOthers (t : List AuthEntry) (x : AuthEntry) (userId : Nat)
    (refreshToken : Option String) (row : RefreshToken) : Prop where
  chosen : OthersChosen userId refreshToken row (own x.call t)
  revoked : ∃ now, ∃ (affected : Nat), ⟨x.effect, x.resp⟩ =
    ran (revokeTokens (otherSessions userId row.sessionUuid) now .userRevoked) affected

theorem OthersChosen.presented {row : RefreshToken} {h : AuthHistory}
    (hchosen : OthersChosen userId refreshToken row h)
    : PresentedRow refreshToken row h ∧ row.userId = userId ∧ row.revokedAt = none := by
  cases hchosen with
  | chosen htoken huser hactive hunexpired => exact ⟨⟨_, htoken, by simp⟩, huser, hactive⟩

theorem OthersChosen.unique {row row' : RefreshToken} {h : AuthHistory}
    (hchosen : OthersChosen userId refreshToken row h) (hpresented : PresentedRow refreshToken row' h)
    : row' = row := by
  cases hchosen with
  | chosen htoken huser hactive hunexpired =>
    obtain ⟨token', _, hmem⟩ := hpresented
    simp only [List.mem_cons, List.not_mem_nil, or_false] at hmem
    rcases hmem with hclock | hclock | hfind
    . simp at hclock
    . simp at hclock
    . simpa using answer_of_ran_eq hfind

namespace SessionService

/--
What has been revoked once the call has ended: nothing if it throws, and the other sessions if it
returns.
-/
def RevokesOthers {α : Type} (userId : Nat) (refreshToken : Option String) (h : AuthHistory)
    (r : Except HttpError α) : Prop :=
  match r with
  | .ok _ => ∃ row now older, ∃ (affected : Nat),
    h = ran (revokeTokens (otherSessions userId row.sessionUuid) now .userRevoked) affected :: older ∧
      OthersChosen userId refreshToken row older
  | .error _ => ∀ ev ∈ h, isWrite ev = false

theorem revokeOthers_chooses
    : (revokeOthers userId refreshToken).Meets Answers
        (fun h s => s.writes = true → OthersWrite userId refreshToken h s)
        (RevokesOthers userId refreshToken) [] := by
  unfold revokeOthers findPresented
  cases htoken : truthy refreshToken with
  | none => simp [RevokesOthers]
  | some token =>
    rw [Api.meets_query]
    refine ⟨by simp, fun found _ => ?_, by simp [RevokesOthers]⟩
    cases found with
    | none => simp [RevokesOthers]
    | some row =>
      dsimp only
      unfold isActiveOwnToken
      split
      . simp [RevokesOthers]
      . next hown =>
        rw [Prog.bind_assoc, Api.meets_now]
        refine ⟨by simp, fun checked => ?_⟩
        rw [Prog.pure_bind]
        split
        . next hunexpired =>
          have hchosen : ∀ now, OthersChosen userId refreshToken row
              [clock now, clock checked, ran (findToken (hashToken token)) (some row)] := by
            intro now
            simp only [Bool.or_eq_true, decide_eq_true_eq, not_or, not_not, Bool.not_eq_true,
              Option.isSome_eq_false_iff, Option.isNone_iff_eq_none] at hown
            exact .chosen htoken hown.1 hown.2 (by simpa using hunexpired)
          rw [Api.meets_now]
          refine ⟨by simp, fun now => ?_⟩
          rw [Api.meets_query]
          refine ⟨fun _ => .revoke (hchosen now), fun affected _ => ?_, by simp [RevokesOthers]⟩
          exact ⟨row, now, _, affected, rfl, hchosen now⟩
        . simp [RevokesOthers]

end SessionService

theorem Call.prog_revokesOthers
    : ((Call.revokeOthers userId refreshToken).prog cfg).Meets Answers (fun _ _ => True)
        (SessionService.RevokesOthers userId refreshToken) [] := by
  apply (SessionService.revokeOthers_chooses.imp fun _ _ _ => trivial).map
  . exact fun _ _ hrevokes => hrevokes
  . exact fun _ _ hunwritten => hunwritten

/--
What a call that revokes other sessions may do next. Nothing is said about the calls of other kinds.
-/
def ChoosesOthers (call : Call) (h : AuthHistory) (s : AuthEffect) : Prop :=
  ∀ userId refreshToken, call = .revokeOthers userId refreshToken → s.writes = true →
    OthersWrite userId refreshToken h s

theorem Call.prog_chooses (call : Call)
    : (call.prog cfg).Meets Answers (ChoosesOthers call) Anyhow [] := by
  by_cases hcall : ∃ userId refreshToken, call = .revokeOthers userId refreshToken
  . obtain ⟨userId, refreshToken, rfl⟩ := hcall
    apply (SessionService.revokeOthers_chooses.imp ?_).map
    . exact fun _ _ _ => trivial
    . exact fun _ _ _ => trivial
    . intro h s hwrite userId' refreshToken' heq
      cases heq
      exact hwrite
  . apply (prog_meets cfg call).mono (fun _ _ _ _ => trivial) |>.imp
    intro h s _ userId refreshToken heq
    exact absurd ⟨userId, refreshToken, heq⟩ hcall

theorem revokedOthers_of_split {db : AuthDb} {schedule : Schedule} {later earlier : List AuthEntry}
    (htrace : (Auth.after cfg db calls schedule).trace = later ++ x :: earlier)
    (hcall : calls[x.call]? = some (.revokeOthers userId refreshToken))
    : x.after = x.before ∨ ∃ row, RevokedOthers earlier x userId refreshToken row := by
  rcases (step_of_split htrace).changed with hsame | ⟨s, a, hran, hread⟩
  . exact Or.inl hsame
  . right
    obtain ⟨call, hcall', hchooses⟩ := (Config.performs_of_split answers_exec
      (start_meets_of Call.prog_chooses db calls) rfl schedule htrace).allowed
    rw [hcall, Option.some.injEq] at hcall'
    subst hcall'
    have heffect : x.effect = .db s := congrArg Sigma.fst hran
    have hwrite := hchooses userId refreshToken rfl (by simp only [heffect, AuthEffect.writes, hread, Bool.not_false])
    rw [heffect] at hwrite
    cases hwrite with
    | revoke hchosen => exact ⟨_, hchosen, _, a, hran⟩

structure OthersRevoked (calls : List Call) (c : Auth) : Prop where
  /-- No row of another user and no row of the presented session is touched. -/
  spared : ∀ later x earlier userId refreshToken, c.trace = later ++ x :: earlier →
    calls[x.call]? = some (.revokeOthers userId refreshToken) →
      ∀ r ∈ (x.before .refreshTokens).rows,
        (r.userId ≠ userId ∨ ∃ row, PresentedRow refreshToken row (own x.call earlier) ∧
          sameText r.sessionUuid row.sessionUuid = true) →
            r ∈ (x.after .refreshTokens).rows
  unchanged : ∀ i userId refreshToken e, calls[i]? = some (.revokeOthers userId refreshToken) →
    c.pool i = .throw e → ∀ x ∈ c.trace, x.call = i → x.after = x.before
  /-- The last step of the call leaves no other session, and it leaves the presented session as it was
  found if no other call has moved since. -/
  remaining : ∀ i userId refreshToken reply, calls[i]? = some (.revokeOthers userId refreshToken) →
    c.pool i = .pure reply →
      ∃ later x earlier row,
        c.trace = later ++ x :: earlier
          ∧
        x.call = i
          ∧
        own i later = []
          ∧
        PresentedRow refreshToken row (own i earlier)
          ∧
        (∀ r ∈ (x.after .refreshTokens).rows, r.userId = userId → r.revokedAt = none →
          sameText r.sessionUuid row.sessionUuid = true)
          ∧
        row.userId = userId
          ∧
        row.revokedAt = none
          ∧
        ∀ during before, earlier = during ++ before → own i before = [] →
          (∀ y ∈ during, y.call = i) → row ∈ (x.after .refreshTokens).rows

section Revoked

variable {row : RefreshToken}

theorem RevokedOthers.spared (hx : Step calls t x) (hrevoked : RevokedOthers t x userId refreshToken row)
    {r : RefreshToken} (hr : r ∈ (x.before .refreshTokens).rows)
    (hspared : r.userId ≠ userId ∨ sameText r.sessionUuid row.sessionUuid = true)
    : r ∈ (x.after .refreshTokens).rows := by
  obtain ⟨now, affected, hran⟩ := hrevoked.revoked
  obtain ⟨now', _, hrows⟩ := hx.updated hran
  have hcovers : (otherSessions userId row.sessionUuid).covers r = false := by
    rcases hspared with huser | hsession
    . simp [TokenCriteria.covers, huser]
    . simp [TokenCriteria.covers, hsession]
  rw [hrows]
  apply List.mem_map.mpr
  refine ⟨r, hr, ?_⟩
  rw [hcovers, Bool.and_false, if_neg Bool.false_ne_true]

theorem RevokedOthers.only (hx : Step calls t x) (hrevoked : RevokedOthers t x userId refreshToken row)
    {r' : RefreshToken} (hr' : r' ∈ (x.after .refreshTokens).rows) (huser : r'.userId = userId)
    (hactive : r'.revokedAt = none)
    : sameText r'.sessionUuid row.sessionUuid = true := by
  obtain ⟨now, affected, hran⟩ := hrevoked.revoked
  obtain ⟨now', _, hrows⟩ := hx.updated hran
  rw [hrows] at hr'
  obtain ⟨r, _, rfl⟩ := List.mem_map.mp hr'
  split at hactive
  . simp at hactive
  . next hkept =>
    rw [if_neg hkept] at huser ⊢
    simpa [hactive, TokenCriteria.covers, huser] using hkept

end Revoked

/--
If no other call has moved since the refresh token has been looked up, its row is still there.
-/
theorem OthersChosen.still_there {db : AuthDb} {schedule : Schedule}
    {later during before : List AuthEntry} {row : RefreshToken}
    (htrace : (Auth.after cfg db calls schedule).trace = later ++ x :: (during ++ before))
    (hchosen : OthersChosen userId refreshToken row (own x.call (during ++ before)))
    (hbefore : own x.call before = []) (halone : ∀ y ∈ during, y.call = x.call)
    : row ∈ (x.before .refreshTokens).rows := by
  rw [own_append, hbefore, List.append_nil, own_eq_map halone] at hchosen
  generalize hhistory : during.map (fun y => (⟨y.effect, y.resp⟩ : (s : AuthEffect) × AuthAnswer s)) = h
    at hchosen
  cases hchosen with
  | chosen htoken huser hactive hunexpired =>
    obtain ⟨z₁, d₁, rfl, hclock, hhistory⟩ := List.map_eq_cons_iff.mp hhistory
    obtain ⟨z₂, d₂, rfl, hclock', hhistory⟩ := List.map_eq_cons_iff.mp hhistory
    obtain ⟨y, rfl, hfind⟩ := List.map_eq_singleton_iff.mp hhistory
    have htrace' : (Auth.after cfg db calls schedule).trace = later ++ x :: ([z₁, z₂] ++ y :: before) := by
      simp [htrace]
    have hy : (Auth.after cfg db calls schedule).trace = (later ++ [x, z₁, z₂]) ++ y :: before := by
      simp [htrace]
    have hz₁ : (Auth.after cfg db calls schedule).trace = (later ++ [x]) ++ z₁ :: z₂ :: y :: before := by
      simp [htrace]
    have hz₂ : (Auth.after cfg db calls schedule).trace = (later ++ [x, z₁]) ++ z₂ :: y :: before := by
      simp [htrace]
    have hread : y.after = y.before := (step_of_split hy).unchanged (by simp [hfind])
    have h₁ : z₁.after = z₁.before := (step_of_split hz₁).unchanged (by simp [hclock])
    have h₂ : z₂.after = z₂.before := (step_of_split hz₂).unchanged (by simp [hclock'])
    have hsame : y.after = x.before := by
      apply Config.rel_between (fun _ => rfl) Eq.trans rfl htrace'
      simp [h₁, h₂]
    rw [← hsame, hread]
    exact ((step_of_split hy).found_mem hfind).1

theorem othersRevoked {db : AuthDb} {schedule : Schedule}
    : OthersRevoked calls (Auth.after cfg db calls schedule) where
  spared := by
    intro later x earlier userId refreshToken htrace hcall r hr hspared
    rcases revokedOthers_of_split htrace hcall with hsame | ⟨row, hrevoked⟩
    . rw [hsame]
      exact hr
    . apply hrevoked.spared (step_of_split htrace) hr
      apply hspared.imp_right
      rintro ⟨row', hpresented, hsession⟩
      rwa [hrevoked.chosen.unique hpresented] at hsession
  unchanged := by
    intro i userId refreshToken e hcall hthrown x hx hi
    have hended : SessionService.RevokesOthers userId refreshToken _ (.error e : Except HttpError Reply) :=
      ended (.error e) Call.prog_revokesOthers hcall hthrown
    obtain ⟨later, earlier, htrace⟩ := List.append_of_mem hx
    exact (step_of_split htrace).unchanged (hended _ (mem_own.mpr ⟨x, hx, hi, rfl⟩))
  remaining := by
    intro i userId refreshToken reply hcall hreturned
    obtain ⟨row, now, older, affected, hhistory, hchosen⟩ :
        SessionService.RevokesOthers userId refreshToken _ (.ok reply : Except HttpError Reply) :=
      ended (.ok reply) Call.prog_revokesOthers hcall hreturned
    obtain ⟨hpresented, huser, hactive⟩ := hchosen.presented
    obtain ⟨later, x, earlier, htrace, hi, hran, hlater, hearlier⟩ :=
      split_of_own_eq (hhistory.trans (List.nil_append _).symm)
    subst hi
    rw [← hearlier] at hchosen hpresented
    have hx : Step calls earlier x := step_of_split htrace
    have hrevoked : RevokedOthers earlier x userId refreshToken row := ⟨hchosen, now, affected, hran⟩
    refine ⟨later, x, earlier, row, htrace, rfl, hlater, hpresented, ?_, huser, hactive, ?_⟩
    . exact fun r hr => hrevoked.only hx hr
    . intro during before hsplit hbefore halone
      subst hsplit
      apply hrevoked.spared hx
      . exact hchosen.still_there htrace hbefore halone
      . exact Or.inr sameText_refl

end Kerghan
