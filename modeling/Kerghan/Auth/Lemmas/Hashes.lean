import Kerghan.Auth.Lemmas.Resets
import Kerghan.Auth.Lemmas.Tokens

/-!
This module contains the proof that a refresh token is known by its hash.
-/

namespace Kerghan

variable [Platform] {cfg : AuthConfig} {calls : List Call} {t : List AuthEntry} {x y : AuthEntry}

theorem StoresToken.unique {r r' : RefreshToken} (h : StoresToken y r) (h' : StoresToken y r')
    : r = r' := by
  obtain ⟨_, _, _, _, _, hran⟩ := h
  obtain ⟨_, _, _, _, _, hran'⟩ := h'
  have hanswer := (Sigma.mk.inj (hran.symm.trans hran')).2
  exact Except.ok.inj (eq_of_heq hanswer)

section Insert

variable {tokenHash : String} {userId : Nat} {expiresAt : Date} {keepSignedIn : Bool}
variable {identity : SessionIdentity}

theorem Step.insertsToken (hx : Step calls t x)
    (h : x.effect = .db (insertToken tokenHash userId expiresAt keepSignedIn identity))
    : Unfinished (own x.call t)
        ∧
      ∃ drawn, ⟨.randomBytes, drawn⟩ ∈ own x.call t ∧ tokenHash = hashToken drawn := by
  obtain ⟨call, _, hissues⟩ := hx.issues
  rw [h] at hissues
  obtain ⟨s, hs, hissues'⟩ : ∃ s, s = insertToken tokenHash userId expiresAt keepSignedIn identity ∧
      Issues call (own x.call t) (.db s) := ⟨_, rfl, hissues⟩
  have hwrite := hissues'.write (by simp [hs])
  simp only [show s.table = .refreshTokens by simp [hs]] at hwrite
  cases hwrite with
  | insert hhistory hmints hunfinished hexpires hbytes hnew hcontinued =>
    simp only [Stmt.insert.injEq, heq_eq_eq, true_and] at hs
    have hsame := congrArg (fun r : RefreshToken => r.tokenHash) (congrFun (congrFun hs 0) 0)
    refine ⟨hunfinished, _, ?_, hsame.symm⟩
    rw [hhistory]
    exact List.mem_append_left _ hbytes
  | _ => simp at hs

theorem StoresToken.effect {r : RefreshToken} (hx : Step calls t x) (h : StoresToken x r)
    : ∃ userId expiresAt keepSignedIn identity,
        x.effect = .db (insertToken r.tokenHash userId expiresAt keepSignedIn identity) := by
  obtain ⟨tokenHash, userId, expiresAt, keepSignedIn, identity, hran⟩ := h
  obtain ⟨_, hrow, _⟩ := hx.inserted hran
  have hhash : r.tokenHash = tokenHash := congrArg (fun r : RefreshToken => r.tokenHash) hrow
  rw [hhash]
  exact ⟨userId, expiresAt, keepSignedIn, identity, congrArg Sigma.fst hran⟩

section Run

variable {db : AuthDb} {schedule : Schedule} {later earlier : List AuthEntry} {r r' : RefreshToken}
variable (hfresh : FreshTokens (Auth.after cfg db calls schedule).trace)

include hfresh

theorem tokenHash_ne_of_earlier
    (htrace : (Auth.after cfg db calls schedule).trace = later ++ x :: earlier)
    (h : x.effect = .db (insertToken tokenHash userId expiresAt keepSignedIn identity))
    (hy : y ∈ earlier) (h' : StoresToken y r')
    : tokenHash ≠ r'.tokenHash := by
  intro hhash
  obtain ⟨between, before, rfl⟩ := List.append_of_mem hy
  have htrace' : (Auth.after cfg db calls schedule).trace =
      (later ++ x :: between) ++ y :: before := by
    rw [htrace, List.append_assoc, List.cons_append]
  obtain ⟨hunfinished, drawn, hdrawn, heq⟩ := (step_of_split htrace).insertsToken h
  obtain ⟨_, _, _, _, heffect⟩ := h'.effect (step_of_split htrace')
  obtain ⟨_, drawn', hdrawn', heq'⟩ := (step_of_split htrace').insertsToken heffect
  have hbefore : ∀ i, own i (between ++ y :: before) <:+ own i (Auth.after cfg db calls schedule).trace := by
    intro i
    rw [htrace]
    exact own_suffix ((List.suffix_cons _ _).trans (List.suffix_append _ _))
  have hearlier : own y.call before <:+ own y.call (between ++ y :: before) :=
    own_suffix ((List.suffix_cons _ _).trans (List.suffix_append _ _))
  have hcall : x.call = y.call :=
    hfresh.call_eq ((hbefore _).subset hdrawn) ((hbefore _).subset (hearlier.subset hdrawn'))
      (heq.symm.trans (hhash.trans heq'))
  obtain ⟨_, _, _, _, _, hinsert⟩ := h'
  have hstored := hunfinished _ (mem_own.mpr ⟨y, hy, hcall.symm, hinsert⟩)
  simp at hstored

theorem session_of_tokenHash (h : Minted (Auth.after cfg db calls schedule).trace r)
    (h' : Minted (Auth.after cfg db calls schedule).trace r') (hhash : r.tokenHash = r'.tokenHash)
    : r.sessionUuid = r'.sessionUuid := by
  obtain ⟨y, hy, hstores⟩ := h
  obtain ⟨y', hy', hstores'⟩ := h'
  obtain ⟨later, earlier, htrace⟩ := List.append_of_mem hy
  rw [htrace, List.mem_append, List.mem_cons] at hy'
  rcases hy' with hlater | rfl | hearlier
  . obtain ⟨after, between, rfl⟩ := List.append_of_mem hlater
    have htrace' : (Auth.after cfg db calls schedule).trace =
        after ++ y' :: (between ++ y :: earlier) := by
      rw [htrace, List.append_assoc, List.cons_append]
    obtain ⟨_, _, _, _, heffect⟩ := hstores'.effect (step_of_split htrace')
    have hne := tokenHash_ne_of_earlier hfresh htrace' heffect
      (List.mem_append_right _ (List.mem_cons_self ..)) hstores
    exact absurd hhash.symm hne
  . exact sessionUuid_of_tokenIdentity (hstores.unique hstores')
  . obtain ⟨_, _, _, _, heffect⟩ := hstores.effect (step_of_split htrace)
    have hne := tokenHash_ne_of_earlier hfresh htrace heffect hearlier hstores'
    exact absurd hhash hne

end Run

end Insert

end Kerghan
