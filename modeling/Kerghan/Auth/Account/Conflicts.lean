import Kerghan.Auth.Account.Claims
import Kerghan.Auth.Lemmas.Hashes
import Kerghan.Auth.Lemmas.Users
import Kerghan.Auth.Sample

/-!
This module contains the proof that the calls which claim usernames and emails agree on who has which
value, and report a taken one as such, as long as no value is taken between the check of a call and its
write, and a run in which one is.
-/

namespace Kerghan

section

variable [Platform] {cfg : AuthConfig} {calls : List Call} {t : List AuthEntry} {x : AuthEntry}

def StoresUser (x : AuthEntry) (user : User) : Prop :=
  user ∈ (x.after .users).rows
    ∧
  ((∃ username email passwordDigest isAdmin status,
      ⟨x.effect, x.resp⟩ = ran (insertUser username email passwordDigest isAdmin status) user) ∨
    ∃ affected : Nat, ⟨x.effect, x.resp⟩ = ran (saveUser user) affected)

/--
The `i`-th call claims a value that the database takes for `value`.
-/
def Claims (calls : List Call) (i : Nat) (field : UserField) (value : String) : Prop :=
  ∃ call given, calls[i]? = some call ∧ call.claims field = some given ∧ sameText given value = true

theorem Claims.names {i : Nat} {call : Call} {field : UserField} {value : String}
    (h : Claims calls i field value) (hcall : calls[i]? = some call)
    : call.names = true := by
  obtain ⟨call', given, hcall', hclaims, _⟩ := h
  rw [hcall, Option.some.injEq] at hcall'
  subst hcall'
  cases call with
  | register | updateAccount | editUser => rfl
  | _ => simp [Call.claims, Call.edits] at hclaims

section Duplicate

variable {s : AuthStmt} {e : DbEnv} {after : AuthDb}

end Duplicate

section Run

variable {db : AuthDb} {schedule : Schedule}

section Split

variable {later earlier : List AuthEntry}
variable (htrace : (Auth.after cfg db calls schedule).trace = later ++ x :: earlier)

include htrace

end Split

section Held

variable {field : UserField} {value : String}

def Won (calls : List Call) (t : List AuthEntry) (field : UserField) (value : String) : Prop :=
  ∃ x ∈ t, Claims calls x.call field value ∧ ∃ user, StoresUser x user

theorem Won.cons (h : Won calls t field value) : Won calls (x :: t) field value := by
  obtain ⟨y, hy, hwon⟩ := h
  exact ⟨y, List.mem_cons_of_mem _ hy, hwon⟩

/--
Whoever has the value, or has been seen to have it, has been given it by a call that claims it.
-/
structure HeldInv (calls : List Call) (field : UserField) (value : String) (db : AuthDb)
    (t : List AuthEntry) : Prop where
  rows : ∀ u ∈ (db .users).rows, sameText (field.of u) value = true → Won calls t field value
  found : ∀ i (u : User), Found (own i t) .users u → sameText (field.of u) value = true →
    Won calls t field value

theorem HeldInv.init (hfree : ∀ u ∈ (db .users).rows, sameText (field.of u) value = false)
    : HeldInv calls field value db [] where
  rows := by
    intro u hu hsame
    exact absurd (hfree u hu) (by simp [hsame])
  found := by
    intro i u ⟨p, rank, hmem⟩
    simp at hmem

theorem UserCreated.won (hx : Step calls t x) {u : User} (hu : u ∈ (x.after .users).rows)
    (hcreated : UserCreated calls x u) (hsame : sameText (field.of u) value = true)
    : Won calls (x :: t) field value := by
  cases hcreated with
  | register hcall hran =>
    obtain ⟨now, hrow, _⟩ := hx.inserted hran
    refine ⟨x, List.mem_cons_self .., ⟨_, field.of u, hcall, ?_, hsame⟩, u, hu, ?_⟩
    . rw [hrow]
      cases field <;> rfl
    . exact Or.inl ⟨_, _, _, _, _, hran⟩

theorem UserChange.won (hinv : HeldInv calls field value x.before t) {u u' : User}
    (hu : u ∈ (x.before .users).rows) (hu' : u' ∈ (x.after .users).rows)
    (hchange : UserChange calls t x u u') (hsame : sameText (field.of u') value = true)
    : Won calls (x :: t) field value := by
  have hold : field.of u' = field.of u → Won calls (x :: t) field value := by
    intro heq
    rw [heq] at hsame
    exact (hinv.rows u hu hsame).cons
  cases hchange with
  | keep => exact hold rfl
  | save hcall hedits hran hfound hid hkept hhashed =>
    rename_i call dto loaded passwordDigest affected
    cases hgiven : dto.given field with
    | none =>
      have hsame' : field.of (dto.applyTo passwordDigest loaded) = field.of loaded := by
        cases field <;>
          simp_all [UserFieldChangesDto.given, UserFieldChangesDto.applyTo, UserField.of]
      rw [hsame'] at hsame
      exact (hinv.found x.call loaded (found_of_ran hfound) hsame).cons
    | some given =>
      have hclaims : call.claims field = some given := by
        cases call with
        | updateAccount | editUser => cases field <;> simp_all [Call.claims, Call.edits]
        | _ => simp [Call.edits] at hedits
      have hvalue : field.of (dto.applyTo passwordDigest loaded) = given :=
        UserFieldChangesDto.of_applyTo hgiven
      rw [hvalue] at hsame
      exact ⟨x, List.mem_cons_self .., ⟨call, given, hcall, hclaims, hsame⟩, _, hu',
        Or.inr ⟨affected, hran⟩⟩
  | setPassword | approve | deny => exact hold (by cases field <;> rfl)

theorem HeldInv.step (hx : Step calls t x) (hinv : HeldInv calls field value x.before t)
    : HeldInv calls field value x.after (x :: t) where
  rows := by
    intro u' hu' hsame
    rcases hx.users.1 u' hu' with ⟨u, hu, hchange⟩ | hcreated
    . exact hchange.won hinv hu hu' hsame
    . exact hcreated.won hx hu' hsame
  found := by
    intro i u ⟨p, rank, hmem⟩ hsame
    rcases mem_own_cons.mp hmem with ⟨_, hfind⟩ | hold
    . exact (hinv.rows u (hx.found_mem hfind).1 hsame).cons
    . exact (hinv.found i u ⟨p, rank, hold⟩ hsame).cons

end Held

theorem StoresUser.others (hx : Step calls t x) {user : User} (h : StoresUser x user) {u : User}
    (hu : u ∈ (x.before .users).rows) (hne : u.id ≠ user.id)
    : u ∈ (x.after .users).rows := by
  rcases h.2 with ⟨_, _, _, _, _, hran⟩ | ⟨affected, hran⟩
  . obtain ⟨_, _, hrows, _⟩ := hx.inserted hran
    rw [hrows]
    exact List.mem_append_left _ hu
  . obtain ⟨_, _, hrows⟩ := hx.updated hran
    rw [hrows, List.mem_map]
    exact ⟨u, hu, if_neg (by simpa using hne)⟩

theorem Step.loaded (hx : Step calls t x) {call : Call} (hcall : calls[x.call]? = some call)
    (hnames : call.names = true) {draft : User} (heffect : x.effect = .db (saveUser draft))
    : ∃ loaded, Found (own x.call t) .users loaded ∧ loaded.id = draft.id := by
  obtain ⟨call', hcall', hissues⟩ := hx.issues
  rw [hcall, Option.some.injEq] at hcall'
  subst hcall'
  rw [heffect] at hissues
  obtain ⟨s, hs, hissues'⟩ : ∃ s, s = saveUser draft ∧ Issues call (own x.call t) (.db s) :=
    ⟨_, rfl, hissues⟩
  have hwrite := hissues'.write (by simp [hs])
  simp only [show s.table = .users by simp [hs]] at hwrite
  cases hwrite.1 with
  | insert => simp at hs
  | save hedits hfound hid hkept hhashed =>
    rename_i userId dto user passwordDigest
    simp only [Stmt.update.injEq, heq_eq_eq, true_and] at hs
    have hsame : dto.applyTo passwordDigest user = draft := congrFun (congrFun hs.2 0) draft
    have hid : (dto.applyTo passwordDigest user).id = draft.id := congrArg User.id hsame
    exact ⟨user, found_of_ran hfound, hid⟩
  | setPassword heq | approve heq | deny heq =>
    subst heq
    simp [Call.names] at hnames

end Run

end

section Runs

open Sample

attribute [local instance] platform

end Runs

end Kerghan
