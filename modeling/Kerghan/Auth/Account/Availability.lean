import Kerghan.Auth.Lemmas.Alone

/-!
This module contains the answer of a registration that has the database for itself: when it is refused,
and which of the two names it is refused for.
-/

namespace Kerghan

section

variable [Platform] {cfg : AuthConfig} {db db' : AuthDb} {dto : RegisterDto}

/--
A user has the name that a registration asks for, and `code` says which one of the two.
-/
inductive Taken (db : AuthDb) (dto : RegisterDto) : ErrorCode → Prop where
  | username {u : User} (hu : u ∈ (db .users).rows) (hsame : sameText u.username dto.username = true)
    : Taken db dto .usernameTaken
  | email {u : User} (hu : u ∈ (db .users).rows) (hsame : sameText u.email dto.email = true)
    : Taken db dto .emailTaken

/--
A registration is refused if and only if one of the names is taken, and the code of the refusal names
one that is. Only a failing lookup gets in the way.
-/
structure NamesConflict (cfg : AuthConfig) (db : AuthDb) (dto : RegisterDto) : Prop where
  refused : ∀ code message db',
    (AuthService.register cfg dto).Runs AuthEffect.exec db (.error (.conflict code message)) db' →
      Taken db dto code
  taken : ∀ code, Taken db dto code → ∀ result db',
    (AuthService.register cfg dto).Runs AuthEffect.exec db result db' →
      result = .error (.database .queryFailed) ∨
        ∃ code message, result = .error (.conflict code message)

/--
The row that decides about a registration, if the store makes this choice.
-/
abbrev existingUser (db : AuthDb) (dto : RegisterDto) (choice : Nat) : Option (AuthRow .users) :=
  (db .users).first (fun u => sameText u.username dto.username || sameText u.email dto.email)
    (fun _ => 0) choice

theorem AuthService.register_rest {passwordDigest : String} {status : UserStatus} {h : AuthHistory}
    : (do
        let user : User ← Api.query (insertUser dto.username dto.email passwordDigest false status)
        Api.emit (.userRegistered user.id user.username user.email)
        TokenService.issueTokens cfg user false none : Api AuthResult).Meets Answers
        (fun _ _ => True) OnlyDatabase h := by
  rw [Api.meets_query]
  refine ⟨trivial, fun user _ => ?_, by simp⟩
  rw [Api.meets_emit]
  exact ⟨trivial, TokenService.issueTokens_errors⟩

/--
The code and the message of a refusal because of this row.
-/
def refusalOf (dto : RegisterDto) (user : User) : HttpError :=
  if user.username = dto.username then
    .conflict .usernameTaken "username is not available"
  else
    .conflict .emailTaken "email is not available"

theorem AuthService.runs_register {result : Except HttpError AuthResult}
    (hruns : (AuthService.register cfg dto).Runs AuthEffect.exec db result db')
    : result = .error (.database .queryFailed)
        ∨
      (∃ choice user, existingUser db dto choice = some user ∧ result = .error (refusalOf dto user))
        ∨
      ((∃ choice, existingUser db dto choice = none) ∧ ∀ e, result = .error e → ∃ err, e = .database err) := by
  unfold register assertAvailable at hruns
  rw [Prog.bind_assoc, Api.runs_find_bind] at hruns
  rcases hruns with ⟨hfailed, _⟩ | ⟨choice, hrest⟩
  . exact Or.inl hfailed
  . right
    cases hfound : existingUser db dto choice with
    | none =>
      right
      unfold existingUser at hfound
      rw [hfound] at hrest
      refine ⟨⟨choice, hfound⟩, ?_⟩
      obtain ⟨e, hrest⟩ := Prog.runs_step.mp hrest
      obtain ⟨_, herrors⟩ := AuthService.register_rest.runs (h := []) answers_exec hrest
      exact herrors
    | some user =>
      left
      refine ⟨choice, user, hfound, ?_⟩
      unfold existingUser at hfound
      rw [hfound] at hrest
      unfold refusalOf
      dsimp only at hrest
      split at hrest
      . next hexact =>
        rw [if_pos hexact]
        exact (Prog.runs_throw.mp hrest).1
      . next hother =>
        rw [if_neg hother]
        exact (Prog.runs_throw.mp hrest).1

theorem AuthService.runs_refused {choice : Nat} {user : User}
    (hfound : existingUser db dto choice = some user)
    : (AuthService.register cfg dto).Runs AuthEffect.exec db (.error (refusalOf dto user)) db := by
  unfold register assertAvailable
  rw [Prog.bind_assoc, Api.runs_find_bind]
  refine Or.inr ⟨choice, ?_⟩
  unfold existingUser at hfound
  rw [hfound]
  unfold refusalOf
  dsimp only
  split
  . exact Prog.runs_throw.mpr ⟨rfl, rfl⟩
  . exact Prog.runs_throw.mpr ⟨rfl, rfl⟩

/--
A registration names the field that conflicts exactly if no user has the username in other letters, or
the email is taken as well.
-/
theorem namesConflict_iff
    : NamesConflict cfg db dto ↔
        (∀ u ∈ (db .users).rows, sameText u.username dto.username = true → u.username = dto.username) ∨
          ∃ u ∈ (db .users).rows, sameText u.email dto.email = true := by
  constructor
  . intro hnames
    by_cases hemail : ∃ u ∈ (db .users).rows, sameText u.email dto.email = true
    . exact Or.inr hemail
    . refine Or.inl fun u hu hsame => ?_
      have hhit : (sameText u.username dto.username || sameText u.email dto.email) = true := by
        rw [hsame, Bool.true_or]
      -- no other user matches, whichever row the store returns first
      have hunique : ∀ u' ∈ (db .users).rows,
          (sameText u'.username dto.username || sameText u'.email dto.email) = true → u' = u := by
        intro u' hu' hhit'
        have hsame' : sameText u'.username dto.username = true := by
          rcases (Bool.or_eq_true _ _).mp hhit' with hsame' | hsame'
          . exact hsame'
          . exact absurd ⟨u', hu', hsame'⟩ hemail
        apply Table.eq_of_clash hu' hu
        apply (Bool.or_eq_true _ _).mpr
        rw [sameText_comm] at hsame
        exact Or.inl (sameText_trans hsame' hsame)
      have hfound : existingUser db dto 0 = some u := Table.first_eq_of_unique hu hhit hunique
      by_contra hother
      have hruns : (AuthService.register cfg dto).Runs AuthEffect.exec db (.error (refusalOf dto u)) db :=
        AuthService.runs_refused hfound
      rw [refusalOf, if_neg hother] at hruns
      cases hnames.refused _ _ _ hruns with
      | email hu' hsame' => exact hemail ⟨_, hu', hsame'⟩
  . intro hexact
    constructor
    . intro code message db' hruns
      rcases AuthService.runs_register hruns with hfailed | ⟨choice, user, hfound, hrefused⟩ | ⟨_, herrors⟩
      . simp at hfailed
      . obtain ⟨hu, hhit⟩ := Table.first_eq_some hfound
        rw [Except.error.injEq, refusalOf] at hrefused
        split at hrefused
        . next husername =>
          cases hrefused
          exact .username hu (by rw [husername, sameText_refl])
        . next hother =>
          cases hrefused
          rcases (Bool.or_eq_true _ _).mp hhit with hsame | hsame
          . rcases hexact with hexact | ⟨u', hu', hsame'⟩
            . exact absurd (hexact user hu hsame) hother
            . exact .email hu' hsame'
          . exact .email hu hsame
      . obtain ⟨err, herr⟩ := herrors _ rfl
        simp at herr
    . intro code htaken result db' hruns
      rcases AuthService.runs_register hruns with hfailed | ⟨choice, user, hfound, hrefused⟩ | ⟨⟨choice, hnone⟩, _⟩
      . exact Or.inl hfailed
      . right
        rw [hrefused, refusalOf]
        split
        . exact ⟨_, _, rfl⟩
        . exact ⟨_, _, rfl⟩
      . cases htaken with
        | username hu hsame => exact absurd hnone (Table.first_ne_none hu (by simp [hsame]))
        | email hu hsame => exact absurd hnone (Table.first_ne_none hu (by simp [hsame]))

end

section Runs

open Sample

/--
The collation does not tell capital letters from small ones.
-/
abbrev caseInsensitive : Platform :=
  { platform with collation := fun text => String.ofList (text.toList.map Char.toLower) }

attribute [local instance] caseInsensitive

/--
The database of `ann`, under this collation.
-/
def annDb : AuthDb
  | .users => .single ann
  | _ => Table.empty

def capitalAnn : RegisterDto where
  username := "Ann"
  email := "capital@example.com"
  password := "secret"

theorem not_namesConflict : ¬NamesConflict config annDb capitalAnn := by
  intro hnames
  have hruns : (AuthService.register config capitalAnn).Runs AuthEffect.exec annDb
      (.error (.conflict .emailTaken "email is not available")) annDb :=
    .step (env 0) (.throw _ _)
  cases hnames.refused _ _ _ hruns with
  | email hu hsame =>
    rw [List.mem_singleton.mp hu] at hsame
    exact absurd hsame (by decide)

end Runs

end Kerghan
