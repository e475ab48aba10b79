import Kerghan.Auth.Account.FailureWrites

/-!
This module contains how a call ends that claims a username or an email: what it has found if it is
refused, and where a duplicate entry comes from that it throws.
-/

namespace Kerghan

def UserFieldChangesDto.given (dto : UserFieldChangesDto) (field : UserField) : Option String :=
  match field with
  | .username => truthy dto.username
  | .email => truthy dto.email

/--
The value that a call asks for: the one of a registration, or that of an edit.
-/
def Call.claims (call : Call) (field : UserField) : Option String :=
  match call, field with
  | .register dto, .username => some dto.username
  | .register dto, .email => some dto.email
  | call, field => call.edits.bind fun edit => edit.2.given field

def Call.names : Call → Bool
  | .register _ | .updateAccount .. | .editUser .. => true
  | _ => false

/--
The exceptions that tell that a value is taken.
-/
def isTaken : HttpError → Bool
  | .conflict code _ => code == .usernameTaken || code == .emailTaken
  | _ => false

/--
A duplicate entry has been answered to a statement that is not the insertion of a lockout.
-/
def HitDuplicate (h : AuthHistory) : Prop :=
  ∃ s, failed s .duplicateEntry ∈ h ∧ (AuthEffect.db s).insertsInto .accountEditLockouts = false

def Untaken {α : Type} (h : AuthHistory) (r : Except HttpError α) : Prop :=
  ∀ e, r = .error e → isTaken e = false ∧ (e = .database .duplicateEntry → HitDuplicate h)

/--
A call that is told that a value is taken has not saved anything.
-/
def Unsaved {α : Type} (h : AuthHistory) (r : Except HttpError α) : Prop :=
  ∀ e, r = .error e → isTaken e = true → ¬HasSaved h

section Untaken

variable {α : Type} {h : AuthHistory}

theorem Untaken.error {β : Type} {e : HttpError} (huntaken : Untaken h (.error e : Except HttpError α))
    : Untaken h (.error e : Except HttpError β) := by
  intro e' heq
  rw [← Except.error.inj heq]
  exact huntaken e rfl

end Untaken

section Reading

variable {cfg : AuthConfig} {userId : Nat} {h : AuthHistory}

def Loaded (userId : Nat) (h : AuthHistory) (r : Except HttpError User) : Prop :=
  Untaken h r ∧ ∀ user, r = .ok user → user.id = userId

end Reading

variable [Platform] {cfg : AuthConfig} {call : Call} {userId : Nat} {h : AuthHistory}

/--
The call has found a user other than the one it edits who has this value.
-/
def RefusedFor (call : Call) (h : AuthHistory) (field : UserField) (value : String) : Prop :=
  ∃ u, Found h .users u ∧ sameText (field.of u) value = true ∧
    ∀ edited dto, call.edits = some (edited, dto) → u.id ≠ edited

/--
A call that is told that a value is taken has asked for one that another user has.
-/
structure EndsFairly {α : Type} (call : Call) (h : AuthHistory) (r : Except HttpError α) : Prop where
  duplicate : r = .error (.database .duplicateEntry) → HitDuplicate h
  taken : ∀ e, r = .error e → isTaken e = true →
    ∃ field value, call.claims field = some value ∧ RefusedFor call h field value

section Writing

namespace AccountEditAbuseGuardService

end AccountEditAbuseGuardService

end Writing

/--
A call that claims a username or an email ends fairly, and has saved nothing if it is refused.
-/
abbrev Reports {α : Type} (call : Call) (prog : Api α) : Prop :=
  prog.Meets Answers (fun _ _ => True) (fun h r => EndsFairly call h r ∧ Unsaved h r) []

theorem EndsFairly.reply {α β : Type} {e : HttpError}
    (h' : EndsFairly call h (.error e : Except HttpError α))
    : EndsFairly call h (.error e : Except HttpError β) where
  duplicate heq := h'.duplicate (by rw [Except.error.inj heq])
  taken e' heq := h'.taken e' (by rw [Except.error.inj heq])

section Saving

/--
The user that a call has inserted or saved has all values that the call claims.
-/
def SavedClaims (call : Call) (h : AuthHistory) : Prop :=
  ∃ draft : User,
    ((∃ user, ran (insertUser draft.username draft.email draft.passwordDigest draft.isAdmin
        draft.status) user ∈ h) ∨
      ∃ affected : Nat, ran (saveUser draft) affected ∈ h)
      ∧
    ∀ field given, call.claims field = some given → field.of draft = given

omit [Platform] in
theorem UserFieldChangesDto.of_applyTo {dto : UserFieldChangesDto} {passwordDigest given : String}
    {user : User} {field : UserField} (hgiven : dto.given field = some given)
    : field.of (dto.applyTo passwordDigest user) = given := by
  cases field <;> simp_all [UserFieldChangesDto.given, UserFieldChangesDto.applyTo, UserField.of]

omit [Platform] in
theorem SavedClaims.mono {h' : AuthHistory} (hsaved : SavedClaims call h) (hsub : h ⊆ h')
    : SavedClaims call h' := by
  obtain ⟨draft, hran, hclaims⟩ := hsaved
  refine ⟨draft, ?_, hclaims⟩
  rcases hran with ⟨user, hmem⟩ | ⟨affected, hmem⟩
  . exact Or.inl ⟨user, hsub hmem⟩
  . exact Or.inr ⟨affected, hsub hmem⟩

end Saving

end Kerghan
