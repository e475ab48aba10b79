import Kerghan.Async.Run
import Kerghan.Auth.Entities

/-!
This module contains what a call to the Auth module can do besides computing: the atomic steps that
other calls may come in between. `await`ing a repository method is one such step.
-/

namespace Kerghan

inductive ErrorCode where
  | usernameTaken
  | emailTaken
  | defaultUserManaged
  | userDenied
  | userNotPending
  | cannotDenySelf
  deriving DecidableEq, Repr

/--
What a call can throw: the exceptions that become a response with the corresponding HTTP status, and
errors of the database.
-/
inductive HttpError where
  | badRequest (message : String)
  | unauthorized (message : String)
  | forbidden (code : ErrorCode) (message : String)
  | notFound (message : String)
  | conflict (code : ErrorCode) (message : String)
  | unprocessableEntity (code : ErrorCode) (message : String)
  | locked (message : String)
  | database (e : DbError)
  deriving DecidableEq

inductive AuthEvent where
  | userRegistered (userId : Nat) (username email : String)
  | passwordRecoveryRequested (userId : Nat) (token resetUrl email : String)
  | authorizationRequestCreated (uuid username : String) (userId : Option Nat)
  | authorizationRequestApproved (uuid : String) (approvedByUserId : Nat)
  | authorizationRequestDenied (uuid : String) (deniedByUserId : Nat)
  | authorizationRequestLogged (uuid : String) (userId : Nat)

/--
The identity of a session, carried over from a refresh token to its successor.
-/
structure SessionIdentity where
  sessionUuid : String
  startedAt : Date

inductive AuthEffect where
  | db (s : Stmt AuthRow)
  | now
  | randomUUID
  /-- `randomBytes(48).toString('hex')` -/
  | randomBytes
  /-- The salt that `bcrypt.hash` draws. -/
  | genSalt
  /-- Nothing happens in this step, it records that `TokenService.issueTokens` has been reached. -/
  | issueTokens (user : User) (keepSignedIn : Bool) (session : Option SessionIdentity)
  | emit (event : AuthEvent)
  | sendEmailTemplate (recipient resetUrl : String)

inductive MailOutcome where
  | sent
  | skipped
  | failed
  deriving DecidableEq

abbrev AuthAnswer : AuthEffect → Type
  | .db s => Except DbError s.Answer
  | .now => Date
  | .randomUUID | .randomBytes | .genSalt => String
  | .issueTokens .. | .emit .. => Unit
  | .sendEmailTemplate .. => MailOutcome

structure AuthEnv extends DbEnv where
  uuid : String
  bytes : String
  salt : String
  mail : MailOutcome

def AuthEffect.exec [Platform] (s : AuthEffect) (e : AuthEnv) (db : AuthDb)
    : AuthAnswer s × AuthDb :=
  match s with
  | .db s => s.exec e.toDbEnv db
  | .now => (e.now, db)
  | .randomUUID => (e.uuid, db)
  | .randomBytes => (e.bytes, db)
  | .genSalt => (e.salt, db)
  | .issueTokens .. | .emit .. => ((), db)
  | .sendEmailTemplate .. => (e.mail, db)

@[simp]
def AuthEffect.writes : AuthEffect → Bool
  | .db s => !s.isRead
  | _ => false

/--
Whether an effect is an `INSERT` into this table.
-/
@[simp]
def AuthEffect.insertsInto (table : AuthTable) : AuthEffect → Bool
  | .db (.insert t _) => t == table
  | _ => false

abbrev AuthHistory := History AuthEffect AuthAnswer

abbrev AuthEntry [Platform] := Entry AuthEffect AuthAnswer AuthDb

/--
A call to the Auth module that returns an `α`.
-/
abbrev Api (α : Type) := Prog AuthEffect AuthAnswer HttpError α

namespace Api

def query (s : Stmt AuthRow) : Api s.Answer := do
  match ← Prog.perform (AuthEffect.db s) with
  | .ok a => pure a
  | .error e => throw (.database e)

/--
`new Date()` and `Date.now()`.
-/
def now : Api Date :=
  Prog.perform AuthEffect.now

def randomUUID : Api String :=
  Prog.perform AuthEffect.randomUUID

def randomBytes : Api String :=
  Prog.perform AuthEffect.randomBytes

def emit (event : AuthEvent) : Api Unit :=
  Prog.perform (AuthEffect.emit event)

/--
`bcrypt.hash(password, 10)`
-/
def bcryptHash [Platform] (password : String) : Api String := do
  let salt ← Prog.perform AuthEffect.genSalt
  pure (Platform.bcryptHash salt password)

end Api

end Kerghan
