/-!
This module contains `Prog`, the programs that callers run against a world they share with other
callers. A program is a tree of effects: each effect is one atomic step on the world, and what the
program does next depends on the answer only. Everything between two effects happens in the
program's own memory and cannot be observed by anyone else.
-/

/--
A program that performs effects of type `S`, each answered by an `R s`, and ends by returning an
`α` or by throwing an `ε`.
-/
inductive Prog (S : Type) (R : S → Type) (ε α : Type) where
  | pure (a : α)
  | throw (e : ε)
  | step (s : S) (k : R s → Prog S R ε α)

namespace Prog

variable {S : Type} {R : S → Type} {ε α β γ : Type}

/--
Run `f` on the result of `prog`. A thrown error skips `f`.
-/
def bind (prog : Prog S R ε α) (f : α → Prog S R ε β) : Prog S R ε β :=
  match prog with
  | .pure a => f a
  | .throw e => .throw e
  | .step s k => .step s fun r => (k r).bind f

/--
Run `handler` on the error `prog` throws, if it throws one.
-/
def tryCatch (prog : Prog S R ε α) (handler : ε → Prog S R ε α) : Prog S R ε α :=
  match prog with
  | .pure a => .pure a
  | .throw e => handler e
  | .step s k => .step s fun r => (k r).tryCatch handler

def ofExcept (result : Except ε α) : Prog S R ε α :=
  match result with
  | .ok a => .pure a
  | .error e => .throw e

instance : Monad (Prog S R ε) where
  pure := .pure
  bind := .bind

instance : MonadExceptOf ε (Prog S R ε) where
  throw := .throw
  tryCatch := .tryCatch

/--
The program that performs a single effect and returns its answer.
-/
def perform (s : S) : Prog S R ε (R s) :=
  .step s .pure

@[simp]
theorem pure_bind (a : α) (f : α → Prog S R ε β) : (Pure.pure a : Prog S R ε α) >>= f = f a := rfl

@[simp]
theorem throw_bind (e : ε) (f : α → Prog S R ε β)
    : (MonadExcept.throw e : Prog S R ε α) >>= f = MonadExcept.throw e := rfl

@[simp]
theorem step_bind (s : S) (k : R s → Prog S R ε α) (f : α → Prog S R ε β)
    : (Prog.step s k : Prog S R ε α) >>= f = .step s fun r => k r >>= f := rfl

@[simp]
theorem perform_bind (s : S) (f : R s → Prog S R ε β)
    : (perform s : Prog S R ε (R s)) >>= f = .step s f := rfl

@[simp]
theorem map_eq (f : α → β) (prog : Prog S R ε α)
    : f <$> prog = prog >>= fun a => Pure.pure (f a) := rfl

@[simp]
theorem tryCatch_eq (prog : Prog S R ε α) (handler : ε → Prog S R ε α)
    : MonadExcept.tryCatch prog handler = prog.tryCatch handler := rfl

@[simp]
theorem bind_assoc (prog : Prog S R ε α) (f : α → Prog S R ε β) (g : β → Prog S R ε γ)
    : prog >>= f >>= g = prog >>= fun a => f a >>= g := by
  induction prog with
  | pure a => rfl
  | throw e => rfl
  | step s k ih =>
    simp only [step_bind]
    congr
    funext r
    exact ih r

end Prog
