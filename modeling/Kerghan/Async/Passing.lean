import Kerghan.Async.Sequential

/-!
This module contains the worlds that a program passes through while it has the world for itself: what is left
when it is interrupted, and what others see before it has ended.
-/

namespace Prog

variable {S : Type} {R : S → Type} {σ ω ε α β τ : Type}

/--
`prog` turns the world `w` into the world `w'`, and may go on.
-/
inductive Passes (exec : (s : S) → ω → σ → R s × σ) : Prog S R ε α → σ → σ → Prop where
  | here (prog : Prog S R ε α) (w : σ) : Passes exec prog w w
  | step {s : S} {k : R s → Prog S R ε α} {w w' : σ} (e : ω)
    (hrest : Passes exec (k (exec s e w).1) (exec s e w).2 w') : Passes exec (.step s k) w w'

/--
All steps of a program satisfy `P`.
-/
def Only (P : S → Prop) : Prog S R ε α → Prop
  | .pure _ => True
  | .throw _ => True
  | .step s k => P s ∧ ∀ r, (k r).Only P

variable {exec : (s : S) → ω → σ → R s × σ} {w w' : σ} {P : S → Prop}

theorem passes_step {s : S} {k : R s → Prog S R ε α} (hpasses : Passes exec (.step s k) w w')
    : w' = w ∨ ∃ e, Passes exec (k (exec s e w).1) (exec s e w).2 w' := by
  cases hpasses with
  | here => exact Or.inl rfl
  | step e hrest => exact Or.inr ⟨e, hrest⟩

/--
A program is in its first part, or in what follows it.
-/
theorem passes_bind {prog : Prog S R ε α} {f : α → Prog S R ε β} (hpasses : Passes exec (prog >>= f) w w')
    : Passes exec prog w w' ∨ ∃ a w₁, Runs exec prog w (.ok a) w₁ ∧ Passes exec (f a) w₁ w' := by
  induction prog generalizing w with
  | pure a => exact Or.inr ⟨a, w, .pure a w, hpasses⟩
  | throw e =>
    cases hpasses
    exact Or.inl (.here _ _)
  | step s k ih =>
    cases passes_step hpasses with
    | inl hhere =>
      rw [hhere]
      exact Or.inl (.here _ _)
    | inr hrest =>
      have ⟨e, hrest⟩ := hrest
      rcases ih _ hrest with hfirst | ⟨a, w₁, hruns, hf⟩
      . exact Or.inl (.step e hfirst)
      . exact Or.inr ⟨a, w₁, .step e hruns, hf⟩

/--
The last world is one of them.
-/
theorem Runs.passes {prog : Prog S R ε α} {result : Except ε α} (hruns : Runs exec prog w result w')
    : Passes exec prog w w' := by
  induction hruns with
  | pure a w => exact .here _ _
  | throw e w => exact .here _ _
  | step e _ ih => exact .step e ih

/--
What no step of a program changes is the same in all worlds it passes through.
-/
theorem Only.passes {f : σ → τ} {prog : Prog S R ε α} (hP : ∀ s e w, P s → f (exec s e w).2 = f w)
    (honly : prog.Only P) (hpasses : Passes exec prog w w')
    : f w' = f w := by
  induction hpasses with
  | here => rfl
  | step e _ ih => exact (ih (honly.2 _)).trans (hP _ e _ honly.1)

@[simp]
theorem only_pure {a : α} : (Pure.pure a : Prog S R ε α).Only P := trivial

@[simp]
theorem only_throw {e : ε} : (MonadExcept.throw e : Prog S R ε α).Only P := trivial

theorem Only.perform_bind {s : S} {f : R s → Prog S R ε α} (hs : P s) (hf : ∀ r, (f r).Only P)
    : (Prog.perform s >>= f).Only P :=
  ⟨hs, hf⟩

theorem Only.bind {prog : Prog S R ε α} {f : α → Prog S R ε β} (hprog : prog.Only P) (hf : ∀ a, (f a).Only P)
    : (prog >>= f).Only P := by
  induction prog with
  | pure a => exact hf a
  | throw e => trivial
  | step s k ih => exact ⟨hprog.1, fun r => ih r (hprog.2 r)⟩

end Prog
