import Kerghan.Async.Run

/-!
This module contains the runs of a program that has the world for itself, such as the steps of a boot
sequence before the first caller arrives.
-/

namespace Prog

variable {S : Type} {R : S → Type} {σ ω ε ε' α β : Type}

def mapError (f : ε → ε') (prog : Prog S R ε α) : Prog S R ε' α :=
  match prog with
  | .pure a => .pure a
  | .throw e => .throw (f e)
  | .step s k => .step s fun r => (k r).mapError f

/--
`prog` turns the world `w` into the last world and ends with a result, if nobody else moves.
-/
inductive Runs (exec : (s : S) → ω → σ → R s × σ)
    : Prog S R ε α → σ → Except ε α → σ → Prop where
  | pure (a : α) (w : σ) : Runs exec (.pure a) w (.ok a) w
  | throw (e : ε) (w : σ) : Runs exec (.throw e) w (.error e) w
  | step {s : S} {k : R s → Prog S R ε α} {w w' : σ} {result : Except ε α} (e : ω)
    (hrest : Runs exec (k (exec s e w).1) (exec s e w).2 result w')
    : Runs exec (.step s k) w result w'

/--
How `prog` ends, and the last world, if nobody else moves and the environment contributes the same to all
of its steps.
-/
def eval (exec : (s : S) → ω → σ → R s × σ) (e : ω) (prog : Prog S R ε α) (w : σ) : Except ε α × σ :=
  match prog with
  | .pure a => (.ok a, w)
  | .throw err => (.error err, w)
  | .step s k => (k (exec s e w).1).eval exec e (exec s e w).2

variable {exec : (s : S) → ω → σ → R s × σ} {w w' : σ}

@[simp]
theorem runs_pure {a : α} {result : Except ε α}
    : Runs exec (Pure.pure a : Prog S R ε α) w result w' ↔ result = .ok a ∧ w' = w := by
  constructor
  . intro hruns
    cases hruns
    exact ⟨rfl, rfl⟩
  . rintro ⟨rfl, rfl⟩
    exact .pure a w'

@[simp]
theorem runs_throw {e : ε} {result : Except ε α}
    : Runs exec (MonadExcept.throw e : Prog S R ε α) w result w' ↔ result = .error e ∧ w' = w := by
  constructor
  . intro hruns
    cases hruns
    exact ⟨rfl, rfl⟩
  . rintro ⟨rfl, rfl⟩
    exact .throw e w'

@[simp]
theorem runs_step {s : S} {k : R s → Prog S R ε α} {result : Except ε α}
    : Runs exec (.step s k) w result w' ↔ ∃ e, Runs exec (k (exec s e w).1) (exec s e w).2 result w' := by
  constructor
  . intro hruns
    cases hruns with
    | step e hrest => exact ⟨e, hrest⟩
  . rintro ⟨e, hrest⟩
    exact .step e hrest

/--
A program that succeeds has gone through all its parts.
-/
theorem Runs.of_bind {prog : Prog S R ε α} {f : α → Prog S R ε β} {b : β}
    (hruns : Runs exec (prog >>= f) w (.ok b) w')
    : ∃ a w₁, Runs exec prog w (.ok a) w₁ ∧ Runs exec (f a) w₁ (.ok b) w' := by
  induction prog generalizing w with
  | pure a => exact ⟨a, w, .pure a w, hruns⟩
  | throw e => cases hruns
  | step s k ih =>
    obtain ⟨e, hrest⟩ := runs_step.mp hruns
    obtain ⟨a, w₁, hprog, hf⟩ := ih _ hrest
    exact ⟨a, w₁, .step e hprog, hf⟩

/--
A guarded program that succeeds has succeeded by itself, or its handler has.
-/
theorem Runs.of_tryCatch {prog : Prog S R ε α} {handler : ε → Prog S R ε α} {a : α}
    (hruns : Runs exec (tryCatch prog handler) w (.ok a) w')
    : Runs exec prog w (.ok a) w' ∨ ∃ e w₁, Runs exec (handler e) w₁ (.ok a) w' := by
  induction prog generalizing w with
  | pure a' => exact Or.inl hruns
  | throw e => exact Or.inr ⟨e, w, hruns⟩
  | step s k ih =>
    obtain ⟨e, hrest⟩ := runs_step.mp hruns
    rcases ih _ hrest with hprog | hhandler
    . exact Or.inl (.step e hprog)
    . exact Or.inr hhandler

theorem Runs.of_mapError {prog : Prog S R ε α} {f : ε → ε'} {a : α}
    (hruns : Runs exec (prog.mapError f) w (.ok a) w')
    : Runs exec prog w (.ok a) w' := by
  induction prog generalizing w with
  | pure a' =>
    cases hruns
    exact .pure _ _
  | throw e => cases hruns
  | step s k ih =>
    obtain ⟨e, hrest⟩ := runs_step.mp hruns
    exact .step e (ih _ hrest)

/--
What a program promises about its result holds when nobody else moves, too.
-/
theorem Meets.runs {ok : (s : S) → R s → Prop} {C : History S R → S → Prop}
    {Q : History S R → Except ε α → Prop} {h : History S R} {prog : Prog S R ε α}
    {result : Except ε α} (hexec : ∀ s e w, ok s (exec s e w).1) (hprog : prog.Meets ok C Q h)
    (hruns : Runs exec prog w result w')
    : ∃ h', Q h' result := by
  induction hruns generalizing h with
  | pure a w => exact ⟨h, hprog⟩
  | throw e w => exact ⟨h, hprog⟩
  | step e hrest ih => exact ih (hprog.2 _ (hexec _ _ _))

def logged (exec : (s : S) → ω → σ → R s × σ) (s : S) (e : ω) (w : σ × History S R)
    : R s × σ × History S R :=
  let res := exec s e w.1
  (res.1, res.2, ⟨s, res.1⟩ :: w.2)

/--
A run that keeps its events is a run.
-/
theorem Runs.of_logged {prog : Prog S R ε α} {result : Except ε α} {w w' : σ × History S R}
    (hruns : Runs (logged exec) prog w result w')
    : Runs exec prog w.1 result w'.1 := by
  induction hruns with
  | pure a w => exact .pure a w.1
  | throw e w => exact .throw e w.1
  | step e _ ih => exact .step e ih

theorem Runs.invariant {I : σ → Prop} {prog : Prog S R ε α} {result : Except ε α}
    (hexec : ∀ s e w, I w → I (exec s e w).2) (hruns : Runs exec prog w result w') (hw : I w)
    : I w' := by
  induction hruns with
  | pure a w => exact hw
  | throw err w => exact hw
  | step e _ ih => exact ih (hexec _ e _ hw)

/--
What a program promises about its result and its events, in the worlds that satisfy an invariant.
-/
theorem Meets.runs_logged_of_invariant {I : σ → Prop} {ok : (s : S) → R s → Prop} {C : History S R → S → Prop}
    {Q : History S R → Except ε α → Prop} {prog : Prog S R ε α} {result : Except ε α}
    {w w' : σ × History S R} (hexec : ∀ s e w, I w → ok s (exec s e w).1 ∧ I (exec s e w).2) (hw : I w.1)
    (hprog : prog.Meets ok C Q w.2) (hruns : Runs (logged exec) prog w result w')
    : Q w'.2 result := by
  induction hruns with
  | pure a w => exact hprog
  | throw e w => exact hprog
  | @step s k w w' result e hrest ih =>
    have ⟨hok, hinv⟩ := hexec s e w.1 hw
    exact ih hinv (hprog.2 _ hok)

theorem Meets.runs_logged {ok : (s : S) → R s → Prop} {C : History S R → S → Prop}
    {Q : History S R → Except ε α → Prop} {prog : Prog S R ε α} {result : Except ε α}
    {w w' : σ × History S R} (hexec : ∀ s e w, ok s (exec s e w).1) (hprog : prog.Meets ok C Q w.2)
    (hruns : Runs (logged exec) prog w result w')
    : Q w'.2 result :=
  runs_logged_of_invariant (fun s e w (_ : True) => ⟨hexec s e w, trivial⟩) trivial hprog hruns

/--
A program runs through its first part, and then through what follows it or stops.
-/
theorem runs_bind {prog : Prog S R ε α} {f : α → Prog S R ε β} {result : Except ε β}
    : Runs exec (prog >>= f) w result w' ↔
        (∃ a w₁, Runs exec prog w (.ok a) w₁ ∧ Runs exec (f a) w₁ result w') ∨
          ∃ e, Runs exec prog w (.error e) w' ∧ result = .error e := by
  constructor
  . intro hruns
    induction prog generalizing w with
    | pure a => exact Or.inl ⟨a, w, .pure a w, hruns⟩
    | throw e =>
      obtain ⟨rfl, rfl⟩ := runs_throw.mp hruns
      exact Or.inr ⟨e, .throw e w', rfl⟩
    | step s k ih =>
      obtain ⟨e, hrest⟩ := runs_step.mp hruns
      rcases ih _ hrest with ⟨a, w₁, hprog, hf⟩ | ⟨err, hprog, hresult⟩
      . exact Or.inl ⟨a, w₁, .step e hprog, hf⟩
      . exact Or.inr ⟨err, .step e hprog, hresult⟩
  . rintro (⟨a, w₁, hprog, hf⟩ | ⟨err, hprog, rfl⟩)
    . generalize hok : Except.ok a = ok at hprog
      induction hprog with
      | pure a' w =>
        cases hok
        exact hf
      | throw e w => cases hok
      | step e hrest ih => exact .step e (ih hf hok)
    . generalize hok : Except.error err = error at hprog
      induction hprog with
      | pure a' w => cases hok
      | throw e w =>
        cases hok
        exact .throw _ _
      | step e hrest ih => exact .step e (ih hok)

/--
A guarded program ends by itself, or its handler does.
-/
theorem runs_tryCatch {prog : Prog S R ε α} {handler : ε → Prog S R ε α} {result : Except ε α}
    (hruns : Runs exec (tryCatch prog handler) w result w')
    : (∃ a, result = .ok a ∧ Runs exec prog w (.ok a) w') ∨
        ∃ e w₁, Runs exec prog w (.error e) w₁ ∧ Runs exec (handler e) w₁ result w' := by
  induction prog generalizing w with
  | pure a =>
    obtain ⟨rfl, rfl⟩ := runs_pure.mp hruns
    exact Or.inl ⟨a, rfl, .pure a w'⟩
  | throw e => exact Or.inr ⟨e, w, .throw e w, hruns⟩
  | step s k ih =>
    obtain ⟨e, hrest⟩ := runs_step.mp hruns
    rcases ih _ hrest with ⟨a, hresult, hprog⟩ | ⟨err, w₁, hprog, hhandler⟩
    . exact Or.inl ⟨a, hresult, .step e hprog⟩
    . exact Or.inr ⟨err, w₁, .step e hprog, hhandler⟩

section Eval

variable {e : ω}

@[simp]
theorem eval_pure {a : α} : (Pure.pure a : Prog S R ε α).eval exec e w = (.ok a, w) := rfl

@[simp]
theorem eval_throw {err : ε} : (MonadExcept.throw err : Prog S R ε α).eval exec e w = (.error err, w) := rfl

@[simp]
theorem eval_step {s : S} {k : R s → Prog S R ε α}
    : (Prog.step s k).eval exec e w = (k (exec s e w).1).eval exec e (exec s e w).2 := rfl

theorem eval_bind {prog : Prog S R ε α} {f : α → Prog S R ε β}
    : (prog >>= f).eval exec e w =
        match prog.eval exec e w with
        | (.ok a, w₁) => (f a).eval exec e w₁
        | (.error err, w₁) => (.error err, w₁) := by
  induction prog generalizing w with
  | pure a => rfl
  | throw err => rfl
  | step s k ih => exact ih _

/--
A program fails that ends with throwing an error.
-/
theorem eval_bind_throw {prog : Prog S R ε α} {err : ε} {b : β}
    : ((prog >>= fun _ => (MonadExcept.throw err : Prog S R ε β)).eval exec e w).1 ≠ .ok b := by
  rw [eval_bind]
  split
  . nofun
  . nofun

theorem eval_tryCatch {prog : Prog S R ε α} {handler : ε → Prog S R ε α}
    : (prog.tryCatch handler).eval exec e w =
        match prog.eval exec e w with
        | (.ok a, w₁) => (.ok a, w₁)
        | (.error err, w₁) => (handler err).eval exec e w₁ := by
  induction prog generalizing w with
  | pure a => rfl
  | throw err => rfl
  | step s k ih => exact ih _

theorem eval_runs {prog : Prog S R ε α} : Runs exec prog w (prog.eval exec e w).1 (prog.eval exec e w).2 := by
  induction prog generalizing w with
  | pure a => exact .pure a w
  | throw err => exact .throw err w
  | step s k ih => exact .step e (ih _)

end Eval

end Prog
