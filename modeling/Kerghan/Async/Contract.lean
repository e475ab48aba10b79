import Kerghan.Async.Basic

/-!
This module contains the logic to reason about one program without knowing who else runs. A contract
says which effects a program may perform after the effects it has already performed. As a program
only ever sees the answers to its own effects, no interference has to be considered here: that is
left to whoever puts several programs together.
-/

/--
The effects a program has performed so far together with their answers, newest first.
-/
abbrev History (S : Type) (R : S → Type) := List ((s : S) × R s)

namespace Prog

variable {S : Type} {R : S → Type} {ε α β : Type}
variable {ok : (s : S) → R s → Prop} {C : History S R → S → Prop}
variable {Q Q' : History S R → Except ε α → Prop} {h : History S R}

/--
`prog` respects the contract `C` if it continues from the history `h`, and ends with a result that
satisfies `Q`. The answers to its effects may be assumed to satisfy `ok`.
-/
def Meets (ok : (s : S) → R s → Prop) (C : History S R → S → Prop)
    (Q : History S R → Except ε α → Prop) (prog : Prog S R ε α) (h : History S R) : Prop :=
  match prog with
  | .pure a => Q h (.ok a)
  | .throw e => Q h (.error e)
  | .step s k => C h s ∧ ∀ r, ok s r → (k r).Meets ok C Q (⟨s, r⟩ :: h)

@[simp]
theorem meets_pure (a : α) : Meets ok C Q (Pure.pure a) h ↔ Q h (.ok a) := Iff.rfl

@[simp]
theorem meets_throw (e : ε) : Meets ok C Q (MonadExcept.throw e) h ↔ Q h (.error e) := Iff.rfl

@[simp]
theorem meets_step (s : S) (k : R s → Prog S R ε α)
    : Meets ok C Q (.step s k) h ↔ C h s ∧ ∀ r, ok s r → Meets ok C Q (k r) (⟨s, r⟩ :: h) := Iff.rfl

/--
A program only extends the history, so its result may be judged by what it has added to it.
-/
theorem Meets.mono {prog : Prog S R ε α} (hprog : prog.Meets ok C Q h)
    (hQ : ∀ h' r, h <:+ h' → Q h' r → Q' h' r)
    : prog.Meets ok C Q' h := by
  induction prog generalizing h with
  | pure a => exact hQ _ _ (List.suffix_refl _) hprog
  | throw e => exact hQ _ _ (List.suffix_refl _) hprog
  | step s k ih =>
    refine ⟨hprog.1, fun r hr => ih r (hprog.2 r hr) fun h' r' hsuffix hq => ?_⟩
    exact hQ h' r' ((List.suffix_cons _ _).trans hsuffix) hq

/--
A program that respects a contract respects every contract that allows more.
-/
theorem Meets.imp {C' : History S R → S → Prop} {prog : Prog S R ε α} (hprog : prog.Meets ok C Q h)
    (hC : ∀ h s, C h s → C' h s)
    : prog.Meets ok C' Q h := by
  induction prog generalizing h with
  | pure a => exact hprog
  | throw e => exact hprog
  | step s k ih => exact ⟨hC _ _ hprog.1, fun r hr => ih r (hprog.2 r hr)⟩

/--
Two contracts can be shown one after the other.
-/
theorem Meets.and {C' : History S R → S → Prop} {Q' : History S R → Except ε α → Prop}
    {prog : Prog S R ε α} (hprog : prog.Meets ok C Q h) (hprog' : prog.Meets ok C' Q' h)
    : prog.Meets ok (fun h s => C h s ∧ C' h s) (fun h r => Q h r ∧ Q' h r) h := by
  induction prog generalizing h with
  | pure a => exact ⟨hprog, hprog'⟩
  | throw e => exact ⟨hprog, hprog'⟩
  | step s k ih =>
    exact ⟨⟨hprog.1, hprog'.1⟩, fun r hr => ih r (hprog.2 r hr) (hprog'.2 r hr)⟩

/--
What a program may do next only has to be shown of the histories that extend the present one.
-/
theorem Meets.imp_of_suffix {C' : History S R → S → Prop} {prog : Prog S R ε α}
    (hprog : prog.Meets ok C Q h) (hC : ∀ h' s, h <:+ h' → C h' s → C' h' s)
    : prog.Meets ok C' Q h := by
  induction prog generalizing h with
  | pure a => exact hprog
  | throw e => exact hprog
  | step s k ih =>
    refine ⟨hC _ _ (List.suffix_refl _) hprog.1, fun r hr => ih r (hprog.2 r hr) fun h' s' hsuffix => ?_⟩
    exact hC h' s' ((List.suffix_cons _ _).trans hsuffix)

/--
A contract on single effects holds of all that the program has done.
-/
theorem Meets.added {P : S → Prop} {prog : Prog S R ε α} (hprog : prog.Meets ok C Q h)
    (hP : ∀ h s, C h s → P s)
    : prog.Meets ok C (fun h' r => Q h' r ∧ ∃ newer, h' = newer ++ h ∧ ∀ ev ∈ newer, P ev.1) h := by
  induction prog generalizing h with
  | pure a => exact ⟨hprog, [], rfl, by simp⟩
  | throw e => exact ⟨hprog, [], rfl, by simp⟩
  | step s k ih =>
    refine ⟨hprog.1, fun r hr => (ih r (hprog.2 r hr)).mono fun h' r' _ hq => ?_⟩
    obtain ⟨hq, newer, rfl, hnewer⟩ := hq
    refine ⟨hq, newer ++ [⟨s, r⟩], by simp, ?_⟩
    simpa [or_imp, forall_and] using ⟨hnewer, hP _ _ hprog.1⟩

theorem Meets.bind {Q : History S R → Except ε α → Prop} {Q' : History S R → Except ε β → Prop}
    {prog : Prog S R ε α} {f : α → Prog S R ε β} (hprog : prog.Meets ok C Q h)
    (hok : ∀ h' a, h <:+ h' → Q h' (.ok a) → (f a).Meets ok C Q' h')
    (herror : ∀ h' e, h <:+ h' → Q h' (.error e) → Q' h' (.error e))
    : (prog >>= f).Meets ok C Q' h := by
  induction prog generalizing h with
  | pure a => exact hok h a (List.suffix_refl _) hprog
  | throw e => exact herror h e (List.suffix_refl _) hprog
  | step s k ih =>
    refine ⟨hprog.1, fun r hr => ih r (hprog.2 r hr) ?_ ?_⟩
    . intro h' a hsuffix
      exact hok h' a ((List.suffix_cons _ _).trans hsuffix)
    . intro h' e hsuffix
      exact herror h' e ((List.suffix_cons _ _).trans hsuffix)

theorem Meets.map {Q : History S R → Except ε α → Prop} {Q' : History S R → Except ε β → Prop}
    {prog : Prog S R ε α} {f : α → β} (hprog : prog.Meets ok C Q h)
    (hok : ∀ h' a, Q h' (.ok a) → Q' h' (.ok (f a)))
    (herror : ∀ h' e, Q h' (.error e) → Q' h' (.error e))
    : (f <$> prog).Meets ok C Q' h := by
  rw [map_eq]
  exact hprog.bind (fun h' a _ => hok h' a) (fun h' e _ => herror h' e)

theorem Meets.tryCatch {prog : Prog S R ε α} {handler : ε → Prog S R ε α}
    (hprog : prog.Meets ok C Q h)
    (hok : ∀ h' a, h <:+ h' → Q h' (.ok a) → Q' h' (.ok a))
    (herror : ∀ h' e, h <:+ h' → Q h' (.error e) → (handler e).Meets ok C Q' h')
    : (prog.tryCatch handler).Meets ok C Q' h := by
  induction prog generalizing h with
  | pure a => exact hok h a (List.suffix_refl _) hprog
  | throw e => exact herror h e (List.suffix_refl _) hprog
  | step s k ih =>
    refine ⟨hprog.1, fun r hr => ih r (hprog.2 r hr) ?_ ?_⟩
    . intro h' a hsuffix
      exact hok h' a ((List.suffix_cons _ _).trans hsuffix)
    . intro h' e hsuffix
      exact herror h' e ((List.suffix_cons _ _).trans hsuffix)

/--
`prog` returns `result` if its effects are answered as in `events`, oldest first.
-/
inductive Returns : Prog S R ε α → List ((s : S) × R s) → Except ε α → Prop where
  | pure (a : α) : Returns (.pure a) [] (.ok a)
  | throw (e : ε) : Returns (.throw e) [] (.error e)
  | step {s : S} {k : R s → Prog S R ε α} {r : R s} {events : List ((s : S) × R s)}
    {result : Except ε α} (h : Returns (k r) events result)
    : Returns (.step s k) (⟨s, r⟩ :: events) result

section Returns

variable {events : List ((s : S) × R s)}

theorem returns_pure {a : α} {result : Except ε α} (h : Returns (Pure.pure a : Prog S R ε α) events result)
    : events = [] ∧ result = .ok a := by
  cases h
  exact ⟨rfl, rfl⟩

theorem returns_throw {e : ε} {result : Except ε α}
    (h : Returns (MonadExcept.throw e : Prog S R ε α) events result)
    : events = [] ∧ result = .error e := by
  cases h
  exact ⟨rfl, rfl⟩

theorem returns_step {s : S} {k : R s → Prog S R ε α} {result : Except ε α}
    (h : Returns (.step s k) events result)
    : ∃ r rest, events = ⟨s, r⟩ :: rest ∧ Returns (k r) rest result := by
  cases h with
  | step h => exact ⟨_, _, rfl, h⟩

/--
A program returns what its second part returns after the events of the first one, or the error of this.
-/
theorem returns_bind {prog : Prog S R ε α} {f : α → Prog S R ε β} {result : Except ε β}
    (h : Returns (prog >>= f) events result)
    : (∃ a first rest, events = first ++ rest ∧ Returns prog first (.ok a) ∧ Returns (f a) rest result) ∨
        ∃ e, result = .error e ∧ Returns prog events (.error e) := by
  induction prog generalizing events with
  | pure a => exact Or.inl ⟨a, [], events, rfl, .pure a, h⟩
  | throw e =>
    have ⟨hevents, hresult⟩ := returns_throw h
    subst hevents
    exact Or.inr ⟨e, hresult, .throw e⟩
  | step s k ih =>
    have ⟨r, rest, hevents, hrest⟩ := returns_step h
    subst hevents
    cases ih r hrest with
    | inl hok =>
      have ⟨a, first, rest, happend, hprog, hf⟩ := hok
      subst happend
      exact Or.inl ⟨a, ⟨s, r⟩ :: first, rest, rfl, hprog.step, hf⟩
    | inr herror =>
      have ⟨e, hresult, hprog⟩ := herror
      exact Or.inr ⟨e, hresult, hprog.step⟩

theorem returns_tryCatch {prog : Prog S R ε α} {handler : ε → Prog S R ε α} {result : Except ε α}
    (h : Returns (prog.tryCatch handler) events result)
    : (∃ a, result = .ok a ∧ Returns prog events (.ok a)) ∨
        ∃ e first rest, events = first ++ rest ∧ Returns prog first (.error e) ∧
          Returns (handler e) rest result := by
  induction prog generalizing events with
  | pure a =>
    have ⟨hevents, hresult⟩ := returns_pure h
    subst hevents
    exact Or.inl ⟨a, hresult, .pure a⟩
  | throw e => exact Or.inr ⟨e, [], events, rfl, .throw e, h⟩
  | step s k ih =>
    have ⟨r, rest, hevents, hrest⟩ := returns_step h
    subst hevents
    cases ih r hrest with
    | inl hok =>
      have ⟨a, hresult, hprog⟩ := hok
      exact Or.inl ⟨a, hresult, hprog.step⟩
    | inr herror =>
      have ⟨e, first, rest, happend, hprog, hhandler⟩ := herror
      subst happend
      exact Or.inr ⟨e, ⟨s, r⟩ :: first, rest, rfl, hprog.step, hhandler⟩

end Returns

/--
Whatever its effects are answered, `prog` returns a value that satisfies `P` or throws an error that satisfies
`E`.
-/
def Ends (E : ε → Prop) (P : α → Prop) : Prog S R ε α → Prop
  | .pure a => P a
  | .throw e => E e
  | .step _ k => ∀ r, (k r).Ends E P

section Ends

variable {E E' : ε → Prop} {P P' : α → Prop}

@[simp]
theorem ends_pure {a : α} : Ends E P (Pure.pure a : Prog S R ε α) ↔ P a := Iff.rfl

@[simp]
theorem ends_throw {e : ε} : Ends E P (MonadExcept.throw e : Prog S R ε α) ↔ E e := Iff.rfl

@[simp]
theorem ends_perform_bind {s : S} {f : R s → Prog S R ε α}
    : Ends E P (perform s >>= f) ↔ ∀ r, (f r).Ends E P := Iff.rfl

theorem ends_true (prog : Prog S R ε α) : prog.Ends (fun _ => True) (fun _ => True) := by
  induction prog with
  | pure a => trivial
  | throw e => trivial
  | step s k ih => exact fun r => ih r

theorem Ends.mono {prog : Prog S R ε α} (hprog : prog.Ends E P) (hP : ∀ a, P a → P' a) : prog.Ends E P' := by
  induction prog with
  | pure a => exact hP a hprog
  | throw e => exact hprog
  | step s k ih => exact fun r => ih r (hprog r)

theorem Ends.bind {prog : Prog S R ε α} {f : α → Prog S R ε β} {Q : β → Prop} (hprog : prog.Ends E P)
    (hf : ∀ a, P a → (f a).Ends E Q)
    : (prog >>= f).Ends E Q := by
  induction prog with
  | pure a => exact hf a hprog
  | throw e => exact hprog
  | step s k ih => exact fun r => ih r (hprog r)

theorem Ends.tryCatch {prog : Prog S R ε α} {handler : ε → Prog S R ε α} (hprog : prog.Ends E P)
    (hhandler : ∀ e, E e → (handler e).Ends E' P)
    : (prog.tryCatch handler).Ends E' P := by
  induction prog with
  | pure a => exact hprog
  | throw e => exact hhandler e hprog
  | step s k ih => exact fun r => ih r (hprog r)

theorem Ends.ofExcept {result : Except ε α} (hok : ∀ a, result = .ok a → P a)
    (herror : ∀ e, result = .error e → E e)
    : (Prog.ofExcept result : Prog S R ε α).Ends E P := by
  cases result with
  | ok a => exact hok a rfl
  | error e => exact herror e rfl

end Ends

/--
What a program adds to the history are the events that make it return what it returns.
-/
theorem Meets.returns {prog : Prog S R ε α} (hprog : prog.Meets ok C Q h)
    : prog.Meets ok C
        (fun h' r => Q h' r ∧ ∃ events, h' = events.reverse ++ h ∧ prog.Returns events r) h := by
  induction prog generalizing h with
  | pure a => exact ⟨hprog, [], rfl, .pure a⟩
  | throw e => exact ⟨hprog, [], rfl, .throw e⟩
  | step s k ih =>
    refine ⟨hprog.1, fun r hr => (ih r (hprog.2 r hr)).mono fun h' r' _ hq => ?_⟩
    obtain ⟨hq, events, rfl, hreturns⟩ := hq
    exact ⟨hq, ⟨s, r⟩ :: events, by simp, hreturns.step⟩

/--
What a program promises about its result holds of every way in which it returns.
-/
theorem Meets.of_returns {prog : Prog S R ε α} {events : List ((s : S) × R s)} {result : Except ε α}
    (hprog : prog.Meets ok C Q h) (hreturns : prog.Returns events result)
    (hok : ∀ ev ∈ events, ok ev.1 ev.2)
    : Q (events.reverse ++ h) result := by
  induction hreturns generalizing h with
  | pure a => exact hprog
  | throw e => exact hprog
  | step hrest ih =>
    have ⟨hanswer, hrest⟩ := List.forall_mem_cons.mp hok
    have hq := ih (hprog.2 _ hanswer) hrest
    rw [List.reverse_cons, List.append_assoc]
    exact hq

/--
Whatever a program does, it only extends the history.
-/
theorem meets_true (prog : Prog S R ε α)
    : prog.Meets ok (fun _ _ => True) (fun h' _ => h <:+ h') h := by
  induction prog generalizing h with
  | pure a => exact List.suffix_refl _
  | throw e => exact List.suffix_refl _
  | step s k ih =>
    refine ⟨trivial, fun r _ => (ih r).mono fun h' _ _ hsuffix => ?_⟩
    exact (List.suffix_cons _ _).trans hsuffix

/--
Every effect in the history of a program has been allowed by its contract when it was performed.
-/
theorem Meets.allowed {prog : Prog S R ε α} (hprog : prog.Meets ok C Q h)
    (hallowed : ∀ newer ev older, h = newer ++ ev :: older → C older ev.1)
    : prog.Meets ok C
        (fun h' r => Q h' r ∧ ∀ newer ev older, h' = newer ++ ev :: older → C older ev.1) h := by
  induction prog generalizing h with
  | pure a => exact ⟨hprog, hallowed⟩
  | throw e => exact ⟨hprog, hallowed⟩
  | step s k ih =>
    refine ⟨hprog.1, fun r hr => ih r (hprog.2 r hr) ?_⟩
    intro newer ev older hsplit
    cases newer with
    | nil =>
      cases hsplit
      exact hprog.1
    | cons ev' newer =>
      cases hsplit
      exact hallowed newer ev older rfl

/--
A value that a program returns is one that it can end with.
-/
theorem Ends.of_returns {E : ε → Prop} {P : α → Prop} {prog : Prog S R ε α} {a : α}
    {events : List ((s : S) × R s)} (hprog : prog.Ends E P) (hreturns : prog.Returns events (.ok a))
    : P a := by
  generalize hresult : Except.ok a = result at hreturns
  induction hreturns with
  | pure a' =>
    cases hresult
    exact hprog
  | throw e => cases hresult
  | step _ ih => exact ih (hprog _) hresult

end Prog
