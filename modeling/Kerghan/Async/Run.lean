import Mathlib.Data.List.Induction
import Mathlib.Data.List.Pairwise
import Mathlib.Logic.Function.Basic
import Kerghan.Async.Contract

/-!
This module contains the runs of a pool of programs on a shared world. A schedule picks, effect by
effect, which program moves next, so a statement about all schedules is a statement about all
interleavings. What a run did is recorded in its trace. The trace is never read by the programs.
-/

/--
One executed effect: who performed it, its answer and the world around it.
-/
structure Entry (S : Type) (R : S → Type) (σ : Type) where
  call : Nat
  before : σ
  effect : S
  resp : R effect
  after : σ

/--
The part of a trace that the program `i` has seen.
-/
def own {S : Type} {R : S → Type} {σ : Type} (i : Nat) (trace : List (Entry S R σ)) : History S R :=
  trace.filterMap fun x => if x.call = i then some ⟨x.effect, x.resp⟩ else none

/--
A shared world, the trace that led to it (newest entry first) and what is left of every program.
-/
structure Config (S : Type) (R : S → Type) (σ ε α : Type) where
  world : σ
  trace : List (Entry S R σ)
  pool : Nat → Prog S R ε α

section Own

variable {S : Type} {R : S → Type} {σ : Type} {i : Nat} {t : List (Entry S R σ)}

@[simp]
theorem own_nil : own i ([] : List (Entry S R σ)) = [] := rfl

@[simp]
theorem own_cons_self (x : Entry S R σ) : own x.call (x :: t) = ⟨x.effect, x.resp⟩ :: own x.call t := by
  simp [own]

theorem cons_own_suffix {x : Entry S R σ} {ev : (s : S) × R s} (h : ⟨x.effect, x.resp⟩ = ev)
    : ev :: own x.call t <:+ own x.call (x :: t) := by
  simp only [own_cons_self, h, List.suffix_refl]

theorem own_cons_of_ne {x : Entry S R σ} (h : x.call ≠ i) : own i (x :: t) = own i t := by
  simp [own, h]

@[simp]
theorem own_append (t' : List (Entry S R σ)) : own i (t' ++ t) = own i t' ++ own i t := by
  simp [own]

theorem own_eq_nil (h : ∀ x ∈ t, x.call ≠ i) : own i t = [] := by
  simpa [own] using h

theorem own_eq_map (h : ∀ x ∈ t, x.call = i) : own i t = t.map fun x => ⟨x.effect, x.resp⟩ := by
  induction t with
  | nil => rfl
  | cons x t ih =>
    have hx := h x (List.mem_cons_self ..)
    subst hx
    rw [own_cons_self, List.map_cons, ih fun y hy => h y (List.mem_cons_of_mem _ hy)]

theorem mem_own {ev : (s : S) × R s}
    : ev ∈ own i t ↔ ∃ x ∈ t, x.call = i ∧ ⟨x.effect, x.resp⟩ = ev := by
  simp only [own, List.mem_filterMap, Option.ite_none_right_eq_some, Option.some.injEq]

theorem mem_own_cons {x : Entry S R σ} {ev : (s : S) × R s}
    : ev ∈ own i (x :: t) ↔ (x.call = i ∧ ⟨x.effect, x.resp⟩ = ev) ∨ ev ∈ own i t := by
  simp [mem_own]

/--
What a program has seen splits the trace at the entry it has seen it in.
-/
theorem split_of_mem_own {ev : (s : S) × R s} (h : ev ∈ own i t)
    : ∃ later x earlier, t = later ++ x :: earlier ∧ x.call = i ∧ ⟨x.effect, x.resp⟩ = ev := by
  obtain ⟨x, hx, hcall, hev⟩ := mem_own.mp h
  obtain ⟨later, earlier, hsplit⟩ := List.append_of_mem hx
  exact ⟨later, x, earlier, hsplit, hcall, hev⟩

/--
What a program has seen before and after an event splits the trace at the entry of the event.
-/
theorem split_of_own_eq {ev : (s : S) × R s} {newer older : History S R} (h : own i t = newer ++ ev :: older)
    : ∃ later x earlier,
        t = later ++ x :: earlier
          ∧
        x.call = i
          ∧
        ⟨x.effect, x.resp⟩ = ev
          ∧
        own i later = newer
          ∧
        own i earlier = older := by
  induction t generalizing newer with
  | nil => simp at h
  | cons y t ih =>
    by_cases hcall : y.call = i
    . subst hcall
      rw [own_cons_self] at h
      cases newer with
      | nil =>
        rw [List.nil_append, List.cons.injEq] at h
        exact ⟨[], y, t, rfl, rfl, h.1, rfl, h.2⟩
      | cons first newer =>
        rw [List.cons_append, List.cons.injEq] at h
        obtain ⟨later, x, earlier, rfl, hx, hev, hlater, hearlier⟩ := ih h.2
        refine ⟨y :: later, x, earlier, rfl, hx, hev, ?_, hearlier⟩
        rw [own_cons_self, h.1, hlater]
    . rw [own_cons_of_ne hcall] at h
      obtain ⟨later, x, earlier, rfl, hx, hev, hlater, hearlier⟩ := ih h
      refine ⟨y :: later, x, earlier, rfl, hx, hev, ?_, hearlier⟩
      rw [own_cons_of_ne hcall]
      exact hlater

theorem own_suffix {t' : List (Entry S R σ)} (hsuffix : t <:+ t') : own i t <:+ own i t' := by
  obtain ⟨new, rfl⟩ := hsuffix
  simp only [own_append, List.suffix_append]

theorem mem_own_of_suffix {t' : List (Entry S R σ)} (hsuffix : t <:+ t') {ev : (s : S) × R s}
    (h : ev ∈ own i t)
    : ev ∈ own i t' := by
  exact (own_suffix hsuffix).subset h

/--
If no two entries yield the same value, an entry is known by its value.
-/
theorem eq_of_nodup_filterMap {α β : Type} {f : α → Option β} {l : List α} (h : (l.filterMap f).Nodup)
    {a a' : α} {b : β} (ha : a ∈ l) (ha' : a' ∈ l) (hb : f a = some b) (hb' : f a' = some b)
    : a = a' := by
  by_cases heq : a = a'
  . exact heq
  . rw [List.Nodup, List.pairwise_filterMap] at h
    have : Std.Symm fun a a' => ∀ b, f a = some b → ∀ b', f a' = some b' → b ≠ b' :=
      ⟨fun _ _ h b hb b' hb' => (h b' hb' b hb).symm⟩
    exact absurd rfl (List.Pairwise.forall h ha ha' heq b hb b hb')

end Own

namespace Config

variable {S : Type} {R : S → Type} {σ ω ε α : Type}
variable (exec : (s : S) → ω → σ → R s × σ)

/--
Let the program `i` perform its next effect, with `e` deciding what the environment contributes to
the answer. Nothing happens if `i` has already ended.
-/
def step (c : Config S R σ ε α) (i : Nat) (e : ω) : Config S R σ ε α :=
  match c.pool i with
  | .step s k =>
    let res := exec s e c.world
    {
      world := res.2
      trace := ⟨i, c.world, s, res.1, res.2⟩ :: c.trace
      pool := Function.update c.pool i (k res.1)
    }
  | _ => c

def run (c : Config S R σ ε α) (schedule : List (Nat × ω)) : Config S R σ ε α :=
  schedule.foldl (fun c pick => c.step exec pick.1 pick.2) c

def Meets (ok : (s : S) → R s → Prop) (C : Nat → History S R → S → Prop)
    (Q : Nat → History S R → Except ε α → Prop) (c : Config S R σ ε α) : Prop :=
  ∀ i, (c.pool i).Meets ok (C i) (Q i) (own i c.trace)

variable {exec} {c : Config S R σ ε α}

@[simp]
theorem run_nil : c.run exec [] = c := rfl

@[simp]
theorem run_cons (pick : Nat × ω) (schedule : List (Nat × ω))
    : c.run exec (pick :: schedule) = (c.step exec pick.1 pick.2).run exec schedule := rfl

theorem run_append (s1 s2 : List (Nat × ω))
    : c.run exec (s1 ++ s2) = (c.run exec s1).run exec s2 := by
  simp [run]

/--
What a single step of a run can be: nothing, or one effect of one program.
-/
theorem step_cases (c : Config S R σ ε α) (i : Nat) (e : ω)
    : c.step exec i e = c ∨
      ∃ s k, c.pool i = .step s k ∧ c.step exec i e = {
        world := (exec s e c.world).2
        trace := ⟨i, c.world, s, (exec s e c.world).1, (exec s e c.world).2⟩ :: c.trace
        pool := Function.update c.pool i (k (exec s e c.world).1)
      } := by
  unfold step
  split
  . next s k heq => exact Or.inr ⟨s, k, heq, rfl⟩
  . exact Or.inl rfl

theorem trace_suffix_step (i : Nat) (e : ω) : c.trace <:+ (c.step exec i e).trace := by
  rcases @step_cases _ _ _ _ _ _ exec c i e with h | ⟨s, k, _, h⟩
  . simp only [h, List.suffix_refl]
  . simp only [h, List.suffix_cons]

theorem trace_suffix_run (schedule : List (Nat × ω)) : c.trace <:+ (c.run exec schedule).trace := by
  induction schedule generalizing c with
  | nil => exact List.suffix_refl _
  | cons pick schedule ih => exact (trace_suffix_step pick.1 pick.2).trans ih

variable {ok : (s : S) → R s → Prop} {C : Nat → History S R → S → Prop}
variable {Q : Nat → History S R → Except ε α → Prop}

/--
A step preserves what one program still promises, whoever takes it.
-/
theorem meets_pool_step {i : Nat} {C : History S R → S → Prop}
    {Q : History S R → Except ε α → Prop} (hexec : ∀ s e w, ok s (exec s e w).1)
    (hi : (c.pool i).Meets ok C Q (own i c.trace)) (j : Nat) (e : ω)
    : ((c.step exec j e).pool i).Meets ok C Q (own i (c.step exec j e).trace) := by
  rcases c.step_cases j e with h | ⟨s, k, hpool, h⟩
  . rw [h]
    exact hi
  . rw [h]
    by_cases hj : j = i
    . subst hj
      rw [hpool] at hi
      simpa [own] using hi.2 _ (hexec s e c.world)
    . have : i ≠ j := fun h => hj h.symm
      simpa [own, hj, this] using hi

theorem meets_pool_run {i : Nat} {C : History S R → S → Prop} {Q : History S R → Except ε α → Prop}
    (hexec : ∀ s e w, ok s (exec s e w).1) (hi : (c.pool i).Meets ok C Q (own i c.trace))
    (schedule : List (Nat × ω))
    : ((c.run exec schedule).pool i).Meets ok C Q (own i (c.run exec schedule).trace) := by
  induction schedule generalizing c with
  | nil => exact hi
  | cons pick schedule ih => exact ih (meets_pool_step hexec hi pick.1 pick.2)

theorem Meets.step (hexec : ∀ s e w, ok s (exec s e w).1) (hc : c.Meets ok C Q) (i : Nat) (e : ω)
    : (c.step exec i e).Meets ok C Q :=
  fun j => meets_pool_step hexec (hc j) i e

/--
`x` is an effect that some program may perform after the trace `t`.
-/
structure Performs (exec : (s : S) → ω → σ → R s × σ) (C : Nat → History S R → S → Prop)
    (t : List (Entry S R σ)) (x : Entry S R σ) : Prop where
  allowed : C x.call (own x.call t) x.effect
  answered : ∃ e, exec x.effect e x.before = (x.resp, x.after)

/--
An invariant of the world and the trace holds after every run if each effect that the contracts
allow preserves it. Only runs whose trace is admissible have to be considered.
-/
theorem run_induction {I : σ → List (Entry S R σ) → Prop} {A : List (Entry S R σ) → Prop}
    (hadm : ∀ x t, A (x :: t) → A t)
    (hstep : ∀ x t, A (x :: t) → Performs exec C t x → I x.before t → I x.after (x :: t))
    (hexec : ∀ s e w, ok s (exec s e w).1) (hc : c.Meets ok C Q) (hinv : I c.world c.trace)
    (schedule : List (Nat × ω)) (hrun : A (c.run exec schedule).trace)
    : I (c.run exec schedule).world (c.run exec schedule).trace := by
  have hsuffix : ∀ t' t, t <:+ t' → A t' → A t := by
    intro t' t ⟨new, hnew⟩ h
    subst hnew
    induction new with
    | nil => exact h
    | cons x new ih => exact ih (hadm _ _ h)
  induction schedule generalizing c with
  | nil => exact hinv
  | cons pick schedule ih =>
    apply ih (hc.step hexec pick.1 pick.2) _ hrun
    have hnow : A (c.step exec pick.1 pick.2).trace := hsuffix _ _ (trace_suffix_run schedule) hrun
    rcases c.step_cases pick.1 pick.2 with h | ⟨s, k, hpool, h⟩
    . rwa [h]
    . rw [h] at hnow ⊢
      have hallowed := hc pick.1
      rw [hpool] at hallowed
      exact hstep _ _ hnow ⟨hallowed.1, pick.2, rfl⟩ hinv

/--
A program that gets all the steps it asks for ends.
-/
theorem exists_ended (c : Config S R σ ε α) (i : Nat) (e : ω)
    : ∃ n, ∃ result, (c.run exec (List.replicate n (i, e))).pool i = .ofExcept result := by
  generalize hprog : c.pool i = prog
  induction prog generalizing c with
  | pure a => exact ⟨0, .ok a, hprog⟩
  | throw err => exact ⟨0, .error err, hprog⟩
  | step s k ih =>
    have hnext : (c.step exec i e).pool i = k (exec s e c.world).1 := by
      simp only [step, hprog, Function.update_self]
    obtain ⟨n, result, hended⟩ := ih _ (c.step exec i e) hnext
    exact ⟨n + 1, result, hended⟩

/--
Every entry of a run's trace was allowed by what its program had seen at this time.
-/
theorem performs_of_split (hexec : ∀ s e w, ok s (exec s e w).1) (hc : c.Meets ok C Q)
    (hstart : c.trace = []) (schedule : List (Nat × ω)) {x : Entry S R σ}
    {later earlier : List (Entry S R σ)}
    (htrace : (c.run exec schedule).trace = later ++ x :: earlier)
    : Performs exec C earlier x := by
  refine run_induction (A := fun _ => True)
    (I := fun _ t => ∀ later x earlier, t = later ++ x :: earlier → Performs exec C earlier x)
    (fun _ _ _ => trivial) ?_ hexec hc ?_ schedule trivial later x earlier htrace
  . intro y t _ hy ih later x earlier hsplit
    cases later with
    | nil =>
      simp only [List.nil_append, List.cons.injEq] at hsplit
      rw [← hsplit.1, ← hsplit.2]
      exact hy
    | cons z later =>
      simp only [List.cons_append, List.cons.injEq] at hsplit
      exact ih later x earlier hsplit.2
  . intro later x earlier hsplit
    simp [hstart] at hsplit

/--
Every entry of a run's trace splits the run: one part leads up to it, the other part follows it.
-/
theorem run_split {schedule : List (Nat × ω)} {x : Entry S R σ} {later earlier : List (Entry S R σ)}
    (hstart : c.trace = []) (htrace : (c.run exec schedule).trace = later ++ x :: earlier)
    : ∃ s1 e s2,
        (c.run exec s1).trace = earlier
          ∧
        (c.run exec s1).world = x.before
          ∧
        (c.run exec (s1 ++ [(x.call, e)])).trace = x :: earlier
          ∧
        (c.run exec (s1 ++ [(x.call, e)])).world = x.after
          ∧
        exec x.effect e x.before = (x.resp, x.after)
          ∧
        schedule = s1 ++ (x.call, e) :: s2 := by
  induction schedule using List.reverseRecOn generalizing later with
  | nil => simp [hstart] at htrace
  | append_singleton schedule pick ih =>
    rw [run_append] at htrace
    rcases (c.run exec schedule).step_cases pick.1 pick.2 with h | ⟨s, k, hpool, h⟩
    . rw [run_cons, run_nil, h] at htrace
      obtain ⟨s1, e, s2, h1, h2, h3, h4, h5, h6⟩ := ih htrace
      exact ⟨s1, e, s2 ++ [pick], h1, h2, h3, h4, h5, by simp [h6]⟩
    . rw [run_cons, run_nil, h] at htrace
      cases later with
      | nil =>
        simp only [List.nil_append, List.cons.injEq] at htrace
        obtain ⟨hx, hearlier⟩ := htrace
        subst hx
        refine ⟨schedule, pick.2, [], hearlier, rfl, ?_, ?_, rfl, rfl⟩
        . rw [run_append, run_cons, run_nil, h, hearlier]
        . rw [run_append, run_cons, run_nil, h]
      | cons y later =>
        simp only [List.cons_append, List.cons.injEq] at htrace
        obtain ⟨s1, e, s2, h1, h2, h3, h4, h5, h6⟩ := ih htrace.2
        exact ⟨s1, e, s2 ++ [pick], h1, h2, h3, h4, h5, by simp [h6]⟩

/--
The world is as the newest entry of the trace has left it.
-/
theorem world_of_trace {schedule : List (Nat × ω)} {x : Entry S R σ} {earlier : List (Entry S R σ)}
    (hstart : c.trace = []) (htrace : (c.run exec schedule).trace = x :: earlier)
    : (c.run exec schedule).world = x.after := by
  have hc : c.Meets (fun _ _ => True) (fun _ _ _ => True) (fun _ _ _ => True) := by
    intro i
    exact (Prog.meets_true _).mono fun _ _ _ _ => trivial
  refine run_induction (A := fun _ => True) (I := fun w t => ∀ y t', t = y :: t' → w = y.after)
    (fun _ _ _ => trivial) ?_ (fun _ _ _ => trivial) hc ?_ schedule trivial x earlier htrace
  . intro y t _ _ _ z t' hsplit
    simp only [List.cons.injEq] at hsplit
    rw [hsplit.1]
  . intro y t' hsplit
    simp [hstart] at hsplit

/--
What has happened since an entry relates the world that it has left to the present one.
-/
theorem rel_world {Rel : σ → σ → Prop} (hrefl : ∀ w, Rel w w)
    (htrans : ∀ {w w' w''}, Rel w w' → Rel w' w'' → Rel w w'') (hstart : c.trace = [])
    {schedule : List (Nat × ω)} {x : Entry S R σ} {later earlier : List (Entry S R σ)}
    (htrace : (c.run exec schedule).trace = later ++ x :: earlier)
    (hlater : ∀ y ∈ later, Rel y.before y.after)
    : Rel x.after (c.run exec schedule).world := by
  induction later generalizing schedule with
  | nil =>
    rw [world_of_trace hstart htrace]
    exact hrefl _
  | cons y later ih =>
    obtain ⟨s1, _, _, htrace₁, hworld₁, _⟩ := run_split hstart
      (show (c.run exec schedule).trace = [] ++ y :: (later ++ x :: earlier) from htrace)
    rw [world_of_trace hstart htrace]
    have hrest := ih htrace₁ fun z hz => hlater z (List.mem_cons_of_mem _ hz)
    rw [hworld₁] at hrest
    exact htrans hrest (hlater y (List.mem_cons_self ..))

/--
What has happened between two entries relates the world that the first one has left to the one that the
second one has found.
-/
theorem rel_between {Rel : σ → σ → Prop} (hrefl : ∀ w, Rel w w)
    (htrans : ∀ {w w' w''}, Rel w w' → Rel w' w'' → Rel w w'') (hstart : c.trace = [])
    {schedule : List (Nat × ω)} {x y : Entry S R σ} {later between earlier : List (Entry S R σ)}
    (htrace : (c.run exec schedule).trace = later ++ x :: (between ++ y :: earlier))
    (hbetween : ∀ z ∈ between, Rel z.before z.after)
    : Rel y.after x.before := by
  obtain ⟨s1, _, _, htrace₁, hworld₁, _⟩ := run_split hstart htrace
  rw [← hworld₁]
  exact rel_world hrefl htrans hstart htrace₁ hbetween

/--
An invariant holds after a run if the effects that this run has performed preserve it.
-/
theorem run_induction_trace {I : σ → List (Entry S R σ) → Prop} {schedule : List (Nat × ω)}
    (hstart : c.trace = []) (hinv : I c.world [])
    (hstep : ∀ later x earlier, (c.run exec schedule).trace = later ++ x :: earlier →
      I x.before earlier → I x.after (x :: earlier))
    : I (c.run exec schedule).world (c.run exec schedule).trace := by
  induction schedule using List.reverseRecOn with
  | nil =>
    rw [run_nil, hstart]
    exact hinv
  | append_singleton schedule pick ih =>
    rw [run_append, run_cons, run_nil] at hstep ⊢
    rcases (c.run exec schedule).step_cases pick.1 pick.2 with h | ⟨s, k, hpool, h⟩
    . rw [h] at hstep ⊢
      exact ih hstep
    . rw [h] at hstep ⊢
      apply hstep [] _ _ rfl
      apply ih
      intro later x earlier htrace
      apply hstep (_ :: later) x earlier
      rw [htrace]
      rfl

/--
An invariant also holds at every point of a run that its trace has recorded.
-/
theorem run_induction_split {I : σ → List (Entry S R σ) → Prop} {A : List (Entry S R σ) → Prop}
    (hadm : ∀ x t, A (x :: t) → A t)
    (hstep : ∀ x t, A (x :: t) → Performs exec C t x → I x.before t → I x.after (x :: t))
    (hexec : ∀ s e w, ok s (exec s e w).1) (hc : c.Meets ok C Q) (hinv : I c.world c.trace)
    (hstart : c.trace = []) (schedule : List (Nat × ω)) (hrun : A (c.run exec schedule).trace)
    {x : Entry S R σ} {later earlier : List (Entry S R σ)}
    (htrace : (c.run exec schedule).trace = later ++ x :: earlier)
    : I x.before earlier ∧ I x.after (x :: earlier) := by
  obtain ⟨s1, e, s2, hearlier, hbefore, hthen, hafter, _, _⟩ := run_split hstart htrace
  have hsuffix : A (x :: earlier) := by
    rw [htrace] at hrun
    clear htrace
    induction later with
    | nil => exact hrun
    | cons y later ih => exact ih (hadm _ _ hrun)
  constructor
  . rw [← hbefore, ← hearlier]
    apply run_induction hadm hstep hexec hc hinv
    rw [hearlier]
    exact hadm _ _ hsuffix
  . rw [← hafter, ← hthen]
    apply run_induction hadm hstep hexec hc hinv
    rw [hthen]
    exact hsuffix

end Config
