/-!
This module contains how a computation that can throw is taken apart into its steps.
-/

namespace Except

variable {ε α β : Type}

theorem bind_eq_ok {x : Except ε α} {f : α → Except ε β} {b : β}
    : x >>= f = .ok b ↔ ∃ a, x = .ok a ∧ f a = .ok b := by
  cases x with
  | error e => simp [bind, Except.bind]
  | ok a => simp [bind, Except.bind]

theorem bind_eq_error {x : Except ε α} {f : α → Except ε β} {e : ε}
    : x >>= f = .error e ↔ x = .error e ∨ ∃ a, x = .ok a ∧ f a = .error e := by
  cases x with
  | error e' => simp [bind, Except.bind]
  | ok a => simp [bind, Except.bind]

theorem forM_eq_ok {xs : List α} {f : α → Except ε Unit}
    : xs.forM f = .ok () ↔ ∀ x ∈ xs, f x = .ok () := by
  induction xs with
  | nil => simp [pure, Except.pure]
  | cons x xs ih =>
    change (f x >>= fun _ => xs.forM f) = _ ↔ _
    rw [bind_eq_ok, List.forall_mem_cons]
    constructor
    . intro ⟨_, hx, hxs⟩
      exact ⟨hx, ih.mp hxs⟩
    . intro ⟨hx, hxs⟩
      exact ⟨(), hx, ih.mpr hxs⟩

theorem mapM_eq_ok {f : α → Except ε β} {Checked : α → Prop} {g : α → β} {xs : List α} {ys : List β}
    (h : ∀ x ∈ xs, ∀ y, f x = .ok y ↔ Checked x ∧ y = g x)
    : xs.mapM f = .ok ys ↔ (∀ x ∈ xs, Checked x) ∧ ys = xs.map g := by
  induction xs generalizing ys with
  | nil => simp [pure, Except.pure, eq_comm]
  | cons x xs ih =>
    have hx := h x (List.mem_cons_self ..)
    have hxs : ∀ ys, xs.mapM f = .ok ys ↔ (∀ x ∈ xs, Checked x) ∧ ys = xs.map g :=
      fun _ => ih fun x' hx' => h x' (List.mem_cons_of_mem x hx')
    rw [List.mapM_cons, bind_eq_ok, List.forall_mem_cons, List.map_cons]
    constructor
    . intro ⟨y, hy, hbind⟩
      have ⟨ys', hys, hpure⟩ := bind_eq_ok.mp hbind
      cases hpure
      have ⟨hchecked, heq⟩ := (hx y).mp hy
      have ⟨hrest, heqs⟩ := (hxs ys').mp hys
      exact ⟨⟨hchecked, hrest⟩, by rw [heq, heqs]⟩
    . intro ⟨⟨hchecked, hrest⟩, heq⟩
      refine ⟨g x, (hx _).mpr ⟨hchecked, rfl⟩, bind_eq_ok.mpr ⟨_, (hxs _).mpr ⟨hrest, rfl⟩, ?_⟩⟩
      rw [heq]
      rfl

end Except
