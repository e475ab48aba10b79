import Kerghan.Integrations.Impl.AbuseGuard

/-!
This module contains the runs of any number of calls to the Integrations module on one database, and what
holds of every single effect of a call, whatever the call is.
-/

namespace Kerghan.Integrations

universe u

def capturedNow : IntegrationsHistory → Option Date
  | ⟨.now, now⟩ :: _ => some now
  | _ :: h => capturedNow h
  | [] => none

def Effect.writes : Effect → Bool
  | .db s => !s.isRead
  | _ => false

/--
What every answer guarantees: the rows that a lookup returns satisfy its `WHERE`, and an inserted row is
the one that has been sent.
-/
def Answers : (s : Effect) → Answer s → Prop
  | .db (.find _ p _), .ok (some row) => p row = true
  | .db (.all _ p), .ok rows => ∀ row ∈ rows, p row = true
  | .db (.insert _ mk), .ok row => ∃ id now, row = mk id now
  | _, _ => True

abbrev failed (s : Statement) (e : DbError) : (s : Effect) × Answer s :=
  ⟨.db s, .error e⟩

theorem failed_ne_ran {s s' : Statement} {e : DbError} {a : s'.Answer} : failed s e ≠ ran s' a := by
  intro h
  obtain ⟨heffect, hresp⟩ := Sigma.mk.inj h
  cases heffect
  exact absurd (eq_of_heq hresp) (by simp)

section Meets

variable {β : Type} {C : IntegrationsHistory → Effect → Prop} {Q : IntegrationsHistory → Except Thrown β → Prop}
variable {h : IntegrationsHistory}

theorem answers_error {s : Statement} {e : DbError} : Answers (.db s) (.error e) := by
  cases s <;> trivial

theorem Api.meets_query {s : Statement} {f : s.Answer → Api β}
    : (Api.query s >>= f).Meets Answers C Q h ↔
        C h (.db s)
          ∧
        (∀ a, Answers (.db s) (.ok a) → (f a).Meets Answers C Q (ran s a :: h))
          ∧
        (∀ e, Q (failed s e :: h) (.error (.database e))) := by
  constructor
  . intro hprog
    exact ⟨hprog.1, fun a ha => hprog.2 (.ok a) ha, fun e => hprog.2 (.error e) answers_error⟩
  . intro ⟨hallowed, hok, herror⟩
    refine ⟨hallowed, fun r hr => ?_⟩
    cases r with
    | ok a => exact hok a hr
    | error e => exact herror e

theorem Api.meets_last {s : Statement} {Q : IntegrationsHistory → Except Thrown s.Answer → Prop}
    : (Api.query s).Meets Answers C Q h ↔
        C h (.db s)
          ∧
        (∀ a, Answers (.db s) (.ok a) → Q (ran s a :: h) (.ok a))
          ∧
        (∀ e, Q (failed s e :: h) (.error (.database e))) := by
  constructor
  . intro hprog
    exact ⟨hprog.1, fun a ha => hprog.2 (.ok a) ha, fun e => hprog.2 (.error e) answers_error⟩
  . intro ⟨hallowed, hok, herror⟩
    refine ⟨hallowed, fun r hr => ?_⟩
    cases r with
    | ok a => exact hok a hr
    | error e => exact herror e

theorem Api.meets_now {f : Date → Api β}
    : (Api.now >>= f).Meets Answers C Q h ↔
        C h .now ∧ ∀ now, (f now).Meets Answers C Q (clock now :: h) :=
  ⟨fun h => ⟨h.1, fun now => h.2 now trivial⟩, fun h => ⟨h.1, fun now _ => h.2 now⟩⟩

theorem Api.meets_randomUUID {f : String → Api β}
    : (Api.randomUUID >>= f).Meets Answers C Q h ↔
        C h .randomUUID ∧ ∀ uuid, (f uuid).Meets Answers C Q (⟨.randomUUID, uuid⟩ :: h) :=
  ⟨fun h => ⟨h.1, fun uuid => h.2 uuid trivial⟩, fun h => ⟨h.1, fun uuid _ => h.2 uuid⟩⟩

theorem Api.meets_randomBytes {f : String → Api β}
    : (Api.randomBytes >>= f).Meets Answers C Q h ↔
        C h .randomBytes ∧ ∀ bytes, (f bytes).Meets Answers C Q (⟨.randomBytes, bytes⟩ :: h) :=
  ⟨fun h => ⟨h.1, fun bytes => h.2 bytes trivial⟩, fun h => ⟨h.1, fun bytes _ => h.2 bytes⟩⟩

end Meets

variable [Platform]

theorem answers_exec (s : Effect) (e : Env) (w : World) : Answers s (s.exec e w).1 := by
  unfold Answers
  split
  . next t p rank row heq =>
    obtain ⟨choice, hchoice⟩ := Stmt.exec_find
      (show (Stmt.find t p rank).exec e.toDbEnv w.db = (.ok (some row), (_ : Db Row)) from
        Prod.ext heq rfl)
    exact (Table.first_eq_some hchoice.symm).2
  . next t p rows heq =>
    intro row hrow
    have hrows : ((Stmt.all t p : Statement).exec e.toDbEnv w.db).1 = .ok rows := heq
    unfold Stmt.exec at hrows
    split at hrows
    . simp at hrows
    . rw [← Except.ok.inj hrows] at hrow
      exact (List.mem_filter.mp hrow).2
  . next t mk row heq =>
    obtain ⟨now, hrow, _⟩ := Stmt.exec_insert
      (show (Stmt.insert t mk).exec e.toDbEnv w.db = (.ok row, (_ : Db Row)) from Prod.ext heq rfl)
    exact ⟨_, now, hrow⟩
  . trivial

section Run

variable {α : Type}

abbrev Calls (α : Type) := Config Effect Answer World Thrown α

abbrev Schedule := List (Nat × Env)

/--
All calls before their first step. Nothing is called but what the list has.
-/
def Calls.start (w : World) (progs : List (Api α)) : Calls α where
  world := w
  trace := []
  pool i := (progs[i]?).getD (throw integrationNotFound)

/--
The calls after the steps that `schedule` picks.
-/
def Calls.after (w : World) (progs : List (Api α)) (schedule : Schedule) : Calls α :=
  (Calls.start w progs).run Effect.exec schedule

variable {γ : Type u} {prog : γ → Api α} {C : γ → IntegrationsHistory → Effect → Prop}
variable {Q : γ → IntegrationsHistory → Except Thrown α → Prop}

theorem start_meets (hprog : ∀ call, (prog call).Meets Answers (C call) (Q call) []) (w : World)
    (calls : List γ)
    : (Calls.start w (calls.map prog)).Meets Answers
        (fun i h s => ∃ call, calls[i]? = some call ∧ C call h s) (fun _ _ _ => True) := by
  intro i
  unfold Calls.start
  dsimp only
  rw [List.getElem?_map]
  cases calls[i]? with
  | none => trivial
  | some call =>
    refine ((hprog call).imp fun _ _ hallowed => ?_).mono fun _ _ _ _ => trivial
    exact ⟨call, rfl, hallowed⟩

theorem ended (result : Except Thrown α) (hprog : ∀ call, (prog call).Meets Answers (C call) (Q call) [])
    {w : World} {calls : List γ} {schedule : Schedule} {i : Nat} {call : γ} (hcall : calls[i]? = some call)
    (hended : (Calls.after w (calls.map prog) schedule).pool i = .ofExcept result)
    : Q call (own i (Calls.after w (calls.map prog) schedule).trace) result := by
  have hstart : ((Calls.start w (calls.map prog)).pool i).Meets Answers (C call) (Q call) [] := by
    simp only [Calls.start, List.getElem?_map, hcall, Option.map_some, Option.getD_some]
    exact hprog call
  have hrun : ((Calls.after w (calls.map prog) schedule).pool i).Meets Answers (C call) (Q call)
      (own i (Calls.after w (calls.map prog) schedule).trace) :=
    Config.meets_pool_run answers_exec hstart schedule
  rw [hended] at hrun
  cases result with
  | ok reply => exact hrun
  | error e => exact hrun

end Run

end Kerghan.Integrations
