import Kerghan.Integrations.Secrets.Steps

/-!
This module contains what it means that no two calls write one integration at the same time, and what a call that
writes an integration knows of it then.
-/

namespace Kerghan.Integrations

def found : IntegrationsHistory → List Integration
  | [] => []
  | ⟨.db (.find .integrations _ _), .ok (some row)⟩ :: h => row :: found h
  | _ :: h => found h

def IntegrationsCall.renames : IntegrationsCall → Bool
  | .rename .. => true
  | _ => false

def WritesById (s : Effect) : Prop :=
  (∃ id userId changes, s = .db (updateIntegration id userId changes))
    ∨
  ∃ id userId, s = .db (deleteIntegration id userId)

theorem id_eq_of_owned {r : Integration} {id userId : Nat} (hp : (r.id == id && r.userId == userId) = true)
    : r.id = id :=
  beq_iff_eq.mp (Bool.and_eq_true_iff.mp hp).1

section Found

variable {h : IntegrationsHistory} {row : Integration}

theorem lastLoaded_eq_head? (h : IntegrationsHistory) : lastLoaded h = (found h).head? := by
  fun_induction found h with
  | case1 => rfl
  | case2 p rank row h ih => rfl
  | case3 ev h hnot ih =>
    unfold lastLoaded
    split
    . next heq => cases heq
    . next heq =>
      cases heq
      exact absurd rfl (hnot _ _ _)
    . next heq =>
      cases heq
      exact ih

theorem mem_found {p : Integration → Bool} {rank : Integration → Int}
    (hmem : ran (.find .integrations p rank) (some row) ∈ h)
    : row ∈ found h := by
  fun_induction found h with
  | case1 => cases hmem
  | case2 p' rank' row' h ih =>
    cases hmem with
    | head => exact List.mem_cons_self ..
    | tail _ hmem => exact List.mem_cons_of_mem _ (ih hmem)
  | case3 ev h hnot ih =>
    cases hmem with
    | head => exact absurd rfl (hnot _ _ _)
    | tail _ hmem => exact ih hmem

theorem mem_found_of_lastLoaded (hlast : lastLoaded h = some row) : row ∈ found h := by
  rw [lastLoaded_eq_head?] at hlast
  exact List.mem_of_head? hlast

end Found

section Isolated

variable [Platform] [Crypto]

/--
The integrations that a call has found are still there, and the last one has kept its secret and its metadata.
-/
structure Untouched (cfg : IntegrationsConfig) (h : IntegrationsHistory) (w : World) : Prop where
  there : ∀ row ∈ found h, ∃ r ∈ (w.db .integrations).rows, SameRow row r
  kept : ∀ row ∈ (found h).head?, ∀ r ∈ (w.db .integrations).rows, r.id = row.id →
    plaintextOf cfg r = plaintextOf cfg row ∧ r.metadata = row.metadata

/--
Whenever a call writes an integration, but for its label, no other call has written it since it has been found.
-/
def Isolated (cfg : IntegrationsConfig) (calls : List IntegrationsCall) (trace : List IntegrationsEntry) : Prop :=
  ∀ later x earlier, trace = later ++ x :: earlier → WritesById x.effect →
    (calls[x.call]?).any IntegrationsCall.renames = false → Untouched cfg (own x.call earlier) x.before

def Matching (trace : List IntegrationsEntry) : Prop :=
  ∀ i userId uuid row, Loaded (own i trace) userId uuid row → sameText row.uuid uuid = true ∧ row.userId = userId

variable {cfg : IntegrationsConfig} {calls : List IntegrationsCall} {trace : List IntegrationsEntry}
variable {x : IntegrationsEntry} {h : IntegrationsHistory} {w : World} {r row : Integration}

theorem Isolated.tail (hisolated : Isolated cfg calls (x :: trace)) : Isolated cfg calls trace := by
  intro later y earlier hsplit
  apply hisolated (x :: later)
  rw [hsplit]
  rfl

theorem Isolated.untouched (hisolated : Isolated cfg calls (x :: trace)) {call : IntegrationsCall}
    (hcall : calls[x.call]? = some call) (hrenames : call.renames = false) (hwrites : WritesById x.effect)
    : Untouched cfg (own x.call trace) x.before := by
  apply hisolated [] x trace rfl hwrites
  rw [hcall]
  exact hrenames

namespace Untouched

variable (huntouched : Untouched cfg h w)

include huntouched

theorem sameRow (hfound : row ∈ found h) (hr : r ∈ (w.db .integrations).rows) (hid : r.id = row.id)
    : SameRow row r := by
  have ⟨r', hr', hsame⟩ := huntouched.there row hfound
  rw [Table.eq_of_id_eq hr hr' (hid.trans hsame.id.symm)]
  exact hsame

theorem last (hlast : lastLoaded h = some row) (hr : r ∈ (w.db .integrations).rows) (hid : r.id = row.id)
    : SameRow row r ∧ plaintextOf cfg r = plaintextOf cfg row ∧ r.metadata = row.metadata := by
  refine ⟨huntouched.sameRow (mem_found_of_lastLoaded hlast) hr hid, ?_⟩
  rw [lastLoaded_eq_head?] at hlast
  exact huntouched.kept row hlast r hr hid

end Untouched

omit [Crypto] in
theorem Matching.init : Matching [] := fun _ _ _ _ hloaded => nomatch hloaded

/--
The integration that a call writes is the one that it has checked, though it has looked it up again since.
-/
theorem Untouched.checked {i userId : Nat} {uuid : String} {checked : Integration}
    (huntouched : Untouched cfg (own i trace) w) (hmatching : Matching trace)
    (hloaded : Loaded (own i trace) userId uuid row) (hchecked : Loaded (own i trace) userId uuid checked)
    (hr : r ∈ (w.db .integrations).rows) (hid : r.id = row.id)
    : SameRow checked r := by
  have hsame := huntouched.sameRow (mem_found hloaded) hr hid
  have ⟨r', hr', hsame'⟩ := huntouched.there checked (mem_found hchecked)
  have htext := (hmatching i userId uuid row hloaded).1
  have htext' := (hmatching i userId uuid checked hchecked).1
  rw [← hsame.uuid] at htext
  rw [← hsame'.uuid, sameText_comm] at htext'
  -- both have the uuid that the call has looked for, which no two integrations share
  have hclash : Entity.clash r r' = true := by
    simp only [Entity.clash, Bool.or_eq_true]
    exact Or.inl (sameText_trans htext htext')
  rw [Table.eq_of_clash hr hr' hclash]
  exact hsame'

variable [Locale]

theorem Matching.step (hx : IntegrationsStep cfg calls trace x) (hmatching : Matching trace)
    : Matching (x :: trace) := by
  intro i userId uuid row hloaded
  have hexecuted : x.Executed Effect.exec := hx.answered
  cases mem_own_cons.mp hloaded with
  | inl hnow =>
    have ⟨huuid, huser⟩ := Bool.and_eq_true_iff.mp (hexecuted.found_mem hnow.2).2
    exact ⟨huuid, beq_iff_eq.mp huser⟩
  | inr hbefore => exact hmatching i userId uuid row hbefore

inductive Fate (cfg : IntegrationsConfig) (calls : List IntegrationsCall) (trace : List IntegrationsEntry)
    (x : IntegrationsEntry) (r : Integration) : Prop where
  | kept (hr : r ∈ (x.after.db .integrations).rows)
  | updated {call : IntegrationsCall} {p : Integration → Bool} {f : Int → Integration → Integration}
    {affected : Nat} {now : Int} (hcall : calls[x.call]? = some call)
    (hran : ⟨x.effect, x.resp⟩ = ran (.update .integrations p f) affected) (hp : p r = true)
    (hdoes : Does cfg call (own x.call trace) (.db (.update .integrations p f)))
    (hr : f now r ∈ (x.after.db .integrations).rows)
  | deleted {call : IntegrationsCall} {p : Integration → Bool} {affected : Nat}
    (hcall : calls[x.call]? = some call) (hran : ⟨x.effect, x.resp⟩ = ran (.delete .integrations p) affected)
    (hp : p r = true) (hdoes : Does cfg call (own x.call trace) (.db (.delete .integrations p)))

theorem IntegrationsStep.fate (hx : IntegrationsStep cfg calls trace x) (hr : r ∈ (x.before.db .integrations).rows)
    : Fate cfg calls trace x r := by
  have hexecuted : x.Executed Effect.exec := hx.answered
  have ⟨call, hcall, hdoes⟩ := hx.allowed
  rcases hexecuted.table_cases .integrations with hsame | ⟨s, a, e, hran, hexec, htable, hread⟩
  . apply Fate.kept
    rw [show (x.after.db .integrations) = x.before.db .integrations from hsame]
    exact hr
  . have heffect : x.effect = .db s := congrArg Sigma.fst hran
    rw [heffect] at hdoes
    cases s with
    | find => simp at hread
    | all => simp at hread
    | count => simp at hread
    | insert t mk =>
      cases htable
      have ⟨_, _, hafter, _⟩ := hexecuted.inserted hran
      apply Fate.kept
      rw [show (x.after.db .integrations).rows = _ from hafter]
      exact List.mem_append_left _ hr
    | update t p f =>
      cases htable
      have ⟨now, _, hafter⟩ := hexecuted.updated hran
      have hmem : (if p r then f now r else r) ∈ (x.after.db .integrations).rows := by
        rw [show (x.after.db .integrations).rows = _ from hafter]
        exact List.mem_map_of_mem hr
      cases hp : p r with
      | true =>
        rw [hp, if_pos rfl] at hmem
        exact .updated hcall hran hp hdoes hmem
      | false =>
        rw [hp] at hmem
        exact .kept hmem
    | delete t p =>
      cases htable
      have ⟨_, hafter⟩ := hexecuted.deleted hran
      cases hp : p r with
      | true => exact .deleted hcall hran hp hdoes
      | false =>
        apply Fate.kept
        rw [show (x.after.db .integrations).rows = _ from hafter]
        exact List.mem_filter.mpr ⟨hr, by rw [hp]; rfl⟩

end Isolated

section Decidable

variable [Platform] [Crypto] {cfg : IntegrationsConfig} {calls : List IntegrationsCall}

instance (r r' : Integration) : Decidable (SameRow r r') :=
  decidable_of_iff (r'.id = r.id ∧ r'.uuid = r.uuid ∧ r'.userId = r.userId ∧ r'.type = r.type)
    ⟨fun ⟨hid, huuid, huser, htype⟩ => ⟨hid, huuid, huser, htype⟩, fun h => ⟨h.id, h.uuid, h.userId, h.type⟩⟩

instance (h : IntegrationsHistory) (w : World) : Decidable (Untouched cfg h w) :=
  decidable_of_iff
    ((∀ row ∈ found h, ∃ r ∈ (w.db .integrations).rows, SameRow row r)
      ∧
    ∀ row ∈ (found h).head?, ∀ r ∈ (w.db .integrations).rows, r.id = row.id →
      plaintextOf cfg r = plaintextOf cfg row ∧ r.metadata = row.metadata)
    ⟨fun ⟨hthere, hkept⟩ => ⟨hthere, hkept⟩, fun h => ⟨h.there, h.kept⟩⟩

def Effect.changesIntegrations : Effect → Bool
  | .db (.update .integrations _ _) | .db (.delete .integrations _) => true
  | _ => false

/--
All updates and deletes of a run are isolated, those of labels among them.
-/
def isolates (cfg : IntegrationsConfig) : List IntegrationsEntry → Bool
  | [] => true
  | x :: earlier =>
    (!x.effect.changesIntegrations || decide (Untouched cfg (own x.call earlier) x.before)) && isolates cfg earlier

theorem isolated_of_isolates {trace : List IntegrationsEntry} (h : isolates cfg trace = true)
    : Isolated cfg calls trace := by
  intro later x earlier hsplit hwrites _
  induction later generalizing trace with
  | nil =>
    rw [hsplit] at h
    have hchanges : x.effect.changesIntegrations = true := by
      rcases hwrites with ⟨_, _, _, heffect⟩ | ⟨_, _, heffect⟩
      . rw [heffect]
        rfl
      . rw [heffect]
        rfl
    have hnow := (Bool.and_eq_true_iff.mp h).1
    rw [hchanges] at hnow
    exact of_decide_eq_true hnow
  | cons y later ih =>
    rw [hsplit] at h
    exact ih (Bool.and_eq_true_iff.mp h).2 rfl

end Decidable

end Kerghan.Integrations
