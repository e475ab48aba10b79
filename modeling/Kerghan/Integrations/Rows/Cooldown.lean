import Mathlib.Algebra.Order.Group.Unbundled.Abs
import Mathlib.Algebra.Order.Ring.Int
import Kerghan.Integrations.Lemmas.Test
import Kerghan.Integrations.Sample
import Kerghan.Integrations.Secrets.Steps
import Kerghan.Store.Lookup

/-!
This module contains the proof that the tests of an integration keep their distance, as long as no call records
a result after another call has moved the last test.
-/

namespace Kerghan.Integrations

open IntegrationTestCooldownService

def NotLater : Option Date → Option Date → Bool
  | none, _ => true
  | some t, some t' => t ≤ t'
  | some _, none => false

theorem notLater_refl {t : Option Date} : NotLater t t = true := by
  cases t with
  | none => rfl
  | some t => simp [NotLater]

theorem notLater_trans {t t' t'' : Option Date} (h : NotLater t t' = true) (h' : NotLater t' t'' = true)
    : NotLater t t'' = true := by
  cases t with
  | none => rfl
  | some t =>
    cases t' with
    | none => simp [NotLater] at h
    | some t' =>
      cases t'' with
      | none => simp [NotLater] at h'
      | some t'' =>
        simp only [NotLater, decide_eq_true_eq] at h h' ⊢
        exact Int.le_trans h h'

/--
The update is that of an outcome or of a new credential: it writes the result of the last test.
-/
def writesResult (f : Int → Integration → Integration) (r : Integration) : Bool :=
  (f 0 { r with lastTestResult := none }).lastTestResult.isSome

section Cooldown

variable [Platform]

/--
The last test of the integration `id`, if there is such an integration.
-/
def lastTest (w : World) (id : Nat) : Option (Option Date) :=
  ((w.db .integrations).lookup Integration.id id).map Integration.lastTestedAt

/--
The effect is how a call gets to the time `t` for the integration `id`: it has written this time there, or it has
read it from the clock while the last test was not later.
-/
def Effect.getsTime (before after : World) (id : Nat) (t : Date) : (s : Effect) → Answer s → Bool
  | .now, time => toDatetime time == t && (lastTest before id).all fun last => NotLater last (some t)
  | .db (.update .integrations p _), _ =>
    (before.db .integrations).rows.any (fun r => r.id == id && p r) && lastTest after id == some (some t)
  | _, _ => false

/--
No step has moved the last test of the integration since the call `i` got to its time.
-/
def unmoved (i id : Nat) (t : Date) : List IntegrationsEntry → Bool
  | [] => false
  | x :: trace =>
    (x.call == i && x.effect.getsTime x.before x.after id t x.resp)
      || (lastTest x.after id == lastTest x.before id && unmoved i id t trace)

/--
A result is recorded while the last test is still where it was when its call got to its time. This also covers the
claims if the cooldown is negative.
-/
def inTime (cfg : IntegrationsConfig) (trace : List IntegrationsEntry) (x : IntegrationsEntry) : Bool :=
  match x.effect with
  | .db (.update .integrations p f) =>
    (x.before.db .integrations).rows.all fun r =>
      !p r || (decide (0 ≤ cooldownMs cfg) && !writesResult f r)
        || (f 0 r).lastTestedAt.any fun t => unmoved x.call r.id t trace
  | _ => true

def IntegrationsCall.tests : IntegrationsCall → Bool
  | .test .. => true
  | _ => false

def Effect.roundsUp : (s : Effect) → Answer s → Bool
  | .now, time => time ≤ toDatetime time
  | _, _ => true

/--
Every result is recorded in time, and the clock of a test is not rounded down.
-/
def undisturbed (cfg : IntegrationsConfig) (calls : List IntegrationsCall) : List IntegrationsEntry → Bool
  | [] => true
  | x :: trace =>
    inTime cfg trace x
      && (!(calls[x.call]?).any IntegrationsCall.tests || x.effect.roundsUp x.resp)
      && undisturbed cfg calls trace

/--
The step claims the integration `r` at the time `now`, for a test that has found it as `row`.
-/
structure ClaimsRow (cfg : IntegrationsConfig) (x : IntegrationsEntry) (row r : Integration) (now : Date)
    : Prop where
  granted : ⟨x.effect, x.resp⟩ = ran (claimTest row.uuid row.userId now (now - cooldownMs cfg)) (1 : Nat)
  stored : r ∈ (x.before.db .integrations).rows
  uuid : sameText r.uuid row.uuid = true
  userId : r.userId = row.userId
  due : ∀ last, r.lastTestedAt = some last → last < now - cooldownMs cfg

structure CooledDown (cfg : IntegrationsConfig) (calls : List IntegrationsCall)
    (trace : List IntegrationsEntry) : Prop where
  /-- `last_tested_at` never moves backwards. -/
  forward : ∀ x ∈ trace, ∀ r ∈ (x.before.db .integrations).rows, ∀ r' ∈ (x.after.db .integrations).rows,
    r'.id = r.id → NotLater r.lastTestedAt r'.lastTestedAt = true
  /-- Before a test asks GitHub, it has claimed the integration that it has found, at the time that it has read. -/
  claimed : ∀ later y earlier userId uuid, trace = later ++ y :: earlier → y.effect.callsGithub = true →
    calls[y.call]? = some (.test userId uuid) → ∃ between x before row r now,
      earlier = between ++ x :: before
        ∧
      x.call = y.call
        ∧
      Loaded (own x.call before) userId uuid row
        ∧
      clock now ∈ own x.call before
        ∧
      ClaimsRow cfg x row r now
        ∧
      ∀ r' ∈ (x.before.db .integrations).rows, r'.id = row.id → r' = r
  /-- The claims of two calls keep their distance. -/
  apart : ∀ x ∈ trace, ∀ y ∈ trace, x.call ≠ y.call → ∀ row row' r r' now now', ClaimsRow cfg x row r now →
    ClaimsRow cfg y row' r' now' → r.id = r'.id → cooldownMs cfg ≤ |now - now'|

section Unmoved

variable {w : World} {x : IntegrationsEntry} {trace : List IntegrationsEntry}

theorem lastTest_of_mem {r : Integration} (hr : r ∈ (w.db .integrations).rows)
    : lastTest w r.id = some r.lastTestedAt := by
  unfold lastTest
  cases hlookup : (w.db .integrations).lookup Integration.id r.id with
  | none =>
    have hnone := List.find?_eq_none.mp hlookup r hr
    simp at hnone
  | some r' =>
    obtain ⟨hr', hid⟩ := Table.mem_of_lookup hlookup
    rw [Table.eq_of_id_eq hr' hr hid]
    rfl

theorem notLater_of_getsTime (hexecuted : x.Executed Effect.exec) {id : Nat} {t : Date}
    (hgets : x.effect.getsTime x.before x.after id t x.resp = true) {r : Integration}
    (hr : r ∈ (x.after.db .integrations).rows) (hid : r.id = id)
    : NotLater r.lastTestedAt (some t) = true := by
  unfold Effect.getsTime at hgets
  split at hgets
  . next heffect _ =>
    obtain ⟨e, hexec⟩ := hexecuted
    have hsame : x.after = (x.effect.exec e x.before).2 := (congrArg Prod.snd hexec).symm
    rw [hsame, heffect] at hr
    have hbefore : r ∈ (x.before.db .integrations).rows := hr
    rw [← hid, lastTest_of_mem hbefore, Option.all_some] at hgets
    exact (Bool.and_eq_true_iff.mp hgets).2
  . rw [← hid, lastTest_of_mem hr, Bool.and_eq_true_iff, beq_iff_eq] at hgets
    rw [Option.some.inj hgets.2]
    exact notLater_refl
  . simp at hgets

/--
The last test of an integration is not later than the time that a call has got to, as long as it is not moved.
-/
def Standing (w : World) (trace : List IntegrationsEntry) : Prop :=
  ∀ i id t, unmoved i id t trace = true →
    ∀ r ∈ (w.db .integrations).rows, r.id = id → NotLater r.lastTestedAt (some t) = true

theorem Standing.step (hexecuted : x.Executed Effect.exec) (hstanding : Standing x.before trace)
    : Standing x.after (x :: trace) := by
  intro i id t hunmoved r hr hid
  rcases Bool.or_eq_true_iff.mp hunmoved with hgets | hsame
  . exact notLater_of_getsTime hexecuted (Bool.and_eq_true_iff.mp hgets).2 hr hid
  . obtain ⟨hlast, hbefore⟩ := Bool.and_eq_true_iff.mp hsame
    rw [beq_iff_eq, ← hid, lastTest_of_mem hr] at hlast
    obtain ⟨r₀, hlookup, hkept⟩ := Option.map_eq_some_iff.mp hlast.symm
    obtain ⟨hr₀, hid₀⟩ := Table.mem_of_lookup hlookup
    rw [← hkept]
    exact hstanding i id t hbefore r₀ hr₀ (hid₀.trans hid)

end Unmoved

variable [Crypto] [Locale]

section Dates

variable {cfg : IntegrationsConfig} {call : IntegrationsCall} {h : IntegrationsHistory}

/--
What a call does to `last_tested_at`.
-/
inductive Dates (cfg : IntegrationsConfig) (call : IntegrationsCall) (h : IntegrationsHistory)
    : Effect → Prop where
  | free {s : Effect} (hs : s.updatesIntegrations = false)
    (hgithub : ∀ userId uuid, call = .test userId uuid → s.callsGithub = true →
      ∃ row now, ClaimedAt cfg userId uuid h row now)
    : Dates cfg call h s
  | keeps {p : Integration → Bool} {changes : Integration → Integration}
    (hkeeps : ∀ r, (changes r).lastTestedAt = r.lastTestedAt)
    : Dates cfg call h (.db (.update .integrations p fun _ => changes))
  | claim {uuid : String} {userId : Nat} {row : Integration} {now : Date} (hcall : call = .test userId uuid)
    (hloaded : Loaded h userId uuid row) (hread : clock now ∈ h)
    : Dates cfg call h (.db (claimTest row.uuid userId now (now - cooldownMs cfg)))
  | records {p : Integration → Bool} {changes : Integration → Integration}
    (hresult : ∀ r, (changes r).lastTestResult.isSome = true)
    : Dates cfg call h (.db (.update .integrations p fun _ => changes))

omit [Platform] [Crypto] [Locale] in
theorem Records.writesResult {type : IntegrationType} {now : Date} {outcome : TestOutcome}
    {changes : Integration → Integration} (hrecords : Records type now outcome changes) (r : Integration)
    : (changes r).lastTestResult.isSome = true := by
  cases hrecords <;> rfl

omit [Crypto] [Locale] in
theorem Tests.dates {userId : Nat} {uuid : String} {s : Effect} (hs : Tests cfg userId uuid h s)
    : Dates cfg (.test userId uuid) h s := by
  cases hs with
  | free hs hgithub => exact .free hs fun _ _ _ h => by rw [hgithub] at h; simp at h
  | @github _ row now hs hclaimed =>
    refine .free hs fun userId' uuid' heq _ => ?_
    cases heq
    exact ⟨row, now, hclaimed⟩
  | claim hloaded hread => exact .claim rfl hloaded hread
  | rewrite => exact .keeps fun _ => rfl
  | undecryptable => exact .records fun _ => rfl
  | record hrecords => exact .records hrecords.writesResult

omit [Platform] [Crypto] [Locale] in
theorem not_updates_of_not_writes {s : Effect} (hs : s.writes = false) : s.updatesIntegrations = false := by
  unfold Effect.updatesIntegrations
  split
  . simp [Effect.writes] at hs
  . rfl

theorem Does.dates {s : Effect} (hs : Does cfg call h s) (hcall : ∀ userId uuid, call ≠ .test userId uuid)
    : Dates cfg call h s := by
  have hfree : ∀ {s : Effect}, s.updatesIntegrations = false → Dates cfg call h s :=
    fun hs => .free hs fun userId uuid heq => absurd heq (hcall userId uuid)
  cases hs with
  | quiet hs => exact hfree (not_updates_of_isQuiet hs)
  | insert => exact hfree rfl
  | replace => exact .records fun _ => rfl
  | rename => exact .keeps fun _ => rfl
  | claim => exact absurd rfl (hcall _ _)
  | undecryptable => exact absurd rfl (hcall _ _)
  | record => exact absurd rfl (hcall _ _)
  | rewrite => exact .keeps fun _ => rfl
  | delete => exact hfree rfl
  | issue hissues =>
    apply hfree
    cases hissues with
    | free hs => exact not_updates_of_not_writes hs
    | _ => rfl
  | consume hconsumes =>
    apply hfree
    cases hconsumes with
    | free hs => exact not_updates_of_not_writes hs
    | _ => rfl
  | offer _ _ _ _ _ hissues =>
    apply hfree
    cases hissues with
    | free hs => exact not_updates_of_not_writes hs
    | _ => rfl

omit [Crypto] [Locale] in
theorem Dates.claimed {userId : Nat} {uuid : String} {s : Effect} (hs : Dates cfg (.test userId uuid) h s)
    (hgithub : s.callsGithub = true)
    : ∃ row now, ClaimedAt cfg userId uuid h row now := by
  cases hs with
  | free _ hclaimed => exact hclaimed userId uuid rfl hgithub
  | _ => simp [Effect.callsGithub] at hgithub

theorem IntegrationsCall.prog_dates (call : IntegrationsCall)
    : (call.prog cfg).Meets Answers (Dates cfg call) (fun _ _ => True) [] := by
  have hother : (∀ userId uuid, call ≠ .test userId uuid) →
      (call.prog cfg).Meets Answers (Dates cfg call) (fun _ _ => True) [] := by
    intro hcall
    have hdoes : (call.prog cfg).Meets Answers (Does cfg call) (fun h' _ => call.Promises cfg h') [] :=
      call.prog_does
    exact (hdoes.imp fun _ _ hs => hs.dates hcall).mono fun _ _ _ _ => trivial
  cases call with
  | test userId uuid =>
    have htests : (IntegrationConnectionTestService.test cfg userId uuid).Meets Answers (Tests cfg userId uuid)
        (fun h' r => ∀ e, r = .error e → Passing h') [] := IntegrationConnectionTestService.test_tests
    apply (htests.imp fun _ _ hs => hs.dates).map
    . exact fun _ _ _ => trivial
    . exact fun _ _ _ => trivial
  | _ => exact hother (by simp)

omit [Crypto] [Locale] in
/--
The thresholds of two claims are the same if the claims have the same `WHERE` and there is a row for it.
-/
theorem threshold_eq {uuid uuid' : String} {userId userId' : Nat} {now now' threshold threshold' : Date}
    (h : claimTest uuid userId now threshold = claimTest uuid' userId' now' threshold') {r : Integration}
    (huuid : sameText r.uuid uuid = true) (huser : r.userId = userId)
    : threshold = threshold' := by
  obtain ⟨_, hwhere, _⟩ := Stmt.update.inj h
  have htested : ∀ last : Date, decide (last < threshold) = (sameText r.uuid uuid' && r.userId == userId' &&
      decide (last < threshold')) := by
    intro last
    have hrow := congrFun (eq_of_heq hwhere) { r with lastTestedAt := some last }
    simpa [huuid, huser] using hrow
  have hmatches : (sameText r.uuid uuid' && r.userId == userId') = true := by
    have hbelow := htested (threshold - 1)
    rw [decide_eq_true (Int.sub_lt_self threshold Int.one_pos)] at hbelow
    exact (Bool.and_eq_true_iff.mp hbelow.symm).1
  simp only [hmatches, Bool.true_and, decide_eq_decide] at htested
  refine Int.le_antisymm (Int.not_lt.mp fun hlt => ?_) (Int.not_lt.mp fun hlt => ?_)
  . exact absurd ((htested threshold').mp hlt) (Int.lt_irrefl _)
  . exact absurd ((htested threshold).mpr hlt) (Int.lt_irrefl _)

end Dates

section Run

variable {cfg : IntegrationsConfig} {calls : List IntegrationsCall} {trace : List IntegrationsEntry}
variable {x : IntegrationsEntry} {w : World}

abbrev DatesStep (cfg : IntegrationsConfig) (calls : List IntegrationsCall)
    (trace : List IntegrationsEntry) (x : IntegrationsEntry) : Prop :=
  Config.Performs Effect.exec (fun i h s => ∃ call, calls[i]? = some call ∧ Dates cfg call h s) trace x

omit [Crypto] [Locale] in
theorem undisturbed_split (later : List IntegrationsEntry)
    (hundisturbed : undisturbed cfg calls (later ++ x :: trace) = true)
    : inTime cfg trace x = true
        ∧
      (∀ userId uuid, calls[x.call]? = some (.test userId uuid) → x.effect.roundsUp x.resp = true)
        ∧
      undisturbed cfg calls trace = true := by
  induction later with
  | nil =>
    simp only [List.nil_append, undisturbed, Bool.and_eq_true] at hundisturbed
    refine ⟨hundisturbed.1.1, fun userId uuid hcall => ?_, hundisturbed.2⟩
    simpa [hcall, IntegrationsCall.tests] using hundisturbed.1.2
  | cons y later ih =>
    simp only [List.cons_append, undisturbed, Bool.and_eq_true] at hundisturbed
    exact ih hundisturbed.2

omit [Crypto] [Locale] in
theorem le_toDatetime {userId : Nat} {uuid : String} {i : Nat} {now : Date}
    (hundisturbed : undisturbed cfg calls trace = true) (hcall : calls[i]? = some (.test userId uuid))
    (hread : clock now ∈ own i trace)
    : now ≤ toDatetime now := by
  obtain ⟨later, y, earlier, rfl, rfl, hev⟩ := split_of_mem_own hread
  have hup := (undisturbed_split _ hundisturbed).2.1 userId uuid hcall
  have hclock : y.effect.roundsUp y.resp = Effect.now.roundsUp now :=
    congrArg (fun ev : (s : Effect) × Answer s => ev.1.roundsUp ev.2) hev
  rw [hclock] at hup
  exact of_decide_eq_true hup

omit [Crypto] [Locale] in
theorem notLater_of_inTime (hintime : inTime cfg trace x = true) (hstanding : Standing x.before trace)
    {p : Integration → Bool} {changes : Integration → Integration}
    (heffect : x.effect = .db (.update .integrations p fun _ => changes)) {r : Integration}
    (hr : r ∈ (x.before.db .integrations).rows) (hp : p r = true)
    (hkind : writesResult (fun _ => changes) r = true ∨ cooldownMs cfg < 0)
    : NotLater r.lastTestedAt (changes r).lastTestedAt = true := by
  unfold inTime at hintime
  rw [heffect] at hintime
  have hrow := List.all_eq_true.mp hintime r hr
  have hunmoved : ((changes r).lastTestedAt.any fun t => unmoved x.call r.id t trace) = true := by
    rcases hkind with hwrites | hneg
    . simpa [hp, hwrites] using hrow
    . have hnot : ¬0 ≤ cooldownMs cfg := Int.not_le.mpr hneg
      simpa [hp, hnot] using hrow
  cases hlast : (changes r).lastTestedAt with
  | none => simp [hlast] at hunmoved
  | some t =>
    rw [hlast, Option.any_some] at hunmoved
    exact hstanding x.call r.id t hunmoved r hr rfl

omit [Crypto] [Locale] in
theorem DatesStep.update (hx : DatesStep cfg calls trace x)
    (hundisturbed : undisturbed cfg calls (x :: trace) = true) (hstanding : Standing x.before trace)
    {p : Integration → Bool} {changes : Integration → Integration} {affected : Nat}
    (hran : ⟨x.effect, x.resp⟩ = ran (.update .integrations p fun _ => changes) affected) {r : Integration}
    (hr : r ∈ (x.before.db .integrations).rows) (hp : p r = true)
    : NotLater r.lastTestedAt (changes r).lastTestedAt = true := by
  obtain ⟨call, hcall, hdates⟩ := hx.allowed
  obtain ⟨hintime, _, hearlier⟩ := undisturbed_split [] hundisturbed
  have heffect : x.effect = .db (.update .integrations p fun _ => changes) := congrArg Sigma.fst hran
  have hchecked : writesResult (fun _ => changes) r = true ∨ cooldownMs cfg < 0 →
      NotLater r.lastTestedAt (changes r).lastTestedAt = true :=
    notLater_of_inTime hintime hstanding heffect hr hp
  rw [heffect] at hdates
  generalize hs : Effect.db (.update .integrations p fun _ => changes) = s at hdates
  cases hdates with
  | free hfree =>
    subst hs
    simp [Effect.updatesIntegrations] at hfree
  | keeps hkeeps =>
    obtain ⟨_, _, hf⟩ := Stmt.update.inj (Effect.db.inj hs)
    rw [congrFun (eq_of_heq hf) 0, hkeeps]
    exact notLater_refl
  | records hresult =>
    obtain ⟨_, _, hf⟩ := Stmt.update.inj (Effect.db.inj hs)
    refine hchecked (Or.inl ?_)
    unfold writesResult
    rw [congrFun (eq_of_heq hf) 0]
    exact hresult _
  | @claim uuid userId row now htest _ hread =>
    obtain ⟨_, hwhere, hf⟩ := Stmt.update.inj (Effect.db.inj hs)
    by_cases hcooldown : 0 ≤ cooldownMs cfg
    . rw [congrFun (eq_of_heq hwhere) r] at hp
      rw [congrFun (eq_of_heq hf) 0]
      have hbefore := (Bool.and_eq_true_iff.mp hp).2
      have hnow : now ≤ toDatetime now := le_toDatetime hearlier (htest ▸ hcall) hread
      cases hlast : r.lastTestedAt with
      | none => rfl
      | some last =>
        rw [hlast, Option.all_some, decide_eq_true_eq] at hbefore
        have hle : last ≤ now :=
          Int.le_of_lt (Int.lt_of_lt_of_le hbefore (Int.sub_le_self _ hcooldown))
        exact decide_eq_true (Int.le_trans hle hnow)
    . exact hchecked (Or.inr (Int.not_le.mp hcooldown))

theorem DatesStep.forward (hx : IntegrationsStep cfg calls trace x) (hdates : DatesStep cfg calls trace x)
    (hundisturbed : undisturbed cfg calls (x :: trace) = true) (hstanding : Standing x.before trace)
    {r r' : Integration} (hr : r ∈ (x.before.db .integrations).rows)
    (hr' : r' ∈ (x.after.db .integrations).rows) (hid : r'.id = r.id)
    : NotLater r.lastTestedAt r'.lastTestedAt = true := by
  cases hx.origin hr' with
  | kept hold =>
    rw [Table.eq_of_id_eq hr hold hid.symm]
    exact notLater_refl
  | inserted _ hran =>
    rw [hx.inserted_id hran] at hid
    exact absurd hid (Nat.ne_of_gt ((x.before.db .integrations).id_lt r hr))
  | @updated _ r₀ p changes affected _ hr₀ hran hp htouches hrow =>
    have hsame : SameRow r₀ (changes r₀) := htouches.sameRow r₀
    rw [hrow] at hid ⊢
    obtain rfl : r₀ = r := Table.eq_of_id_eq hr₀ hr (hsame.id.symm.trans hid)
    exact hdates.update hundisturbed hstanding hran hr hp

omit [Crypto] [Locale] in
theorem ClaimsRow.claims (hexecuted : x.Executed Effect.exec) {row r : Integration} {now : Date}
    (hclaims : ClaimsRow cfg x row r now)
    : (∀ last, NotLater (some last) r.lastTestedAt = true → last + cooldownMs cfg ≤ now)
        ∧
      ∀ r' ∈ (x.after.db .integrations).rows, r'.id = r.id → r'.lastTestedAt = some (toDatetime now) := by
  constructor
  . intro last hlater
    cases hbound : r.lastTestedAt with
    | none =>
      rw [hbound] at hlater
      simp [NotLater] at hlater
    | some last' =>
      rw [hbound] at hlater
      have hle : last ≤ last' := of_decide_eq_true hlater
      exact Int.le_of_lt (Int.add_lt_of_lt_sub_right (Int.lt_of_le_of_lt hle (hclaims.due last' hbound)))
  . intro r' hr' hid
    obtain ⟨_, _, hafter⟩ := hexecuted.updated hclaims.granted
    rw [show (x.after.db .integrations).rows = _ from hafter] at hr'
    obtain ⟨r₀, hr₀, rfl⟩ := List.mem_map.mp hr'
    have hkeep : r₀.id = r.id := by
      split at hid
      . exact hid
      . exact hid
    obtain rfl : r₀ = r := Table.eq_of_id_eq hr₀ hclaims.stored hkeep
    have hdue : (r₀.lastTestedAt.all fun last => decide (last < now - cooldownMs cfg)) = true := by
      cases hlast : r₀.lastTestedAt with
      | none => rfl
      | some last => exact decide_eq_true (hclaims.due last hlast)
    rw [if_pos (by simp [hclaims.uuid, hclaims.userId, hdue])]

omit [Crypto] [Locale] in
theorem ClaimsRow.le_toDatetime (hdates : DatesStep cfg calls trace x)
    (hundisturbed : undisturbed cfg calls trace = true) {row r : Integration} {now : Date}
    (hclaims : ClaimsRow cfg x row r now)
    : now ≤ toDatetime now := by
  obtain ⟨call, hcall, hallowed⟩ := hdates.allowed
  rw [show x.effect = .db (claimTest row.uuid row.userId now (now - cooldownMs cfg)) from
    congrArg Sigma.fst hclaims.granted] at hallowed
  generalize hs : Effect.db (claimTest row.uuid row.userId now (now - cooldownMs cfg)) = s at hallowed
  cases hallowed with
  | free hfree =>
    subst hs
    simp [Effect.updatesIntegrations] at hfree
  | keeps hkeeps =>
    obtain ⟨_, _, hf⟩ := Stmt.update.inj (Effect.db.inj hs)
    have hrow := congrFun (congrFun (eq_of_heq hf) 0) { r with lastTestedAt := none }
    have hkept := hkeeps { r with lastTestedAt := none }
    rw [← hrow] at hkept
    simp at hkept
  | records hresult =>
    obtain ⟨_, _, hf⟩ := Stmt.update.inj (Effect.db.inj hs)
    have hrow := congrFun (congrFun (eq_of_heq hf) 0) { r with lastTestResult := none }
    have hwrites := hresult { r with lastTestResult := none }
    rw [← hrow] at hwrites
    simp at hwrites
  | @claim uuid userId row' now' htest _ hread =>
    have hthreshold := threshold_eq (Effect.db.inj hs) hclaims.uuid hclaims.userId
    obtain rfl : now = now' := sub_left_inj.mp hthreshold
    exact Integrations.le_toDatetime hundisturbed (htest ▸ hcall) hread

/--
The claims so far: the row of a claim has been tested last at its time or later, and the claims of a row keep
their distance.
-/
structure Claims (cfg : IntegrationsConfig) (w : World) (trace : List IntegrationsEntry) : Prop where
  standing : ∀ x ∈ trace, ∀ row r now, ClaimsRow cfg x row r now → r.id < (w.db .integrations).nextId ∧
    ∀ r' ∈ (w.db .integrations).rows, r'.id = r.id → NotLater (some now) r'.lastTestedAt = true
  apart : trace.Pairwise fun x y => ∀ row row' r r' now now', ClaimsRow cfg x row r now →
    ClaimsRow cfg y row' r' now' → r.id = r'.id → now' + cooldownMs cfg ≤ now

theorem Claims.step (hx : IntegrationsStep cfg calls trace x) (hdates : DatesStep cfg calls trace x)
    (hundisturbed : undisturbed cfg calls (x :: trace) = true) (hstanding : Standing x.before trace)
    (hclaims : Claims cfg x.before trace)
    : Claims cfg x.after (x :: trace) where
  standing := by
    intro y hy row r now hclaim
    rcases List.mem_cons.mp hy with rfl | hold
    . constructor
      . exact Nat.lt_of_lt_of_le ((y.before.db .integrations).id_lt r hclaim.stored)
          (Entry.Executed.nextId_le hx.answered .integrations)
      . intro r' hr' hid
        rw [(hclaim.claims hx.answered).2 r' hr' hid]
        exact decide_eq_true (hclaim.le_toDatetime hdates (undisturbed_split [] hundisturbed).2.2)
    . obtain ⟨hlt, hlast⟩ := hclaims.standing y hold row r now hclaim
      refine ⟨Nat.lt_of_lt_of_le hlt (Entry.Executed.nextId_le hx.answered .integrations), ?_⟩
      intro r'' hr'' hid
      rcases hx.version hr'' with ⟨r', hr', hsame⟩ | ⟨_, hran⟩
      . have hforward := DatesStep.forward hx hdates hundisturbed hstanding hr' hr'' hsame.id
        exact notLater_trans (hlast r' hr' (hsame.id.symm.trans hid)) hforward
      . rw [hx.inserted_id hran] at hid
        exact absurd hid (Nat.ne_of_gt hlt)
  apart := by
    refine List.pairwise_cons.mpr ⟨fun y hy row row' r r' now now' hclaim hclaim' hid => ?_, hclaims.apart⟩
    exact (hclaim.claims hx.answered).1 now' ((hclaims.standing y hy row' r' now' hclaim').2 r hclaim.stored hid)

omit [Crypto] [Locale] in
theorem Identities.claimed (hidentities : Identities x.before trace) (hexecuted : x.Executed Effect.exec)
    {userId : Nat} {uuid : String} {row : Integration} {now : Date}
    (hloaded : Loaded (own x.call trace) userId uuid row)
    (hran : ⟨x.effect, x.resp⟩ = ran (claimTest row.uuid userId now (now - cooldownMs cfg)) (1 : Nat))
    : ∃ r, ClaimsRow cfg x row r now ∧ ∀ r' ∈ (x.before.db .integrations).rows, r'.id = row.id → r' = r := by
  obtain rfl : row.userId = userId := (hidentities.loaded _ _ _ _ hloaded).2
  obtain ⟨_, hcount, _⟩ := hexecuted.updated hran
  have hpos : 0 < (x.before.db .integrations).rows.countP fun r => sameText r.uuid row.uuid &&
      r.userId == row.userId && r.lastTestedAt.all fun last => decide (last < now - cooldownMs cfg) :=
    Nat.lt_of_lt_of_le Nat.zero_lt_one (Nat.le_of_eq hcount)
  obtain ⟨r, hr, hp⟩ := List.countP_pos_iff.mp hpos
  simp only [Bool.and_eq_true, beq_iff_eq] at hp
  refine ⟨r, ⟨hran, hr, hp.1.1, hp.1.2, fun last hlast => ?_⟩, fun r' hr' hid => ?_⟩
  . have hbefore := hp.2
    rw [hlast, Option.all_some, decide_eq_true_eq] at hbefore
    exact hbefore
  . have hsame : SameRow row r' := (hidentities.known _ row (Or.inl ⟨_, _, hloaded⟩)).2 r' hr' hid
    apply Table.eq_of_clash hr' hr
    have huuid := hp.1.1
    rw [← hsame.uuid, sameText_comm] at huuid
    simp [Entity.clash, huuid]

/--
Whatever the order of the steps of any number of calls: if every result is recorded before another call has moved
the last test, and the clock of a test is not rounded down, then the last test of an integration never moves
backwards, and any two tests that have asked GitHub about it have claimed it at times that are the cooldown apart.
-/
theorem cooldown_kept {cfg : IntegrationsConfig} {w : World} {calls : List IntegrationsCall}
    {schedule : Schedule}
    (hundisturbed : undisturbed cfg calls
      (Calls.after w (calls.map (IntegrationsCall.prog cfg)) schedule).trace = true)
    : CooledDown cfg calls (Calls.after w (calls.map (IntegrationsCall.prog cfg)) schedule).trace := by
  let run := Calls.after w (calls.map (IntegrationsCall.prog cfg)) schedule
  -- the invariant: where an unmoved last test stands, and how far apart the claims are
  let I : World → List IntegrationsEntry → Prop := fun w' t =>
    Identities w' t ∧ Standing w' t ∧ Claims cfg w' t
  have hprog : ∀ call : IntegrationsCall, (call.prog cfg).Meets Answers
      (fun h s => Does cfg call h s ∧ Dates cfg call h s) (fun h' _ => call.Promises cfg h' ∧ True) [] :=
    fun call => call.prog_does.and call.prog_dates
  have hstep : ∀ x t, undisturbed cfg calls (x :: t) = true → Config.Performs Effect.exec
      (fun i h s => ∃ call, calls[i]? = some call ∧ Does cfg call h s ∧ Dates cfg call h s) t x →
      I x.before t → I x.after (x :: t) := by
    intro x t hundisturbed hx ⟨hidentities, hstanding, hclaims⟩
    obtain ⟨call, hcall, hdoes, hdates⟩ := hx.allowed
    have hx' : IntegrationsStep cfg calls t x := ⟨⟨call, hcall, hdoes⟩, hx.answered⟩
    have hdated : DatesStep cfg calls t x := ⟨⟨call, hcall, hdates⟩, hx.answered⟩
    exact ⟨hidentities.step hx', hstanding.step hx.answered, hclaims.step hx' hdated hundisturbed hstanding⟩
  have hinit : I w [] := ⟨.init, fun _ _ _ hunmoved => by simp [unmoved] at hunmoved, by simp, .nil⟩
  have hadm : ∀ x t, undisturbed cfg calls (x :: t) = true → undisturbed cfg calls t = true :=
    fun x t h => (undisturbed_split [] h).2.2
  have hsplit : ∀ {later x earlier}, run.trace = later ++ x :: earlier →
      IntegrationsStep cfg calls earlier x ∧ DatesStep cfg calls earlier x ∧ I x.before earlier := by
    intro later x earlier hsplit
    refine ⟨performs_integrations w calls schedule hsplit, ?_, ?_⟩
    . exact Config.performs_of_split answers_exec (start_meets IntegrationsCall.prog_dates w calls) rfl schedule
        hsplit
    . exact (Config.run_induction_split (A := fun t => undisturbed cfg calls t = true) hadm hstep answers_exec
        (start_meets hprog w calls) hinit rfl schedule hundisturbed hsplit).1
  have hclaims : Claims cfg run.world run.trace := (Config.run_induction
    (A := fun t => undisturbed cfg calls t = true) hadm hstep answers_exec
    (start_meets hprog w calls) hinit schedule hundisturbed).2.2
  -- what is true of the whole trace is true of every earlier one
  have hsuffix : ∀ {later t}, run.trace = later ++ t → undisturbed cfg calls t = true := by
    intro later t heq
    have htrace : undisturbed cfg calls (later ++ t) = true := heq ▸ hundisturbed
    clear heq
    induction later with
    | nil => exact htrace
    | cons x later ih => exact ih (hadm _ _ htrace)
  constructor
  . intro x hmem r hr r' hr' hid
    obtain ⟨later, earlier, heq⟩ := List.append_of_mem hmem
    obtain ⟨hx, hdates, _, hstanding, _⟩ := hsplit heq
    exact DatesStep.forward hx hdates (hsuffix heq) hstanding hr hr' hid
  . intro later y earlier userId uuid heq hgithub hcall
    obtain ⟨_, ⟨⟨call, hcall', hdates⟩, _⟩, _⟩ := hsplit heq
    obtain rfl := Option.some.inj (hcall.symm.trans hcall')
    obtain ⟨row, now, newer, older, howned, hloaded, hread⟩ := hdates.claimed hgithub
    obtain ⟨between, x, before, rfl, hi, hran, _, rfl⟩ := split_of_own_eq howned
    rw [← hi] at hloaded hread
    have heq' : run.trace = (later ++ y :: between) ++ x :: before := by
      rw [show run.trace = _ from heq]
      simp
    obtain ⟨hx, _, hidentities, _⟩ := hsplit heq'
    obtain ⟨r, hclaims, hfound⟩ := hidentities.claimed hx.answered hloaded hran
    exact ⟨between, x, before, row, r, now, rfl, hi, hloaded, hread, hclaims, hfound⟩
  . intro x hx y hy hcalls row row' r r' now now' hclaim hclaim' hid
    let Apart : IntegrationsEntry → IntegrationsEntry → Prop := fun x y => ∀ row row' r r' now now',
      ClaimsRow cfg x row r now → ClaimsRow cfg y row' r' now' → r.id = r'.id → cooldownMs cfg ≤ |now - now'|
    have : Std.Symm Apart := ⟨fun x y h row row' r r' now now' hx hy hid => by
      rw [abs_sub_comm]
      exact h row' row r' r now' now hy hx hid.symm⟩
    have hpairs : run.trace.Pairwise Apart := by
      refine hclaims.apart.imp fun h row row' r r' now now' hx hy hid => ?_
      have hle : cooldownMs cfg ≤ now - now' := Int.le_sub_left_of_add_le (h row row' r r' now now' hx hy hid)
      exact Int.le_trans hle (le_abs_self _)
    exact hpairs.forall hx hy (fun heq => hcalls (congrArg Entry.call heq)) row row' r r' now now' hclaim hclaim' hid

end Run

end Cooldown

section Runs

attribute [local instance] Kerghan.Sample.platform Sample.crypto Sample.locale

abbrev testing (tests : Nat) (time : Nat → Date) (order : List Nat) : Calls IntegrationsReply :=
  Calls.after (Sample.storing (Sample.integration ⟨[1], "k1"⟩ "ghp_a"))
    ((List.replicate tests (.test 1 Sample.integrationUuid)).map (IntegrationsCall.prog Sample.config))
    (Sample.scheduleIn (fun k => { Sample.env k with now := time k }) order)

/--
The second test starts when the first one has ended, after the cooldown.
-/
abbrev testedInTurn : Calls IntegrationsReply :=
  testing 2 (fun k => if k < 6 then 0 else 30500) (List.replicate 6 0 ++ List.replicate 6 1)

/--
The first test waits for GitHub while the second one claims the integration. Its outcome takes the last test
back to its own time, so the third test can claim the integration a millisecond later.
-/
abbrev testedOver : Calls IntegrationsReply :=
  testing 3 (fun k => if k < 3 then 0 else if k < 6 then 30001 else 30002)
    [0, 0, 0, 1, 1, 1, 0, 0, 0, 2, 2, 2, 2, 1]

theorem cooldown_kept_in_turn
    : CooledDown Sample.config (List.replicate 2 (.test 1 Sample.integrationUuid)) testedInTurn.trace
        ∧
      (testedInTurn.world.db .integrations).rows.map Integration.lastTestedAt = [some 31000] :=
  ⟨cooldown_kept (by decide), rfl⟩

set_option maxRecDepth 4000 in
theorem not_cooldown_kept
    : ¬CooledDown Sample.config (List.replicate 3 (.test 1 Sample.integrationUuid)) testedOver.trace := by
  intro hcooled
  have hx : ∃ x ∈ testedOver.trace, x.call = 2 ∧ ∃ row r, r.id = 1 ∧ ClaimsRow Sample.config x row r 30002 :=
    ⟨testedOver.trace[2], List.getElem_mem _, rfl,
      { Sample.integration ⟨[1], "k1"⟩ "ghp_a" with
        lastTestedAt := some 0, lastTestResult := some .transientError },
      { Sample.integration ⟨[1], "k1"⟩ "ghp_a" with
        lastTestedAt := some 0, lastTestResult := some .transientError },
      rfl, rfl, List.mem_of_getElem? (i := 0) rfl, by decide, rfl, fun last hlast => by
        obtain rfl : 0 = last := Option.some.inj hlast
        decide⟩
  have hy : ∃ x ∈ testedOver.trace, x.call = 1 ∧ ∃ row r, r.id = 1 ∧ ClaimsRow Sample.config x row r 30001 :=
    ⟨testedOver.trace[8], List.getElem_mem _, rfl,
      { Sample.integration ⟨[1], "k1"⟩ "ghp_a" with
        lastTestedAt := some 0, lastTestResult := none },
      { Sample.integration ⟨[1], "k1"⟩ "ghp_a" with
        lastTestedAt := some 0, lastTestResult := none },
      rfl, rfl, List.mem_of_getElem? (i := 0) rfl, by decide, rfl, fun last hlast => by
        obtain rfl : 0 = last := Option.some.inj hlast
        decide⟩
  obtain ⟨x, hx, hcall, row, r, hid, hclaim⟩ := hx
  obtain ⟨y, hy, hcall', row', r', hid', hclaim'⟩ := hy
  have hapart := hcooled.apart x hx y hy (by rw [hcall, hcall']; decide) row row' r r' 30002 30001 hclaim hclaim'
    (hid.trans hid'.symm)
  exact absurd hapart (by decide)

end Runs

end Kerghan.Integrations
