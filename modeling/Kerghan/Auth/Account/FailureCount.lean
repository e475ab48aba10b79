import Kerghan.Async.Count
import Kerghan.Auth.Account.FailureWrites
import Kerghan.Auth.Sample

/-!
This module contains what the counter of failed account edits counts. `registerFailure` reads the counter
and writes it back incremented, so that a failure is lost if another one is counted in between. As long as
that does not happen, all are counted.
-/

namespace Kerghan

open AccountEditAbuseGuardService

section Counting

variable [Platform] {cfg : AuthConfig} {calls : List Call} {userId : Nat}

def storedLockout (db : AuthDb) (userId : Nat) : Option AccountEditLockout :=
  (db .accountEditLockouts).rows.find? fun r => r.userId == userId

def storedFailures (db : AuthDb) (userId : Nat) : Int :=
  ((storedLockout db userId).map AccountEditLockout.failedAttempts).getD 0

def updatesLockout : AuthEffect → Bool
  | .db (.update .accountEditLockouts _ _) => true
  | _ => false

/--
If the step `x` updates the lockout that its call has read last, the counter is still what it has read.
-/
def FreshCount (x : AuthEntry) (t : List AuthEntry) : Prop :=
  updatesLockout x.effect = true →
    ∀ lockout ∈ lastLockout (own x.call t),
      ∀ r ∈ (x.before .accountEditLockouts).rows,
        r.id = lockout.id → r.failedAttempts = lockout.failedAttempts

instance (x : AuthEntry) (t : List AuthEntry) : Decidable (FreshCount x t) :=
  inferInstanceAs (Decidable (_ → _))

def CountsFresh : List AuthEntry → Prop
  | [] => True
  | x :: t => FreshCount x t ∧ CountsFresh t

instance decidableCountsFresh : (t : List AuthEntry) → Decidable (CountsFresh t)
  | [] => inferInstanceAs (Decidable True)
  | _ :: t =>
    have := decidableCountsFresh t
    inferInstanceAs (Decidable (_ ∧ _))

abbrev editors (calls : List Call) (userId : Nat) (i : Nat) : Bool :=
  calls[i]?.any (Call.editsAccount userId)

/--
The runs to consider: no edit of the user has got as far as saving it.
-/
structure NoneSaved (calls : List Call) (userId : Nat) (t : List AuthEntry) : Prop where
  fresh : CountsFresh t
  unsaved : ∀ i, editors calls userId i = true → ¬HasSaved (own i t)

/--
How many failures of the user have been written in `t`.
-/
abbrev written (calls : List Call) (userId : Nat) (t : List AuthEntry) : Nat :=
  countEvents (editors calls userId) isLockoutWrite t

theorem storedLockout_eq {db : AuthDb} {r : AccountEditLockout}
    (hr : r ∈ (db .accountEditLockouts).rows) (huser : r.userId = userId)
    : storedLockout db userId = some r := by
  unfold storedLockout
  cases hfind : (db .accountEditLockouts).rows.find? fun r => r.userId == userId with
  | none =>
    have := List.find?_eq_none.mp hfind r hr
    simp [huser] at this
  | some r' =>
    have huser' : r'.userId = userId := by simpa using List.find?_some hfind
    have hclash : Entity.clash r' r = true := by
      simp only [Entity.clash, huser', huser, beq_self_eq_true]
    rw [Table.eq_of_clash (List.mem_of_find?_eq_some hfind) hr hclash]

theorem storedLockout_none {db : AuthDb}
    (hnone : ∀ r ∈ (db .accountEditLockouts).rows, r.userId ≠ userId)
    : storedLockout db userId = none := by
  unfold storedLockout
  rw [List.find?_eq_none]
  intro r hr
  simpa using hnone r hr

theorem storedLockout_congr {db db' : AuthDb}
    (hsame : ∀ r : AccountEditLockout, r.userId = userId →
      (r ∈ (db .accountEditLockouts).rows ↔ r ∈ (db' .accountEditLockouts).rows))
    : storedLockout db userId = storedLockout db' userId := by
  by_cases hstored : ∃ r ∈ (db .accountEditLockouts).rows, r.userId = userId
  . obtain ⟨r, hr, huser⟩ := hstored
    rw [storedLockout_eq hr huser, storedLockout_eq ((hsame r huser).mp hr) huser]
  . have hnone : ∀ r ∈ (db .accountEditLockouts).rows, r.userId ≠ userId :=
      fun r hr huser => hstored ⟨r, hr, huser⟩
    rw [storedLockout_none hnone, storedLockout_none]
    exact fun r hr huser => hnone r ((hsame r huser).mpr hr) huser

structure FailuresCounted (cfg : AuthConfig) (calls : List Call) (userId : Nat) (start db : AuthDb)
    (t : List AuthEntry) : Prop where
  seen : ∀ i (r : AccountEditLockout), Found (own i t) .accountEditLockouts r →
    ∃ r' ∈ (db .accountEditLockouts).rows, r'.id = r.id ∧ r'.userId = r.userId
  duplicate : ∀ i attempts lockedUntil,
    failed (insertLockout userId attempts lockedUntil) .duplicateEntry ∈ own i t →
    ∃ r ∈ (db .accountEditLockouts).rows, r.userId = userId
  notLost : ∀ i, ¬LostLockout userId (own i t)
  counted :
    (written calls userId t = 0
      ∧ ∀ r : AccountEditLockout, r.userId = userId →
        (r ∈ (db .accountEditLockouts).rows ↔ r ∈ (start .accountEditLockouts).rows))
      ∨
    ∃ r ∈ (db .accountEditLockouts).rows,
      r.userId = userId
        ∧
      r.failedAttempts = storedFailures start userId + written calls userId t
        ∧
      (maxAttempts cfg ≤ r.failedAttempts → r.lockedUntil ≠ none)

theorem FailuresCounted.nil {db : AuthDb} : FailuresCounted cfg calls userId db db [] where
  seen i r hfound := by
    obtain ⟨p, rank, hmem⟩ := hfound
    simp at hmem
  duplicate i attempts lockedUntil hmem := by simp at hmem
  notLost i hlost := by
    obtain ⟨_, _, _, hsuffix⟩ := hlost
    simp at hsuffix
  counted := Or.inl ⟨rfl, fun _ _ => Iff.rfl⟩

/--
What is stored if the counter is `c`, and how the next failure changes it.
-/
theorem FailuresCounted.stored {start db : AuthDb} {t : List AuthEntry}
    (hcounted : FailuresCounted cfg calls userId start db t) {r : AccountEditLockout}
    (hr : r ∈ (db .accountEditLockouts).rows) (huser : r.userId = userId)
    : r.failedAttempts = storedFailures start userId + written calls userId t := by
  rcases hcounted.counted with ⟨hzero, hsame⟩ | ⟨r', hr', huser', hcount, _⟩
  . have hstart := storedLockout_eq ((hsame r huser).mp hr) huser
    simp [storedFailures, hstart, hzero]
  . have heq := (storedLockout_eq hr huser).symm.trans (storedLockout_eq hr' huser')
    rw [Option.some.inj heq]
    exact hcount

section Step

variable {start : AuthDb} {t : List AuthEntry} {x : AuthEntry}

/--
`x` is a step that some call may take after the trace `t`, as far as the lockouts are concerned.
-/
abbrev CountingStep (cfg : AuthConfig) (calls : List Call) (t : List AuthEntry) (x : AuthEntry) : Prop :=
  Config.Performs AuthEffect.exec
    (fun i h s => ∃ call, calls[i]? = some call ∧ CountsFailuresOf cfg call h s) t x

/--
`x` has written to the lockouts on behalf of the user `editedId`.
-/
structure WritesLockout (cfg : AuthConfig) (calls : List Call) (t : List AuthEntry) (x : AuthEntry)
    (editedId : Nat) (s : AuthStmt) : Prop where
  write : LockoutWrite cfg editedId (own x.call t) s
  editor : ∀ userId, editors calls userId x.call = (editedId == userId)
  counts : isLockoutWrite ⟨x.effect, x.resp⟩ = true
  effect : x.effect = .db s
  executed : ∃ a e, s.exec e x.before = (.ok a, x.after)

theorem CountingStep.cases (hx : CountingStep cfg calls t x)
    : (isLockoutWrite ⟨x.effect, x.resp⟩ = false
        ∧ x.after .accountEditLockouts = x.before .accountEditLockouts)
        ∨
      ∃ editedId s, WritesLockout cfg calls t x editedId s := by
  have hexecuted : x.Executed AuthEffect.exec := hx.answered
  cases hcounts : isLockoutWrite ⟨x.effect, x.resp⟩ with
  | false =>
    refine Or.inl ⟨rfl, ?_⟩
    rcases hexecuted.table_cases .accountEditLockouts with hsame | ⟨s, a, e, hran, _, htable, hread⟩
    . exact hsame
    . have hwrite := isLockoutWrite_iff.mpr ⟨s, a, hran, htable, hread⟩
      exact absurd (hcounts.symm.trans hwrite) Bool.false_ne_true
  | true =>
    right
    obtain ⟨call, hcall, hallowed⟩ := hx.allowed
    obtain ⟨s, a, hran, htable, hread⟩ := isLockoutWrite_iff.mp hcounts
    have heffect : x.effect = .db s := congrArg Sigma.fst hran
    obtain ⟨e, hexec⟩ := hexecuted.ran hran
    have hother : ¬∀ s' : AuthStmt, x.effect = .db s' → s'.table = .accountEditLockouts →
        s'.isRead = true := fun h => absurd (hread.symm.trans (h s heffect htable)) Bool.false_ne_true
    cases call with
    | updateAccount editedId dto refreshToken =>
      refine ⟨editedId, s, ?_, fun userId => ?_, hcounts, heffect, a, e, hexec⟩
      . have hallowed' : CountsFailures cfg editedId (own x.call t) x.effect := hallowed
        rw [heffect] at hallowed'
        cases hallowed' with
        | elsewhere hs => exact absurd (hread.symm.trans (hs s rfl htable)) Bool.false_ne_true
        | lockout hwrite => exact hwrite
      . simp [editors, hcall, Call.editsAccount]
    | _ => exact absurd hallowed hother

theorem CountingStep.stable (hx : CountingStep cfg calls t x) {r : AccountEditLockout}
    (hr : r ∈ (x.before .accountEditLockouts).rows)
    : ∃ r' ∈ (x.after .accountEditLockouts).rows, r'.id = r.id ∧ r'.userId = r.userId := by
  rcases CountingStep.cases hx with ⟨_, hsame⟩ | ⟨editedId, s, hwrites⟩
  . rw [hsame]
    exact ⟨r, hr, rfl, rfl⟩
  . obtain ⟨a, e, hexec⟩ := hwrites.executed
    cases hwrites.write with
    | first =>
      obtain ⟨now, _, hrows, _⟩ := Stmt.exec_insert hexec
      rw [hrows]
      exact ⟨r, List.mem_append_left _ hr, rfl, rfl⟩
    | again | reset =>
      obtain ⟨now, hrows⟩ := Stmt.mem_rows_update hexec
      refine ⟨_, (hrows _).mpr ⟨r, hr, rfl⟩, ?_⟩
      split <;> exact ⟨rfl, rfl⟩

theorem WritesLockout.other {editedId : Nat} {s : AuthStmt}
    (hwrites : WritesLockout cfg calls t x editedId s) (hne : editedId ≠ userId)
    (hseen : ∀ r : AccountEditLockout, Found (own x.call t) .accountEditLockouts r →
      ∃ r' ∈ (x.before .accountEditLockouts).rows, r'.id = r.id ∧ r'.userId = r.userId)
    {r : AccountEditLockout} (huser : r.userId = userId)
    : r ∈ (x.after .accountEditLockouts).rows ↔ r ∈ (x.before .accountEditLockouts).rows := by
  obtain ⟨a, e, hexec⟩ := hwrites.executed
  have hupdate : ∀ {lockout : AccountEditLockout} {attempts : Int} {lockedUntil : Option Date} {n : Nat},
      Found (own x.call t) .accountEditLockouts lockout → lockout.userId = editedId →
      (updateLockout lockout.id attempts lockedUntil).exec e x.before = (.ok n, x.after) →
      (r ∈ (x.after .accountEditLockouts).rows ↔ r ∈ (x.before .accountEditLockouts).rows) := by
    intro lockout attempts lockedUntil n hfound hlockout hexec
    obtain ⟨r', hr', hid, howner⟩ := hseen lockout hfound
    obtain ⟨now, hrows⟩ := Stmt.mem_rows_update hexec
    -- the row that is updated is one of the other user
    have howned : ∀ r'' ∈ (x.before .accountEditLockouts).rows, r''.id = lockout.id →
        r''.userId = editedId := by
      intro r'' hr'' hid''
      rw [Table.eq_of_id_eq hr'' hr' (hid''.trans hid.symm), howner, hlockout]
    rw [hrows]
    constructor
    . rintro ⟨r'', hr'', heq⟩
      split at heq
      . next hp =>
        rw [← heq] at huser
        exact absurd ((howned r'' hr'' (beq_iff_eq.mp hp)).symm.trans huser) hne
      . rwa [← heq]
    . intro hr
      refine ⟨r, hr, if_neg fun hp => hne ?_⟩
      exact (howned r hr (beq_iff_eq.mp hp)).symm.trans huser
  cases hwrites.write with
  | first =>
    obtain ⟨now, hrow, hrows, _⟩ := Stmt.exec_insert hexec
    rw [hrows, List.mem_append, List.mem_singleton]
    constructor
    . rintro (hr | rfl)
      . exact hr
      . rw [hrow] at huser
        exact absurd huser hne
    . exact Or.inl
  | again hloaded hlockout => exact hupdate (lastLockout_found hloaded) hlockout hexec
  | reset hfound hlockout => exact hupdate hfound hlockout hexec

theorem WritesLockout.this {s : AuthStmt} (hwrites : WritesLockout cfg calls t x userId s)
    (hcounted : FailuresCounted cfg calls userId start x.before t) (hfresh : FreshCount x t)
    (hunsaved : ¬HasSaved (own x.call t))
    : ∃ r ∈ (x.after .accountEditLockouts).rows,
        r.userId = userId
          ∧
        r.failedAttempts = storedFailures start userId + (written calls userId t + 1)
          ∧
        (maxAttempts cfg ≤ r.failedAttempts → r.lockedUntil ≠ none) := by
  obtain ⟨a, e, hexec⟩ := hwrites.executed
  have heffect := hwrites.effect
  cases hwrites.write with
  | first hlocked =>
    obtain ⟨now, hrow, hrows, _⟩ := Stmt.exec_insert hexec
    have hmem : a ∈ (x.after .accountEditLockouts).rows := by simp [hrows]
    have hnone : ∀ r ∈ (x.before .accountEditLockouts).rows, r.userId ≠ userId := by
      intro r hr huser
      have hclash : Entity.clash r a = true := by
        rw [hrow]
        exact beq_iff_eq.mpr huser
      have heq : r = a :=
        Table.eq_of_clash (by rw [hrows]; exact List.mem_append_left _ hr) hmem hclash
      have hlt := (x.before .accountEditLockouts).id_lt r hr
      rw [heq, hrow] at hlt
      exact absurd hlt (Nat.lt_irrefl _)
    refine ⟨a, hmem, by rw [hrow], ?_, by rw [hrow]; exact fun hmax => mt Option.map_eq_none_iff.mp (hlocked hmax)⟩
    rcases hcounted.counted with ⟨hzero, hsame⟩ | ⟨r, hr, huser, _⟩
    . have hstart : storedLockout start userId = none :=
        storedLockout_none fun r hr huser => hnone r ((hsame r huser).mpr hr) huser
      simp [hrow, storedFailures, hstart, hzero]
    . exact absurd huser (hnone r hr)
  | again hloaded hlockout hlocked =>
    rename_i lockout lockedUntil
    obtain ⟨r, hr, hid, howner⟩ := hcounted.seen x.call lockout (lastLockout_found hloaded)
    have hcount := hfresh (by rw [heffect]; rfl) lockout hloaded r hr hid
    have hstored := hcounted.stored hr (howner.trans hlockout)
    obtain ⟨now, hrows⟩ := Stmt.mem_rows_update hexec
    refine ⟨_, (hrows _).mpr ⟨r, hr, if_pos (beq_iff_eq.mpr hid)⟩, howner.trans hlockout, ?_,
      fun hmax => mt Option.map_eq_none_iff.mp (hlocked hmax)⟩
    rw [← hcount, hstored]
    exact Int.add_assoc ..
  | reset _ _ hsaved => exact absurd hsaved hunsaved

theorem FailuresCounted.step (hx : CountingStep cfg calls t x)
    (hrun : NoneSaved calls userId (x :: t)) (hcounted : FailuresCounted cfg calls userId start x.before t)
    : FailuresCounted cfg calls userId start x.after (x :: t) := by
  have hexecuted : x.Executed AuthEffect.exec := hx.answered
  -- there has been a lockout of the user ever since a first failure has met a duplicate entry
  have hduplicate : ∀ i attempts lockedUntil,
      failed (insertLockout userId attempts lockedUntil) .duplicateEntry ∈ own i (x :: t) →
      ∃ r ∈ (x.before .accountEditLockouts).rows, r.userId = userId := by
    intro i attempts lockedUntil hmem
    rcases mem_own_cons.mp hmem with ⟨_, hev⟩ | hold
    . obtain ⟨_, e, hexec⟩ := hx
      obtain ⟨j, before, effect, resp, after⟩ := x
      dsimp only at *
      cases hev
      have hinsert : (insertLockout userId attempts lockedUntil).exec e.toDbEnv before =
          (.error .duplicateEntry, after) := hexec
      obtain ⟨now, r, hr, hclash⟩ := Stmt.exec_insert_duplicate (by intro _ _; rfl) hinsert
      exact ⟨r, hr, beq_iff_eq.mp hclash⟩
    . exact hcounted.duplicate i attempts lockedUntil hold
  refine ⟨?_, ?_, ?_, ?_⟩
  . intro i r ⟨p, rank, hmem⟩
    have hbefore : ∃ r' ∈ (x.before .accountEditLockouts).rows, r'.id = r.id ∧ r'.userId = r.userId := by
      rcases mem_own_cons.mp hmem with ⟨_, hfind⟩ | hold
      . exact ⟨r, (hexecuted.found_mem hfind).1, rfl, rfl⟩
      . exact hcounted.seen i r ⟨p, rank, hold⟩
    obtain ⟨r₁, hr₁, hid₁, huser₁⟩ := hbefore
    obtain ⟨r₂, hr₂, hid₂, huser₂⟩ := CountingStep.stable hx hr₁
    exact ⟨r₂, hr₂, hid₂.trans hid₁, huser₂.trans huser₁⟩
  . intro i attempts lockedUntil hmem
    obtain ⟨r, hr, huser⟩ := hduplicate i attempts lockedUntil hmem
    obtain ⟨r', hr', _, huser'⟩ := CountingStep.stable hx hr
    exact ⟨r', hr', huser'.trans huser⟩
  . intro i ⟨attempts, lockedUntil, older, hsuffix⟩
    by_cases hcall : x.call = i
    . subst hcall
      rw [own_cons_self] at hsuffix
      rcases List.suffix_cons_iff.mp hsuffix with heq | hold
      . simp only [List.cons.injEq] at heq
        have hmem : failed (insertLockout userId attempts lockedUntil) .duplicateEntry ∈
            own x.call (x :: t) := by
          rw [own_cons_self, ← heq.2]
          simp
        obtain ⟨r, hr, huser⟩ := hduplicate x.call attempts lockedUntil hmem
        obtain ⟨choice, hnone⟩ := hexecuted.found heq.1.symm
        exact absurd hnone.symm (Table.first_ne_none hr (beq_iff_eq.mpr huser))
      . exact hcounted.notLost x.call ⟨attempts, lockedUntil, older, hold⟩
    . rw [own_cons_of_ne hcall] at hsuffix
      exact hcounted.notLost i ⟨attempts, lockedUntil, older, hsuffix⟩
  . rw [written, countEvents_cons]
    rcases CountingStep.cases hx with ⟨hfree, hsame⟩ | ⟨editedId, s, hwrites⟩
    . rw [hfree, Bool.and_false, if_neg Bool.false_ne_true, hsame]
      exact hcounted.counted
    . rw [hwrites.counts, Bool.and_true, hwrites.editor]
      by_cases huser : editedId = userId
      . subst huser
        rw [if_pos (beq_self_eq_true editedId)]
        right
        have hsaved : ¬HasSaved (own x.call t) := by
          have heditor : editors calls editedId x.call = true := by
            rw [hwrites.editor]
            exact beq_self_eq_true editedId
          intro ⟨s', a', htable, hread, hmem⟩
          exact hrun.unsaved x.call heditor
            ⟨s', a', htable, hread, mem_own_of_suffix (List.suffix_cons ..) hmem⟩
        exact hwrites.this hcounted hrun.fresh.1 hsaved
      . rw [if_neg (by simpa using huser), Nat.add_zero]
        have hother : ∀ {r : AccountEditLockout}, r.userId = userId →
            (r ∈ (x.after .accountEditLockouts).rows ↔ r ∈ (x.before .accountEditLockouts).rows) :=
          fun hr => hwrites.other huser (hcounted.seen x.call) hr
        rcases hcounted.counted with ⟨hzero, hstart⟩ | ⟨r, hr, hthis⟩
        . exact Or.inl ⟨hzero, fun r hr => (hother hr).trans (hstart r hr)⟩
        . exact Or.inr ⟨r, (hother hthis.1).mpr hr, hthis⟩

end Step

theorem NoneSaved.tail {x : AuthEntry} {t : List AuthEntry} (hrun : NoneSaved calls userId (x :: t))
    : NoneSaved calls userId t where
  fresh := hrun.fresh.2
  unsaved i heditor := by
    intro ⟨s, a, htable, hread, hmem⟩
    exact hrun.unsaved i heditor ⟨s, a, htable, hread, mem_own_of_suffix (List.suffix_cons ..) hmem⟩

/--
If every edit of a user's account has failed its validation, and none of them has counted its failure on
an outdated counter, then the counter has grown by the number of these edits, and the account is locked
if that makes too many.
-/
theorem failures_counted {db : AuthDb} {schedule : Schedule}
    (hended : ∀ i dto refreshToken, calls[i]? = some (.updateAccount userId dto refreshToken) →
      ∃ e, failsValidation e = true ∧ (Auth.after cfg db calls schedule).pool i = .throw e)
    (hfresh : CountsFresh (Auth.after cfg db calls schedule).trace)
    : storedFailures (Auth.after cfg db calls schedule).world userId =
        storedFailures db userId + calls.countP (Call.editsAccount userId)
        ∧
      (0 < calls.countP (Call.editsAccount userId) →
        maxAttempts cfg ≤ storedFailures db userId + calls.countP (Call.editsAccount userId) →
        ((storedLockout (Auth.after cfg db calls schedule).world userId).bind
          AccountEditLockout.lockedUntil).isSome = true) := by
  have hcall : ∀ i, editors calls userId i = true →
      ∃ dto refreshToken, calls[i]? = some (.updateAccount userId dto refreshToken) := by
    intro i heditor
    obtain ⟨call, hsome, hedits⟩ := (Option.any_eq_true _ _).mp heditor
    cases call with
    | updateAccount userId' dto refreshToken =>
      rw [show userId' = userId from beq_iff_eq.mp hedits] at hsome
      exact ⟨dto, refreshToken, hsome⟩
    | _ => exact absurd hedits Bool.false_ne_true
  -- what every edit of the user has done is known, as it has failed its validation
  have hcounted : ∀ i, editors calls userId i = true →
      Counted userId (own i (Auth.after cfg db calls schedule).trace) := by
    intro i heditor
    obtain ⟨dto, refreshToken, hsome⟩ := hcall i heditor
    obtain ⟨e, hfails, hpool⟩ := hended i dto refreshToken hsome
    exact ended (.error e) (@prog_counts _ cfg _) hsome hpool userId (beq_self_eq_true userId)
      e rfl hfails
  have hrun : NoneSaved calls userId (Auth.after cfg db calls schedule).trace :=
    ⟨hfresh, fun i heditor => (hcounted i heditor).1⟩
  have hinv : FailuresCounted cfg calls userId db (Auth.after cfg db calls schedule).world
      (Auth.after cfg db calls schedule).trace :=
    Config.run_induction (fun _ _ => NoneSaved.tail) (fun _ _ hrun hx => FailuresCounted.step hx hrun)
      answers_exec (start_meets_of prog_counts db calls) .nil schedule hrun
  have hwritten : written calls userId (Auth.after cfg db calls schedule).trace =
      calls.countP (Call.editsAccount userId) := by
    rw [← card_callers]
    apply countEvents_eq_card
    . intro i heditor
      obtain ⟨dto, refreshToken, hsome⟩ := hcall i heditor
      exact (List.getElem?_eq_some_iff.mp hsome).1
    . intro i heditor
      exact (hcounted i heditor).2.resolve_right (hinv.notLost i)
  rw [← hwritten]
  rcases hinv.counted with ⟨hzero, hsame⟩ | ⟨r, hr, huser, hcount, hlocked⟩
  . rw [hzero, storedFailures, storedLockout_congr hsame]
    exact ⟨(Int.add_zero _).symm, fun hpos => absurd hpos (Nat.lt_irrefl 0)⟩
  . rw [storedFailures, storedLockout_eq hr huser]
    refine ⟨hcount, fun _ hmax => ?_⟩
    rw [← hcount] at hmax
    simpa [Option.isSome_iff_ne_none] using hlocked hmax

end Counting

section Runs

attribute [local instance] Sample.platform

abbrev wrongPasswords : List Call :=
  List.replicate 3 (.updateAccount 1 { username := some "anna", currentPassword := "wrong" } none)

/--
The second and the third attempt both read the counter as the first one has left it.
-/
theorem failure_lost
    : let run := Auth.after Sample.config (Sample.db Sample.ann) wrongPasswords
        (Sample.schedule [0, 0, 0, 0, 1, 1, 1, 2, 2, 2, 1, 2])
      (∀ i < 3, ∃ e, failsValidation e = true ∧ run.pool i = .throw e)
        ∧
      storedFailures run.world 1 ≠
        storedFailures (Sample.db Sample.ann) 1 + wrongPasswords.countP (Call.editsAccount 1) := by
  refine ⟨fun i hi => ⟨.badRequest "Invalid current password", by decide, ?_⟩, by decide⟩
  match i, hi with
  | 0, _ | 1, _ | 2, _ => rfl

/--
One after the other, the attempts are all counted.
-/
theorem failures_counted_in_turn
    : storedFailures (Auth.after Sample.config (Sample.db Sample.ann) wrongPasswords
        (Sample.schedule [0, 0, 0, 0, 1, 1, 1, 1, 2, 2, 2, 2])).world 1 = 3 := by
  have hfresh : CountsFresh (Auth.after Sample.config (Sample.db Sample.ann) wrongPasswords
      (Sample.schedule [0, 0, 0, 0, 1, 1, 1, 1, 2, 2, 2, 2])).trace := by decide
  refine (failures_counted ?_ hfresh).1
  intro i dto refreshToken hcall
  have hi : i < 3 := (List.getElem?_eq_some_iff.mp hcall).1
  refine ⟨.badRequest "Invalid current password", by decide, ?_⟩
  match i, hi with
  | 0, _ | 1, _ | 2, _ => rfl

end Runs

end Kerghan
