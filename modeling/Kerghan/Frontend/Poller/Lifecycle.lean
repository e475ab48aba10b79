import Mathlib
import Kerghan.Frontend.Impl.Poller

/-!
This module contains the proof of what a started poller does and does not do, whatever fires, answers or
stops it, and of the one case in which it gives up too early.
-/

set_option mvcgen.warning false

namespace Kerghan.Frontend

open Std.Do AuthorizationRequestPoller

section Claims

/--
`onApproved` or `onRejected` is called.
-/
def Event.isResult : Event → Bool
  | .called (.onApproved _) | .called (.onRejected _) => true
  | _ => false

def Event.isCall : Event → Bool
  | .called _ => true
  | _ => false

def Page.ticks (page : Page) : Nat :=
  page.timers.countP fun timer => timer.body == .tick

/--
What the owner of a poller relies on.
-/
structure Lawful (opts : Options) (page : Page) : Prop where
  onePoll : page.ticks + page.polls.length ≤ 1
  oneResult : page.log.Pairwise fun later earlier => ¬(later.2.isResult = true ∧ earlier.2.isResult = true)
  silent : page.log.Pairwise fun later earlier => earlier.2 = .stopCalled → later.2.isCall = false
  notEarly : ∀ x ∈ page.log, x.2 = .called (.onRejected .expired) →
    ∃ expiryMs, opts.expiresAt = some expiryMs ∧ expiryMs ≤ x.1
  /-- A result of a poll that has been stopped does not make it poll again, either. -/
  ended : page.log.Pairwise fun later earlier =>
    earlier.2 = .finished ∨ earlier.2 = .stopCalled → later.2 ≠ .polled

/--
No timer is asked for a longer delay than it can have, if the owner wants to know about the expiry.
-/
def InRange (opts : Options) (now : Int) (hasTimers stopped : Bool) : Prop :=
  opts.onRejected.isSome = true → hasTimers = true → stopped = false → ∀ expiryMs,
    opts.expiresAt = some expiryMs → expiryMs - now ≤ MAX_DELAY_MS

end Claims

section Invariant

variable {opts : Options} {limit : Nat} {page : Page}

/--
What the fields of the poller know about its timers, with at most `limit` polls to come.
-/
structure Armed (opts : Options) (limit : Nat) (page : Page) : Prop where
  limit : page.ticks + page.polls.length ≤ limit
  tick : ∀ timer ∈ page.timers, timer.body = .tick → page.tickHandle = some timer.handle
  expiry : ∀ timer ∈ page.timers, timer.body = .expiry → page.expiryHandle = some timer.handle
  due : opts.onRejected.isSome = true → ∀ timer ∈ page.timers, timer.body = .expiry →
    ∃ expiryMs, opts.expiresAt = some expiryMs ∧ expiryMs ≤ timer.due

/--
`later` may happen after `earlier`.
-/
structure Follows (later earlier : Event) : Prop where
  oneResult : ¬(later.isResult = true ∧ earlier.isResult = true)
  silent : earlier = .stopCalled → later.isCall = false
  ended : earlier = .finished ∨ earlier = .stopCalled → later ≠ .polled

structure Sound (opts : Options) (log : List (Int × Event)) : Prop where
  order : log.Pairwise fun later earlier => Follows later.2 earlier.2
  notEarly : ∀ x ∈ log, x.2 = .called (.onRejected .expired) →
    ∃ expiryMs, opts.expiresAt = some expiryMs ∧ expiryMs ≤ x.1

def Event.isRunning : Event → Bool
  | .polled | .called .onTick => true
  | _ => false

structure Inv (opts : Options) (limit : Nat) (page : Page) : Prop extends Armed opts limit page where
  sound : Sound opts page.log
  running : page.stopped = false → ∀ x ∈ page.log, x.2.isRunning = true
  idle : page.stopped = true → page.timers = []

theorem Inv.lawful (h : Inv opts 1 page) : Lawful opts page where
  onePoll := h.limit
  oneResult := h.sound.order.imp fun hfollows => hfollows.oneResult
  silent := h.sound.order.imp fun hfollows => hfollows.silent
  notEarly := h.sound.notEarly
  ended := h.sound.order.imp fun hfollows => hfollows.ended

theorem Inv.mono {limit' : Nat} (h : Inv opts limit page) (hle : limit ≤ limit') : Inv opts limit' page :=
  { h with limit := Nat.le_trans h.limit hle }

end Invariant

section Pages

variable {opts : Options} {limit : Nat} {page : Page}

theorem halt_log : (halt page).log = page.log := by
  unfold halt
  cases page.tickHandle <;> cases page.expiryHandle <;> rfl

theorem halt_stopped : (halt page).stopped = true := by
  unfold halt
  cases page.tickHandle <;> cases page.expiryHandle <;> rfl

theorem halt_polls : (halt page).polls = page.polls := by
  unfold halt
  cases page.tickHandle <;> cases page.expiryHandle <;> rfl

theorem mem_halt {timer : Timer}
    : timer ∈ (halt page).timers ↔ timer ∈ page.timers ∧ page.tickHandle ≠ some timer.handle ∧
        page.expiryHandle ≠ some timer.handle := by
  have ⟨_, _, _, _, _, tickHandle, expiryHandle, _, _⟩ := page
  cases tickHandle with
  | none => cases expiryHandle <;> simp [halt, Page.clearTimeout, @eq_comm _ timer.handle]
  | some handle =>
    cases expiryHandle with
    | none => simp [halt, Page.clearTimeout, @eq_comm _ timer.handle]
    | some handle' =>
      simp only [halt, Page.clearTimeout, List.mem_filter, bne_iff_ne, ne_eq, Option.some.injEq,
        @eq_comm _ timer.handle]
      tauto

theorem Armed.halt_timers (h : Armed opts limit page) : (halt page).timers = [] := by
  apply List.eq_nil_iff_forall_not_mem.mpr
  intro timer htimer
  have ⟨hmem, htick, hexpiry⟩ := mem_halt.mp htimer
  cases hbody : timer.body with
  | tick => exact htick (h.tick timer hmem hbody)
  | expiry => exact hexpiry (h.expiry timer hmem hbody)

theorem Armed.halt (h : Armed opts limit page) : Armed opts limit (halt page) where
  limit := by
    have hlimit := h.limit
    simp only [Page.ticks, h.halt_timers, halt_polls, List.countP_nil]
    omega
  tick := by simp [h.halt_timers]
  expiry := by simp [h.halt_timers]
  due := by simp [h.halt_timers]

theorem Armed.record (h : Armed opts limit page) (event : Event) : Armed opts limit (page.record event) :=
  ⟨h.limit, h.tick, h.expiry, h.due⟩

theorem Sound.record (h : Sound opts page.log) {event : Event}
    (hfollows : ∀ earlier ∈ page.log, Follows event earlier.2)
    (hearly : event = .called (.onRejected .expired) →
      ∃ expiryMs, opts.expiresAt = some expiryMs ∧ expiryMs ≤ page.now)
    : Sound opts (page.record event).log where
  order := List.pairwise_cons.mpr ⟨hfollows, h.order⟩
  notEarly := List.forall_mem_cons.mpr ⟨hearly, h.notEarly⟩

theorem follows_quiet {later earlier : Event} (hresult : later.isResult = false) (hcall : later.isCall = false)
    (hpolled : later ≠ .polled)
    : Follows later earlier where
  oneResult := by simp [hresult]
  silent _ := hcall
  ended _ := hpolled

theorem Inv.halt (h : Inv opts limit page) {event : Event} (hevent : event = .finished ∨ event = .stopCalled)
    : Inv opts limit (AuthorizationRequestPoller.halt (page.record event)) := by
  have harmed := h.toArmed.record event
  have hsound : Sound opts (page.record event).log := by
    apply h.sound.record
    . intro earlier _
      rcases hevent with hevent | hevent
      . rw [hevent]
        exact follows_quiet rfl rfl nofun
      . rw [hevent]
        exact follows_quiet rfl rfl nofun
    . rcases hevent with hevent | hevent
      . simp [hevent]
      . simp [hevent]
  exact {
    toArmed := harmed.halt
    sound := by rw [halt_log]; exact hsound
    running := fun hstopped => absurd (halt_stopped.symm.trans hstopped) (by decide)
    idle := fun _ => harmed.halt_timers
  }

/--
`callback` may be called now.
-/
structure MayCall (opts : Options) (callback : Callback) (page : Page) : Prop where
  silent : ∀ x ∈ page.log, x.2 ≠ .stopCalled ∧ x.2.isResult = false
  stopped : callback = .onTick ∨ page.stopped = true
  notEarly : callback = .onRejected .expired → ∃ expiryMs, opts.expiresAt = some expiryMs ∧ expiryMs ≤ page.now

theorem Inv.called (h : Inv opts limit page) {callback : Callback} (hcallable : MayCall opts callback page)
    : Inv opts limit (page.record (.called callback)) where
  toArmed := h.toArmed.record _
  sound := by
    apply h.sound.record
    . intro earlier hearlier
      have ⟨hstop, hresult⟩ := hcallable.silent earlier hearlier
      exact ⟨by simp [hresult], fun heq => absurd heq hstop, nofun⟩
    . intro heq
      cases heq
      exact hcallable.notEarly rfl
  running hstopped := by
    intro x hx
    rcases List.mem_cons.mp hx with hx | hx
    . rw [hx]
      cases hcallable.stopped with
      | inl htick => rw [htick]; rfl
      | inr hstopped' => exact absurd (hstopped'.symm.trans hstopped) (by decide)
    . exact h.running hstopped x hx
  idle := h.idle

theorem halt_now : (halt page).now = page.now := by
  unfold halt
  cases page.tickHandle <;> cases page.expiryHandle <;> rfl

theorem Event.not_result {event : Event} (h : event.isRunning = true)
    : event ≠ .stopCalled ∧ event.isResult = false := by
  cases event with
  | polled => exact ⟨nofun, rfl⟩
  | called callback =>
    cases callback with
    | onTick => exact ⟨nofun, rfl⟩
    | onApproved result => cases h
    | onRejected reason => cases h
  | finished => cases h
  | stopCalled => cases h

theorem Inv.callable (h : Inv opts limit page) (hstopped : ¬page.stopped = true) {callback : Callback}
    (hearly : callback = .onRejected .expired →
      ∃ expiryMs, opts.expiresAt = some expiryMs ∧ expiryMs ≤ page.now)
    : MayCall opts callback (AuthorizationRequestPoller.halt (page.record .finished)) where
  silent x hx := by
    rw [halt_log] at hx
    rcases List.mem_cons.mp hx with hx | hx
    . rw [hx]
      exact ⟨nofun, rfl⟩
    . exact Event.not_result (h.running (Bool.not_eq_true _ ▸ hstopped) x hx)
  stopped := Or.inr halt_stopped
  notEarly := by rw [halt_now]; exact hearly

theorem Inv.callable_tick (h : Inv opts limit page) (hstopped : ¬page.stopped = true)
    : MayCall opts .onTick page where
  silent x hx := Event.not_result (h.running (Bool.not_eq_true _ ▸ hstopped) x hx)
  stopped := Or.inl rfl
  notEarly := nofun

theorem Inv.scheduled (h : Inv opts 0 page) (hstopped : ¬page.stopped = true) (delay : Int)
    : Inv opts 1 { page.setTimeout .tick delay with tickHandle := some page.next } where
  limit := by
    have hlimit := h.limit
    simp only [Page.ticks, Page.setTimeout, List.countP_cons] at hlimit ⊢
    simp
    omega
  tick timer htimer hbody := by
    rcases List.mem_cons.mp htimer with htimer | htimer
    . rw [htimer]
    . -- There was none before.
      have hticks : page.ticks = 0 := by
        have hlimit := h.limit
        omega
      exact absurd (beq_iff_eq.mpr hbody) (List.countP_eq_zero.mp hticks timer htimer)
  expiry timer htimer hbody := by
    rcases List.mem_cons.mp htimer with htimer | htimer
    . rw [htimer] at hbody
      cases hbody
    . exact h.expiry timer htimer hbody
  due hrejects timer htimer hbody := by
    rcases List.mem_cons.mp htimer with htimer | htimer
    . rw [htimer] at hbody
      cases hbody
    . exact h.due hrejects timer htimer hbody
  sound := h.sound
  running := h.running
  idle hidle := absurd hidle hstopped

theorem Inv.polled (h : Inv opts 0 page) (hstopped : ¬page.stopped = true)
    : Inv opts 1 { page.record .polled with next := page.next + 1, polls := page.next :: page.polls } where
  limit := by
    have hlimit := h.limit
    simp only [Page.ticks, Page.record, List.length_cons] at hlimit ⊢
    omega
  tick := h.tick
  expiry := h.expiry
  due := h.due
  sound := by
    apply h.sound.record
    . intro earlier hearlier
      have hrunning := h.running (Bool.not_eq_true _ ▸ hstopped) earlier hearlier
      refine ⟨nofun, fun _ => rfl, ?_⟩
      rintro (hfinished | hstop)
      . rw [hfinished] at hrunning
        cases hrunning
      . rw [hstop] at hrunning
        cases hrunning
    . nofun
  running _ x hx := by
    rcases List.mem_cons.mp hx with hx | hx
    . rw [hx]
      rfl
    . exact h.running (Bool.not_eq_true _ ▸ hstopped) x hx
  idle hidle := absurd hidle hstopped

theorem Inv.armed (h : Inv opts 1 page) (hstopped : ¬page.stopped = true)
    (hnone : ∀ timer ∈ page.timers, timer.body ≠ .expiry) {expiryMs : Int}
    (hexpires : opts.expiresAt = some expiryMs)
    (hrange : opts.onRejected.isSome = true → expiryMs - page.now ≤ MAX_DELAY_MS)
    : Inv opts 1 { page.setTimeout .expiry (max (expiryMs - page.now) 0) with expiryHandle := some page.next } where
  limit := by
    have hlimit := h.limit
    simp only [Page.ticks, Page.setTimeout, List.countP_cons] at hlimit ⊢
    simpa using hlimit
  tick timer htimer hbody := by
    rcases List.mem_cons.mp htimer with htimer | htimer
    . rw [htimer] at hbody
      cases hbody
    . exact h.tick timer htimer hbody
  expiry timer htimer hbody := by
    rcases List.mem_cons.mp htimer with htimer | htimer
    . rw [htimer]
    . exact absurd hbody (hnone timer htimer)
  due hrejects timer htimer hbody := by
    rcases List.mem_cons.mp htimer with htimer | htimer
    . refine ⟨expiryMs, hexpires, ?_⟩
      have hrange := hrange hrejects
      rw [htimer]
      unfold delayMs MAX_DELAY_MS at *
      dsimp only
      split
      . omega
      . omega
    . exact absurd hbody (hnone timer htimer)
  sound := h.sound
  running := h.running
  idle hidle := absurd hidle hstopped

theorem Inv.fired_tick (h : Inv opts 1 page) {timer : Timer} (htimer : timer ∈ page.timers)
    (hbody : timer.body = .tick)
    : Inv opts 0 { page.clearTimeout timer.handle with tickHandle := none } := by
  have hnone : ∀ timer' ∈ (page.clearTimeout timer.handle).timers, timer'.body ≠ .tick := by
    intro timer' htimer' hbody'
    have ⟨hmem, hhandle⟩ := List.mem_filter.mp htimer'
    have hsame := (h.tick timer htimer hbody).symm.trans (h.tick timer' hmem hbody')
    rw [Option.some.injEq] at hsame
    simp [hsame] at hhandle
  have hticks : 0 < page.ticks := List.countP_pos_iff.mpr ⟨timer, htimer, by simp [hbody]⟩
  exact {
    limit := by
      have hlimit := h.limit
      have hnoticks : (page.clearTimeout timer.handle).timers.countP (fun timer => timer.body == .tick) = 0 :=
        List.countP_eq_zero.mpr fun timer' htimer' => by simpa using hnone timer' htimer'
      simp only [Page.ticks, Page.clearTimeout] at hlimit hticks hnoticks ⊢
      omega
    tick := fun timer' htimer' hbody' => absurd hbody' (hnone timer' htimer')
    expiry := fun timer' htimer' => h.expiry timer' (List.mem_of_mem_filter htimer')
    due := fun hrejects timer' htimer' => h.due hrejects timer' (List.mem_of_mem_filter htimer')
    sound := h.sound
    running := h.running
    idle := fun hidle => by simp [Page.clearTimeout, h.idle hidle]
  }

theorem Inv.fired_expiry (h : Inv opts 1 page) {timer : Timer} (htimer : timer ∈ page.timers)
    (hbody : timer.body = .expiry)
    : Inv opts 1 { page.clearTimeout timer.handle with expiryHandle := none } where
  limit := Nat.le_trans (Nat.add_le_add_right List.filter_sublist.countP_le _) h.limit
  tick timer' htimer' := h.tick timer' (List.mem_of_mem_filter htimer')
  expiry timer' htimer' hbody' := by
    have ⟨hmem, hhandle⟩ := List.mem_filter.mp htimer'
    have hsame := (h.expiry timer htimer hbody).symm.trans (h.expiry timer' hmem hbody')
    rw [Option.some.injEq] at hsame
    simp [hsame] at hhandle
  due hrejects timer' htimer' := h.due hrejects timer' (List.mem_of_mem_filter htimer')
  sound := h.sound
  running := h.running
  idle hidle := by simp [Page.clearTimeout, h.idle hidle]

end Pages

section Early

variable {opts : Options} {now : Int}

theorem Script.keeps {x : Script Unit} {P Q : Page → Prop} {page : Page}
    (h : ⦃fun page => ⌜P page⌝⦄ x ⦃post⟨fun _ page => ⌜Q page⌝, fun _ page => ⌜Q page⌝⟩⦄)
    (hpage : P page)
    : Q (x page).2 := by
  have hx := h page hpage
  simp [wp] at hx
  cases hresult : (StateT.run (ExceptT.run x) page).run.1 with
  | ok _ =>
    rw [hresult] at hx
    exact hx
  | error e =>
    rw [hresult] at hx
    exact hx

theorem call_records {callback : Callback} {f : Page → Behaviour}
    : ⦃fun page => ⌜page.now = now⌝⦄
      call callback f
      ⦃post⟨fun _ page => ⌜(now, .called callback) ∈ page.log⌝,
        fun _ page => ⌜(now, .called callback) ∈ page.log⌝⟩⦄ := by
  have hmem {page : Page} (hnow : page.now = now)
      : (now, .called callback) ∈ (page.record (.called callback)).log :=
    List.mem_cons.mpr (Or.inl (by rw [hnow]))
  have hstops {page : Page} (hnow : page.now = now)
      : (now, .called callback) ∈ (halt ((page.record (.called callback)).record .stopCalled)).log := by
    rw [halt_log]
    exact List.mem_cons_of_mem _ (hmem hnow)
  mvcgen [call, stop]
  . next h _ _ _ _ _ _ _ => exact hstops h
  . next h _ _ _ _ _ _ _ _ => exact hstops h
  . next h _ _ _ _ _ _ => exact hmem h
  . next h _ _ _ _ _ _ _ => exact hmem h

theorem run_expiry_records (hrejects : opts.onRejected.isSome = true)
    : ⦃fun page => ⌜page.now = now ∧ page.stopped = false⌝⦄
      run opts .expiry
      ⦃post⟨fun _ page => ⌜(now, .called (.onRejected .expired)) ∈ page.log⌝,
        fun _ page => ⌜(now, .called (.onRejected .expired)) ∈ page.log⌝⟩⦄ := by
  mvcgen [run, onRejected, finish, call_records]
  . next h _ hstopped => exact absurd (hstopped.symm.trans h.2) (by decide)
  . next h _ _ _ _ _ => exact halt_now.trans h.1
  . next hnone hf =>
    have ⟨f, hf'⟩ := Option.isSome_iff_exists.mp hrejects
    exact absurd (hf.symm.trans hf') (hnone f)

theorem started_eq {expiryMs : Int} (hexpires : opts.expiresAt = some expiryMs)
    : Page.started opts now true false = {
        now
        next := 2
        timers := [
          ⟨1, .expiry, now + delayMs (max (expiryMs - now) 0)⟩,
          ⟨0, .tick, now + delayMs opts.intervalMs⟩
        ]
        tickHandle := some 0
        expiryHandle := some 1
      } := by
  obtain ⟨expiresAt, intervalMs, onApproved, onRejected, onTick⟩ := opts
  cases hexpires
  rfl

theorem expired_at_once {expiryMs : Int} (hrejects : opts.onRejected.isSome = true)
    (hexpires : opts.expiresAt = some expiryMs) (hrange : MAX_DELAY_MS < expiryMs - now)
    : (now, .called (.onRejected .expired)) ∈ ((Page.started opts now true false).after opts [.fires 1]).log := by
  have hdelay : delayMs (max (expiryMs - now) 0) = 0 := by
    unfold delayMs
    unfold MAX_DELAY_MS at hrange ⊢
    split
    . omega
    . rfl
  rw [started_eq hexpires, hdelay, Int.add_zero]
  simp only [Page.after, List.foldl_cons, List.foldl_nil, Page.step, List.find?_cons, beq_self_eq_true, Int.le_refl,
    decide_true, Bool.and_self]
  apply Script.keeps (run_expiry_records hrejects)
  exact ⟨rfl, rfl⟩

end Early

section Specs

variable {opts : Options} {limit : Nat}

@[spec]
theorem call_spec {callback : Callback} {f : Page → Behaviour}
    : ⦃fun page => ⌜Inv opts limit page ∧ MayCall opts callback page⌝⦄
      call callback f
      ⦃post⟨fun _ page => ⌜Inv opts limit page⌝, fun _ page => ⌜Inv opts limit page⌝⟩⦄ := by
  mvcgen [call, stop]
  . next h _ _ _ _ _ _ _ => exact (h.1.called h.2).halt (Or.inr rfl)
  . next h _ _ _ _ _ _ _ _ => exact (h.1.called h.2).halt (Or.inr rfl)
  . next h _ _ _ _ _ _ => exact h.1.called h.2
  . next h _ _ _ _ _ _ _ => exact h.1.called h.2

@[spec]
theorem finish_spec {callback : Callback} {f : Option (Page → Behaviour)}
    : ⦃fun page => ⌜Inv opts limit page ∧ (callback = .onRejected .expired → f.isSome = true →
        ∃ expiryMs, opts.expiresAt = some expiryMs ∧ expiryMs ≤ page.now)⌝⦄
      finish callback f
      ⦃post⟨fun _ page => ⌜Inv opts limit page⌝, fun _ page => ⌜Inv opts limit page⌝⟩⦄ := by
  mvcgen [finish]
  . next h _ => exact h.1
  . next h hstopped _ _ hf =>
    exact ⟨h.1.halt (Or.inl rfl), h.1.callable hstopped fun hcallback => h.2 hcallback (hf ▸ rfl)⟩
  . next h _ _ _ _ _ => exact h.1.halt (Or.inl rfl)

@[spec]
theorem guardedTick_spec
    : ⦃fun page => ⌜Inv opts 0 page⌝⦄
      guardedTick opts
      ⦃post⟨fun _ page => ⌜Inv opts 0 page⌝, fun _ page => ⌜Inv opts 0 page⌝⟩⦄ := by
  mvcgen [guardedTick]
  next h hstopped _ _ => exact ⟨h, h.callable_tick hstopped⟩

@[spec]
theorem reschedule_spec
    : ⦃fun page => ⌜Inv opts 0 page⌝⦄
      reschedule opts
      ⦃post⟨fun _ page => ⌜Inv opts 1 page⌝, fun _ _ => ⌜False⌝⟩⦄ := by
  mvcgen [reschedule, scheduleTick]
  . next h _ => exact h.mono (Nat.zero_le 1)
  . next h hstopped _ => exact h.scheduled hstopped opts.intervalMs

@[spec]
theorem dispatchPollResult_spec (result : Option PollResult)
    : ⦃fun page => ⌜Inv opts 0 page⌝⦄
      dispatchPollResult opts result
      ⦃post⟨fun _ page => ⌜Inv opts 1 page⌝, fun _ page => ⌜Inv opts 0 page⌝⟩⦄ := by
  mvcgen [dispatchPollResult, onApproved, onRejected]
  . next h => exact ⟨h, nofun⟩
  . exact fun h => h.mono (Nat.zero_le 1)
  . next h => exact ⟨h, nofun⟩
  . exact fun h => h.mono (Nat.zero_le 1)
  . exact id

@[spec]
theorem handlePollError_spec (error : PollError)
    : ⦃fun page => ⌜Inv opts 0 page⌝⦄
      handlePollError opts error
      ⦃post⟨fun _ page => ⌜Inv opts 1 page⌝, fun _ page => ⌜Inv opts 1 page⌝⟩⦄ := by
  -- There is still room, as an error is only thrown before the next tick has been scheduled.
  mvcgen [handlePollError, onRejected]
  . next h => exact ⟨h.mono (Nat.zero_le 1), nofun⟩
  . exact id
  . exact fun h => h.mono (Nat.zero_le 1)

theorem answered_spec (answer : Except PollError (Option PollResult))
    : ⦃fun page => ⌜Inv opts 0 page⌝⦄
      answered opts answer
      ⦃post⟨fun _ page => ⌜Inv opts 1 page⌝, fun _ page => ⌜Inv opts 1 page⌝⟩⦄ := by
  mvcgen [answered]
  exact id

theorem run_tick_spec
    : ⦃fun page => ⌜Inv opts 0 { page with tickHandle := none }⌝⦄
      run opts .tick
      ⦃post⟨fun _ page => ⌜Inv opts 1 page⌝, fun _ page => ⌜Inv opts 1 page⌝⟩⦄ := by
  mvcgen [run, tick, onRejected]
  . next h _ _ => exact h.mono (Nat.zero_le 1)
  . next h _ _ hexpired =>
    have ⟨expiryMs, hexpires, hdue⟩ := (Option.any_eq_true _ _).mp hexpired
    exact ⟨h.mono (Nat.zero_le 1), fun _ => ⟨expiryMs, hexpires, of_decide_eq_true hdue⟩⟩
  . next h _ hstopped _ _ => exact h.polled hstopped

theorem run_expiry_spec
    : ⦃fun page => ⌜Inv opts 1 { page with expiryHandle := none } ∧ (opts.onRejected.isSome = true →
        ∃ expiryMs, opts.expiresAt = some expiryMs ∧ expiryMs ≤ page.now)⌝⦄
      run opts .expiry
      ⦃post⟨fun _ page => ⌜Inv opts 1 page⌝, fun _ page => ⌜Inv opts 1 page⌝⟩⦄ := by
  mvcgen [run, onRejected]
  next h _ => exact h

theorem start_spec
    : ⦃fun page => ⌜Inv opts 0 page ∧ page.timers = [] ∧ InRange opts page.now page.hasTimers page.stopped⌝⦄
      start opts
      ⦃post⟨fun _ page => ⌜Inv opts 1 page⌝, fun _ page => ⌜Inv opts 1 page⌝⟩⦄ := by
  mvcgen [start, scheduleTick, armExpiry]
  . next h _ => exact h.1.mono (Nat.zero_le 1)
  . next h _ _ => exact h.1.mono (Nat.zero_le 1)
  . next page h htimers hstopped _ expiryMs hexpires _ =>
    have hscheduled := h.1.scheduled hstopped opts.intervalMs
    apply hscheduled.armed hstopped _ hexpires
    . intro hrejects
      exact h.2.2 hrejects (by simpa using htimers) (by simpa using hstopped) expiryMs hexpires
    . intro timer htimer
      rcases List.mem_cons.mp htimer with htimer | htimer
      . rw [htimer]
        nofun
      . rw [h.2.1] at htimer
        cases htimer
  . next h _ hstopped _ _ _ _ => exact h.1.scheduled hstopped opts.intervalMs

end Specs

section Runs

variable {opts : Options} {page : Page}

theorem Inv.step (h : Inv opts 1 page) (move : Move) : Inv opts 1 (page.step opts move) := by
  cases move with
  | wait ms => exact { h with }
  | fires handle =>
    unfold Page.step
    dsimp only
    split
    . next timer hfound =>
      have hmem := List.mem_of_find?_eq_some hfound
      have hdue := List.find?_some hfound
      rw [Bool.and_eq_true, beq_iff_eq, decide_eq_true_eq] at hdue
      obtain ⟨rfl, hdue⟩ := hdue
      cases hbody : timer.body with
      | tick => exact Script.keeps run_tick_spec (h.fired_tick hmem hbody)
      | expiry =>
        apply Script.keeps run_expiry_spec
        refine ⟨h.fired_expiry hmem hbody, ?_⟩
        intro hrejects
        have ⟨expiryMs, hexpires, hle⟩ := h.due hrejects timer hmem hbody
        exact ⟨expiryMs, hexpires, Int.le_trans hle hdue⟩
    . exact h
  | answers poll answer =>
    unfold Page.step
    dsimp only
    split
    . next hpoll =>
      apply Script.keeps (answered_spec answer)
      exact { h with
        -- The poll is not outstanding any more, which makes room for the next tick.
        limit := by
          have hlimit := h.limit
          have hpos := List.length_pos_of_mem hpoll
          simp only [Page.ticks, List.length_erase_of_mem hpoll] at hlimit ⊢
          omega }
    . exact h
  | stops => exact h.halt (Or.inr rfl)

theorem Inv.after (h : Inv opts 1 page) (moves : List Move) : Inv opts 1 (page.after opts moves) := by
  induction moves generalizing page with
  | nil => exact h
  | cons move moves ih => exact ih (h.step move)

theorem inv_started {now : Int} {hasTimers stopped : Bool} (hrange : InRange opts now hasTimers stopped)
    : Inv opts 1 (Page.started opts now hasTimers stopped) := by
  apply Script.keeps start_spec
  refine ⟨?_, rfl, hrange⟩
  exact {
    limit := Nat.le_refl 0
    tick := nofun
    expiry := nofun
    due := fun _ => nofun
    sound := ⟨.nil, nofun⟩
    running := fun _ => nofun
    idle := fun _ => rfl
  }

/--
The poller keeps its promises, in every run, if and only if its expiry can be armed in time.
-/
theorem lawful_iff {now : Int} {hasTimers stopped : Bool}
    : (∀ moves, Lawful opts ((Page.started opts now hasTimers stopped).after opts moves)) ↔
        InRange opts now hasTimers stopped := by
  constructor
  . intro hlawful hrejects htimers hstopped expiryMs hexpires
    rw [htimers, hstopped] at hlawful
    by_contra hrange
    have hearly := (hlawful [.fires 1]).notEarly _ (expired_at_once hrejects hexpires (by omega)) rfl
    have ⟨expiryMs', hexpires', hle⟩ := hearly
    cases hexpires.symm.trans hexpires'
    unfold MAX_DELAY_MS at hrange
    dsimp only at hle
    omega
  . intro hrange moves
    exact ((inv_started hrange).after moves).lawful

def thirtyDays : Options where
  expiresAt := some 2592000000
  intervalMs := 5000
  onApproved := none
  onRejected := some fun _ => ⟨false, none⟩
  onTick := none

/--
It is reported as expired at once.
-/
theorem not_lawful_thirtyDays
    : ¬∀ moves, Lawful thirtyDays ((Page.started thirtyDays 0 true false).after thirtyDays moves) := by
  intro hlawful
  have ⟨expiryMs, hexpires, hle⟩ :=
    (hlawful [.fires 1]).notEarly (0, .called (.onRejected .expired)) (by decide) rfl
  cases hexpires
  exact absurd hle (by decide)

end Runs

end Kerghan.Frontend
