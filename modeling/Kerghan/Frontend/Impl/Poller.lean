import Mathlib.Data.List.Basic

/-!
This module contains `AuthorizationRequestPoller` of the frontend, with the timers of the page that it runs
on. What runs between two events of the page is a script: nothing comes in between, and an error that it
throws does not undo what it has done.
-/

namespace Kerghan.Frontend

/--
An error that a poll or a callback throws, with its `status` if it has one.
-/
structure PollError where
  status : Option Nat
  deriving DecidableEq, Repr

/--
The `status` of the result that a poll resolves with, if there is a result and it has one.
-/
structure PollResult where
  status : Option String
  deriving DecidableEq, Repr

/--
Why the poller rejects: because of the status that a poll has been answered with, or of its own accord.
-/
inductive Reason where
  | answered (status : String)
  | expired
  | notFound
  deriving DecidableEq, Repr

def Reason.argument : Reason → String
  | .answered status => status
  | .expired => "expired"
  | .notFound => "notFound"

inductive Callback where
  | onApproved (result : PollResult)
  | onRejected (reason : Reason)
  | onTick
  deriving DecidableEq, Repr

inductive Event where
  | polled
  | called (callback : Callback)
  /-- The poller has come to a terminal outcome, whether it has a callback for it or not. -/
  | finished
  /-- The owner of the poller, or one of the callbacks, calls `stop()`. -/
  | stopCalled
  deriving DecidableEq, Repr

inductive TimerBody where
  | tick
  | expiry
  deriving DecidableEq, Repr

structure Timer where
  handle : Nat
  body : TimerBody
  due : Int
  deriving DecidableEq, Repr

/--
The fields of the poller that change, and the page around it.
-/
structure Page where
  now : Int
  /-- Whether the environment has `setTimeout`. -/
  hasTimers : Bool := true
  /-- The handle of the next timer or poll. -/
  next : Nat := 0
  timers : List Timer := []
  /-- The polls that have not been answered yet. -/
  polls : List Nat := []
  tickHandle : Option Nat := none
  expiryHandle : Option Nat := none
  stopped : Bool := false
  /-- Newest first. -/
  log : List (Int × Event) := []
  deriving DecidableEq, Repr

abbrev Script (α : Type) := ExceptT PollError (StateM Page) α

/--
What a callback of the owner does when it is called: it may stop the poller, and it may throw.
-/
structure Behaviour where
  stops : Bool
  throws : Option PollError

/--
The options of the constructor. A callback may do something else every time.
-/
structure Options where
  /-- `Date.parse(expiresAt)`, if it is a number. -/
  expiresAt : Option Int
  intervalMs : Int
  onApproved : Option (Page → Behaviour)
  onRejected : Option (Page → Behaviour)
  onTick : Option (Page → Behaviour)

section Timers

def MAX_DELAY_MS : Int := 2147483647

/--
A delay that is out of the range of a timer is none at all.
-/
def delayMs (delay : Int) : Int :=
  if 0 ≤ delay ∧ delay ≤ MAX_DELAY_MS then delay else 0

/--
`setTimeout(body, delay)`, whose handle is `page.next`.
-/
def Page.setTimeout (body : TimerBody) (delay : Int) (page : Page) : Page :=
  { page with
    next := page.next + 1
    timers := ⟨page.next, body, page.now + delayMs delay⟩ :: page.timers }

def Page.clearTimeout (handle : Nat) (page : Page) : Page :=
  { page with timers := page.timers.filter fun timer => timer.handle != handle }

def Page.record (event : Event) (page : Page) : Page :=
  { page with log := (page.now, event) :: page.log }

end Timers

namespace AuthorizationRequestPoller

/--
The body of `stop`.
-/
def halt (page : Page) : Page :=
  let page := { page with stopped := true }
  let page :=
    match page.tickHandle with
    | some handle => { page.clearTimeout handle with tickHandle := none }
    | none => page
  match page.expiryHandle with
  | some handle => { page.clearTimeout handle with expiryHandle := none }
  | none => page

/--
A call of `stop` that the poller does not make by itself.
-/
def stop : Script Unit :=
  modify fun page => halt (page.record .stopCalled)

def call (callback : Callback) (f : Page → Behaviour) : Script Unit := do
  modify (Page.record (.called callback))
  let behaviour := f (← get)
  if behaviour.stops then
    stop
  if let some error := behaviour.throws then
    throw error

def finish (callback : Callback) (f : Option (Page → Behaviour)) : Script Unit := do
  if (← get).stopped then
    return
  modify fun page => halt (page.record .finished)
  if let some f := f then
    call callback f

variable (opts : Options)

def guardedTick : Script Unit := do
  if (← get).stopped then
    return
  if let some f := opts.onTick then
    call .onTick f

/--
`#scheduleTick`, which hands the callbacks of the poller on to the tick.
-/
def scheduleTick : Script Unit :=
  modify fun page => { page.setTimeout .tick opts.intervalMs with tickHandle := some page.next }

def reschedule : Script Unit := do
  if (← get).stopped then
    return
  scheduleTick opts

def onApproved (result : PollResult) : Script Unit :=
  finish (.onApproved result) opts.onApproved

def onRejected (reason : Reason) : Script Unit :=
  finish (.onRejected reason) opts.onRejected

def dispatchPollResult (result : Option PollResult) : Script Unit := do
  let status := ((result.bind PollResult.status).filter (· ≠ "")).getD "open"
  if status = "approved" then
    onApproved opts (result.getD ⟨none⟩)
  else if status = "denied" ∨ status = "expired" ∨ status = "logged" then
    onRejected opts (.answered status)
  else
    guardedTick opts
    reschedule opts

def handlePollError (error : PollError) : Script Unit := do
  if error.status = some 404 then
    onRejected opts .notFound
  else
    guardedTick opts
    reschedule opts

/--
The tick until it waits for the answer of its poll, if it polls.
-/
def tick : Script Unit := do
  let page ← get
  if opts.expiresAt.any fun expiryMs => decide (page.now ≥ expiryMs) then
    onRejected opts .expired
  else
    modify fun page =>
      { page.record .polled with
        next := page.next + 1
        polls := page.next :: page.polls }

def answered (answer : Except PollError (Option PollResult)) : Script Unit :=
  match answer with
  | .ok result => tryCatch (dispatchPollResult opts result) (handlePollError opts)
  | .error error => handlePollError opts error

def armExpiry : Script Unit := do
  if let some expiryMs := opts.expiresAt then
    modify fun page =>
      let delay := max (expiryMs - page.now) 0
      { page.setTimeout .expiry delay with expiryHandle := some page.next }

def start : Script Unit := do
  if !(← get).hasTimers then
    return
  if (← get).stopped then
    return
  scheduleTick opts
  armExpiry opts

/--
The functions that are given to `setTimeout`.
-/
def run : TimerBody → Script Unit
  | .tick => do
    modify fun page => { page with tickHandle := none }
    if (← get).stopped then
      return
    tick opts
  | .expiry => do
    modify fun page => { page with expiryHandle := none }
    onRejected opts .expired

end AuthorizationRequestPoller

section Moves

inductive Move where
  | wait (ms : Nat)
  /-- A timer whose time has come fires. -/
  | fires (handle : Nat)
  | answers (poll : Nat) (answer : Except PollError (Option PollResult))
  /-- The owner calls `stop()`. -/
  | stops

open AuthorizationRequestPoller

variable (opts : Options)

/--
The page after a move. Nothing happens if there is no such timer or poll.
-/
def Page.step (page : Page) : Move → Page
  | .wait ms => { page with now := page.now + ms }
  | .fires handle =>
    match page.timers.find? fun timer => timer.handle == handle && timer.due ≤ page.now with
    | some timer =>
      (run opts timer.body (page.clearTimeout handle)).2
    | none => page
  | .answers poll answer =>
    if poll ∈ page.polls then
      (answered opts answer { page with polls := page.polls.erase poll }).2
    else
      page
  | .stops => (stop page).2

def Page.after (page : Page) (moves : List Move) : Page :=
  moves.foldl (Page.step opts) page

/--
The page on which a new poller has been started, unless it had been stopped before.
-/
def Page.started (now : Int) (hasTimers stopped : Bool) : Page :=
  (start opts { now, hasTimers, stopped }).2

end Moves

end Kerghan.Frontend
