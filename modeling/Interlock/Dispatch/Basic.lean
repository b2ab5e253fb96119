import Interlock.Dispatch.Timer

/-!
The dispatcher: which task takes its turn next, and when the clock moves on.

Tasks take turns only in a run. A task that is made ready in a run joins the inner line; one that is
made ready between runs joins the outer line, which is looked at when the inner one is empty, and
first at every so many looks. Both lines last from run to run.
-/

set_option autoImplicit false

namespace Interlock

open Interlock.Dispatch (Timer Sleeper)
open Interlock.Schedule (SequenceId)

structure Dispatcher where
  inner : List Runner
  outer : List Runner
  -- how often a next task was looked for
  looks : Nat
  running : Bool
  -- whether the clock is kept from moving at the next rest
  stirred : Bool
  -- whether the caller of the run is to see if the run is over
  called : Bool
  -- the sequence whose states the caller wants to see
  awaited : Option SequenceId
  -- milliseconds
  time : Nat
  -- in the order in which they were set
  timers : List Timer
deriving DecidableEq, Repr

namespace Dispatcher

def blank : Dispatcher :=
  { inner := [], outer := [], looks := 0, running := false, stirred := false, called := false,
    awaited := none, time := 0, timers := [] }

def isQueued (dispatcher : Dispatcher) (runner : Runner) : Bool :=
  dispatcher.inner.contains runner || dispatcher.outer.contains runner

def append (dispatcher : Dispatcher) (runner : Runner) : Dispatcher :=
  if dispatcher.running then { dispatcher with inner := dispatcher.inner ++ [runner] }
  else { dispatcher with outer := dispatcher.outer ++ [runner], stirred := true }

def enqueue (dispatcher : Dispatcher) (runner : Runner) : Dispatcher :=
  if dispatcher.isQueued runner then dispatcher else dispatcher.append runner

-- At every so many looks the outer line is looked at first.
def outerEvery : Nat := 31

def next (dispatcher : Dispatcher) : Option Runner × Dispatcher :=
  let dispatcher := { dispatcher with looks := dispatcher.looks + 1 }
  match dispatcher.inner, dispatcher.outer with
  | [], [] => (none, dispatcher)
  | runner :: rest, [] => (some runner, { dispatcher with inner := rest })
  | [], runner :: rest => (some runner, { dispatcher with outer := rest })
  | runner :: rest, other :: others =>
      if dispatcher.looks % outerEvery = 0 then (some other, { dispatcher with outer := others })
      else (some runner, { dispatcher with inner := rest })

def isSet (dispatcher : Dispatcher) (sleeper : Sleeper) : Bool :=
  dispatcher.timers.any fun timer => timer.sleeper == sleeper

def setTimer (dispatcher : Dispatcher) (sleeper : Sleeper) (due : Nat) : Dispatcher :=
  if dispatcher.isSet sleeper then dispatcher
  else { dispatcher with timers := dispatcher.timers ++ [⟨due, sleeper⟩] }

def clearTimer (dispatcher : Dispatcher) (sleeper : Sleeper) : Dispatcher :=
  { dispatcher with timers := dispatcher.timers.filter fun timer => timer.sleeper != sleeper }

def sleep (dispatcher : Dispatcher) (runner : Runner) (millis : Nat) : Dispatcher :=
  dispatcher.setTimer (.task runner) (dispatcher.time + millis)

-- Ends a task. A ready or a sleeping one leaves a turn behind that does nothing; one that has its
-- turn at this moment ends with it.
def stop (dispatcher : Dispatcher) (runner : Runner) : Dispatcher :=
  let still (other : Runner) : Runner := if other = runner then .stopped else other
  if dispatcher.isQueued runner then
    { dispatcher with inner := dispatcher.inner.map still, outer := dispatcher.outer.map still }
  else if dispatcher.isSet (.task runner) then
    (dispatcher.clearTimer (.task runner)).append .stopped
  else dispatcher

def nextStop? (dispatcher : Dispatcher) : Option Nat :=
  (dispatcher.timers.map fun timer => timer.stop dispatcher.time).min?

def call (dispatcher : Dispatcher) : Dispatcher := { dispatcher with called := true, stirred := true }

def wake (dispatcher : Dispatcher) (timer : Timer) : Dispatcher :=
  match timer.sleeper with
  | .caller => dispatcher.call
  | .task runner => dispatcher.enqueue runner

-- Moves the clock; whose timer is due then wakes, the timer set first in front.
def moveTo (dispatcher : Dispatcher) (time : Nat) : Dispatcher :=
  let (due, later) := dispatcher.timers.partition fun timer => timer.due ≤ time
  due.foldl wake { dispatcher with time := time, timers := later }

-- What happens when no task is ready: the clock moves to its next stop, unless it is kept.
def rest (dispatcher : Dispatcher) : Dispatcher :=
  if dispatcher.stirred then { dispatcher with stirred := false }
  else
    match dispatcher.nextStop? with
    | some time => dispatcher.moveTo time
    | none => dispatcher

def pause (dispatcher : Dispatcher) : Dispatcher := { dispatcher with stirred := false }

def openRun (dispatcher : Dispatcher) (awaited : Option SequenceId) : Dispatcher :=
  { dispatcher with running := true, called := true, awaited := awaited }

def dismiss (dispatcher : Dispatcher) (deadline : Nat) : Dispatcher :=
  { dispatcher with called := false }.setTimer .caller deadline

def closeRun (dispatcher : Dispatcher) : Dispatcher :=
  { dispatcher with running := false, called := false, awaited := none }.clearTimer .caller

def report (dispatcher : Dispatcher) (id : SequenceId) : Dispatcher :=
  if dispatcher.awaited = some id then dispatcher.call else dispatcher

end Dispatcher

end Interlock
