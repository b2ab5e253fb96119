import Interlock.Plant.Desk

/-!
Running the plant. Jobs are worked off until the agenda is empty; then the next task takes its turn.
In a run the caller is asked at first, after every rest and whenever many turns have passed, and the
run is over when the caller has what it waits for.
-/

set_option autoImplicit false

namespace Interlock.Plant

open Interlock.Graph
open Interlock.Schedule (SequenceId)
open Interlock.Session (Command Reply)

def scriptOf (plant : Plant) (id : ObserverId) (observer : Observer) : Plant :=
  match observer.remaining with
  | 0 => plant
  | remaining + 1 =>
      (plant.setObserver id { observer with remaining := remaining }).push
        (observer.script.map fun command => .command observer.label command)

def deliver (plant : Plant) (listener : Listener) (notification : Notification) : Plant :=
  match listener with
  | .observer id =>
      match plant.observers[id]? with
      | none => plant
      | some observer =>
          (plant.note (.notified observer.label notification)).scriptOf id observer
  | .comparison id => plant.hearVariable id notification.stamp
  | .trigger id => plant.hear id notification.stamp
  | .follower _ _ => plant

def tell (plant : Plant) (listener : Listener) (event : Event) : Plant :=
  match listener with
  | .observer id =>
      match plant.observers[id]? with
      | none => plant
      | some observer => (plant.note (.told observer.label event)).scriptOf id observer
  | .follower id source => plant.takeOver id source event
  | .comparison _ | .trigger _ => plant

-- A command of a script. Its reply stands behind all that it causes.
def runCommand (plant : Plant) (label : String) (command : Command) : Plant :=
  let (reply, next) := plant.execute command
  let caused := next.agenda.take (next.agenda.length - plant.agenda.length)
  { next with agenda := caused ++ .conclude label reply :: plant.agenda }

def exhaust (plant : Plant) (id : TriggerId) : Plant :=
  match plant.triggers[id]? with
  | none => plant
  | some trigger =>
      (plant.log .trigger .debug "Repeat count reached zero"
        [("trigger", .text trigger.expression)]).deactivateTrigger id

def actNext (plant : Plant) (id : SequenceId) : List Action → Plant
  | [] => plant.push [.arm id]
  | action :: rest =>
      match plant.sequences[id]? with
      | none => plant
      | some sequence => plant.act id sequence action rest

def perform (plant : Plant) : Job → Plant
  | .deliver listener notification => plant.deliver listener notification
  | .tell listener event => plant.tell listener event
  | .leave _ => plant
  | .exhaust id => plant.exhaust id
  | .command label command => plant.runCommand label command
  | .conclude label reply => plant.note (.replied label reply)
  | .write id value => plant.write id value
  | .settleDown id => plant.settleDown id
  | .keepSubscription name subscription => plant.keepSubscription name subscription
  | .closeRun => plant.dispatch Dispatcher.closeRun
  | .announce id progress => plant.announce id progress
  | .begin id => plant.beginStep id
  | .act id actions => plant.actNext id actions
  | .arm id => plant.arm id
  | .wait id => plant.waitForTrigger id
  | .disarm id => plant.disarm id
  | .next id => plant.nextStep id
  | .complete id => plant.complete id

def turn (plant : Plant) : Runner → Plant
  | .sequence id => plant.turnSequence id
  | .device id => plant.turnDevice id
  | .stopped => plant

def retire (plant : Plant) : Plant := plant.retireNodes.retireDevices

def stepJob? (plant : Plant) : Option Plant :=
  match plant.agenda with
  | [] => none
  | job :: rest => some (({ plant with agenda := rest }).perform job).retire

def settle : Nat → Plant → Plant
  | 0, plant => plant
  | fuel + 1, plant =>
      match plant.stepJob? with
      | none => plant
      | some plant => settle fuel plant

def patience : Nat := 10000000

def takeTurn (plant : Plant) : Bool × Plant :=
  let (runner, dispatcher) := plant.dispatcher.next
  let plant := { plant with dispatcher := dispatcher }
  match runner with
  | some runner => (true, settle patience (plant.turn runner).retire)
  | none => (false, plant)

def takeTurns : Nat → Plant → Bool × Plant
  | 0, plant => (true, plant)
  | count + 1, plant =>
      match plant.takeTurn with
      | (true, plant) => takeTurns count plant
      | (false, plant) => (false, plant)

def work : Nat → Plant → Plant
  | 0, plant => plant
  | fuel + 1, plant =>
      match (settle patience plant).takeTurn with
      | (true, plant) => work fuel plant
      | (false, plant) => plant

def isFinished (id : SequenceId) (plant : Plant) : Bool :=
  match plant.sequences[id]? with
  | some sequence => sequence.state.isFinished
  | none => false

-- Who lets the plant run: up to a deadline, or until a sequence is finished before that.
structure Caller where
  deadline : Nat
  awaited : Option SequenceId
deriving DecidableEq, Repr

def Caller.isServed (caller : Caller) (plant : Plant) : Bool :=
  (caller.awaited.any fun id => isFinished id plant) || caller.deadline ≤ plant.dispatcher.time

def turnsInRow : Nat := 61

def serve (caller : Caller) : Nat → Plant → Plant
  | 0, plant => plant
  | fuel + 1, plant =>
      if plant.dispatcher.called && caller.isServed plant then plant
      else
        let plant :=
          if plant.dispatcher.called then
            plant.dispatch fun dispatcher => dispatcher.dismiss caller.deadline
          else plant
        match takeTurns turnsInRow plant with
        | (true, plant) => serve caller fuel (plant.dispatch Dispatcher.pause)
        | (false, plant) => serve caller fuel (plant.dispatch Dispatcher.rest)

def runFor (plant : Plant) (caller : Caller) : Plant :=
  (serve caller patience
    (plant.dispatch fun dispatcher => dispatcher.openRun caller.awaited)).dispatch
    Dispatcher.closeRun

def wait (plant : Plant) (millis : Nat) : Plant :=
  plant.runFor ⟨plant.dispatcher.time + millis, none⟩

def waitFinished (plant : Plant) (id : SequenceId) (millis : Nat) : Plant :=
  plant.runFor ⟨plant.dispatcher.time + millis, some id⟩

def run (plant : Plant) (command : Command) : Reply × Plant :=
  let (reply, plant) := plant.execute command
  (reply, settle patience plant.retire)

end Interlock.Plant
