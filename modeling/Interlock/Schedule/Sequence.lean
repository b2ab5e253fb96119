import Interlock.Channel.Basic
import Interlock.Json.Writer
import Interlock.Schedule.Step
import Interlock.Value.Interchange

/-!
Sequences: queues of steps that are executed one at a time.
-/

set_option autoImplicit false

namespace Interlock.Schedule

open Interlock.Json (Tree)

abbrev SequenceId := Nat

abbrev RegistryId := Nat

inductive State where
  | idle
  | running
  | paused
  | completed
  | cancelled
deriving DecidableEq, Repr

namespace State

def name : State → String
  | idle => "Idle"
  | running => "Running"
  | paused => "Paused"
  | completed => "Completed"
  | cancelled => "Cancelled"

def isFinished : State → Bool
  | completed | cancelled => true
  | idle | running | paused => false

end State

inductive Progress where
  | started (sequence : String)
  | stepStarted (index : Nat) (actions description : String)
  | actionApplied (path : String) (value : Value)
  | actionSkipped (path : String)
  | waitingOnTrigger (expression : String)
  | triggerSatisfied (expression : String)
  | paused
  | resumed
  | completed
  | cancelled
deriving DecidableEq, Repr

namespace Progress

def name : Progress → String
  | started _ => "Started"
  | stepStarted _ _ _ => "StepStarted"
  | actionApplied _ _ => "ActionApplied"
  | actionSkipped _ => "ActionSkipped"
  | waitingOnTrigger _ => "WaitingOnTrigger"
  | triggerSatisfied _ => "TriggerSatisfied"
  | paused => "Paused"
  | resumed => "Resumed"
  | completed => "Completed"
  | cancelled => "Cancelled"

def details : Progress → List (String × Tree)
  | started sequence => [("sequence", .text sequence)]
  | stepStarted index actions description =>
      [("index", .count index), ("actions", .text actions), ("description", .text description)]
  | actionApplied path value => [("path", .text path), ("value", value.toJson)]
  | actionSkipped path => [("path", .text path)]
  | waitingOnTrigger expression => [("expression", .text expression)]
  | triggerSatisfied expression => [("expression", .text expression)]
  | paused | resumed | completed | cancelled => []

def toJson (progress : Progress) : Tree :=
  .object (("event", .text progress.name) :: progress.details)

end Progress

-- The task that executes the steps of a run, while it holds a step.
inductive Task where
  -- handed over and not begun
  | fresh (step : Step)
  | busy (step : Step)
  -- suspended until the trigger of its step is true
  | waiting (step : Step)
deriving DecidableEq, Repr

def Task.step : Task → Step
  | fresh step | busy step | waiting step => step

structure Sequence where
  name : String
  registry : RegistryId
  -- carries the messages of the sequence
  channel : ChannelId
  -- in milliseconds, at least one: how often a task that waits for a trigger looks again
  pollInterval : Nat
  queue : List Step
  paused : Bool
  -- whether a task executes steps; at most one does
  inFlight : Bool
  task : Option Task
  -- steps begun since the activation
  executed : Nat
  active : Bool
  state : State
deriving DecidableEq, Repr

namespace Sequence

def create (name : String) (registry : RegistryId) (channel : ChannelId) (pollInterval : Nat) :
    Sequence :=
  { name, registry, channel, pollInterval := max 1 pollInterval, queue := [], paused := false, inFlight := false, task := none,
    executed := 0, active := false, state := .idle }

def steps (sequence : Sequence) : List Step :=
  (sequence.task.map Task.step).toList ++ sequence.queue

def nextCommand : String := "OnNext"

def completedCommand : String := "OnCompleted"

end Sequence

end Interlock.Schedule
