import Interlock.Invocation.Arguments
import Interlock.Invocation.Settings
import Interlock.Log.Filter
import Interlock.Plant.Run

/-!
The run of a sequence from the command line: what is set up, what is printed, and when it is over.
-/

set_option autoImplicit false

namespace Interlock.Invocation

open Interlock.Calendar (Instant)
open Interlock.Schedule (SequenceId Progress)

inductive Line where
  | text (content : String)
  | record (record : Log.Record)

structure Execution where
  plant : Plant
  sequence : SequenceId
  devices : List DeviceId
  filter : Log.Filter
  json : Bool
  -- whether the program ends with the run
  exits : Bool

structure Outcome where
  lines : List Line
  fault : Option Fault

def printerLabel : String := "printer"

def lineOf? (filter : Log.Filter) (json : Bool) : Entry → Option Line
  | .told _ event => some (.text event.display)
  | .announced _ progress => if json then some (.text progress.toJson.render) else none
  | .logged record => if filter.shows record then some (.record record) else none
  | .notified _ _ | .replied _ _ => none

def drain (filter : Log.Filter) (json : Bool) (plant : Plant) : List Line × Plant :=
  (plant.trace.reverse.filterMap (lineOf? filter json), { plant with trace := [] })

def Execution.drain (execution : Execution) : List Line × Execution :=
  let (lines, plant) := Invocation.drain execution.filter execution.json execution.plant
  (lines, { execution with plant := plant })

def subscribePrinter (plant : Plant) (id : SequenceId) : Plant :=
  match plant.sequences[id]? with
  | none => plant
  | some sequence =>
      let (observer, plant) := plant.addObserver ⟨printerLabel, 0, []⟩
      (plant.subscribeChannel sequence.channel (.observer observer)).2

def startRun (plant : Plant) (scheduled : Scheduled) (force : Bool) :
    Except Failure (Bool × Plant) :=
  if force then (plant.activateSequence scheduled.sequence).map fun plant => (true, plant)
  else plant.startScheduled scheduled

def sequenceName (plant : Plant) (id : SequenceId) : String :=
  ((plant.sequences[id]?).map fun sequence => sequence.name).getD ""

def setUp (plant : Plant) (config : Config) (procedure : Config.Procedure) (options : RunOptions)
    (filter : Log.Filter) : Except Failure Execution × Plant :=
  match plant.makeWorkspace config with
  | (.error failure, plant) => (.error failure, plant)
  | (.ok workspace, plant) =>
      let plant := plant.openWorkspace workspace
      match plant.startDevices workspace.devices with
      | .error failure => (.error failure, plant)
      | .ok plant =>
          match plant.makeSchedule workspace.table workspace.registry procedure
              config.scheduler.pollInterval with
          | .error failure => (.error failure, plant)
          | .ok (scheduled, plant) =>
              let plant := plant.keep fun desk => { desk with schedule := some scheduled }
              let plant :=
                if options.json then plant else subscribePrinter plant scheduled.sequence
              match startRun plant scheduled options.start with
              | .error failure => (.error failure, plant)
              | .ok (started, plant) =>
                  let plant :=
                    if started then plant
                    else
                      plant.log .program .warn
                        "AutoStart is off; pass --start to run the sequence"
                        [("sequence", .text (sequenceName plant scheduled.sequence))]
                  (.ok
                    { plant, sequence := scheduled.sequence, devices := workspace.devices,
                      filter, json := options.json, exits := scheduled.autoExit && started },
                    plant)

def filterSetting : String := "RUST_LOG"

def prepare (around : Surroundings) (options : RunOptions) (start : Instant) :
    Except Outcome Execution :=
  match load around options.path with
  | .error fault => .error ⟨[], some fault⟩
  | .ok config =>
      match Log.Level.read config.application.logLevel with
      | .error message => .error ⟨[], some (.plain message)⟩
      | .ok usual =>
          let filter := Log.Filter.ofSetting (around.environment.lookup filterSetting) usual
          let plant := (Plant.blank start true).dispatch fun dispatcher => dispatcher.openRun none
          let plant := { plant with paced := true }.log .program .info "Starting"
            [("application", .text config.application.name), ("config", .text options.path)]
          match config.procedure with
          | none =>
              .error ⟨(drain filter options.json plant).1,
                some (.plain (options.path ++ " has no [procedure] section"))⟩
          | some procedure =>
              match setUp plant config procedure options filter with
              | (.ok execution, _) => .ok execution
              | (.error failure, plant) =>
                  .error ⟨(drain filter options.json plant).1, some (.plain failure.message)⟩

def Execution.isOver (execution : Execution) : Bool :=
  execution.exits && Plant.isFinished execution.sequence execution.plant

def Execution.close (execution : Execution) : Execution :=
  let plant := (execution.plant.disposeSequence execution.sequence).shutdown execution.devices
  let state :=
    ((plant.sequences[execution.sequence]?).map fun sequence => sequence.state.name).getD ""
  { execution with plant := plant.log .program .info "Finished" [("state", .text state)] }

def Execution.advance (execution : Execution) : Execution :=
  { execution with plant := Plant.work Plant.patience execution.plant }

-- The milliseconds at which the clock stops next. Without an active device nothing is to come.
def Execution.due? (execution : Execution) : Option Nat :=
  if execution.plant.devices.any fun device => device.active then
    execution.plant.dispatcher.nextStop?
  else none

-- Moves the clock to its next stop, if something is to come.
def Execution.skip? (execution : Execution) : Option Execution :=
  execution.due?.map fun time =>
    { execution with plant := execution.plant.dispatch fun dispatcher => dispatcher.moveTo time }

-- Runs to the end without waiting for the time that the timers show; stops where nothing can
-- happen any more.
def Execution.runOut : Nat → Execution → Execution
  | 0, execution => execution
  | fuel + 1, execution =>
      let execution := execution.advance
      if execution.isOver then execution.close
      else
        match execution.skip? with
        | some execution => runOut fuel execution
        | none => execution

def runAll (around : Surroundings) (options : RunOptions) (start : Instant) : Outcome :=
  match prepare around options start with
  | .error outcome => outcome
  | .ok execution => ⟨(execution.runOut Plant.patience).drain.1, none⟩

end Interlock.Invocation
