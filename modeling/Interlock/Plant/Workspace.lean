import Interlock.Config.Basic
import Interlock.Plant.Devices
import Interlock.Plant.Sequencing

/-!
The objects that a configuration asks for: devices and channels, then variables, and the sequence of
a procedure.
-/

set_option autoImplicit false

namespace Interlock.Plant

open Interlock.Graph
open Interlock.Schedule

structure Workspace where
  table : TableId
  registry : RegistryId
  devices : List DeviceId
deriving DecidableEq, Repr

def addTable (plant : Plant) : TableId × Plant :=
  (plant.tables.length, { plant with tables := plant.tables ++ [[]] })

def addRegistry (plant : Plant) : RegistryId × Plant :=
  (plant.registries.length, { plant with registries := plant.registries ++ [[]] })

def attachAll (plant : Plant) (id : DeviceId) (verbose : Bool) (names : List String) : Plant :=
  names.foldl
    (fun plant name =>
      let (channel, plant) := plant.addChannel { Channel.create name with verbose := verbose }
      (plant.attach id channel).2)
    plant

def makeDevices (plant : Plant) (registry : RegistryId) (verbose : Bool) :
    List Config.Device → Except Failure (List DeviceId) × Plant
  | [] => (.ok [], plant)
  | part :: rest =>
      match Driver.ofName? part.driver with
      | none =>
          (.error (.configuration
            ("Device '" ++ part.name ++ "' uses unknown driver '" ++ part.driver ++ "'")), plant)
      | some driver =>
          let (id, plant) := plant.addDevice (.create part.name driver part.interval)
          let plant := (plant.attachAll id verbose part.channels).registerAttached id registry
          match makeDevices plant registry verbose rest with
          | (.ok ids, plant) => (.ok (id :: ids), plant)
          | (.error failure, plant) => (.error failure, plant)

def makeChannel (plant : Plant) (registry : RegistryId) (verbose : Bool) (part : Config.Channel) :
    Plant :=
  let (id, plant) := plant.addChannel (.create part.path)
  let plant :=
    match part.initial with
    | some literal => plant.write id (.infer literal)
    | none => plant
  let plant :=
    match plant.channels[id]? with
    | some channel => plant.setChannel id { channel with active := part.active, verbose := verbose }
    | none => plant
  (plant.register registry part.path id).2

def insertVariable (plant : Plant) (table : TableId) (name : String) (id : VariableId) : Plant :=
  plant.setTable table ((plant.table table).insert name id)

def makeVariables (plant : Plant) (table : TableId) (registry : RegistryId) (verbose : Bool) :
    List Config.Variable → Except Failure Unit × Plant
  | [] => (.ok (), plant)
  | part :: rest =>
      let (id, plant) := plant.addVariable (.create part.name (.infer part.initial) verbose)
      match part.channel with
      | none => makeVariables (plant.insertVariable table part.name id) table registry verbose rest
      | some path =>
          match Registry.resolve? (plant.registry registry) path with
          | none =>
              (.error (.configuration
                ("Variable '" ++ part.name ++ "' follows unknown channel '" ++ path ++ "'")), plant)
          | some channel =>
              let plant := (plant.follow id channel).2
              makeVariables (plant.insertVariable table part.name id) table registry verbose rest

def makeWorkspace (plant : Plant) (config : Config) : Except Failure Workspace × Plant :=
  let verbose := config.scheduler.verbose
  let (table, plant) := plant.addTable
  let (registry, plant) := plant.addRegistry
  match plant.makeDevices registry verbose config.devices with
  | (.error failure, plant) => (.error failure, plant)
  | (.ok devices, plant) =>
      let plant := config.channels.foldl
        (fun plant part => plant.makeChannel registry verbose part) plant
      match plant.makeVariables table registry verbose config.vars with
      | (.error failure, plant) => (.error failure, plant)
      | (.ok (), plant) =>
          (.ok ⟨table, registry, devices⟩,
            plant.log .registry .info "Workspace ready"
              [("devices", .count devices.length),
                ("channels", .count (plant.registry registry).length),
                ("variables", .count (plant.table table).length)])

def startDevices (plant : Plant) : List DeviceId → Except Failure Plant
  | [] => .ok plant
  | id :: rest =>
      match plant.activateDevice id with
      | .ok plant => startDevices plant rest
      | .error failure => .error failure

def shutdown (plant : Plant) (devices : List DeviceId) : Plant := devices.foldl disposeDevice plant

def makeStep (plant : Plant) (table : TableId) (part : Config.Step) :
    Except BindingError (Step × Plant) :=
  let step := Step.create (part.action.getD "") none (part.description.getD "")
  match part.trigger with
  | none => .ok (step, plant)
  | some expression =>
      if Text.isBlankText expression then .ok (step, plant)
      else
        (plant.makeTrigger table expression 1).map fun (id, plant) =>
          ({ step with trigger := some id }, plant)

def makeSteps (plant : Plant) (table : TableId) :
    List Config.Step → Except BindingError (List Step × Plant)
  | [] => .ok ([], plant)
  | part :: rest =>
      match plant.makeStep table part with
      | .error error => .error error
      | .ok (step, plant) =>
          (makeSteps plant table rest).map fun (steps, plant) => (step :: steps, plant)

def makeSchedule (plant : Plant) (table : TableId) (registry : RegistryId)
    (procedure : Config.Procedure) (pollInterval : Nat) : Except Failure (Scheduled × Plant) :=
  match procedure.activeSequence? with
  | none =>
      .error (.configuration ("Active sequence '" ++ procedure.active ++ "' is not defined"))
  | some part =>
      match plant.makeSteps table part.steps with
      | .error error => .error (.binding error)
      | .ok (steps, plant) =>
          let (id, plant) := plant.addSequence part.name registry pollInterval
          let plant :=
            match plant.sequences[id]? with
            | some sequence => plant.setSequence id { sequence with queue := steps }
            | none => plant
          .ok
            (⟨id, procedure.autoStart, procedure.autoExit⟩,
              plant.log .scheduler .info "Scheduler built"
                [("sequence", .text part.name), ("steps", .count steps.length),
                  ("auto_start", .bool procedure.autoStart),
                  ("auto_exit", .bool procedure.autoExit)])

def startScheduled (plant : Plant) (scheduled : Scheduled) : Except Failure (Bool × Plant) :=
  if scheduled.autoStart then
    (plant.activateSequence scheduled.sequence).map fun plant => (true, plant)
  else .ok (false, plant)

end Interlock.Plant
