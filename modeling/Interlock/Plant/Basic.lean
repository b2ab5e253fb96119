import Interlock.Channel.Registry
import Interlock.Dispatch.Basic
import Interlock.Log.Record
import Interlock.Session.Reply

/-!
The plant: all variables, comparisons, triggers, channels, devices and sequences, the work that is
still to be done, and a trace of what happened.

Objects are known by their places in lists and are never taken out of them. An object is in use
while something holds it; a trigger or comparison that nothing holds is deactivated at once. Work is
an agenda of jobs: a call puts what it causes in front of what its caller still has to do.
-/

set_option autoImplicit false

namespace Interlock

open Interlock.Calendar (Instant)
open Interlock.Graph
open Interlock.Schedule (SequenceId RegistryId Sequence Step Progress)
open Interlock.Session (Command Reply)

structure Observer where
  label : String
  remaining : Nat
  script : List Command

inductive Node where
  | var (id : VariableId)
  | comparison (id : ComparisonId)
  | trigger (id : TriggerId)
deriving DecidableEq, Repr

inductive Publisher where
  | node (node : Node)
  | channel (id : ChannelId)
deriving DecidableEq, Repr

structure Subscription where
  publisher : Publisher
  ticket : Ticket
deriving DecidableEq, Repr

inductive Job where
  | deliver (listener : Listener) (notification : Notification)
  | tell (listener : Listener) (event : Event)
  -- the end of a call of a node
  | leave (node : Node)
  -- behind the notification of its last transition
  | exhaust (id : TriggerId)
  | command (label : String) (command : Command)
  | conclude (label : String) (reply : Reply)
  | write (id : ChannelId) (value : Value)
  -- the end of the turn of a device
  | settleDown (id : DeviceId)
  -- behind all that a subscription causes when it is made
  | keepSubscription (name : String) (subscription : Subscription)
  -- the end of a call that counts as a run
  | closeRun
  | announce (id : SequenceId) (progress : Progress)
  -- the parts of a step, in order
  | begin (id : SequenceId)
  | act (id : SequenceId) (actions : List Action)
  | arm (id : SequenceId)
  | wait (id : SequenceId)
  | disarm (id : SequenceId)
  -- between steps
  | next (id : SequenceId)
  -- behind the message that the queue is empty
  | complete (id : SequenceId)

inductive Entry where
  | notified (label : String) (notification : Notification)
  | told (label : String) (event : Event)
  | replied (label : String) (reply : Reply)
  | announced (id : SequenceId) (progress : Progress)
  | logged (record : Log.Record)

structure Receiver where
  trigger : TriggerId
  seen : Nat
deriving DecidableEq, Repr

structure Scheduled where
  sequence : SequenceId
  autoStart : Bool
  autoExit : Bool
deriving DecidableEq, Repr

structure Desk where
  table : TableId
  registry : RegistryId
  comparisons : Directory
  triggers : Directory
  channels : Directory
  devices : Directory
  sequences : Directory
  steps : List (String × Step)
  subscriptions : List (String × Subscription)
  -- handlers of notifications and handlers of messages
  nodeHandlers : Directory
  channelHandlers : Directory
  receivers : List (String × Receiver)
  workspace : Option (List DeviceId)
  schedule : Option Scheduled
deriving DecidableEq, Repr

def Desk.blank : Desk :=
  { table := 0, registry := 0, comparisons := [], triggers := [], channels := [], devices := [],
    sequences := [], steps := [], subscriptions := [], nodeHandlers := [], channelHandlers := [],
    receivers := [], workspace := none, schedule := none }

structure Plant where
  -- the clock shows the start and the number of times it was read
  start : Instant
  readings : Nat
  tickets : Nat
  vars : List Variable
  comparisons : List Comparison
  triggers : List Trigger
  channels : List Channel
  devices : List Device
  sequences : List Sequence
  observers : List Observer
  tables : List Directory
  registries : List Directory
  agenda : List Job
  dispatcher : Dispatcher
  -- whether the clock runs with the timers
  paced : Bool
  -- whether there is a runtime that tasks can be handed to
  hasRuntime : Bool
  desk : Desk
  -- the latest entry first
  trace : List Entry

namespace Plant

def blank (start : Instant) (hasRuntime : Bool) : Plant :=
  { start, readings := 0, tickets := 0, vars := [], comparisons := [], triggers := [],
    channels := [], devices := [], sequences := [], observers := [], tables := [[]],
    registries := [[]], agenda := [], dispatcher := .blank, paced := false, hasRuntime,
    desk := .blank, trace := [] }

def now (plant : Plant) : Instant :=
  (plant.start.addMillis (if plant.paced then plant.dispatcher.time else 0)).addNanos plant.readings

def readClock (plant : Plant) : Instant × Plant :=
  let plant := { plant with readings := plant.readings + 1 }
  (plant.now, plant)

def issueTicket (plant : Plant) : Ticket × Plant :=
  (plant.tickets, { plant with tickets := plant.tickets + 1 })

def note (plant : Plant) (entry : Entry) : Plant := { plant with trace := entry :: plant.trace }

def log (plant : Plant) (part : Log.Part) (level : Log.Level) (message : String)
    (details : List (String × Json.Tree)) : Plant :=
  plant.note (.logged (Log.record part level message details))

def push (plant : Plant) (jobs : List Job) : Plant := { plant with agenda := jobs ++ plant.agenda }

def dispatch (plant : Plant) (change : Dispatcher → Dispatcher) : Plant :=
  { plant with dispatcher := change plant.dispatcher }

def enqueue (plant : Plant) (runner : Runner) : Plant :=
  plant.dispatch fun dispatcher => dispatcher.enqueue runner

def setVariable (plant : Plant) (id : VariableId) (var : Variable) : Plant :=
  { plant with vars := plant.vars.set id var }

def setComparison (plant : Plant) (id : ComparisonId) (comparison : Comparison) : Plant :=
  { plant with comparisons := plant.comparisons.set id comparison }

def setTrigger (plant : Plant) (id : TriggerId) (trigger : Trigger) : Plant :=
  { plant with triggers := plant.triggers.set id trigger }

def setChannel (plant : Plant) (id : ChannelId) (channel : Channel) : Plant :=
  { plant with channels := plant.channels.set id channel }

def setDevice (plant : Plant) (id : DeviceId) (device : Device) : Plant :=
  { plant with devices := plant.devices.set id device }

def setSequence (plant : Plant) (id : SequenceId) (sequence : Sequence) : Plant :=
  { plant with sequences := plant.sequences.set id sequence }

def setObserver (plant : Plant) (id : ObserverId) (observer : Observer) : Plant :=
  { plant with observers := plant.observers.set id observer }

def addVariable (plant : Plant) (var : Variable) : VariableId × Plant :=
  (plant.vars.length, { plant with vars := plant.vars ++ [var] })

def addComparison (plant : Plant) (comparison : Comparison) : ComparisonId × Plant :=
  (plant.comparisons.length, { plant with comparisons := plant.comparisons ++ [comparison] })

def addTrigger (plant : Plant) (trigger : Trigger) : TriggerId × Plant :=
  (plant.triggers.length, { plant with triggers := plant.triggers ++ [trigger] })

def addChannel (plant : Plant) (channel : Channel) : ChannelId × Plant :=
  (plant.channels.length, { plant with channels := plant.channels ++ [channel] })

def addDevice (plant : Plant) (device : Device) : DeviceId × Plant :=
  (plant.devices.length, { plant with devices := plant.devices ++ [device] })

def addObserver (plant : Plant) (observer : Observer) : ObserverId × Plant :=
  (plant.observers.length, { plant with observers := plant.observers ++ [observer] })

def addSequence (plant : Plant) (name : String) (registry : RegistryId) (pollInterval : Nat) :
    SequenceId × Plant :=
  let (channel, plant) := plant.addChannel (.create name)
  (plant.sequences.length,
    { plant with
      sequences := plant.sequences ++ [.create name registry channel pollInterval] })

def table (plant : Plant) (id : TableId) : Directory := plant.tables.getD id []

def registry (plant : Plant) (id : RegistryId) : Directory := plant.registries.getD id []

def setTable (plant : Plant) (id : TableId) (table : Directory) : Plant :=
  { plant with tables := plant.tables.set id table }

def setRegistry (plant : Plant) (id : RegistryId) (registry : Directory) : Plant :=
  { plant with registries := plant.registries.set id registry }

def lookup (plant : Plant) (table : TableId) : Lookup := fun name =>
  match (plant.table table).find? name with
  | some id => (plant.vars[id]?).map fun var => (id, var)
  | none => none

def valueOf (plant : Plant) (id : VariableId) : Option Value :=
  (plant.vars[id]?).map fun var => var.value

def sample (plant : Plant) (comparison : Comparison) : Bool :=
  comparison.relation.sample plant.valueOf

end Plant

end Interlock
