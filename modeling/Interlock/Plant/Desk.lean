import Interlock.Config.Layout
import Interlock.Plant.Workspace

/-!
Commands on the objects that a session knows by names. A command does what it does at once and lists
the notifications that follow as jobs, so its reply is known before they are delivered.
-/

set_option autoImplicit false

namespace Interlock.Plant

open Interlock.Graph
open Interlock.Schedule (Sequence Step SequenceId)
open Interlock.Session

def namedVar? (plant : Plant) (name : String) : Option (VariableId × Variable) :=
  plant.lookup plant.desk.table name

def find? {α : Type} (directory : Directory) (items : List α) (name : String) : Option (Nat × α) :=
  match directory.find? name with
  | some id => (items[id]?).map fun item => (id, item)
  | none => none

def comparison? (plant : Plant) (name : String) : Option (ComparisonId × Comparison) :=
  find? plant.desk.comparisons plant.comparisons name

def trigger? (plant : Plant) (name : String) : Option (TriggerId × Trigger) :=
  find? plant.desk.triggers plant.triggers name

def device? (plant : Plant) (name : String) : Option (DeviceId × Device) :=
  find? plant.desk.devices plant.devices name

def sequence? (plant : Plant) (name : String) : Option (SequenceId × Sequence) :=
  find? plant.desk.sequences plant.sequences name

def ownChannel? (plant : Plant) (name : String) : Option (ChannelId × Channel) :=
  find? plant.desk.channels plant.channels name

def channel? (plant : Plant) (name : String) : Option (ChannelId × Channel) :=
  match plant.ownChannel? name with
  | some found => some found
  | none =>
      match Registry.resolve? (plant.registry plant.desk.registry) name with
      | some id => (plant.channels[id]?).map fun channel => (id, channel)
      | none => none

def operandState (plant : Plant) : Operand → OperandState
  | .var id =>
      match plant.vars[id]? with
      | some var => ⟨some var.name, var.value⟩
      | none => ⟨none, .bool false⟩
  | .constant value => ⟨none, value⟩

def comparisonState (plant : Plant) (comparison : Comparison) : ComparisonState :=
  { expression := comparison.expression, comparator := comparison.relation.comparator,
    left := plant.operandState comparison.relation.left,
    right := plant.operandState comparison.relation.right, value := comparison.latest,
    sample := plant.sample comparison, active := comparison.isActive,
    subscribers := comparison.subscribers.length }

def triggerState (trigger : Trigger) : TriggerState :=
  { expression := trigger.expression, value := trigger.latest, remaining := trigger.remaining,
    active := trigger.active, children := trigger.children.length,
    subscribers := trigger.subscribers.length }

def slotState (channel : Channel) : SlotState := ⟨channel.assigned, channel.active, channel.value⟩

def deviceState (device : Device) : DeviceState :=
  ⟨device.name, device.interval, device.channels.length, device.active⟩

def sequenceState (plant : Plant) (sequence : Sequence) : SequenceState :=
  let channel := (plant.channels[sequence.channel]?).getD (.create sequence.name)
  { name := sequence.name, state := sequence.state, active := sequence.active,
    paused := sequence.paused, pending := sequence.queue.length, channelActive := channel.active,
    subscribers := channel.subscribers.length }

def sequenceReply (plant : Plant) (id : SequenceId) : Reply :=
  match plant.sequences[id]? with
  | some sequence => .sequence (plant.sequenceState sequence)
  | none => .noObject

def attachedReply (plant : Plant) (id : Option ChannelId) : Reply :=
  match id.bind fun id => plant.channels[id]? with
  | some channel => .attached channel.logical channel.active
  | none => .absent

def assignedName? (plant : Plant) (id : Option ChannelId) : Option String :=
  (id.bind fun id => plant.channels[id]?).map fun channel => channel.assigned

def stepReply (plant : Plant) (step : Step) : Reply :=
  .step step.source step.actions.length step.description
    ((step.trigger.bind fun id => plant.triggers[id]?).map fun trigger => trigger.expression)

def keep (plant : Plant) (change : Desk → Desk) : Plant := { plant with desk := change plant.desk }

def replaceEntry {α : Type} (entries : List (String × α)) (key : String) (item : α) :
    List (String × α) :=
  (key, item) :: entries.filter fun entry => entry.1 != key

def keepStep (plant : Plant) (id : String) (step : Step) : Plant :=
  plant.keep fun desk => { desk with steps := replaceEntry desk.steps id step }

def keepSubscription (plant : Plant) (id : String) (subscription : Subscription) : Plant :=
  plant.keep fun desk =>
    { desk with subscriptions := replaceEntry desk.subscriptions id subscription }

def done : Reply := .truth true

def onVariable (plant : Plant) : VariableCommand → Reply × Plant
  | .make name value verbose =>
      let (id, plant) := plant.addVariable (.create name value verbose)
      (.declared ((plant.table plant.desk.table).find? name).isSome,
        plant.insertVariable plant.desk.table name id)
  | .set name value =>
      match plant.namedVar? name with
      | none => (.noObject, plant)
      | some (id, var) =>
          match plant.assign id var value with
          | (.ok change, plant) => (.change change, plant)
          | (.error error, plant) => (.failed (.value error), plant)
  | .get name =>
      match plant.namedVar? name with
      | none => (.noObject, plant)
      | some (_, var) => (.variable var.value var.subscribers.length, plant)
  | .list name =>
      let names := (plant.table plant.desk.table).keys
      (.names names (name.map fun name => names.contains name), plant)
  | .follow id name channel =>
      match plant.namedVar? name, plant.channel? channel with
      | some (var, _), some (channel, _) =>
          match plant.follow var channel with
          | (some ticket, plant) => (done, plant.keepSubscription id ⟨.channel channel, ticket⟩)
          | (none, plant) => (.truth false, plant)
      | _, _ => (.noObject, plant)

def onComparison (plant : Plant) : ComparisonCommand → Reply × Plant
  | .make name expression =>
      match plant.makeComparison plant.desk.table expression with
      | .error error => (.unbound error, plant)
      | .ok (id, plant) =>
          let reply :=
            match plant.comparisons[id]? with
            | some comparison => .comparison (plant.comparisonState comparison)
            | none => .noObject
          (reply,
            plant.keep fun desk => { desk with comparisons := desk.comparisons.insert name id })
  | .activate name =>
      match plant.comparison? name with
      | none => (.noObject, plant)
      | some (id, _) => (done, plant.activateComparison id)
  | .deactivate name =>
      match plant.comparison? name with
      | none => (.noObject, plant)
      | some (id, _) => (done, plant.deactivateComparison id)
  | .refresh name =>
      match plant.comparison? name with
      | none => (.noObject, plant)
      | some (id, comparison) =>
          let (stamp, plant) := plant.readClock
          let (change, plant) := plant.refresh id comparison stamp
          (.change change, plant)
  | .state name =>
      match plant.comparison? name with
      | none => (.noObject, plant)
      | some (_, comparison) => (.comparison (plant.comparisonState comparison), plant)
  | .drop name =>
      (.truth (plant.desk.comparisons.find? name).isSome,
        plant.keep fun desk => { desk with comparisons := desk.comparisons.remove name })

def onTrigger (plant : Plant) : TriggerCommand → Reply × Plant
  | .make name expression times verbose =>
      match plant.makeTrigger plant.desk.table expression times with
      | .error error => (.unbound error, plant)
      | .ok (id, plant) =>
          match plant.triggers[id]? with
          | none => (.noObject, plant)
          | some trigger =>
              (.trigger (triggerState trigger),
                (plant.setTrigger id { trigger with verbose := verbose }).keep fun desk =>
                  { desk with triggers := desk.triggers.insert name id })
  | .activate name =>
      match plant.trigger? name with
      | none => (.noObject, plant)
      | some (id, trigger) =>
          match plant.activateTrigger id trigger with
          | .ok plant => (done, plant)
          | .error error => (.unbound error, plant)
  | .deactivate name =>
      match plant.trigger? name with
      | none => (.noObject, plant)
      | some (id, _) => (done, plant.deactivateTrigger id)
  | .rearm name =>
      match plant.trigger? name with
      | none => (.noObject, plant)
      | some (id, _) => (done, plant.rearmTrigger id)
  | .evaluate name =>
      match plant.trigger? name with
      | none => (.noObject, plant)
      | some (id, trigger) =>
          match plant.evaluateNow id trigger with
          | (.ok change, plant) => (.change change, plant)
          | (.error error, plant) => (.unevaluated error, plant)
  | .state name =>
      match plant.trigger? name with
      | none => (.noObject, plant)
      | some (_, trigger) => (.trigger (triggerState trigger), plant)
  | .drop name =>
      (.truth (plant.desk.triggers.find? name).isSome,
        plant.keep fun desk => { desk with triggers := desk.triggers.remove name })
  | .watch name =>
      match plant.trigger? name with
      | none => (.noObject, plant)
      | some (id, trigger) =>
          (.truth trigger.signal,
            plant.keep fun desk =>
              { desk with receivers := replaceEntry desk.receivers name ⟨id, trigger.sends⟩ })
  | .look name =>
      match plant.desk.receivers.lookup name with
      | none => (.noObject, plant)
      | some receiver =>
          match plant.triggers[receiver.trigger]? with
          | none => (.noObject, plant)
          | some trigger =>
              let changed :=
                if plant.triggerInUse receiver.trigger then some (trigger.sends != receiver.seen)
                else none
              (.signal changed trigger.signal,
                plant.keep fun desk =>
                  { desk with
                    receivers := replaceEntry desk.receivers name
                      { receiver with seen := trigger.sends } })

def onChannel (plant : Plant) : ChannelCommand → Reply × Plant
  | .make name active value path verbose =>
      let (id, plant) := plant.addChannel
        { Channel.create name with active := active, value := value, verbose := verbose }
      let plant := plant.keep fun desk => { desk with channels := desk.channels.insert name id }
      match path with
      | none => (done, plant)
      | some path =>
          let (old, plant) := plant.register plant.desk.registry path id
          (.replaced (plant.assignedName? old), plant)
  | .register name path =>
      match plant.channel? name with
      | none => (.noObject, plant)
      | some (id, _) =>
          let (old, plant) := plant.register plant.desk.registry path id
          (.replaced (plant.assignedName? old), plant)
  | .unregister path =>
      let registry := plant.registry plant.desk.registry
      (.removed (plant.assignedName? (Registry.resolve? registry path)),
        plant.setRegistry plant.desk.registry (Registry.unregister registry path))
  | .resolve path =>
      match Registry.resolve? (plant.registry plant.desk.registry) path with
      | none => (.absent, plant)
      | some id =>
          match plant.channels[id]? with
          | some channel => (.slot (slotState channel), plant)
          | none => (.absent, plant)
  | .read name =>
      match plant.channel? name with
      | none => (.noObject, plant)
      | some (_, channel) => (.slot (slotState channel), plant)
  | .list => (.paths (plant.registry plant.desk.registry).keys, plant)
  | .write name value =>
      match plant.channel? name with
      | none => (.noObject, plant)
      | some (id, _) => (done, plant.write id value)
  | .setActive name active =>
      match plant.channel? name with
      | none => (.noObject, plant)
      | some (id, _) => (done, plant.setActive id active)
  | .rename name assigned =>
      match plant.channel? name with
      | none => (.noObject, plant)
      | some (id, channel) => (done, plant.setChannel id { channel with assigned := assigned })
  | .clear name =>
      match plant.ownChannel? name with
      | none => (.noObject, plant)
      | some (id, _) => (done, plant.clearSubscribers id)
  | .notify name source command value description =>
      match plant.ownChannel? name with
      | none => (.noObject, plant)
      | some (id, _) =>
          let (stamp, plant) := plant.readClock
          let (delivered, plant) := plant.notify id ⟨source, stamp, command, value, description⟩
          (.truth delivered, plant)
  | .state name =>
      match plant.ownChannel? name with
      | none => (.noObject, plant)
      | some (_, channel) =>
          (.channel channel.logical channel.assigned channel.subscribers.length, plant)

def driverOf? (name : String) (values : List Value) : Option Driver :=
  if name = "script" then some (.script values) else Driver.ofName? name

def channelOrNew (plant : Plant) (name : String) : ChannelId × Plant :=
  match plant.desk.channels.find? name with
  | some id => (id, plant)
  | none => plant.addChannel (.create name)

-- Counts what follows as part of a run, up to the end of what it causes.
def enterRun (plant : Plant) : Plant :=
  if plant.dispatcher.running then plant
  else (plant.dispatch fun dispatcher => dispatcher.openRun none).push [.closeRun]

def onDevice (plant : Plant) : DeviceCommand → Reply × Plant
  | .make name driver values interval =>
      match driverOf? driver values with
      | none => (.absent, plant)
      | some driver =>
          let (id, plant) := plant.addDevice (.create name driver interval)
          (.word driver.name,
            plant.keep fun desk => { desk with devices := desk.devices.insert name id })
  | .add name channel =>
      match plant.device? name with
      | none => (.noObject, plant)
      | some (id, _) =>
          let (added, plant) := plant.channelOrNew channel
          match plant.attach id added with
          | (true, plant) =>
              (plant.attachedReply (some added),
                plant.keep fun desk => { desk with channels := desk.channels.insert channel added })
          | (false, plant) => (.absent, plant)
  | .remove name channel =>
      match plant.device? name with
      | none => (.noObject, plant)
      | some (id, _) =>
          let (removed, plant) := plant.detach id channel
          (plant.attachedReply removed, plant)
  | .atIndex name index =>
      match plant.device? name with
      | none => (.noObject, plant)
      | some (_, device) => (plant.attachedReply device.channels[index]?, plant)
  | .byName name channel =>
      match plant.device? name with
      | none => (.noObject, plant)
      | some (_, device) => (plant.attachedReply (plant.attached? device channel), plant)
  | .register name =>
      match plant.device? name with
      | none => (.noObject, plant)
      | some (id, _) => (done, plant.registerAttached id plant.desk.registry)
  | .poll name =>
      match plant.device? name with
      | none => (.noObject, plant)
      | some (id, _) =>
          match (plant.enterRun).poll id with
          | .ok plant => (done, plant)
          | .error message => (.pollFailed message, plant)
  | .activate name =>
      match plant.device? name with
      | none => (.noObject, plant)
      | some (id, _) =>
          match plant.activateDevice id with
          | .ok plant => (done, plant)
          | .error failure => (.failed failure, plant)
  | .deactivate name =>
      match plant.device? name with
      | none => (.noObject, plant)
      | some (id, _) => (done, plant.deactivateDevice id)
  | .dispose name =>
      match plant.device? name with
      | none => (.noObject, plant)
      | some (id, _) => (done, plant.disposeDevice id)
  | .state name =>
      match plant.device? name with
      | none => (.noObject, plant)
      | some (_, device) => (.device (deviceState device), plant)

def onSequence (plant : Plant) : SequenceCommand → Reply × Plant
  | .make name pollInterval =>
      let (id, plant) := plant.addSequence name plant.desk.registry pollInterval
      (plant.sequenceReply id,
        plant.keep fun desk => { desk with sequences := desk.sequences.insert name id })
  | .step name action trigger description =>
      match trigger with
      | none =>
          let step := Step.create action none description
          (plant.stepReply step, plant.keepStep name step)
      | some trigger =>
          match plant.trigger? trigger with
          | none => (.noObject, plant)
          | some (id, _) =>
              let step := Step.create action (some id) description
              (plant.stepReply step, plant.keepStep name step)
  | .stepOf name config =>
      match plant.makeStep plant.desk.table config with
      | .error error => (.unbound error, plant)
      | .ok (step, plant) => (plant.stepReply step, plant.keepStep name step)
  | .push name step count =>
      match plant.sequence? name, plant.desk.steps.lookup step with
      | some (id, sequence), some step =>
          (.count (sequence.queue.length + count), plant.pushSteps id step count)
      | some (_, sequence), none =>
          (if count = 0 then .count sequence.queue.length else .noObject, plant)
      | none, _ => (.noObject, plant)
  | .activate name =>
      match plant.sequence? name with
      | none => (.noObject, plant)
      | some (id, _) =>
          match plant.activateSequence id with
          | .ok plant => (done, plant)
          | .error failure => (.failed failure, plant)
  | .deactivate name =>
      match plant.sequence? name with
      | none => (.noObject, plant)
      | some (id, _) => (done, plant.deactivateSequence id)
  | .setPaused name paused =>
      match plant.sequence? name with
      | none => (.noObject, plant)
      | some (id, _) => (done, plant.setPaused id paused)
  | .dispose name =>
      match plant.sequence? name with
      | none => (.noObject, plant)
      | some (id, _) => (done, plant.disposeSequence id)
  | .state name =>
      match plant.sequence? name with
      | none => (.noObject, plant)
      | some (_, sequence) => (.sequence (plant.sequenceState sequence), plant)

def openWorkspace (plant : Plant) (workspace : Workspace) : Plant :=
  let names := workspace.devices.filterMap fun id =>
    (plant.devices[id]?).map fun device => (device.name, id)
  plant.keep fun desk =>
    { desk with
      table := workspace.table, registry := workspace.registry,
      workspace := some workspace.devices,
      devices := names.foldl (fun known (name, id) => known.insert name id) desk.devices }

def onWorkspace (plant : Plant) : WorkspaceCommand → Reply × Plant
  | .make document =>
      match Config.read document with
      | .error refusal => (.refused refusal, plant)
      | .ok config =>
          match plant.makeWorkspace config with
          | (.error failure, plant) => (.failed failure, plant)
          | (.ok workspace, plant) =>
              (.counts workspace.devices.length (plant.registry workspace.registry).length
                  (plant.table workspace.table).length,
                plant.openWorkspace workspace)
  | .start =>
      match plant.desk.workspace with
      | none => (.noObject, plant)
      | some devices =>
          match plant.startDevices devices with
          | .ok plant => (done, plant)
          | .error failure => (.failed failure, plant)
  | .shutdown =>
      match plant.desk.workspace with
      | none => (.noObject, plant)
      | some devices => (done, plant.shutdown devices)
  | .schedule name config pollInterval =>
      match plant.makeSchedule plant.desk.table plant.desk.registry config pollInterval with
      | .error failure => (.failed failure, plant)
      | .ok (scheduled, plant) =>
          match plant.sequences[scheduled.sequence]? with
          | none => (.noObject, plant)
          | some sequence =>
              (.schedule scheduled.autoStart scheduled.autoExit (plant.sequenceState sequence),
                plant.keep fun desk =>
                  { desk with
                    sequences := desk.sequences.insert name scheduled.sequence,
                    schedule := some scheduled })
  | .startSchedule =>
      match plant.desk.schedule with
      | none => (.noObject, plant)
      | some scheduled =>
          match plant.startScheduled scheduled with
          | .ok (started, plant) => (.truth started, plant)
          | .error failure => (.failed failure, plant)

def publisher? (plant : Plant) (source : Source) (name : String) : Option Publisher :=
  match source with
  | .var => (plant.namedVar? name).map fun (id, _) => .node (.var id)
  | .comparison => (plant.comparison? name).map fun (id, _) => .node (.comparison id)
  | .trigger => (plant.trigger? name).map fun (id, _) => .node (.trigger id)
  | .channel => (plant.channel? name).map fun (id, _) => .channel id
  | .sequence => (plant.sequence? name).map fun (_, sequence) => .channel sequence.channel

def subscribe (plant : Plant) (publisher : Publisher) (listener : Listener) :
    Option Ticket × Plant :=
  match publisher with
  | .node (.var id) => plant.subscribeVariable id listener
  | .node (.comparison id) => plant.subscribeComparison id listener
  | .node (.trigger id) => plant.subscribeTrigger id listener
  | .channel id => plant.subscribeChannel id listener

-- Channels publish again what they hold; nodes do not.
def sendAgain (plant : Plant) : Publisher → Plant
  | .node _ => plant
  | .channel id => plant.repeatValue id

def handlersFor (desk : Desk) : Publisher → Directory
  | .node _ => desk.nodeHandlers
  | .channel _ => desk.channelHandlers

def keepHandler (plant : Plant) (publisher : Publisher) (id : String) (observer : ObserverId) :
    Plant :=
  plant.keep fun desk =>
    match publisher with
    | .node _ => { desk with nodeHandlers := desk.nodeHandlers.insert id observer }
    | .channel _ => { desk with channelHandlers := desk.channelHandlers.insert id observer }

def observerFor (plant : Plant) (publisher : Publisher) (id : String) (handler : Option String)
    (times : Nat) (script : List Command) : Option (ObserverId × Plant) :=
  match handler with
  | some other => ((handlersFor plant.desk publisher).find? other).map fun made => (made, plant)
  | none =>
      let (made, plant) := plant.addObserver ⟨id, times, script⟩
      some (made, plant.keepHandler publisher id made)

def onSubscribe (plant : Plant) (id : String) (source : Source) (name : String)
    (handler : Option String) (sendNow : Bool) (times : Nat) (script : List Command) :
    Reply × Plant :=
  match plant.publisher? source name with
  | none => (.noObject, plant)
  | some publisher =>
      match plant.observerFor publisher id handler times script with
      | none => (.noObject, plant)
      | some (observer, plant) =>
          match plant.subscribe publisher (.observer observer) with
          | (none, plant) => (.truth false, plant)
          | (some ticket, plant) =>
              let plant := plant.push [.keepSubscription id ⟨publisher, ticket⟩]
              (done, if sendNow then plant.sendAgain publisher else plant)

def subscribersOf (plant : Plant) : Publisher → Subscribers
  | .node (.var id) => ((plant.vars[id]?).map fun var => var.subscribers).getD []
  | .node (.comparison id) =>
      ((plant.comparisons[id]?).map fun comparison => comparison.subscribers).getD []
  | .node (.trigger id) => ((plant.triggers[id]?).map fun trigger => trigger.subscribers).getD []
  | .channel id => ((plant.channels[id]?).map fun channel => channel.subscribers).getD []

def publisherInUse (plant : Plant) : Publisher → Bool
  | .node node => plant.nodeInUse node
  | .channel _ => true

def unsubscribe (plant : Plant) (publisher : Publisher) (ticket : Ticket) : Plant :=
  match publisher with
  | .node (.var id) => plant.unsubscribeVariable id ticket
  | .node (.comparison id) => plant.unsubscribeComparison id ticket
  | .node (.trigger id) => plant.unsubscribeTrigger id ticket
  | .channel id => plant.unsubscribeChannel id ticket

def onUnsubscribe (plant : Plant) (id : String) : Reply × Plant :=
  match plant.desk.subscriptions.lookup id with
  | none => (.noObject, plant)
  | some held =>
      if plant.publisherInUse held.publisher &&
          (plant.subscribersOf held.publisher).holds held.ticket then
        (.truth true, plant.unsubscribe held.publisher held.ticket)
      else (.truth false, plant)

def execute (plant : Plant) : Command → Reply × Plant
  | .var command => plant.onVariable command
  | .comparison command => plant.onComparison command
  | .trigger command => plant.onTrigger command
  | .channel command => plant.onChannel command
  | .device command => plant.onDevice command
  | .sequence command => plant.onSequence command
  | .workspace command => plant.onWorkspace command
  | .subscribe id source name handler sendNow times script =>
      plant.onSubscribe id source name handler sendNow times script
  | .unsubscribe id => plant.onUnsubscribe id

end Interlock.Plant
