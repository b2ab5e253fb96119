import Interlock.Plant.Reactive

/-!
Channels at work: writing, publishing and following.
-/

set_option autoImplicit false

namespace Interlock.Plant

open Interlock.Graph

def notify (plant : Plant) (id : ChannelId) (event : Event) : Bool × Plant :=
  match plant.channels[id]? with
  | none => (false, plant)
  | some channel =>
      let details := [("channel", Json.Tree.text event.source), ("command", .text event.command)]
      if channel.active then
        let plant :=
          if channel.verbose then plant.log .channel .info event.display []
          else plant.log .channel .debug "Publishing" details
        (true,
          plant.push (channel.subscribers.map fun subscriber => .tell subscriber.listener event))
      else (false, plant.log .channel .trace "Inactive channel, message dropped" details)

def write (plant : Plant) (id : ChannelId) (value : Value) : Plant :=
  match plant.channels[id]? with
  | none => plant
  | some channel =>
      let (stamp, plant) := plant.readClock
      ((plant.setChannel id { channel with value := some value }).notify id
        (channel.valueEvent stamp value)).2

def unsubscribeChannel (plant : Plant) (id : ChannelId) (ticket : Ticket) : Plant :=
  match plant.channels[id]? with
  | none => plant
  | some channel =>
      plant.setChannel id { channel with subscribers := channel.subscribers.remove ticket }

def repeatValue (plant : Plant) (id : ChannelId) : Plant :=
  match plant.channels[id]? with
  | none => plant
  | some channel =>
      match channel.value with
      | none => plant
      | some value =>
          let (stamp, plant) := plant.readClock
          (plant.notify id (channel.valueEvent stamp value)).2

def subscribeChannel (plant : Plant) (id : ChannelId) (listener : Listener) :
    Option Ticket × Plant :=
  match plant.channels[id]? with
  | none => (none, plant)
  | some channel =>
      if channel.subscribers.refuses listener then (none, plant)
      else
        let (ticket, plant) := plant.issueTicket
        (some ticket,
          plant.setChannel id
            { channel with subscribers := channel.subscribers.add ticket listener })

def follow (plant : Plant) (var : VariableId) (id : ChannelId) : Option Ticket × Plant :=
  match plant.channels[id]? with
  | none => (none, plant)
  | some channel => plant.subscribeChannel id (.follower var channel.assigned)

def takeOver (plant : Plant) (id : VariableId) (source : String) (event : Event) : Plant :=
  match plant.vars[id]?, event.value with
  | some var, some value =>
      if plant.variableInUse id then
        match plant.assign id var value with
        | (.ok _, plant) => plant
        | (.error error, plant) =>
            plant.log .variable .warn "Ignoring channel value"
              [("channel", .text source),
                ("error", .text (Failure.message (.value error)))]
      else plant
  | _, _ => plant

def setActive (plant : Plant) (id : ChannelId) (active : Bool) : Plant :=
  match plant.channels[id]? with
  | none => plant
  | some channel => plant.setChannel id { channel with active := active }

def clearSubscribers (plant : Plant) (id : ChannelId) : Plant :=
  match plant.channels[id]? with
  | none => plant
  | some channel => plant.setChannel id { channel with subscribers := [] }

def register (plant : Plant) (registry : Schedule.RegistryId) (path : String) (id : ChannelId) :
    Option ChannelId × Plant :=
  let directory := plant.registry registry
  let plant := plant.log .registry .debug "Registering channel"
    [("path", .text (Path.canonical path))]
  (Registry.resolve? directory path,
    plant.setRegistry registry (Registry.register directory path id))

end Interlock.Plant
