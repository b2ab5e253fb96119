import Interlock.Proofs.Channel.Canonical
import Interlock.Proofs.Channel.Enrolment
import Interlock.Proofs.Config.Acceptance
import Interlock.Proofs.Plant.Airing

/-!
The objects of an accepted configuration. Devices and channels are made in the order in which they are
declared and none is refused, so the place of a channel is known beforehand.
-/

set_option autoImplicit false

namespace Interlock

open Interlock.Graph
open Interlock.Schedule (RegistryId)

-- The channel that is made for a name of a device.
def Channel.attached (name : String) (verbose : Bool) : Channel :=
  { Channel.create name with active := true, verbose := verbose }

namespace Plant

structure Founds (registry : RegistryId) (channels : List Channel) (entries : List (String × Nat))
    (plant next : Plant) : Prop where
  channels : next.channels = plant.channels ++ channels
  directory : next.registry registry = (plant.registry registry).enter entries
  registries : next.registries.length = plant.registries.length
  vars : next.vars = plant.vars
  tables : next.tables = plant.tables
  agenda : next.agenda = plant.agenda

section

variable {plant middle next : Plant} {registry : RegistryId} {channels more : List Channel}
  {entries others : List (String × Nat)}

theorem Founds.trans (first : Founds registry channels entries plant middle)
    (second : Founds registry more others middle next) :
    Founds registry (channels ++ more) (entries ++ others) plant next where
  channels := by rw [second.channels, first.channels, List.append_assoc]
  directory := by rw [second.directory, first.directory, Directory.enter_append]
  registries := second.registries.trans first.registries
  vars := second.vars.trans first.vars
  tables := second.tables.trans first.tables
  agenda := second.agenda.trans first.agenda

theorem Founds.refl (registry : RegistryId) (plant : Plant) : Founds registry [] [] plant plant :=
  ⟨(List.append_nil _).symm, rfl, rfl, rfl, rfl, rfl⟩

end

def followers (directory : Directory) (parts : List Config.Variable) (first : VariableId)
    (c : ChannelId) (source : String) : List Listener :=
  (parts.zipIdx first).filterMap fun (part, v) =>
    if part.channel.bind (Registry.resolve? directory) = some c then some (.follower v source) else none

structure Enlists (table : TableId) (directory : Directory) (verbose : Bool)
    (parts : List Config.Variable) (plant next : Plant) : Prop where
  vars : next.vars = plant.vars ++ parts.map fun part => .create part.name (.infer part.initial) verbose
  names : next.table table =
    (plant.table table).enter ((parts.map (·.name)).zipIdx plant.vars.length)
  tables : next.tables.length = plant.tables.length
  registries : next.registries = plant.registries
  agenda : next.agenda = plant.agenda
  lists : ∀ c channel, plant.channels[c]? = some channel → ∃ more : Subscribers,
    next.channels[c]? = some { channel with subscribers := channel.subscribers ++ more } ∧
      more.map Subscriber.listener =
        followers directory parts plant.vars.length c channel.assigned

section

variable {table : TableId} {registry : RegistryId} {directory : Directory} {verbose : Bool}
  {plant middle next : Plant}

theorem followers_append (directory : Directory) (parts more : List Config.Variable)
    (first : VariableId) (c : ChannelId) (source : String) :
    followers directory (parts ++ more) first c source =
      followers directory parts first c source ++
        followers directory more (first + parts.length) c source := by
  rw [followers, List.zipIdx_append, List.filterMap_append]
  rfl

theorem Enlists.trans {parts more : List Config.Variable}
    (first : Enlists table directory verbose parts plant middle)
    (second : Enlists table directory verbose more middle next) :
    Enlists table directory verbose (parts ++ more) plant next where
  vars := by rw [second.vars, first.vars, List.append_assoc, List.map_append]
  names := by
    rw [second.names, first.names, first.vars, List.map_append, List.zipIdx_append,
      Directory.enter_append]
    simp
  tables := second.tables.trans first.tables
  registries := second.registries.trans first.registries
  agenda := second.agenda.trans first.agenda
  lists c channel there := by
    obtain ⟨early, between, first_listeners⟩ := first.lists c channel there
    obtain ⟨late, behind, second_listeners⟩ := second.lists c _ between
    refine ⟨early ++ late, by rw [behind, List.append_assoc], ?_⟩
    rw [List.map_append, first_listeners, second_listeners, followers_append, first.vars,
      List.length_append, List.length_map]

end

end Plant

-- All that a configuration declares, in the order in which it is made.
def Config.declared (config : Config) : List (String × Interlock.Channel) :=
  (config.devices.flatMap fun part => part.channels.map fun name =>
    (part.name ++ "." ++ name, Channel.attached name config.scheduler.verbose)) ++
    config.channels.map fun part => (part.path, part.built config.scheduler.verbose)

section

variable {config : Config}

end

namespace Plant

end Plant

end Interlock
