import Mathlib.Data.List.Dedup
import Interlock.Proofs.Channel.Bookkeeping

/-!
The channels of a device in a registry. A device tells its channels apart by the case of ASCII letters, a
registry by the canonical forms of their paths; of channels with one canonical form, the one attached last
is registered in the place of the others.
-/

set_option autoImplicit false

namespace Interlock

open Interlock.Schedule (RegistryId)
open Interlock.Registry (Call Maps Stands)

namespace Device

-- What is done to the channels of a device: one is attached, or the one of a name is detached.
inductive Call where
  | add (channel : ChannelId)
  | remove (logical : String)

end Device

namespace Plant

def logical (plant : Plant) (c : ChannelId) : String := ((plant.channels[c]?).map Channel.logical).getD ""

def equip (plant : Plant) (id : DeviceId) : Device.Call → Plant
  | .add channel => (plant.attach id channel).2
  | .remove logical => (plant.detach id logical).2

def equipAll (plant : Plant) (id : DeviceId) (calls : List Device.Call) : Plant :=
  calls.foldl (fun plant call => plant.equip id call) plant

theorem logical_of (plant : Plant) (c : ChannelId) (channel : Channel)
    (there : plant.channels[c]? = some channel) : plant.logical c = channel.logical := by
  rw [logical, there]
  rfl

structure Alike (plant next : Plant) : Prop where
  count : next.channels.length = plant.channels.length
  names : ∀ c, next.logical c = plant.logical c

theorem set_active_alike (plant : Plant) (c : ChannelId) (active : Bool) :
    (plant.setActive c active).devices = plant.devices ∧ Alike plant (plant.setActive c active) := by
  unfold setActive
  split
  · exact ⟨rfl, rfl, fun _ => rfl⟩
  · next channel there =>
      refine ⟨rfl, List.length_set, fun d => ?_⟩
      obtain ⟨inside, _⟩ := List.getElem?_eq_some_iff.mp there
      by_cases same : c = d
      · subst same
        rw [logical_of plant c channel there, logical, setChannel, List.getElem?_set_self inside]
        rfl
      · rw [logical, setChannel, List.getElem?_set_ne same]
        rfl

structure Fitted (plant : Plant) (id : DeviceId) (device : Device) : Prop where
  held : plant.devices[id]? = some device
  there : ∀ c ∈ device.channels, c < plant.channels.length
  apart : device.channels.Pairwise fun c d => sameLogical (plant.logical c) (plant.logical d) = false

section

variable {plant : Plant} {id : DeviceId} {device : Device} (fitted : Fitted plant id device)

include fitted

theorem fitted_change (next : Plant) (channels : List ChannelId) (alike : Alike plant next)
    (devices : next.devices = plant.devices.set id { device with channels := channels })
    (there : ∀ c ∈ channels, c < plant.channels.length)
    (apart : channels.Pairwise fun c d => sameLogical (plant.logical c) (plant.logical d) = false) :
    Fitted next id { device with channels := channels } := by
  constructor
  · rw [devices]
    exact List.getElem?_set_self (List.getElem?_eq_some_iff.mp fitted.held).1
  · rwa [alike.count]
  · simpa only [alike.names] using apart

theorem attach_cases (c : ChannelId) (small : c < plant.channels.length) :
    (∀ d ∈ device.channels, sameLogical (plant.logical d) (plant.logical c) = false) ∧
        (plant.attach id c).1 = true ∧
        Fitted (plant.attach id c).2 id { device with channels := device.channels ++ [c] } ∨
      (∃ d ∈ device.channels, sameLogical (plant.logical d) (plant.logical c) = true) ∧
        (plant.attach id c).1 = false ∧ Fitted (plant.attach id c).2 id device := by
  have found := List.getElem?_eq_getElem small
  have names : ∀ d ∈ device.channels, ((plant.channels[d]?).any fun channel =>
      sameLogical channel.logical (plant.logical c)) = sameLogical (plant.logical d) (plant.logical c) := by
    intro d member
    have other := List.getElem?_eq_getElem (fitted.there d member)
    rw [other, Option.any_some, logical_of plant d _ other]
  rw [attach, fitted.held, found]
  dsimp only
  rw [← logical_of plant c _ found]
  split
  · next taken =>
      rw [attached?, List.find?_isSome] at taken
      obtain ⟨d, member, same⟩ := taken
      exact .inr ⟨⟨d, member, names d member ▸ same⟩, rfl, fitted.held, fitted.there, fitted.apart⟩
  · next free =>
      rw [attached?, List.find?_isSome] at free
      have apart : ∀ d ∈ device.channels, sameLogical (plant.logical d) (plant.logical c) = false :=
        fun d member => Bool.eq_false_iff.mpr fun same => free ⟨d, member, (names d member).trans same⟩
      obtain ⟨same, alike⟩ := set_active_alike plant c true
      refine .inl ⟨apart, rfl, fitted_change fitted _ _ ⟨alike.count, alike.names⟩
        (congrArg (List.set · id _) same) ?_ ?_⟩
      · exact List.forall_mem_append.mpr ⟨fitted.there, List.forall_mem_singleton.mpr small⟩
      · refine List.pairwise_append.mpr ⟨fitted.apart, List.pairwise_singleton _ _, ?_⟩
        exact fun d member e last => List.mem_singleton.mp last ▸ apart d member

theorem attach_fitted (c : ChannelId) :
    ∃ next, Fitted (plant.attach id c).2 id next ∧ next.name = device.name := by
  by_cases small : c < plant.channels.length
  · rcases attach_cases fitted c small with ⟨_, _, more⟩ | ⟨_, _, same⟩
    · exact ⟨_, more, rfl⟩
    · exact ⟨device, same, rfl⟩
  · rw [attach, fitted.held, List.getElem?_eq_none (Nat.le_of_not_lt small)]
    exact ⟨device, fitted, rfl⟩

theorem detach_fitted (name : String) :
    ∃ next, Fitted (plant.detach id name).2 id next ∧ next.name = device.name := by
  rw [detach, fitted.held]
  dsimp only
  split
  · exact ⟨device, fitted, rfl⟩
  · next c _ =>
      have left := List.erase_sublist (a := c) (l := device.channels)
      obtain ⟨same, alike⟩ := set_active_alike
        (plant.setDevice id { device with channels := device.channels.erase c }) c false
      exact ⟨_, fitted_change fitted _ (device.channels.erase c) ⟨alike.count, alike.names⟩ same
        (fun d member => fitted.there d (left.subset member)) (fitted.apart.sublist left), rfl⟩

theorem equip_all_fitted (calls : List Device.Call) :
    ∃ next, Fitted (plant.equipAll id calls) id next ∧ next.name = device.name := by
  induction calls generalizing plant device with
  | nil => exact ⟨device, fitted, rfl⟩
  | cons call rest ih =>
      have first : ∃ next, Fitted (plant.equip id call) id next ∧ next.name = device.name := by
        cases call with
        | add c => exact attach_fitted fitted c
        | remove name => exact detach_fitted fitted name
      obtain ⟨middle, fits, named⟩ := first
      obtain ⟨last, done, kept⟩ := ih fits
      exact ⟨last, done, kept.trans named⟩

end

def pathOf (plant : Plant) (device : Device) (c : ChannelId) : String := device.path (plant.logical c)

def enrolment (plant : Plant) (device : Device) : List Call :=
  device.channels.map fun c => .register (plant.pathOf device c) c

theorem register_all_answers (plant : Plant) (registry : RegistryId) (device : Device)
    (names : ChannelId → String) (cs : List ChannelId)
    (there : ∀ c ∈ cs, ∃ channel, plant.channels[c]? = some channel ∧ channel.logical = names c) :
    cs.foldl
        (fun plant channel =>
          match plant.channels[channel]? with
          | none => plant
          | some found => (plant.register registry (device.path found.logical) channel).2)
        plant =
      (plant.answers registry (cs.map fun c => .register (device.path (names c)) c)).2 := by
  induction cs generalizing plant with
  | nil => rfl
  | cons c rest ih =>
      obtain ⟨⟨channel, found, named⟩, later⟩ := List.forall_mem_cons.mp there
      rw [List.foldl_cons, found]
      dsimp only
      rw [named]
      exact ih (plant.register registry (device.path (names c)) c).2 later

theorem register_attached_answers (plant : Plant) (id : DeviceId) (device : Device) (registry : RegistryId)
    (fitted : Fitted plant id device) :
    plant.registerAttached id registry = (plant.answers registry (plant.enrolment device)).2 := by
  rw [registerAttached, fitted.held]
  refine register_all_answers plant registry device plant.logical device.channels fun c member => ?_
  have found := List.getElem?_eq_getElem (fitted.there c member)
  exact ⟨_, found, (logical_of plant c _ found).symm⟩

section

variable (cs : List ChannelId) (paths : ChannelId → String) (path : String)

theorem stands_row (id : ChannelId) : Stands (cs.map fun c => .register (paths c) c) path id ↔
    cs.reverse.find? (fun c => Path.canonical (paths c) == Path.canonical path) = some id := by
  induction cs using List.reverseRecOn with
  | nil => exact iff_of_false (Registry.stands_nil path id) (by simp)
  | append_singleton cs c ih =>
      rw [List.map_append, List.map_singleton, List.reverse_concat, List.find?_cons]
      by_cases same : Path.canonical (paths c) = Path.canonical path
      · rw [Registry.stands_registered _ _ _ _ _ same, same, beq_self_eq_true, Option.some.injEq]
      · rw [Registry.stands_other _ _ _ (.register (paths c) c) same, beq_false_of_ne same]
        exact ih

end

def addresses (plant : Plant) (device : Device) : List String :=
  device.channels.map fun c => Path.canonical (plant.pathOf device c)

-- Which channels of a device are found in a directory, and when all of them are.
structure Accessible (plant : Plant) (device : Device) (directory : Directory) : Prop where
  -- the last one attached under the canonical form of a path
  found : ∀ path, Registry.resolve? directory path = device.channels.reverse.find? fun c =>
    Path.canonical (plant.pathOf device c) == Path.canonical path
  counted : directory.length = (plant.addresses device).dedup.length
  complete : (∀ c ∈ device.channels, Registry.resolve? directory (plant.pathOf device c) = some c) ↔
    (plant.addresses device).Nodup
  filled : directory.length = device.channels.length ↔ (plant.addresses device).Nodup
  telling : (∀ c ∈ device.channels, Path.Telling (plant.logical c)) → (plant.addresses device).Nodup

section

variable {plant : Plant} {id : DeviceId} {device : Device} {directory : Directory}
  (fitted : Fitted plant id device) (maps : Maps directory (plant.enrolment device))

include maps

theorem maps_found (path : String) :
    Registry.resolve? directory path = device.channels.reverse.find? fun c =>
      Path.canonical (plant.pathOf device c) == Path.canonical path := by
  refine Option.ext fun c => ?_
  rw [maps.resolved, enrolment, stands_row]

theorem maps_member (path : String) (c : ChannelId)
    (found : Registry.resolve? directory path = some c) :
    c ∈ device.channels ∧ Path.canonical (plant.pathOf device c) = Path.canonical path := by
  rw [maps_found maps] at found
  have same := List.find?_some found
  exact ⟨List.mem_reverse.mp (List.mem_of_find?_eq_some found), beq_iff_eq.mp same⟩

theorem maps_reached (c : ChannelId) (member : c ∈ device.channels) :
    ∃ d, Registry.resolve? directory (plant.pathOf device c) = some d := by
  rw [maps_found maps, ← Option.isSome_iff_exists, List.find?_isSome]
  exact ⟨c, List.mem_reverse.mpr member, beq_self_eq_true _⟩

theorem maps_keys (key : String) : key ∈ directory.keys ↔ key ∈ plant.addresses device := by
  constructor
  · intro member
    have own := maps.canonical key member
    obtain ⟨c, stands⟩ := (maps.listed key).mp (own.symm ▸ member)
    obtain ⟨inside, same⟩ := maps_member maps key c ((maps.resolved key c).mpr stands)
    exact List.mem_map.mpr ⟨c, inside, same.trans own⟩
  · intro member
    obtain ⟨c, inside, rfl⟩ := List.mem_map.mp member
    obtain ⟨d, found⟩ := maps_reached maps c inside
    exact (maps.listed (plant.pathOf device c)).mpr ⟨d, (maps.resolved _ d).mp found⟩

theorem maps_counted : directory.length = (plant.addresses device).dedup.length := by
  have distinct : directory.keys.Nodup := maps.sorted.imp fun less => less.ne
  have same : directory.keys.Perm (plant.addresses device).dedup := by
    refine (List.perm_ext_iff_of_nodup distinct (List.nodup_dedup _)).mpr fun key => ?_
    rw [List.mem_dedup, maps_keys maps]
  have count := same.length_eq
  rwa [Directory.keys, List.length_map] at count

theorem maps_filled : directory.length = device.channels.length ↔ (plant.addresses device).Nodup := by
  have count : (plant.addresses device).length = device.channels.length := List.length_map _
  rw [maps_counted maps, ← count]
  constructor
  · intro same
    exact List.dedup_eq_self.mp ((List.dedup_sublist _).eq_of_length same)
  · intro distinct
    rw [List.dedup_eq_self.mpr distinct]

include fitted

theorem fitted_accessible : Accessible plant device directory := by
  have distinct : device.channels.Nodup := fitted.apart.imp fun apart same => by
    rw [same, sameLogical, beq_self_eq_true] at apart
    contradiction
  refine ⟨maps_found maps, maps_counted maps, ?_, maps_filled maps, fun telling => ?_⟩
  · constructor
    · intro reached
      refine distinct.map_on fun c first d second same => ?_
      have one := reached c first
      rw [Registry.resolve?, same] at one
      exact Option.some.inj (one.symm.trans (reached d second))
    · intro apart c member
      obtain ⟨d, found⟩ := maps_reached maps c member
      obtain ⟨inside, same⟩ := maps_member maps _ d found
      rw [found, List.inj_on_of_nodup_map apart inside member same]
  · refine List.pairwise_map.mpr (fitted.apart.imp_of_mem ?_)
    intro c d first second apart same
    have one := Path.telling_apart device.name _ _ (telling _ first) (telling _ second) same
    rw [one] at apart
    contradiction

end

theorem attach_admits (plant : Plant) (id : DeviceId) (device : Device) (fitted : Fitted plant id device)
    (c : ChannelId) (small : c < plant.channels.length) :
    (plant.attach id c).1 = true ↔
      ∀ d ∈ device.channels, sameLogical (plant.logical d) (plant.logical c) = false := by
  rcases attach_cases fitted c small with ⟨apart, accepted, _⟩ | ⟨⟨d, member, same⟩, refused, _⟩
  · exact iff_of_true accepted apart
  · refine iff_of_false (by simp [refused]) fun apart => ?_
    rw [apart d member] at same
    contradiction

theorem registered_reach (plant : Plant) (id : DeviceId) (device : Device)
    (fitted : Fitted plant id device) :
    let (registry, fresh) := plant.addRegistry
    Accessible fresh device ((fresh.registerAttached id registry).registry registry) := by
  have fresh : Fitted plant.addRegistry.2 id device := ⟨fitted.held, fitted.there, fitted.apart⟩
  have maps : Maps
      ((plant.addRegistry.2.registerAttached id plant.addRegistry.1).registry plant.addRegistry.1)
      (plant.addRegistry.2.enrolment device) := by
    rw [register_attached_answers _ id device _ fresh]
    exact Registry.mirrors_maps _ _ (fresh_mirrors plant _).1
  exact fitted_accessible fresh maps

theorem attached_reach (plant : Plant) (name : String) (driver : Driver) (interval : Nat)
    (calls : List Device.Call) :
    let (id, made) := plant.addDevice (.create name driver interval)
    let equipped := made.equipAll id calls
    let (registry, fresh) := equipped.addRegistry
    ∃ device, equipped.devices[id]? = some device ∧ device.name = name ∧
      (∀ c < equipped.channels.length, (equipped.attach id c).1 = true ↔
        ∀ d ∈ device.channels, sameLogical (equipped.logical d) (equipped.logical c) = false) ∧
      Accessible fresh device ((fresh.registerAttached id registry).registry registry) := by
  have fitted : Fitted (plant.addDevice (.create name driver interval)).2 plant.devices.length
      (.create name driver interval) :=
    ⟨List.getElem?_concat_length, fun c member => absurd member List.not_mem_nil, .nil⟩
  obtain ⟨device, fits, named⟩ := equip_all_fitted fitted calls
  exact ⟨device, fits.held, named, fun c small => attach_admits _ _ device fits c small,
    registered_reach _ _ device fits⟩

end Plant

end Interlock
