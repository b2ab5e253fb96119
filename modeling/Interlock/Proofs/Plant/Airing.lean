import Interlock.Proofs.Channel.Enrolment
import Interlock.Proofs.Plant.Muting

/-!
What comes from channels. A channel gets subscribers one by one and under new tickets, and loses them in any
way. A move publishes one message at most, on an active channel, as the calls of all the subscribers that
the channel has then.
-/

set_option autoImplicit false

namespace Interlock

open Interlock.Graph
open Interlock.Schedule (RegistryId SequenceId Step)
open Interlock.Session

def Channel.calls (channel : Channel) (event : Event) : List Job :=
  channel.subscribers.map fun subscriber => .tell subscriber.listener event

def Config.Channel.built (part : Config.Channel) (verbose : Bool) : Interlock.Channel :=
  { Channel.create part.path with
    value := part.initial.map Value.infer, active := part.active, verbose := verbose }

namespace Plant

inductive Reshapes (plant next : Plant) : Prop where
  | keeps (channels : next.channels = plant.channels) (tickets : plant.tickets ≤ next.tickets)
  | makes (channel : Channel) (silent : channel.subscribers = [])
      (channels : next.channels = plant.channels ++ [channel]) (tickets : next.tickets = plant.tickets)
  | sets (id : ChannelId) (channel after : Channel) (there : plant.channels[id]? = some channel)
      (fewer : after.subscribers.Sublist channel.subscribers)
      (channels : next.channels = plant.channels.set id after) (tickets : next.tickets = plant.tickets)
  | joins (id : ChannelId) (channel after : Channel) (listener : Listener)
      (there : plant.channels[id]? = some channel)
      (accepted : channel.subscribers.refuses listener = false)
      (more : after.subscribers = channel.subscribers.add plant.tickets listener)
      (channels : next.channels = plant.channels.set id after)
      (tickets : next.tickets = plant.tickets + 1)

def Stocked (plant : Plant) : Prop :=
  ∀ registry ∈ plant.registries, ∀ c ∈ registry.ids, c < plant.channels.length

structure PublishesNothing (plant next : Plant) : Prop where
  reshapes : Relation.ReflTransGen Reshapes plant next
  stocked : plant.Stocked → next.Stocked
  agenda : Hushes plant next

inductive PublishesOnce (plant next : Plant) : Prop where
  | silent (nothing : PublishesNothing plant next)
  | publishes (id : ChannelId) (channel : Channel) (event : Event) (behind : List Job)
      (reshapes : Relation.ReflTransGen Reshapes plant next) (stocked : plant.Stocked → next.Stocked)
      (there : next.channels[id]? = some channel) (active : channel.active = true)
      (hushed : ∀ job ∈ behind, job.call? = none)
      (agenda : next.agenda = channel.calls event ++ behind ++ plant.agenda)

section

variable {plant middle next : Plant}

theorem stocked_kept (registries : next.registries = plant.registries)
    (longer : plant.channels.length ≤ next.channels.length) (stocked : plant.Stocked) : next.Stocked :=
  fun registry listed c member =>
    Nat.lt_of_lt_of_le (stocked registry (registries ▸ listed) c member) longer

theorem Mute.stocked (mute : Mute plant next) : plant.Stocked → next.Stocked :=
  stocked_kept mute.registries (Nat.le_of_eq (congrArg List.length mute.channels.symm))

theorem Mute.publishes_nothing (mute : Mute plant next) : PublishesNothing plant next :=
  ⟨.single (.keeps mute.channels mute.tickets), mute.stocked, mute.agenda⟩

theorem PublishesNothing.refl (plant : Plant) : PublishesNothing plant plant := (Mute.refl plant).publishes_nothing

theorem PublishesNothing.trans (first : PublishesNothing plant middle)
    (second : PublishesNothing middle next) : PublishesNothing plant next :=
  ⟨first.reshapes.trans second.reshapes, second.stocked ∘ first.stocked,
    adds_trans _ _ _ _ first.agenda second.agenda⟩

theorem PublishesNothing.then_same (first : PublishesNothing plant middle) (same : next.airwaves = middle.airwaves) :
    PublishesNothing plant next := first.trans (mute_same same).publishes_nothing

theorem PublishesNothing.behind (second : PublishesNothing middle next) (same : middle.airwaves = plant.airwaves) :
    PublishesNothing plant next := (mute_same same).publishes_nothing.trans second

theorem publishes_once_same (same : next.airwaves = plant.airwaves) : PublishesOnce plant next :=
  .silent (mute_same same).publishes_nothing

theorem Mute.publishes_once (mute : Mute plant next) : PublishesOnce plant next := .silent mute.publishes_nothing

theorem PublishesNothing.publishes_once (nothing : PublishesNothing plant next) :
    PublishesOnce plant next := .silent nothing

theorem PublishesNothing.then_once (first : PublishesNothing plant middle)
    (second : PublishesOnce middle next) : PublishesOnce plant next := by
  cases second with
  | silent nothing => exact .silent (first.trans nothing)
  | publishes id channel event behind reshapes stocked there active hushed agenda =>
      obtain ⟨jobs, grown, each⟩ := first.agenda
      refine .publishes id channel event (behind ++ jobs) (first.reshapes.trans reshapes)
        (stocked ∘ first.stocked) there active ?_ ?_
      · intro job member
        exact (List.mem_append.mp member).elim (hushed job) (each job)
      · rw [agenda, grown, List.append_assoc, List.append_assoc, List.append_assoc]

theorem Mute.then_once (first : Mute plant middle) (second : PublishesOnce middle next) : PublishesOnce plant next :=
  first.publishes_nothing.then_once second

theorem PublishesOnce.behind (second : PublishesOnce middle next) (same : middle.airwaves = plant.airwaves) :
    PublishesOnce plant next := (mute_same same).then_once second

theorem PublishesOnce.then_same (first : PublishesOnce plant middle) (same : next.airwaves = middle.airwaves) :
    PublishesOnce plant next := by
  have also := same
  simp only [airwaves, Prod.mk.injEq] at also
  obtain ⟨channels, registries, tickets, agenda⟩ := also
  cases first with
  | silent nothing => exact .silent (nothing.then_same same)
  | publishes id channel event behind reshapes stocked there active hushed listed =>
      have keeps : Reshapes middle next := .keeps channels (Nat.le_of_eq tickets.symm)
      refine .publishes id channel event behind (reshapes.tail keeps) ((mute_same same).stocked ∘ stocked)
        ?_ active hushed ?_
      · rw [channels, there]
      · rw [agenda, listed]

theorem publishes_nothing_foldl {α : Type} (step : Plant → α → Plant)
    (each : ∀ plant item, PublishesNothing plant (step plant item)) (items : List α) (plant : Plant) :
    PublishesNothing plant (items.foldl step plant) := by
  induction items generalizing plant with
  | nil => exact .refl plant
  | cons item rest ih => exact (each plant item).trans (ih _)

theorem hushes_same (agenda : next.agenda = plant.agenda) : Hushes plant next := ⟨[], agenda, by simp⟩

end

theorem publishes_nothing_set_channel (plant : Plant) (id : ChannelId) (channel after : Channel)
    (there : plant.channels[id]? = some channel)
    (fewer : after.subscribers.Sublist channel.subscribers) :
    PublishesNothing plant (plant.setChannel id after) :=
  ⟨.single (.sets id channel after there fewer rfl rfl),
    stocked_kept rfl (Nat.le_of_eq List.length_set.symm), hushes_same rfl⟩

theorem publishes_nothing_add_channel (plant : Plant) (channel : Channel) (silent : channel.subscribers = []) :
    PublishesNothing plant (plant.addChannel channel).2 :=
  ⟨.single (.makes channel silent rfl rfl), stocked_kept rfl (by simp [addChannel]), hushes_same rfl⟩

theorem notify_active (plant : Plant) (id : ChannelId) (channel : Channel) (event : Event)
    (there : plant.channels[id]? = some channel) (active : channel.active = true) :
    (plant.notify id event).1 = true ∧ (plant.notify id event).2.channels = plant.channels ∧
      (plant.notify id event).2.registries = plant.registries ∧
      (plant.notify id event).2.tickets = plant.tickets ∧
      (plant.notify id event).2.agenda = channel.calls event ++ plant.agenda := by
  rw [notify]
  rw [there]
  dsimp only
  rw [if_pos active]
  cases channel.verbose <;> exact ⟨rfl, rfl, rfl, rfl, rfl⟩

theorem notify_inactive (plant : Plant) (id : ChannelId) (event : Event)
    (inactive : ∀ channel, plant.channels[id]? = some channel → channel.active = false) :
    (plant.notify id event).1 = false ∧ (plant.notify id event).2.airwaves = plant.airwaves := by
  rw [notify]
  split
  · exact ⟨rfl, rfl⟩
  · next channel there =>
      dsimp only
      rw [if_neg (by simp [inactive channel there])]
      exact ⟨rfl, rfl⟩

theorem publishes_once_notify (plant : Plant) (id : ChannelId) (event : Event) :
    PublishesOnce plant (plant.notify id event).2 := by
  by_cases inactive : ∀ channel, plant.channels[id]? = some channel → channel.active = false
  · exact (mute_same (notify_inactive plant id event inactive).2).publishes_once
  · simp only [not_forall, Bool.not_eq_false] at inactive
    obtain ⟨channel, there, active⟩ := inactive
    obtain ⟨_, channels, registries, tickets, agenda⟩ :=
      notify_active plant id channel event there active
    exact .publishes id channel event [] (.single (.keeps channels (Nat.le_of_eq tickets.symm)))
      (stocked_kept registries (Nat.le_of_eq (congrArg List.length channels.symm)))
      (by rw [channels, there]) active (by simp) (by rw [agenda, List.append_nil])

theorem publishes_nothing_hold (plant : Plant) (id : ChannelId) (channel : Channel) (value : Value)
    (there : plant.channels[id]? = some channel) :
    PublishesNothing plant (plant.readClock.2.setChannel id { channel with value := some value }) := by
  have set := publishes_nothing_set_channel plant.readClock.2 id channel { channel with value := some value } there
    (.refl _)
  exact set.behind rfl

theorem publishes_once_write (plant : Plant) (id : ChannelId) (value : Value) :
    PublishesOnce plant (plant.write id value) := by
  unfold write
  split
  · exact (Mute.refl plant).publishes_once
  · next channel there =>
      exact (publishes_nothing_hold plant id channel value there).then_once (publishes_once_notify _ id _)

theorem publishes_once_repeat_value (plant : Plant) (id : ChannelId) : PublishesOnce plant (plant.repeatValue id) := by
  unfold repeatValue
  split
  · exact (Mute.refl plant).publishes_once
  · split
    · exact (Mute.refl plant).publishes_once
    · exact (publishes_once_notify _ id _).behind rfl

theorem publishes_nothing_unsubscribe_channel (plant : Plant) (id : ChannelId) (ticket : Ticket) :
    PublishesNothing plant (plant.unsubscribeChannel id ticket) := by
  unfold unsubscribeChannel
  split
  · exact .refl plant
  · next channel there => exact publishes_nothing_set_channel plant id channel _ there List.filter_sublist

theorem publishes_nothing_subscribe_channel (plant : Plant) (id : ChannelId) (listener : Listener) :
    PublishesNothing plant (plant.subscribeChannel id listener).2 := by
  unfold subscribeChannel
  split
  · exact .refl plant
  · next channel there =>
      split
      · exact .refl plant
      · next accepted =>
          exact ⟨.single (.joins id channel _ listener there (by simpa using accepted) rfl rfl rfl),
            stocked_kept rfl (Nat.le_of_eq List.length_set.symm), hushes_same rfl⟩

theorem publishes_nothing_follow (plant : Plant) (var : VariableId) (id : ChannelId) :
    PublishesNothing plant (plant.follow var id).2 := by
  unfold follow
  split
  · exact .refl plant
  · exact publishes_nothing_subscribe_channel plant id _

theorem publishes_nothing_set_active (plant : Plant) (id : ChannelId) (active : Bool) :
    PublishesNothing plant (plant.setActive id active) := by
  unfold setActive
  split
  · exact .refl plant
  · next channel there => exact publishes_nothing_set_channel plant id channel _ there (.refl _)

theorem publishes_nothing_clear_subscribers (plant : Plant) (id : ChannelId) :
    PublishesNothing plant (plant.clearSubscribers id) := by
  unfold clearSubscribers
  split
  · exact .refl plant
  · next channel there => exact publishes_nothing_set_channel plant id channel _ there (List.nil_sublist _)

theorem stocked_set {plant : Plant} (stocked : plant.Stocked) (registry : RegistryId) (directory : Directory)
    (known : ∀ c ∈ directory.ids, c ∈ (plant.registry registry).ids ∨ c < plant.channels.length) :
    (plant.setRegistry registry directory).Stocked := by
  intro other listed c member
  rcases List.mem_or_eq_of_mem_set listed with old | rfl
  · exact stocked other old c member
  · refine (known c member).elim (fun before => ?_) id
    rw [Plant.registry, List.getD_eq_getElem?_getD] at before
    cases there : plant.registries[registry]? with
    | none =>
        rw [there] at before
        contradiction
    | some found =>
        rw [there] at before
        exact stocked found (List.mem_of_getElem? there) c before

theorem stocked_register {plant : Plant} (stocked : plant.Stocked) (registry : RegistryId) (path : String)
    (id : ChannelId) (there : id < plant.channels.length) : (plant.register registry path id).2.Stocked := by
  have logged : (plant.log .registry .debug "Registering channel"
      [("path", .text (Path.canonical path))]).Stocked := stocked
  refine stocked_set logged registry _ fun c member => ?_
  rcases Directory.inserted_ids _ _ _ _ member with rfl | old
  · exact .inr there
  · exact .inl old

theorem publishes_nothing_register (plant : Plant) (registry : RegistryId) (path : String) (id : ChannelId)
    (there : id < plant.channels.length) : PublishesNothing plant (plant.register registry path id).2 :=
  ⟨.single (.keeps rfl (Nat.le_refl _)), fun stocked => stocked_register stocked registry path id there,
    hushes_same rfl⟩

theorem publishes_nothing_attach (plant : Plant) (id : DeviceId) (channel : ChannelId) :
    PublishesNothing plant (plant.attach id channel).2 := by
  unfold attach
  split
  · dsimp only
    split
    · exact (Mute.refl plant).publishes_nothing.then_same rfl
    · exact (publishes_nothing_set_active plant channel true).then_same rfl
  · exact .refl plant

theorem publishes_nothing_detach (plant : Plant) (id : DeviceId) (logical : String) :
    PublishesNothing plant (plant.detach id logical).2 := by
  unfold detach
  split
  · exact .refl plant
  · split
    · exact .refl plant
    · exact (publishes_nothing_set_active _ _ false).behind rfl

theorem publishes_nothing_register_attached (plant : Plant) (id : DeviceId) (registry : RegistryId) :
    PublishesNothing plant (plant.registerAttached id registry) := by
  unfold registerAttached
  split
  · exact .refl plant
  · refine publishes_nothing_foldl _ (fun plant channel => ?_) _ plant
    split
    · exact .refl plant
    · next there => exact publishes_nothing_register plant registry _ channel (List.getElem?_eq_some_iff.mp there).1

theorem publishes_nothing_dispose_device (plant : Plant) (id : DeviceId) :
    PublishesNothing plant (plant.disposeDevice id) := by
  have stopped := (mute_deactivate_device plant id).publishes_nothing
  unfold disposeDevice
  dsimp only
  split
  · exact stopped
  · exact stopped.trans ((publishes_nothing_foldl _ (fun plant channel =>
      (publishes_nothing_set_active plant channel false).trans (publishes_nothing_clear_subscribers _ channel)) _ _).behind rfl)

theorem publishes_nothing_attach_all (plant : Plant) (id : DeviceId) (verbose : Bool) (names : List String) :
    PublishesNothing plant (plant.attachAll id verbose names) :=
  publishes_nothing_foldl _ (fun plant name =>
    (publishes_nothing_add_channel plant { Channel.create name with verbose := verbose } rfl).trans
      (publishes_nothing_attach _ id _)) names plant

theorem publishes_nothing_make_devices (plant : Plant) (registry : RegistryId) (verbose : Bool)
    (parts : List Config.Device) : PublishesNothing plant (plant.makeDevices registry verbose parts).2 :=
  devices_keep (PublishesNothing plant) registry verbose (fun _ _ nothing => nothing.then_same rfl)
    (fun next d names nothing => nothing.trans (publishes_nothing_attach_all next d verbose names))
    (fun next d nothing => nothing.trans (publishes_nothing_register_attached next d registry)) parts plant (.refl plant)

theorem make_channel_exact (plant : Plant) (registry : RegistryId) (verbose : Bool)
    (part : Config.Channel) :
    ∃ readings trace, plant.makeChannel registry verbose part =
      { plant with
        channels := plant.channels ++ [part.built verbose]
        registries := plant.registries.set registry
          (Registry.register (plant.registry registry) part.path plant.channels.length)
        readings := readings, trace := trace } := by
  have last : ∀ channel : Channel,
      (plant.channels ++ [channel])[plant.channels.length]? = some channel := by simp
  have replaced : ∀ channel after : Channel, (plant.channels ++ [channel]).set plant.channels.length after =
      plant.channels ++ [after] := by simp
  unfold makeChannel Config.Channel.built
  cases part.initial with
  | none =>
      dsimp only [addChannel]
      rw [last]
      dsimp only [setChannel]
      rw [replaced]
      exact ⟨_, _, rfl⟩
  | some literal =>
      dsimp only [addChannel]
      rw [write, last]
      dsimp only [readClock, setChannel]
      rw [replaced, notify, last]
      dsimp only [Channel.create]
      rw [if_neg (by decide)]
      dsimp only [log, note]
      rw [last]
      dsimp only
      rw [replaced]
      exact ⟨_, _, rfl⟩

theorem publishes_nothing_make_channel (plant : Plant) (registry : RegistryId) (verbose : Bool)
    (part : Config.Channel) : PublishesNothing plant (plant.makeChannel registry verbose part) := by
  obtain ⟨_, _, exact⟩ := make_channel_exact plant registry verbose part
  rw [exact]
  refine ⟨.single (.makes (part.built verbose) rfl rfl rfl), fun stocked => ?_, hushes_same rfl⟩
  have grown : Stocked { plant with channels := plant.channels ++ [part.built verbose] } :=
    fun other listed c member => Nat.lt_of_lt_of_le (stocked other listed c member) (by simp)
  refine stocked_set grown registry _ fun c member => ?_
  rcases Directory.inserted_ids _ _ _ _ member with rfl | old
  · exact .inr (by simp)
  · exact .inl old

theorem publishes_nothing_make_variables (plant : Plant) (table : TableId) (registry : RegistryId)
    (verbose : Bool) (parts : List Config.Variable) :
    PublishesNothing plant (plant.makeVariables table registry verbose parts).2 :=
  variables_keep (PublishesNothing plant) table registry verbose (fun _ _ _ nothing => nothing.then_same rfl)
    (fun next v c nothing => nothing.trans (publishes_nothing_follow next v c))
    (fun _ _ _ nothing => nothing.then_same rfl) parts plant (.refl plant)

theorem publishes_nothing_open (plant : Plant) : PublishesNothing plant plant.addTable.2.addRegistry.2 :=
  ⟨.single (.keeps rfl (Nat.le_refl _)), fun stocked registry listed c member => by
    rcases List.mem_append.mp listed with old | new
    · exact stocked registry old c member
    · rw [List.mem_singleton.mp new] at member
      contradiction, hushes_same rfl⟩

theorem publishes_nothing_make_workspace (plant : Plant) (config : Config) :
    PublishesNothing plant (plant.makeWorkspace config).2 :=
  workspace_keep (PublishesNothing plant) config (fun next nothing => nothing.trans (publishes_nothing_open next))
    (fun next registry nothing => nothing.trans (publishes_nothing_make_devices next registry _ _))
    (fun next registry part nothing => nothing.trans (publishes_nothing_make_channel next registry _ part))
    (fun next table registry nothing => nothing.trans (publishes_nothing_make_variables next table registry _ _))
    (fun _ _ _ _ _ nothing => nothing.then_same rfl) plant (.refl plant)

theorem mute_start_devices (plant : Plant) (devices : List DeviceId) (next : Plant)
    (started : plant.startDevices devices = .ok next) : Mute plant next :=
  devices_start (Mute plant)
    (fun between d next mute activated => mute.trans (mute_activate_device between d next activated))
    devices plant started (.refl plant)

theorem publishes_nothing_shutdown (plant : Plant) (devices : List DeviceId) :
    PublishesNothing plant (plant.shutdown devices) :=
  publishes_nothing_foldl _ publishes_nothing_dispose_device devices plant

theorem publishes_once_tell_stage (plant : Plant) (sequence : Schedule.Sequence) (command : String)
    (value : Option Value) (description : String) :
    PublishesOnce plant (plant.tellStage sequence command value description) := (publishes_once_notify _ _ _).behind rfl

theorem publishes_once_finish (plant : Plant) (id : SequenceId) (sequence : Schedule.Sequence) :
    PublishesOnce plant (plant.finish id sequence) := by
  unfold finish
  split
  · exact (mute_push plant [.complete id] (by simp [Job.call?])).then_once (publishes_once_tell_stage _ _ _ _ _)
  · exact (Mute.refl plant).publishes_once

theorem publishes_nothing_complete (plant : Plant) (id : SequenceId) : PublishesNothing plant (plant.complete id) := by
  unfold complete
  split
  · exact .refl plant
  · next sequence held =>
      split
      · have woken := mute_wake_task (plant.setState id { sequence with active := false } .completed) id
          sequence
        have ended : PublishesNothing plant _ :=
          (woken.publishes_nothing.trans (publishes_nothing_set_active _ sequence.channel false)).behind rfl
        dsimp only
        exact ended.then_same rfl
      · exact .refl plant

theorem publishes_once_proceed (plant : Plant) (id : SequenceId) : PublishesOnce plant (plant.proceed id) := by
  unfold proceed
  split
  · exact (Mute.refl plant).publishes_once
  · split
    · exact (Mute.refl plant).publishes_once
    · split
      · exact publishes_once_same rfl
      · split
        · exact publishes_once_finish plant id _
        · exact publishes_once_same rfl

theorem publishes_once_activate_sequence (plant : Plant) (id : SequenceId) (next : Plant)
    (activated : plant.activateSequence id = .ok next) : PublishesOnce plant next := by
  unfold activateSequence at activated
  split at activated
  · cases activated
    exact (Mute.refl plant).publishes_once
  · next sequence held =>
      split at activated
      · contradiction
      · split at activated
        · cases activated
          exact (Mute.refl plant).publishes_once
        · cases activated
          have set := publishes_nothing_set_active
            (plant.setState id { sequence with active := true, executed := 0 } .running)
            sequence.channel true
          have begun : PublishesNothing plant _ :=
            (set.trans (mute_wake_task _ id
              { sequence with active := true, executed := 0 }).publishes_nothing).behind rfl
          exact begun.then_once ((publishes_once_proceed _ id).behind rfl)

theorem publishes_nothing_deactivate_sequence (plant : Plant) (id : SequenceId) :
    PublishesNothing plant (plant.deactivateSequence id) := by
  unfold deactivateSequence
  split
  · exact .refl plant
  · next sequence held =>
      split
      · have woken := mute_wake_task (plant.setState id
          { sequence with active := false, paused := false, queue := [] } .cancelled) id
            { sequence with active := false, paused := false, queue := [] }
        have ended : PublishesNothing plant _ :=
          (woken.publishes_nothing.trans (publishes_nothing_set_active _ sequence.channel false)).behind rfl
        dsimp only
        exact ended.then_same rfl
      · exact .refl plant

theorem publishes_once_resume (plant : Plant) (id : SequenceId) : PublishesOnce plant (plant.resume id) := by
  unfold resume
  split
  · exact (Mute.refl plant).publishes_once
  · split
    · exact (Mute.refl plant).publishes_once
    · split
      · exact publishes_once_same rfl
      · exact (publishes_once_proceed _ id).behind rfl

theorem publishes_nothing_dispose_sequence (plant : Plant) (id : SequenceId) :
    PublishesNothing plant (plant.disposeSequence id) := by
  have stopped := publishes_nothing_deactivate_sequence plant id
  unfold disposeSequence
  dsimp only
  split
  · exact stopped
  · exact stopped.trans ((publishes_nothing_clear_subscribers _ _).behind rfl)

theorem publishes_nothing_add_sequence (plant : Plant) (name : String) (registry : RegistryId)
    (pollInterval : Nat) : PublishesNothing plant (plant.addSequence name registry pollInterval).2 :=
  (publishes_nothing_add_channel plant (.create name) rfl).then_same rfl

theorem publishes_once_begin (plant : Plant) (id : SequenceId) : PublishesOnce plant (plant.beginStep id) := by
  unfold beginStep
  split
  · exact (Mute.refl plant).publishes_once
  · next sequence step found =>
      refine PublishesOnce.behind (Mute.then_once (mute_push _ _ ?_) (publishes_once_tell_stage _ _ _ _ _)) rfl
      simp [Job.call?]

theorem publishes_once_act (plant : Plant) (id : SequenceId) (actions : List Interlock.Action) :
    PublishesOnce plant (plant.actNext id actions) := by
  cases actions with
  | nil => exact (mute_push plant [.arm id] (by simp [Job.call?])).publishes_once
  | cons action rest =>
      rw [actNext]
      split
      · exact (Mute.refl plant).publishes_once
      · have after : Mute plant (plant.push [.act id rest]) := mute_push plant _ (by simp [Job.call?])
        unfold act
        dsimp only
        split
        · exact after.publishes_once.then_same rfl
        · next value given =>
            split
            · have told : Mute plant ((plant.push [.act id rest]).push
                  [.announce id (.actionApplied action.path value)]) :=
                after.trans (mute_push _ _ (by simp [Job.call?]))
              exact told.then_once ((publishes_once_write _ _ value).behind rfl)
            · exact after.publishes_once.then_same rfl

theorem publishes_nothing_arm (plant : Plant) (id : SequenceId) : PublishesNothing plant (plant.arm id) := by
  have rearmed (t : TriggerId) := mute_rearm_trigger plant t
  have taken := plant.arm_case id
  generalize plant.arm id = next at taken ⊢
  cases taken with
  | leave => exact (mute_leave_step plant id).publishes_nothing
  | refuse s t =>
      have stopped (plant : Plant) : PublishesNothing plant ((plant.deactivateSequence id).leaveStep id) :=
        (publishes_nothing_deactivate_sequence plant id).trans (mute_leave_step _ id).publishes_nothing
      exact (rearmed t).publishes_nothing.trans ((stopped _).behind rfl)
  | engage s t trigger started next _ _ _ _ activated =>
      have waits : Mute (plant.rearmTrigger t) ((plant.rearmTrigger t).push [.wait id]) :=
        mute_push _ _ (by simp [Job.call?])
      exact ((rearmed t).trans (waits.trans (mute_activate_trigger _ t _ _ activated))).publishes_nothing

theorem publishes_once_next (plant : Plant) (id : SequenceId) : PublishesOnce plant (plant.nextStep id) := by
  unfold nextStep
  split
  · exact (Mute.refl plant).publishes_once
  · dsimp only
    split
    · exact publishes_once_same rfl
    · split
      · exact (publishes_once_finish _ id _).behind rfl
      · split
        · exact publishes_once_same rfl
        · exact (mute_push _ _ (by simp [Job.call?])).publishes_once.behind rfl

end Plant

end Interlock
