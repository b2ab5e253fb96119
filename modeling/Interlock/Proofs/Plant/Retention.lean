import Interlock.Proofs.Plant.Broadcasting

/-!
What channels hold on to. Joining and leaving a channel, opening and closing it, naming and registering it
leave its value as it is.
-/

set_option autoImplicit false

namespace Interlock.Plant

open Interlock.Graph
open Interlock.Schedule (RegistryId SequenceId)
open Interlock.Session

def holding (plant : Plant) (c : ChannelId) : Option (Option Value) :=
  (plant.channels[c]?).map fun channel => channel.value

def Preserves (c : ChannelId) (plant next : Plant) : Prop :=
  ∀ held, plant.holding c = some held → next.holding c = some held

section

variable {c : ChannelId} {plant middle next : Plant}

theorem preserves_same (same : next.channels = plant.channels) : Preserves c plant next :=
  fun held known => by rw [holding, same, ← holding, known]

theorem Preserves.refl (plant : Plant) : Preserves c plant plant := preserves_same rfl

theorem Preserves.trans (first : Preserves c plant middle) (second : Preserves c middle next) :
    Preserves c plant next := fun held known => second held (first held known)

theorem Preserves.then_same (first : Preserves c plant middle) (same : next.channels = middle.channels) :
    Preserves c plant next := first.trans (preserves_same same)

theorem Preserves.behind (second : Preserves c middle next) (same : middle.channels = plant.channels) :
    Preserves c plant next := (preserves_same same).trans second

theorem Mute.preserves (mute : Mute plant next) : Preserves c plant next := preserves_same mute.channels

theorem preserves_foldl {α : Type} (step : Plant → α → Plant)
    (each : ∀ plant item, Preserves c plant (step plant item)) (items : List α) (plant : Plant) :
    Preserves c plant (items.foldl step plant) := by
  induction items generalizing plant with
  | nil => exact .refl plant
  | cons item rest ih => exact (each plant item).trans (ih _)

end

section

variable {c : ChannelId} (plant : Plant)

theorem preserves_set_channel (id : ChannelId) (channel after : Channel)
    (there : plant.channels[id]? = some channel) (same : after.value = channel.value) :
    Preserves c plant (plant.setChannel id after) := by
  intro held known
  obtain ⟨inside, _⟩ := List.getElem?_eq_some_iff.mp there
  rw [holding, setChannel]
  by_cases own : id = c
  · subst own
    rw [holding, there] at known
    rw [List.getElem?_set_self inside, Option.map_some, same]
    exact known
  · rw [List.getElem?_set_ne own]
    exact known

theorem preserves_hold_other (id : ChannelId) (after : Channel) (other : id ≠ c) :
    Preserves c plant (plant.setChannel id after) := by
  intro held known
  rw [holding, setChannel, List.getElem?_set_ne other]
  exact known

theorem preserves_more (next : Plant) (channel : Channel) (channels : next.channels = plant.channels ++ [channel]) :
    Preserves c plant next := by
  intro held known
  obtain ⟨found, there, same⟩ := Option.map_eq_some_iff.mp known
  rw [holding, channels, List.getElem?_append_left (List.getElem?_eq_some_iff.mp there).1, there, Option.map_some,
    same]

theorem preserves_unsubscribe_channel (id : ChannelId) (ticket : Ticket) :
    Preserves c plant (plant.unsubscribeChannel id ticket) := by
  unfold unsubscribeChannel
  split
  · exact .refl plant
  · next channel there => exact preserves_set_channel plant id channel _ there rfl

theorem preserves_subscribe_channel (id : ChannelId) (listener : Listener) :
    Preserves c plant (plant.subscribeChannel id listener).2 := by
  unfold subscribeChannel
  split
  · exact .refl plant
  · next channel there =>
    split
    · exact .refl plant
    · exact preserves_set_channel plant.issueTicket.2 id channel _ there rfl

theorem preserves_follow (var : VariableId) (id : ChannelId) : Preserves c plant (plant.follow var id).2 := by
  unfold follow
  split
  · exact .refl plant
  · exact preserves_subscribe_channel plant id _

theorem preserves_set_active (id : ChannelId) (active : Bool) : Preserves c plant (plant.setActive id active) := by
  unfold setActive
  split
  · exact .refl plant
  · next channel there => exact preserves_set_channel plant id channel _ there rfl

theorem preserves_clear_subscribers (id : ChannelId) : Preserves c plant (plant.clearSubscribers id) := by
  unfold clearSubscribers
  split
  · exact .refl plant
  · next channel there => exact preserves_set_channel plant id channel _ there rfl

theorem preserves_attach (id : DeviceId) (channel : ChannelId) :
    Preserves c plant (plant.attach id channel).2 := by
  unfold attach
  split
  · dsimp only
    split
    · exact preserves_same rfl
    · exact (preserves_set_active plant channel true).then_same rfl
  · exact .refl plant

theorem preserves_detach (id : DeviceId) (logical : String) : Preserves c plant (plant.detach id logical).2 := by
  unfold detach
  split
  · exact .refl plant
  · split
    · exact .refl plant
    · exact (preserves_set_active _ _ false).behind rfl

theorem preserves_register_attached (id : DeviceId) (registry : RegistryId) :
    Preserves c plant (plant.registerAttached id registry) := by
  unfold registerAttached
  split
  · exact .refl plant
  · refine preserves_foldl _ (fun plant channel => ?_) _ plant
    split
    · exact .refl plant
    · exact preserves_same rfl

theorem preserves_dispose_device (id : DeviceId) : Preserves c plant (plant.disposeDevice id) := by
  have stopped : Preserves c plant (plant.deactivateDevice id) := (mute_deactivate_device plant id).preserves
  unfold disposeDevice
  dsimp only
  split
  · exact stopped
  · exact stopped.trans ((preserves_foldl _ (fun plant channel =>
      (preserves_set_active plant channel false).trans (preserves_clear_subscribers _ channel)) _ _).behind rfl)

theorem preserves_attach_all (id : DeviceId) (verbose : Bool) (names : List String) :
    Preserves c plant (plant.attachAll id verbose names) :=
  preserves_foldl _ (fun plant name =>
    (preserves_more plant (plant.addChannel { Channel.create name with verbose := verbose }).2 _ rfl).trans
      (preserves_attach _ id _)) names plant

theorem preserves_channel_or_new (name : String) : Preserves c plant (plant.channelOrNew name).2 := by
  unfold channelOrNew
  split
  · exact .refl plant
  · exact preserves_more plant _ _ rfl

theorem preserves_complete (id : SequenceId) : Preserves c plant (plant.complete id) := by
  unfold complete
  split
  · exact .refl plant
  · next sequence held =>
    split
    · have woken := mute_wake_task (plant.setState id { sequence with active := false } .completed) id sequence
      exact ((woken.preserves.trans (preserves_set_active _ sequence.channel false)).behind rfl).then_same rfl
    · exact .refl plant

theorem preserves_deactivate_sequence (id : SequenceId) : Preserves c plant (plant.deactivateSequence id) := by
  unfold deactivateSequence
  split
  · exact .refl plant
  · next sequence held =>
    split
    · have woken := mute_wake_task (plant.setState id
        { sequence with active := false, paused := false, queue := [] } .cancelled) id
          { sequence with active := false, paused := false, queue := [] }
      exact ((woken.preserves.trans (preserves_set_active _ sequence.channel false)).behind rfl).then_same rfl
    · exact .refl plant

theorem preserves_dispose_sequence (id : SequenceId) : Preserves c plant (plant.disposeSequence id) := by
  have stopped := preserves_deactivate_sequence (c := c) plant id
  unfold disposeSequence
  dsimp only
  split
  · exact stopped
  · exact stopped.trans ((preserves_clear_subscribers _ _).behind rfl)

theorem preserves_arm (id : SequenceId) : Preserves c plant (plant.arm id) := by
  have rearmed (t : TriggerId) : Preserves c plant (plant.rearmTrigger t) := (mute_rearm_trigger plant t).preserves
  have taken := plant.arm_case id
  generalize plant.arm id = next at taken ⊢
  cases taken with
  | leave => exact (mute_leave_step plant id).preserves
  | refuse s t =>
    have stopped (plant : Plant) : Preserves c plant ((plant.deactivateSequence id).leaveStep id) :=
      (preserves_deactivate_sequence plant id).trans (mute_leave_step _ id).preserves
    exact (rearmed t).trans ((stopped _).behind rfl)
  | engage s t trigger started next _ _ _ _ activated =>
    exact (rearmed t).trans ((mute_activate_trigger _ t _ _ activated).preserves.behind rfl)

theorem preserves_make_devices (registry : RegistryId) (verbose : Bool) (parts : List Config.Device) :
    Preserves c plant (plant.makeDevices registry verbose parts).2 :=
  devices_keep (Preserves c plant) registry verbose (fun _ _ preserves => preserves.then_same rfl)
    (fun next d names preserves => preserves.trans (preserves_attach_all next d verbose names))
    (fun next d preserves => preserves.trans (preserves_register_attached next d registry)) parts plant (.refl plant)

theorem preserves_make_channel (registry : RegistryId) (verbose : Bool) (part : Config.Channel) :
    Preserves c plant (plant.makeChannel registry verbose part) := by
  obtain ⟨_, _, exact⟩ := make_channel_exact plant registry verbose part
  rw [exact]
  exact preserves_more plant _ _ rfl

theorem preserves_make_variables (table : TableId) (registry : RegistryId) (verbose : Bool)
    (parts : List Config.Variable) : Preserves c plant (plant.makeVariables table registry verbose parts).2 :=
  variables_keep (Preserves c plant) table registry verbose (fun _ _ _ preserves => preserves.then_same rfl)
    (fun next v d preserves => preserves.trans (preserves_follow next v d))
    (fun _ _ _ preserves => preserves.then_same rfl) parts plant (.refl plant)

theorem preserves_make_workspace (config : Config) : Preserves c plant (plant.makeWorkspace config).2 :=
  workspace_keep (Preserves c plant) config (fun _ preserves => preserves.then_same rfl)
    (fun next registry preserves => preserves.trans (preserves_make_devices next registry _ _))
    (fun next registry part preserves => preserves.trans (preserves_make_channel next registry _ part))
    (fun next table registry preserves => preserves.trans (preserves_make_variables next table registry _ _))
    (fun _ _ _ _ _ preserves => preserves.then_same rfl) plant (.refl plant)

theorem preserves_make_schedule (table : TableId) (registry : RegistryId) (procedure : Config.Procedure)
    (pollInterval : Nat) (scheduled : Scheduled) (next : Plant)
    (made : plant.makeSchedule table registry procedure pollInterval = .ok (scheduled, next)) :
    Preserves c plant next := by
  obtain ⟨part, steps, between, details, _, built, _, rfl⟩ := schedule_made made
  exact ((mute_make_steps plant table part.steps steps between built).preserves.trans
    (preserves_more between (between.addSequence part.name registry pollInterval).2 _ rfl)).then_same rfl

theorem preserves_subscribe (publisher : Publisher) (listener : Listener) :
    Preserves c plant (plant.subscribe publisher listener).2 := by
  cases publisher with
  | node node =>
    cases node with
    | var id => exact (mute_subscribe_variable plant id listener).preserves
    | comparison id => exact (mute_subscribe_comparison plant id listener).preserves
    | trigger id => exact (mute_subscribe_trigger plant id listener).preserves
  | channel id => exact preserves_subscribe_channel plant id listener

theorem preserves_unsubscribe (publisher : Publisher) (ticket : Ticket) :
    Preserves c plant (plant.unsubscribe publisher ticket) := by
  cases publisher with
  | node node =>
    cases node with
    | var id => exact (mute_unsubscribe_variable plant id ticket).preserves
    | comparison id => exact (mute_unsubscribe_comparison plant id ticket).preserves
    | trigger id => exact (mute_unsubscribe_trigger plant id ticket).preserves
  | channel id => exact preserves_unsubscribe_channel plant id ticket

end

section

variable {c : ChannelId} {plant next : Plant}

theorem VariableCall.preserves {command : VariableCommand} (call : plant.VariableCall command next) :
    Preserves c plant next := by
  cases call with
  | idle => exact .refl plant
  | make => exact preserves_same rfl
  | set => exact (mute_assign plant _ _ _).preserves
  | follow => exact (preserves_follow plant _ _).then_same rfl
  | refuse => exact preserves_follow plant _ _

theorem DeviceCall.preserves {command : DeviceCommand} (call : plant.DeviceCall command next) :
    Preserves c plant next := by
  cases call with
  | idle => exact .refl plant
  | make => exact preserves_same rfl
  | add => exact ((preserves_channel_or_new plant _).trans (preserves_attach _ _ _)).then_same rfl
  | refuse => exact (preserves_channel_or_new plant _).trans (preserves_attach _ _ _)
  | remove => exact preserves_detach plant _ _
  | register => exact preserves_register_attached plant _ _
  | poll name d device _ found polled =>
    exact ((mute_enter_run plant).trans (mute_poll _ d next polled)).preserves
  | activate name d device _ found activated => exact (mute_activate_device plant d next activated).preserves
  | deactivate => exact (mute_deactivate_device plant _).preserves
  | dispose => exact preserves_dispose_device plant _

theorem UnsubscribeCall.preserves {id : String} (call : plant.UnsubscribeCall id next) : Preserves c plant next := by
  cases call with
  | idle => exact .refl plant
  | leave => exact preserves_unsubscribe plant _ _

end

end Interlock.Plant
