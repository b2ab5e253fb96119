import Interlock.Proofs.Plant.Quiet

/-!
What commands do apart from the sequences.
-/

set_option autoImplicit false

namespace Interlock.Plant

open Interlock.Graph
open Interlock.Schedule (RegistryId SequenceId Step)
open Interlock.Session

theorem inert_add_table (plant : Plant) : Inert plant plant.addTable.2 :=
  inert_same _ _ rfl rfl rfl rfl rfl

theorem inert_add_registry (plant : Plant) : Inert plant plant.addRegistry.2 :=
  inert_same _ _ rfl rfl rfl rfl rfl

theorem inert_insert_variable (plant : Plant) (table : TableId) (name : String) (id : VariableId) :
    Inert plant (plant.insertVariable table name id) := inert_set_table plant table _

theorem inert_attach_all (plant : Plant) (id : DeviceId) (verbose : Bool) (names : List String) :
    Inert plant (plant.attachAll id verbose names) :=
  inert_foldl _ (fun plant _ => (inert_add_channel plant _).trans (inert_attach _ id _)) names plant

theorem inert_make_devices (plant : Plant) (registry : RegistryId) (verbose : Bool)
    (parts : List Config.Device) : Inert plant (plant.makeDevices registry verbose parts).2 :=
  devices_keep (Inert plant) registry verbose (fun next device inert => inert.trans (inert_add_device next device))
    (fun next d names inert => inert.trans (inert_attach_all next d verbose names))
    (fun next d inert => inert.trans (inert_register_attached next d registry)) parts plant (.refl plant)

theorem inert_make_channel (plant : Plant) (registry : RegistryId) (verbose : Bool)
    (part : Config.Channel) : Inert plant (plant.makeChannel registry verbose part) := by
  have added := inert_add_channel plant (.create part.path)
  rw [makeChannel]
  generalize plant.addChannel (.create part.path) = made at added ⊢
  obtain ⟨id, next⟩ := made
  dsimp only at added ⊢
  cases part.initial with
  | none =>
      refine added.trans (Inert.trans ?_ (inert_register _ _ _ _))
      dsimp only
      split
      · exact inert_set_channel _ _ _
      · exact .refl _
  | some literal =>
      refine added.trans ((inert_write next id (.infer literal)).trans
        (Inert.trans ?_ (inert_register _ _ _ _)))
      dsimp only
      split
      · exact inert_set_channel _ _ _
      · exact .refl _

theorem inert_make_variables (plant : Plant) (table : TableId) (registry : RegistryId)
    (verbose : Bool) (parts : List Config.Variable) :
    Inert plant (plant.makeVariables table registry verbose parts).2 :=
  variables_keep (Inert plant) table registry verbose
    (fun next name value inert => inert.trans (inert_add_variable next (.create name value verbose)))
    (fun next v c inert => inert.trans (inert_follow next v c))
    (fun next name v inert => inert.trans (inert_insert_variable next table name v)) parts plant (.refl plant)

theorem inert_make_workspace (plant : Plant) (config : Config) :
    Inert plant (plant.makeWorkspace config).2 :=
  workspace_keep (Inert plant) config
    (fun next inert => inert.trans ((inert_add_table next).trans (inert_add_registry _)))
    (fun next registry inert => inert.trans (inert_make_devices next registry _ _))
    (fun next registry part inert => inert.trans (inert_make_channel next registry _ part))
    (fun next table registry inert => inert.trans (inert_make_variables next table registry _ _))
    (fun next part level message details inert => inert.trans (inert_log next part level message details))
    plant (.refl plant)

theorem inert_start_devices (plant : Plant) (devices : List DeviceId) (next : Plant)
    (started : plant.startDevices devices = .ok next) : Inert plant next :=
  devices_start (Inert plant)
    (fun between d next inert activated => inert.trans (inert_activate_device between d next activated))
    devices plant started (.refl plant)

theorem inert_shutdown (plant : Plant) (devices : List DeviceId) :
    Inert plant (plant.shutdown devices) := inert_foldl _ inert_dispose_device devices plant

theorem quiet_make_steps (plant : Plant) (table : TableId) (parts : List Config.Step)
    (steps : List Step) (next : Plant) (made : plant.makeSteps table parts = .ok (steps, next)) :
    Quiet plant next :=
  steps_keep (Quiet plant)
    (fun between table expression t next quiet built =>
      quiet.trans (quiet_make_trigger between table expression 1 t next built))
    table parts steps made (.refl plant)

theorem quiet_make_step (plant : Plant) (table : TableId) (part : Config.Step) (step : Step)
    (next : Plant) (made : plant.makeStep table part = .ok (step, next)) : Quiet plant next := by
  obtain ⟨rfl, _⟩ | ⟨expression, t, built, _⟩ := step_made made
  · exact .refl _
  · exact quiet_make_trigger plant table expression 1 t next built

theorem inert_keep_subscription (plant : Plant) (id : String) (subscription : Subscription) :
    Inert plant (plant.keepSubscription id subscription) := inert_keep plant _

theorem inert_keep_step (plant : Plant) (name : String) (step : Step) :
    Inert plant (plant.keepStep name step) := inert_keep plant _

theorem inert_open_workspace (plant : Plant) (workspace : Workspace) :
    Inert plant (plant.openWorkspace workspace) := inert_same _ _ rfl rfl rfl rfl rfl

section

variable {plant next : Plant}

theorem VariableCall.inert {command : VariableCommand} (call : plant.VariableCall command next) :
    Inert plant next := by
  cases call with
  | idle => exact .refl plant
  | make => exact (inert_add_variable plant _).trans (inert_insert_variable _ _ _ _)
  | set => exact inert_assign plant _ _ _
  | follow => exact (inert_follow plant _ _).trans (inert_keep_subscription _ _ _)
  | refuse => exact inert_follow plant _ _

theorem ComparisonCall.inert {command : ComparisonCommand} (call : plant.ComparisonCall command next) :
    Inert plant next := by
  cases call with
  | idle => exact .refl plant
  | make name expression c between made =>
      exact (inert_make_comparison plant _ expression c between made).trans (inert_keep between _)
  | activate => exact inert_activate_comparison plant _
  | deactivate => exact inert_deactivate_comparison plant _
  | refresh name c comparison found =>
      have there : plant.comparisons[c]? = some comparison := found_there _ _ name c comparison found
      exact (inert_read_clock plant).trans (inert_refresh _ c comparison _ there)
  | drop => exact inert_keep plant _

theorem TriggerCall.quiet {command : TriggerCommand} (call : plant.TriggerCall command next) :
    Quiet plant next := by
  cases call with
  | idle => exact .refl plant
  | make name expression times verbose t trigger between made there =>
      exact (quiet_make_trigger plant _ expression times t between made).trans
        ((quiet_set_trigger between t _).trans (inert_keep _ _).quiet)
  | activate name t trigger _ found activated => exact quiet_activate_trigger plant t trigger next activated
  | deactivate => exact quiet_deactivate_trigger plant _
  | rearm => exact quiet_rearm_trigger plant _
  | evaluate => exact quiet_evaluate_now plant _ _
  | drop | receive => exact (inert_keep plant _).quiet

theorem inert_with_channel (plant : Plant) (name : String) (active : Bool) (value : Option Value)
    (verbose : Bool) : Inert plant (plant.withChannel name active value verbose) :=
  (inert_add_channel plant _).trans (inert_keep _ _)

theorem ChannelCall.inert {command : ChannelCommand} (call : plant.ChannelCall command next) :
    Inert plant next := by
  cases call with
  | idle => exact .refl plant
  | make => exact inert_with_channel plant _ _ _ _
  | enrol => exact (inert_with_channel plant _ _ _ _).trans (inert_register _ _ _ _)
  | register => exact inert_register plant _ _ _
  | unregister => exact inert_set_registry plant _ _
  | write => exact inert_write plant _ _
  | setActive => exact inert_set_active plant _ _
  | rename => exact inert_set_channel plant _ _
  | clear => exact inert_clear_subscribers plant _
  | notify => exact (inert_read_clock plant).trans (inert_notify _ _ _)

end

theorem inert_channel_or_new (plant : Plant) (name : String) :
    Inert plant (plant.channelOrNew name).2 := by
  unfold channelOrNew
  split
  · exact .refl plant
  · exact inert_add_channel plant _

theorem inert_enter_run (plant : Plant) : Inert plant plant.enterRun := by
  unfold enterRun
  split
  · exact .refl plant
  · refine (inert_dispatch plant _).trans (inert_push _ _ ?_)
    intro job member
    rw [List.mem_singleton.mp member]
    exact ⟨rfl, rfl⟩

theorem DeviceCall.inert {plant next : Plant} {command : DeviceCommand}
    (call : plant.DeviceCall command next) : Inert plant next := by
  cases call with
  | idle => exact .refl plant
  | make => exact (inert_add_device plant _).trans (inert_keep _ _)
  | add => exact ((inert_channel_or_new plant _).trans (inert_attach _ _ _)).trans (inert_keep _ _)
  | refuse => exact (inert_channel_or_new plant _).trans (inert_attach _ _ _)
  | remove => exact inert_detach plant _ _
  | register => exact inert_register_attached plant _ _
  | poll name d device _ found polled => exact (inert_enter_run plant).trans (inert_poll _ d next polled)
  | activate name d device _ found activated => exact inert_activate_device plant d next activated
  | deactivate => exact inert_deactivate_device plant _
  | dispose => exact inert_dispose_device plant _

theorem quiet_subscribe (plant : Plant) (publisher : Publisher) (listener : Listener) :
    Quiet plant (plant.subscribe publisher listener).2 := by
  cases publisher with
  | node node =>
      cases node with
      | var id => exact (inert_subscribe_variable plant id listener).quiet
      | comparison id => exact (inert_subscribe_comparison plant id listener).quiet
      | trigger id => exact quiet_subscribe_trigger plant id listener
  | channel id => exact (inert_subscribe_channel plant id listener).quiet

theorem inert_send_again (plant : Plant) (publisher : Publisher) :
    Inert plant (plant.sendAgain publisher) := by
  cases publisher with
  | node node => exact .refl plant
  | channel id => exact inert_repeat_value plant id

theorem inert_observer_for (plant : Plant) (publisher : Publisher) (id : String)
    (handler : Option String) (times : Nat) (script : List Command) (observer : ObserverId)
    (next : Plant)
    (made : plant.observerFor publisher id handler times script = some (observer, next)) :
    Inert plant next := by
  obtain rfl | rfl := observer_made made
  · exact .refl _
  · exact (inert_add_observer plant _).trans (inert_keep _ _)

theorem Joining.quiet {plant next : Plant} {id : String} {handler : Option String} {times : Nat}
    {script : List Command} (call : plant.Joining id handler times script next) : Quiet plant next := by
  cases call with
  | idle => exact .refl plant
  | refuse publisher observer between made =>
      exact (inert_observer_for plant publisher id handler times script observer between made).quiet.trans
        (quiet_subscribe between publisher (.observer observer))
  | join publisher observer between ticket made _ =>
      refine (inert_observer_for plant publisher id handler times script observer between made).quiet.trans
        ((quiet_subscribe between publisher (.observer observer)).trans (quiet_push _ _ ?_))
      intro job member
      rw [List.mem_singleton.mp member]
      rfl

theorem SubscribeCall.quiet {plant next : Plant} {id : String} {handler : Option String} {times : Nat}
    {script : List Command} (call : plant.SubscribeCall id handler times script next) : Quiet plant next := by
  cases call with
  | once _ first => exact first.quiet
  | again publisher between first => exact first.quiet.trans (inert_send_again between publisher).quiet

theorem quiet_unsubscribe (plant : Plant) (publisher : Publisher) (ticket : Ticket) :
    Quiet plant (plant.unsubscribe publisher ticket) := by
  cases publisher with
  | node node =>
      cases node with
      | var id => exact (inert_unsubscribe_variable plant id ticket).quiet
      | comparison id => exact (inert_unsubscribe_comparison plant id ticket).quiet
      | trigger id => exact quiet_unsubscribe_trigger plant id ticket
  | channel id => exact (inert_unsubscribe_channel plant id ticket).quiet

theorem UnsubscribeCall.quiet {plant next : Plant} {id : String} (call : plant.UnsubscribeCall id next) :
    Quiet plant next := by
  cases call with
  | idle => exact .refl plant
  | leave publisher ticket _ => exact quiet_unsubscribe plant publisher ticket

theorem inert_script_of (plant : Plant) (id : ObserverId) (observer : Observer) :
    Inert plant (plant.scriptOf id observer) := by
  unfold scriptOf
  split
  · exact .refl plant
  · refine (inert_set_observer plant id _).trans (inert_push _ _ ?_)
    intro job member
    obtain ⟨command, _, rfl⟩ := List.mem_map.mp member
    exact ⟨rfl, rfl⟩

theorem quiet_deliver (plant : Plant) (listener : Listener) (notification : Notification) :
    Quiet plant (plant.deliver listener notification) := by
  cases listener with
  | observer id =>
      rw [deliver]
      split
      · exact .refl plant
      · exact ((inert_note plant _ rfl).trans (inert_script_of _ id _)).quiet
  | comparison id => exact (inert_hear_variable plant id _).quiet
  | trigger id => exact quiet_hear plant id _
  | follower id source => exact .refl plant

theorem inert_tell (plant : Plant) (listener : Listener) (event : Event) :
    Inert plant (plant.tell listener event) := by
  cases listener with
  | observer id =>
      rw [tell]
      split
      · exact .refl plant
      · exact (inert_note plant _ rfl).trans (inert_script_of _ id _)
  | comparison id => exact .refl plant
  | trigger id => exact .refl plant
  | follower id source => exact inert_take_over plant id source event

theorem quiet_exhaust (plant : Plant) (id : TriggerId) : Quiet plant (plant.exhaust id) := by
  unfold exhaust
  split
  · exact .refl plant
  · exact (inert_log _ _ _ _ _).quiet.trans (quiet_deactivate_trigger _ id)

end Interlock.Plant
