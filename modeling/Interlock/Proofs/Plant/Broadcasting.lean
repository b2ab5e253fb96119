import Interlock.Proofs.Plant.Airing

/-!
Messages of a move. Whatever a call, a job or a turn does, it publishes one message at most.
-/

set_option autoImplicit false

namespace Interlock.Plant

open Interlock.Graph
open Interlock.Schedule (SequenceId)
open Interlock.Session

section

variable {plant next : Plant}

theorem VariableCall.publishes_nothing {command : VariableCommand} (call : plant.VariableCall command next) :
    PublishesNothing plant next := by
  cases call with
  | idle => exact .refl plant
  | make => exact (Mute.refl plant).publishes_nothing.then_same rfl
  | set => exact (mute_assign plant _ _ _).publishes_nothing
  | follow => exact (publishes_nothing_follow plant _ _).then_same rfl
  | refuse => exact publishes_nothing_follow plant _ _

theorem ComparisonCall.mute {command : ComparisonCommand} (call : plant.ComparisonCall command next) :
    Mute plant next := by
  cases call with
  | idle => exact .refl plant
  | make name expression c between made =>
      exact (mute_make_comparison plant _ expression c between made).then_same rfl
  | activate => exact mute_activate_comparison plant _
  | deactivate => exact mute_deactivate_comparison plant _
  | refresh => exact (mute_refresh _ _ _ _).behind rfl
  | drop => exact mute_same rfl

theorem TriggerCall.mute {command : TriggerCommand} (call : plant.TriggerCall command next) :
    Mute plant next := by
  cases call with
  | idle => exact .refl plant
  | make name expression times verbose t trigger between made there =>
      exact (mute_make_trigger plant _ expression times t between made).then_same rfl
  | activate name t trigger _ found activated => exact mute_activate_trigger plant t trigger next activated
  | deactivate => exact mute_deactivate_trigger plant _
  | rearm => exact mute_rearm_trigger plant _
  | evaluate => exact mute_evaluate_now plant _ _
  | drop | receive => exact mute_same rfl

theorem publishes_nothing_with_channel (plant : Plant) (name : String) (active : Bool) (value : Option Value)
    (verbose : Bool) : PublishesNothing plant (plant.withChannel name active value verbose) :=
  (publishes_nothing_add_channel plant _ rfl).then_same rfl

theorem ChannelCall.publishes_once {command : ChannelCommand} (call : plant.ChannelCall command next) :
    PublishesOnce plant next := by
  cases call with
  | idle => exact publishes_once_same rfl
  | make => exact (publishes_nothing_with_channel plant _ _ _ _).publishes_once
  | enrol =>
      exact ((publishes_nothing_with_channel plant _ _ _ _).trans
        (publishes_nothing_register _ _ _ _ (by simp [withChannel, addChannel, keep]))).publishes_once
  | register name path c channel found =>
      have there := channel_found plant name c channel found
      exact (publishes_nothing_register plant _ path c (List.getElem?_eq_some_iff.mp there).1).publishes_once
  | unregister =>
      refine .silent ⟨.single (.keeps rfl (Nat.le_refl _)), fun stocked => ?_, hushes_same rfl⟩
      exact stocked_set stocked _ _ fun c member => .inl (Directory.removed_ids _ _ c member)
  | write => exact publishes_once_write plant _ _
  | setActive => exact (publishes_nothing_set_active plant _ _).publishes_once
  | rename name assigned c channel found =>
      exact (publishes_nothing_set_channel plant c channel { channel with assigned := assigned }
        (channel_found plant name c channel found) (.refl _)).publishes_once
  | clear => exact (publishes_nothing_clear_subscribers plant _).publishes_once
  | notify => exact (publishes_once_notify _ _ _).behind rfl

end

theorem publishes_nothing_channel_or_new (plant : Plant) (name : String) :
    PublishesNothing plant (plant.channelOrNew name).2 := by
  unfold channelOrNew
  split
  · exact .refl plant
  · exact publishes_nothing_add_channel plant _ rfl

theorem mute_enter_run (plant : Plant) : Mute plant plant.enterRun := by
  unfold enterRun
  split
  · exact .refl plant
  · exact (mute_push _ _ (by simp [Job.call?])).behind rfl

theorem DeviceCall.publishes_nothing {plant next : Plant} {command : DeviceCommand}
    (call : plant.DeviceCall command next) : PublishesNothing plant next := by
  cases call with
  | idle => exact .refl plant
  | make => exact (PublishesNothing.refl plant).then_same rfl
  | add => exact ((publishes_nothing_channel_or_new plant _).trans (publishes_nothing_attach _ _ _)).then_same rfl
  | refuse => exact (publishes_nothing_channel_or_new plant _).trans (publishes_nothing_attach _ _ _)
  | remove => exact publishes_nothing_detach plant _ _
  | register => exact publishes_nothing_register_attached plant _ _
  | poll name d device _ found polled =>
      exact ((mute_enter_run plant).trans (mute_poll _ d next polled)).publishes_nothing
  | activate name d device _ found activated => exact (mute_activate_device plant d next activated).publishes_nothing
  | deactivate => exact (mute_deactivate_device plant _).publishes_nothing
  | dispose => exact publishes_nothing_dispose_device plant _

theorem SequenceCall.publishes_once {plant next : Plant} {command : SequenceCommand}
    (call : plant.SequenceCall command next) : PublishesOnce plant next := by
  cases call with
  | idle | step => exact publishes_once_same rfl
  | make name pollInterval =>
      exact (publishes_nothing_add_sequence plant name plant.desk.registry pollInterval).publishes_once.then_same rfl
  | stepOf name config step between made =>
      exact (mute_make_step plant _ config step between made).publishes_once.then_same rfl
  | push => exact (mute_push_steps plant _ _ _).publishes_once
  | activate name id s _ found activated => exact publishes_once_activate_sequence plant id next activated
  | deactivate => exact (publishes_nothing_deactivate_sequence plant _).publishes_once
  | setPaused name paused id s found =>
      cases paused with
      | true => exact (mute_pause plant id).publishes_once
      | false => exact publishes_once_resume plant id
  | dispose => exact (publishes_nothing_dispose_sequence plant _).publishes_once

theorem publishes_nothing_make_schedule (plant : Plant) (table : TableId) (registry : Schedule.RegistryId)
    (procedure : Config.Procedure) (pollInterval : Nat) (scheduled : Scheduled) (next : Plant)
    (made : plant.makeSchedule table registry procedure pollInterval = .ok (scheduled, next)) :
    PublishesNothing plant next := by
  obtain ⟨part, steps, between, details, _, built, _, rfl⟩ := schedule_made made
  exact ((mute_make_steps plant table part.steps steps between built).publishes_nothing.trans
    (publishes_nothing_add_sequence between part.name registry pollInterval)).then_same rfl

theorem WorkspaceCall.publishes_once {plant next : Plant} {command : WorkspaceCommand}
    (call : plant.WorkspaceCall command next) : PublishesOnce plant next := by
  cases call with
  | idle => exact publishes_once_same rfl
  | fail => exact (publishes_nothing_make_workspace plant _).publishes_once
  | make => exact (publishes_nothing_make_workspace plant _).publishes_once.then_same rfl
  | start devices _ started => exact (mute_start_devices plant devices next started).publishes_once
  | shutdown => exact (publishes_nothing_shutdown plant _).publishes_once
  | schedule name config pollInterval scheduled between made =>
      have schedule := publishes_nothing_make_schedule plant _ _ config pollInterval scheduled between made
      exact schedule.publishes_once.then_same rfl
  | startSchedule scheduled _ activated => exact publishes_once_activate_sequence plant _ next activated

theorem publishes_nothing_subscribe (plant : Plant) (publisher : Publisher) (listener : Listener) :
    PublishesNothing plant (plant.subscribe publisher listener).2 := by
  cases publisher with
  | node node =>
      cases node with
      | var id => exact (mute_subscribe_variable plant id listener).publishes_nothing
      | comparison id => exact (mute_subscribe_comparison plant id listener).publishes_nothing
      | trigger id => exact (mute_subscribe_trigger plant id listener).publishes_nothing
  | channel id => exact publishes_nothing_subscribe_channel plant id listener

theorem publishes_once_send_again (plant : Plant) (publisher : Publisher) :
    PublishesOnce plant (plant.sendAgain publisher) := by
  cases publisher with
  | node node => exact publishes_once_same rfl
  | channel id => exact publishes_once_repeat_value plant id

theorem mute_observer_for (plant : Plant) (publisher : Publisher) (id : String)
    (handler : Option String) (times : Nat) (script : List Command) (observer : ObserverId)
    (next : Plant)
    (made : plant.observerFor publisher id handler times script = some (observer, next)) :
    Mute plant next := by
  obtain rfl | rfl := observer_made made
  · exact .refl _
  · exact mute_same rfl

theorem Joining.publishes_nothing {plant next : Plant} {id : String} {handler : Option String} {times : Nat}
    {script : List Command} (call : plant.Joining id handler times script next) : PublishesNothing plant next := by
  cases call with
  | idle => exact .refl plant
  | refuse publisher observer between made =>
      exact (mute_observer_for plant publisher id handler times script observer between made).publishes_nothing.trans
        (publishes_nothing_subscribe between publisher (.observer observer))
  | join publisher observer between ticket made _ =>
      exact ((mute_observer_for plant publisher id handler times script observer between made).publishes_nothing.trans
        (publishes_nothing_subscribe between publisher (.observer observer))).trans
          (mute_push _ _ (by simp [Job.call?])).publishes_nothing

theorem SubscribeCall.publishes_once {plant next : Plant} {id : String} {handler : Option String} {times : Nat}
    {script : List Command} (call : plant.SubscribeCall id handler times script next) : PublishesOnce plant next := by
  cases call with
  | once _ first => exact first.publishes_nothing.publishes_once
  | again publisher between first => exact first.publishes_nothing.then_once (publishes_once_send_again between publisher)

theorem publishes_nothing_unsubscribe (plant : Plant) (publisher : Publisher) (ticket : Ticket) :
    PublishesNothing plant (plant.unsubscribe publisher ticket) := by
  cases publisher with
  | node node =>
      cases node with
      | var id => exact (mute_unsubscribe_variable plant id ticket).publishes_nothing
      | comparison id => exact (mute_unsubscribe_comparison plant id ticket).publishes_nothing
      | trigger id => exact (mute_unsubscribe_trigger plant id ticket).publishes_nothing
  | channel id => exact publishes_nothing_unsubscribe_channel plant id ticket

theorem UnsubscribeCall.publishes_nothing {plant next : Plant} {id : String} (call : plant.UnsubscribeCall id next) :
    PublishesNothing plant next := by
  cases call with
  | idle => exact .refl plant
  | leave publisher ticket _ => exact publishes_nothing_unsubscribe plant publisher ticket

theorem publishes_once_execute (plant : Plant) (command : Command) : PublishesOnce plant (plant.execute command).2 := by
  cases command with
  | var command => exact (plant.variable_call command).publishes_nothing.publishes_once
  | comparison command => exact (plant.comparison_call command).mute.publishes_once
  | trigger command => exact (plant.trigger_call command).mute.publishes_once
  | channel command => exact (plant.channel_call command).publishes_once
  | device command => exact (plant.device_call command).publishes_nothing.publishes_once
  | sequence command => exact (plant.sequence_call command).publishes_once
  | workspace command => exact (plant.workspace_call command).publishes_once
  | subscribe id source name handler sendNow times script =>
      exact (plant.subscribe_call id source name handler sendNow times script).publishes_once
  | unsubscribe id => exact (plant.unsubscribe_call id).publishes_nothing.publishes_once

theorem publishes_once_retire {plant next : Plant} (once : PublishesOnce plant next) :
    PublishesOnce plant next.retire := by
  obtain ⟨channels, _, tickets, _⟩ := mute_retire next
  have agenda := (still_retire next).agenda
  cases once with
  | silent nothing => exact .silent (nothing.trans (mute_retire next).publishes_nothing)
  | publishes id channel event behind reshapes stocked there active hushed listed =>
      exact .publishes id channel event behind (reshapes.tail (.keeps channels tickets))
        ((mute_retire next).stocked ∘ stocked) (by rw [channels, there]) active hushed (by rw [agenda, listed])

theorem publishes_once_run_command (plant : Plant) (label : String) (command : Command) :
    PublishesOnce plant (plant.runCommand label command) := by
  obtain ⟨jobs, grown, _, same⟩ := run_command_next plant label command
  have reply : (Job.conclude label (plant.execute command).1).call? = none := rfl
  rw [same]
  cases publishes_once_execute plant command with
  | silent nothing =>
      obtain ⟨caused, listed, each⟩ := nothing.agenda
      have own : jobs = caused := List.append_cancel_right (grown.symm.trans listed)
      refine .silent ⟨nothing.reshapes.tail (.keeps rfl (Nat.le_refl _)), nothing.stocked,
        jobs ++ [.conclude label (plant.execute command).1], ?_, ?_⟩
      · exact List.append_cons jobs _ _
      · intro job member
        rcases List.mem_append.mp member with early | late
        · exact each job (own ▸ early)
        · rw [List.mem_singleton.mp late]
          exact reply
  | publishes id channel event behind reshapes stocked there active hushed agenda =>
      have own : jobs = channel.calls event ++ behind := List.append_cancel_right (grown.symm.trans agenda)
      refine .publishes id channel event (behind ++ [.conclude label (plant.execute command).1])
        (reshapes.tail (.keeps rfl (Nat.le_refl _))) stocked there active ?_ ?_
      · intro job member
        rcases List.mem_append.mp member with early | late
        · exact hushed job early
        · rw [List.mem_singleton.mp late]
          exact reply
      · rw [own]
        simp

theorem publishes_once_perform (plant : Plant) (job : Job) : PublishesOnce plant (plant.perform job) := by
  cases job with
  | deliver listener notification => exact (mute_deliver plant listener notification).publishes_once
  | tell listener event => exact (mute_tell plant listener event).publishes_once
  | leave node => exact publishes_once_same rfl
  | exhaust id => exact (mute_exhaust plant id).publishes_once
  | command label command => exact publishes_once_run_command plant label command
  | conclude label reply => exact publishes_once_same rfl
  | write id value => exact publishes_once_write plant id value
  | settleDown id => exact (mute_settle_down plant id).publishes_once
  | keepSubscription name subscription => exact publishes_once_same rfl
  | closeRun => exact publishes_once_same rfl
  | announce id progress => exact publishes_once_same rfl
  | begin id => exact publishes_once_begin plant id
  | act id actions => exact publishes_once_act plant id actions
  | arm id => exact (publishes_nothing_arm plant id).publishes_once
  | wait id => exact (mute_wait plant id).publishes_once
  | disarm id => exact (mute_disarm plant id).publishes_once
  | next id => exact publishes_once_next plant id
  | complete id => exact (publishes_nothing_complete plant id).publishes_once

def worked? (plant : Plant) : Deed → Option Job
  | .job => plant.agenda.head?
  | _ => none

def rested (plant : Plant) : Deed → Plant
  | .job => { plant with agenda := plant.agenda.tail }
  | _ => plant

theorem publishes_once_move (plant next : Plant) (deed : Deed) (move : Move plant deed next) :
    PublishesOnce (plant.rested deed) next := by
  cases move with
  | job _ stepped =>
      obtain ⟨job, rest, agenda, rfl⟩ := worked_off stepped
      have still := publishes_once_perform { plant with agenda := rest } job
      simp only [rested, agenda, List.tail_cons]
      exact publishes_once_retire still
  | call command => exact publishes_once_retire (publishes_once_execute plant command)
  | turn runner => exact ((mute_turn plant runner).trans (mute_retire _)).publishes_once
  | dispatch change => exact publishes_once_same rfl

end Interlock.Plant
