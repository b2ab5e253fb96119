import Interlock.Proofs.Plant.Pulse

/-!
What happens apart from the graph. Channels, devices and sequences leave variables, comparisons and
triggers as they are, take nothing off the agenda, keep no subscription to a node and give no name to a
trigger.
-/

set_option autoImplicit false

namespace Interlock

open Interlock.Graph
open Interlock.Schedule
open Interlock.Session

def Job.kept? : Job → Option Subscription
  | .keepSubscription _ subscription => some subscription
  | _ => none

def Desk.Leads (desk : Desk) (t : TriggerId) : Prop :=
  t ∈ desk.triggers.ids ∨ ∃ entry ∈ desk.steps, entry.2.trigger = some t

namespace Plant

def Kept (plant : Plant) (node : Node) (ticket : Ticket) : Prop :=
  (∃ name, (name, ⟨.node node, ticket⟩) ∈ plant.desk.subscriptions) ∨
    ∃ job ∈ plant.agenda, job.kept? = some ⟨.node node, ticket⟩

structure Calm (plant next : Plant) : Prop where
  vars : next.vars = plant.vars
  comparisons : next.comparisons = plant.comparisons
  triggers : next.triggers = plant.triggers
  tickets : plant.tickets ≤ next.tickets
  named : next.desk.comparisons = plant.desk.comparisons
  kept : ∀ node ticket, next.Kept node ticket → plant.Kept node ticket
  agenda : ∀ job ∈ plant.agenda, job ∈ next.agenda
  led : ∀ t, next.desk.Leads t → plant.desk.Leads t

def graph (plant : Plant) : List Variable × List Comparison × List Trigger × Ticket × Directory ×
    List (String × Subscription) × List Job × Directory × List (String × Step) :=
  (plant.vars, plant.comparisons, plant.triggers, plant.tickets, plant.desk.comparisons,
    plant.desk.subscriptions, plant.agenda, plant.desk.triggers, plant.desk.steps)

theorem calm_same (plant next : Plant) (same : next.graph = plant.graph) : Calm plant next := by
  simp only [graph, Prod.mk.injEq] at same
  obtain ⟨vars, comparisons, triggers, tickets, named, subscriptions, agenda, titled, steps⟩ := same
  refine ⟨vars, comparisons, triggers, Nat.le_of_eq tickets.symm, named, fun node ticket kept => ?_,
    fun job member => by rw [agenda]; exact member, fun t led => ?_⟩
  · rw [Kept, subscriptions, agenda] at kept
    exact kept
  · rw [Desk.Leads, titled, steps] at led
    exact led

theorem Calm.refl (plant : Plant) : Calm plant plant := calm_same plant plant rfl

theorem Calm.trans {plant middle next : Plant} (first : Calm plant middle)
    (second : Calm middle next) : Calm plant next where
  vars := second.vars.trans first.vars
  comparisons := second.comparisons.trans first.comparisons
  triggers := second.triggers.trans first.triggers
  tickets := Nat.le_trans first.tickets second.tickets
  named := second.named.trans first.named
  kept node ticket kept := first.kept node ticket (second.kept node ticket kept)
  agenda job member := second.agenda job (first.agenda job member)
  led t led := first.led t (second.led t led)

theorem Calm.behind {plant middle next : Plant} (second : Calm middle next)
    (same : middle.graph = plant.graph) : Calm plant next :=
  (calm_same plant middle same).trans second

theorem calm_push (plant : Plant) (jobs : List Job) (plain : ∀ job ∈ jobs, job.kept? = none) :
    Calm plant (plant.push jobs) where
  vars := rfl
  comparisons := rfl
  triggers := rfl
  tickets := Nat.le_refl _
  named := rfl
  kept node ticket kept := by
    rcases kept with named | ⟨job, member, same⟩
    · exact .inl named
    · rcases List.mem_append.mp member with new | old
      · rw [plain job new] at same
        contradiction
      · exact .inr ⟨job, old, same⟩
  agenda _ member := List.mem_append_right jobs member
  led _ led := led

theorem calm_publish (plant : Plant) (subscribers : Subscribers) (notification : Notification)
    (after : List Job) (plain : ∀ job ∈ after, job.kept? = none) :
    Calm plant (plant.publish subscribers notification after) := by
  apply calm_push
  intro job member
  rcases List.mem_append.mp member with delivery | behind
  · obtain ⟨_, _, rfl⟩ := List.mem_map.mp delivery
    rfl
  · exact plain job behind

theorem calm_foldl {α : Type} (step : Plant → α → Plant)
    (each : ∀ plant item, Calm plant (step plant item)) (items : List α) (plant : Plant) :
    Calm plant (items.foldl step plant) := by
  induction items generalizing plant with
  | nil => exact .refl plant
  | cons item rest ih => exact (each plant item).trans (ih _)

theorem calm_notify (plant : Plant) (id : ChannelId) (event : Event) :
    Calm plant (plant.notify id event).2 := by
  rw [notify]
  split
  · exact .refl plant
  · next channel _ =>
      have told := fun plant : Plant => calm_push plant
        (channel.subscribers.map fun subscriber => .tell subscriber.listener event)
        (by simp [Job.kept?])
      dsimp only
      split
      · split
        · exact (told _).behind rfl
        · exact (told _).behind rfl
      · exact calm_same _ _ rfl

theorem calm_write (plant : Plant) (id : ChannelId) (value : Value) :
    Calm plant (plant.write id value) := by
  rw [write]
  split
  · exact .refl plant
  · exact (calm_notify _ id _).behind rfl

theorem calm_repeat_value (plant : Plant) (id : ChannelId) : Calm plant (plant.repeatValue id) := by
  rw [repeatValue]
  split
  · exact .refl plant
  · split
    · exact .refl plant
    · exact (calm_notify _ id _).behind rfl

theorem calm_unsubscribe_channel (plant : Plant) (id : ChannelId) (ticket : Ticket) :
    Calm plant (plant.unsubscribeChannel id ticket) := by
  rw [unsubscribeChannel]
  split <;> exact calm_same _ _ rfl

theorem calm_subscribe_channel (plant : Plant) (id : ChannelId) (listener : Listener) :
    Calm plant (plant.subscribeChannel id listener).2 := by
  rw [subscribeChannel]
  split
  · exact .refl plant
  · split
    · exact .refl plant
    · exact ⟨rfl, rfl, rfl, Nat.le_succ _, rfl, fun _ _ kept => kept, fun _ member => member,
        fun _ led => led⟩

theorem calm_follow (plant : Plant) (var : VariableId) (id : ChannelId) :
    Calm plant (plant.follow var id).2 := by
  rw [follow]
  split
  · exact .refl plant
  · exact calm_subscribe_channel plant id _

theorem calm_set_active (plant : Plant) (id : ChannelId) (active : Bool) :
    Calm plant (plant.setActive id active) := by
  rw [setActive]
  split <;> exact calm_same _ _ rfl

theorem calm_clear_subscribers (plant : Plant) (id : ChannelId) :
    Calm plant (plant.clearSubscribers id) := by
  rw [clearSubscribers]
  split <;> exact calm_same _ _ rfl

theorem calm_attach (plant : Plant) (id : DeviceId) (channel : ChannelId) :
    Calm plant (plant.attach id channel).2 := by
  rw [attach]
  split
  · dsimp only
    split
    · exact calm_same _ _ rfl
    · exact (calm_set_active plant channel true).trans (calm_same _ _ rfl)
  · exact .refl plant

theorem calm_detach (plant : Plant) (id : DeviceId) (logical : String) :
    Calm plant (plant.detach id logical).2 := by
  rw [detach]
  split
  · exact .refl plant
  · next device _ =>
      split
      · exact .refl plant
      · next channel _ =>
          have set : Calm plant
              (plant.setDevice id { device with channels := device.channels.erase channel }) :=
            calm_same _ _ rfl
          exact set.trans (calm_set_active _ _ _)

theorem calm_register_attached (plant : Plant) (id : DeviceId) (registry : RegistryId) :
    Calm plant (plant.registerAttached id registry) := by
  rw [registerAttached]
  split
  · exact .refl plant
  · refine calm_foldl _ (fun plant channel => ?_) _ plant
    split <;> exact calm_same _ _ rfl

theorem calm_poll (plant : Plant) (id : DeviceId) (next : Plant) (polled : plant.poll id = .ok next) :
    Calm plant next := by
  have writes := fun (plant : Plant) (channels : List ChannelId) (value : Value) =>
    calm_push plant (channels.map fun channel => .write channel value) (by simp [Job.kept?])
  rw [poll] at polled
  split at polled
  · cases polled
    exact .refl plant
  · split at polled
    · cases polled
      exact (writes _ _ _).behind rfl
    · contradiction
    · cases polled
      exact (writes _ _ _).behind rfl

theorem calm_activate_device (plant : Plant) (id : DeviceId) (next : Plant)
    (activated : plant.activateDevice id = .ok next) : Calm plant next := by
  rw [activateDevice] at activated
  split at activated
  · cases activated
    exact .refl plant
  · split at activated
    · contradiction
    · split at activated
      · cases activated
        exact .refl plant
      · cases activated
        exact calm_same _ _ rfl

theorem calm_deactivate_device (plant : Plant) (id : DeviceId) :
    Calm plant (plant.deactivateDevice id) := by
  rw [deactivateDevice]
  split
  · exact .refl plant
  · split <;> exact calm_same _ _ rfl

theorem calm_retire_devices (plant : Plant) : Calm plant plant.retireDevices := by
  refine calm_foldl _ (fun plant item => ?_) _ plant
  obtain ⟨device, id⟩ := item
  dsimp only
  split
  · exact calm_deactivate_device plant id
  · exact .refl plant

theorem calm_dispose_device (plant : Plant) (id : DeviceId) : Calm plant (plant.disposeDevice id) := by
  have stopped := calm_deactivate_device plant id
  rw [disposeDevice]
  split
  · exact stopped
  · next device _ =>
      have freed := fun (plant : Plant) (channels : List ChannelId) => calm_foldl
        (fun (plant : Plant) channel => (plant.setActive channel false).clearSubscribers channel)
        (fun plant channel => (calm_set_active plant channel false).trans
          (calm_clear_subscribers _ channel)) channels plant
      have set : Calm (plant.deactivateDevice id)
          ((plant.deactivateDevice id).setDevice id { device with channels := [] }) :=
        calm_same _ _ rfl
      exact stopped.trans (set.trans (freed _ _))

theorem calm_turn_device (plant : Plant) (id : DeviceId) : Calm plant (plant.turnDevice id) := by
  rw [turnDevice]
  split
  · exact .refl plant
  · have pushed := calm_push plant [.settleDown id] (by simp [Job.kept?])
    dsimp only
    split
    · next later polled => exact pushed.trans (calm_poll _ id later polled)
    · exact pushed.trans (calm_same _ _ rfl)

theorem calm_settle_down (plant : Plant) (id : DeviceId) : Calm plant (plant.settleDown id) := by
  rw [settleDown]
  split
  · exact .refl plant
  · split <;> exact calm_same _ _ rfl

theorem calm_wake_task (plant : Plant) (id : SequenceId) (s : Sequence) :
    Calm plant (plant.wakeTask id s) := by
  rw [wakeTask]
  split <;> exact calm_same _ _ rfl

theorem calm_tell_stage (plant : Plant) (s : Sequence) (command : String) (value : Option Value)
    (description : String) : Calm plant (plant.tellStage s command value description) :=
  (calm_same plant plant.readClock.2 rfl).trans (calm_notify _ _ _)

theorem calm_finish (plant : Plant) (id : SequenceId) (s : Sequence) :
    Calm plant (plant.finish id s) := by
  rw [finish]
  split
  · exact (calm_push plant [.complete id] (by simp [Job.kept?])).trans (calm_tell_stage _ s _ _ _)
  · exact .refl plant

theorem calm_proceed (plant : Plant) (id : SequenceId) : Calm plant (plant.proceed id) := by
  rw [proceed]
  split
  · exact .refl plant
  · split
    · exact .refl plant
    · split
      · exact calm_same _ _ rfl
      · split
        · exact calm_finish plant id _
        · exact calm_same _ _ rfl

theorem calm_complete (plant : Plant) (id : SequenceId) : Calm plant (plant.complete id) := by
  rw [complete]
  split
  · exact .refl plant
  · next s _ =>
      split
      · have set : Calm plant (plant.setState id { s with active := false } .completed) :=
          calm_same _ _ rfl
        exact set.trans ((calm_wake_task _ id s).trans
          ((calm_set_active _ s.channel false).trans (calm_same _ _ rfl)))
      · exact .refl plant

theorem calm_activate (plant : Plant) (id : SequenceId) (next : Plant)
    (activated : plant.activateSequence id = .ok next) : Calm plant next := by
  rw [activateSequence] at activated
  split at activated
  · cases activated
    exact .refl _
  · next s _ =>
      split at activated
      · contradiction
      · split at activated
        · cases activated
          exact .refl _
        · cases activated
          have set : Calm plant
              (plant.setState id { s with active := true, executed := 0 } .running) :=
            calm_same _ _ rfl
          have woken := set.trans ((calm_set_active _ s.channel true).trans
            (calm_wake_task _ id { s with active := true, executed := 0 }))
          exact woken.trans ((calm_proceed _ id).behind rfl)

theorem calm_deactivate (plant : Plant) (id : SequenceId) :
    Calm plant (plant.deactivateSequence id) := by
  rw [deactivateSequence]
  split
  · exact .refl plant
  · next s _ =>
      split
      · have set : Calm plant
            (plant.setState id { s with active := false, paused := false, queue := [] } .cancelled) :=
          calm_same _ _ rfl
        exact set.trans ((calm_wake_task _ id _).trans ((calm_set_active _ s.channel false).trans
          (calm_same _ _ rfl)))
      · exact .refl plant

theorem calm_resume (plant : Plant) (id : SequenceId) : Calm plant (plant.resume id) := by
  rw [resume]
  split
  · exact .refl plant
  · split
    · exact .refl plant
    · split
      · exact calm_same _ _ rfl
      · exact (calm_proceed _ id).behind rfl

theorem calm_set_paused (plant : Plant) (id : SequenceId) (paused : Bool) :
    Calm plant (plant.setPaused id paused) := by
  rw [setPaused]
  split
  · rw [pause]
    split <;> exact calm_same _ _ rfl
  · exact calm_resume plant id

theorem calm_dispose (plant : Plant) (id : SequenceId) : Calm plant (plant.disposeSequence id) := by
  have stopped := calm_deactivate plant id
  rw [disposeSequence]
  split
  · exact stopped
  · next s _ =>
      have emptied : Calm (plant.deactivateSequence id)
          ((plant.deactivateSequence id).setSequence id { s with queue := [] }) :=
        calm_same _ _ rfl
      exact stopped.trans (emptied.trans (calm_clear_subscribers _ _))

theorem calm_push_steps (plant : Plant) (id : SequenceId) (step : Step) (count : Nat) :
    Calm plant (plant.pushSteps id step count) := by
  rw [pushSteps]
  split <;> exact calm_same _ _ rfl

theorem calm_leave_step (plant : Plant) (id : SequenceId) : Calm plant (plant.leaveStep id) := by
  rw [leaveStep]
  split
  · exact .refl plant
  · exact (calm_push _ [.next id] (by simp [Job.kept?])).behind rfl

theorem calm_cancel (plant : Plant) (id : SequenceId) :
    Calm plant ((plant.deactivateSequence id).leaveStep id) :=
  (calm_deactivate plant id).trans (calm_leave_step _ id)

theorem calm_begin (plant : Plant) (id : SequenceId) : Calm plant (plant.beginStep id) := by
  rw [beginStep]
  split
  · exact .refl plant
  · exact ((calm_push _ _ (by simp [Job.kept?])).trans
      (calm_tell_stage _ _ _ _ _)).behind rfl

theorem calm_act (plant : Plant) (id : SequenceId) (actions : List Action) :
    Calm plant (plant.actNext id actions) := by
  cases actions with
  | nil => exact calm_push plant [.arm id] (by simp [Job.kept?])
  | cons action rest =>
      rw [actNext]
      split
      · exact .refl plant
      · have after := calm_push plant [.act id rest] (by simp [Job.kept?])
        rw [act]
        dsimp only
        split
        · exact after.trans (calm_same _ _ rfl)
        · next value _ =>
            split
            · have told := calm_push (plant.push [.act id rest])
                [.announce id (.actionApplied action.path value)] (by simp [Job.kept?])
              exact after.trans (told.trans ((calm_write _ _ value).behind rfl))
            · exact after.trans (calm_same _ _ rfl)

theorem calm_wait (plant : Plant) (id : SequenceId) : Calm plant (plant.waitForTrigger id) := by
  rw [waitForTrigger]
  split
  · exact calm_leave_step plant id
  · next s _ trigger _ =>
      have told : Calm plant (plant.announce id (.waitingOnTrigger trigger.expression)) :=
        calm_same _ _ rfl
      dsimp only
      split
      · exact told.trans (calm_push _ [.disarm id] (by simp [Job.kept?]))
      · exact told.trans (calm_same _ _ rfl)

theorem calm_next (plant : Plant) (id : SequenceId) : Calm plant (plant.nextStep id) := by
  rw [nextStep]
  split
  · exact .refl plant
  · next s _ =>
      have idle : Calm plant (plant.setSequence id { s with inFlight := false }) :=
        calm_same _ _ rfl
      dsimp only
      split
      · exact idle
      · split
        · exact idle.trans (calm_finish _ id _)
        · next step rest _ =>
            split
            · exact calm_same _ _ rfl
            · have taken : Calm plant
                  (plant.setSequence id { s with queue := rest, task := some (.busy step) }) :=
                calm_same _ _ rfl
              exact taken.trans (calm_push _ [.begin id] (by simp [Job.kept?]))

theorem calm_turn (plant : Plant) (runner : Runner) : Calm plant (plant.turn runner) := by
  cases runner with
  | sequence id =>
      rw [turn, turnSequence]
      split
      · exact .refl plant
      · next s _ =>
          split
          · next step _ =>
              have taken : Calm plant (plant.setSequence id { s with task := some (.busy step) }) :=
                calm_same _ _ rfl
              exact taken.trans (calm_push _ [.begin id] (by simp [Job.kept?]))
          · next step _ =>
              split
              · exact .refl plant
              · next sequence _ _ _ =>
                  split
                  · have taken : Calm plant
                        ((plant.dispatch fun dispatcher =>
                          dispatcher.clearTimer (.task (.sequence id))).setSequence id
                            { sequence with task := some (.busy step) }) :=
                      calm_same _ _ rfl
                    exact taken.trans (calm_push _ [.disarm id] (by simp [Job.kept?]))
                  · exact calm_same _ _ rfl
          · exact .refl plant
  | device id => exact calm_turn_device plant id
  | stopped => exact .refl plant

theorem calm_attach_all (plant : Plant) (id : DeviceId) (verbose : Bool) (names : List String) :
    Calm plant (plant.attachAll id verbose names) :=
  calm_foldl _ (fun plant name =>
    (calm_same plant (plant.addChannel { Channel.create name with verbose := verbose }).2 rfl).trans
      (calm_attach _ id _)) names plant

theorem calm_make_devices (plant : Plant) (registry : RegistryId) (verbose : Bool)
    (parts : List Config.Device) : Calm plant (plant.makeDevices registry verbose parts).2 :=
  devices_keep (Calm plant) registry verbose (fun _ _ calm => calm.trans (calm_same _ _ rfl))
    (fun next d names calm => calm.trans (calm_attach_all next d verbose names))
    (fun next d calm => calm.trans (calm_register_attached next d registry)) parts plant (.refl plant)

theorem calm_make_channel (plant : Plant) (registry : RegistryId) (verbose : Bool)
    (part : Config.Channel) : Calm plant (plant.makeChannel registry verbose part) := by
  have added : Calm plant (plant.addChannel (.create part.path)).2 := calm_same _ _ rfl
  rw [makeChannel]
  generalize plant.addChannel (.create part.path) = made at added ⊢
  obtain ⟨id, next⟩ := made
  dsimp only at added ⊢
  cases part.initial with
  | none =>
      refine added.trans ?_
      split <;> exact calm_same _ _ rfl
  | some literal =>
      refine added.trans ((calm_write next id (.infer literal)).trans ?_)
      dsimp only
      split <;> exact calm_same _ _ rfl

theorem calm_start_devices (plant : Plant) (devices : List DeviceId) (next : Plant)
    (started : plant.startDevices devices = .ok next) : Calm plant next :=
  devices_start (Calm plant)
    (fun between d next calm activated => calm.trans (calm_activate_device between d next activated))
    devices plant started (.refl plant)

theorem ChannelCall.calm {plant next : Plant} {command : ChannelCommand}
    (call : plant.ChannelCall command next) : Calm plant next := by
  cases call with
  | idle => exact .refl plant
  | make | enrol | register | unregister | rename => exact calm_same _ _ rfl
  | write => exact calm_write plant _ _
  | setActive => exact calm_set_active plant _ _
  | clear => exact calm_clear_subscribers plant _
  | notify => exact (calm_same plant plant.readClock.2 rfl).trans (calm_notify _ _ _)

theorem calm_channel_or_new (plant : Plant) (name : String) :
    Calm plant (plant.channelOrNew name).2 := by
  rw [channelOrNew]
  split <;> exact calm_same _ _ rfl

theorem calm_enter_run (plant : Plant) : Calm plant plant.enterRun := by
  rw [enterRun]
  split
  · exact .refl plant
  · exact (calm_push _ [.closeRun] (by simp [Job.kept?])).behind rfl

theorem DeviceCall.calm {plant next : Plant} {command : DeviceCommand}
    (call : plant.DeviceCall command next) : Calm plant next := by
  cases call with
  | idle => exact .refl plant
  | make => exact calm_same _ _ rfl
  | add =>
      exact ((calm_channel_or_new plant _).trans (calm_attach _ _ _)).trans (calm_same _ _ rfl)
  | refuse => exact (calm_channel_or_new plant _).trans (calm_attach _ _ _)
  | remove => exact calm_detach plant _ _
  | register => exact calm_register_attached plant _ _
  | poll name d device _ found polled => exact (calm_enter_run plant).trans (calm_poll _ d next polled)
  | activate name d device _ found activated => exact calm_activate_device plant d next activated
  | deactivate => exact calm_deactivate_device plant _
  | dispose => exact calm_dispose_device plant _

theorem calm_keep_step (plant : Plant) (name : String) (step : Step)
    (known : ∀ t, step.trigger = some t → t ∈ plant.desk.triggers.ids) :
    Calm plant (plant.keepStep name step) := by
  refine ⟨rfl, rfl, rfl, Nat.le_refl _, rfl, fun _ _ kept => kept, fun _ member => member, ?_⟩
  rintro t (named | ⟨entry, member, waits⟩)
  · exact .inl named
  · rcases List.mem_cons.mp member with rfl | old
    · exact .inl (known t waits)
    · exact .inr ⟨entry, List.filter_sublist.subset old, waits⟩

theorem SequenceCall.calm {plant next : Plant} {command : SequenceCommand}
    (call : plant.SequenceCall command next) :
    Calm plant next ∨ ∃ name config step between,
      plant.makeStep plant.desk.table config = .ok (step, between) ∧ next = between.keepStep name step := by
  cases call with
  | stepOf name config step between made => exact .inr ⟨name, config, step, between, made, rfl⟩
  | idle => exact .inl (.refl plant)
  | make => exact .inl (calm_same _ _ rfl)
  | step name action trigger description step known => exact .inl (calm_keep_step plant name step known)
  | push => exact .inl (calm_push_steps plant _ _ _)
  | activate name id s _ found activated => exact .inl (calm_activate plant id next activated)
  | deactivate => exact .inl (calm_deactivate plant _)
  | setPaused => exact .inl (calm_set_paused plant _ _)
  | dispose => exact .inl (calm_dispose plant _)

theorem calm_script_of (plant : Plant) (id : ObserverId) (observer : Observer) :
    Calm plant (plant.scriptOf id observer) := by
  rw [scriptOf]
  split
  · exact .refl plant
  · exact (calm_push _ _ (by simp [Job.kept?])).behind rfl

end Plant

end Interlock
