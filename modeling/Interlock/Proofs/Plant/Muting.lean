import Interlock.Proofs.Plant.Layers

/-!
What has no part in the messages of channels. The graph, the devices at work and the tasks of sequences
between two steps leave the channels as they are and list no call of a handler of messages.
-/

set_option autoImplicit false

namespace Interlock

open Interlock.Graph
open Interlock.Schedule (RegistryId SequenceId Step)

-- The call of a handler that a job is.
def Job.call? : Job → Option (Listener × Event)
  | .tell listener event => some (listener, event)
  | _ => none

namespace Plant

def Hushes (plant next : Plant) : Prop := Adds (fun job => job.call? = none) plant next

structure Mute (plant next : Plant) : Prop where
  channels : next.channels = plant.channels
  registries : next.registries = plant.registries
  tickets : plant.tickets ≤ next.tickets
  agenda : Hushes plant next

def airwaves (plant : Plant) : List Channel × List Directory × Ticket × List Job :=
  (plant.channels, plant.registries, plant.tickets, plant.agenda)

section

variable {plant middle next : Plant}

theorem mute_same (same : next.airwaves = plant.airwaves) : Mute plant next := by
  simp only [airwaves, Prod.mk.injEq] at same
  obtain ⟨channels, registries, tickets, agenda⟩ := same
  exact ⟨channels, registries, Nat.le_of_eq tickets.symm, [], agenda, by simp⟩

theorem Mute.refl (plant : Plant) : Mute plant plant := mute_same rfl

theorem Mute.trans (first : Mute plant middle) (second : Mute middle next) : Mute plant next :=
  ⟨second.channels.trans first.channels, second.registries.trans first.registries,
    first.tickets.trans second.tickets, adds_trans _ _ _ _ first.agenda second.agenda⟩

theorem Mute.then_same (first : Mute plant middle) (same : next.airwaves = middle.airwaves) :
    Mute plant next := first.trans (mute_same same)

theorem Mute.behind (second : Mute middle next) (same : middle.airwaves = plant.airwaves) :
    Mute plant next := (mute_same same).trans second

theorem mute_foldl {α : Type} (step : Plant → α → Plant)
    (each : ∀ plant item, Mute plant (step plant item)) (items : List α) (plant : Plant) :
    Mute plant (items.foldl step plant) := by
  induction items generalizing plant with
  | nil => exact .refl plant
  | cons item rest ih => exact (each plant item).trans (ih _)

theorem mute_push (plant : Plant) (jobs : List Job) (silent : ∀ job ∈ jobs, job.call? = none) :
    Mute plant (plant.push jobs) := ⟨rfl, rfl, Nat.le_refl _, jobs, rfl, silent⟩

theorem mute_issue_ticket (plant : Plant) : Mute plant plant.issueTicket.2 :=
  ⟨rfl, rfl, Nat.le_succ _, [], rfl, by simp⟩

end

theorem mute_publish (plant : Plant) (subscribers : Subscribers) (notification : Notification)
    (after : List Job) (silent : ∀ job ∈ after, job.call? = none) :
    Mute plant (plant.publish subscribers notification after) := by
  refine mute_push plant _ fun job member => ?_
  rcases List.mem_append.mp member with delivery | behind
  · obtain ⟨subscriber, _, rfl⟩ := List.mem_map.mp delivery
    rfl
  · exact silent job behind

theorem mute_assign (plant : Plant) (id : VariableId) (var : Variable) (value : Value) :
    Mute plant (plant.assign id var value).2 := by
  have read : Mute plant plant.readClock.2 := mute_same rfl
  unfold assign
  dsimp only
  split
  · exact read
  · exact read.trans ((mute_publish _ _ _ _ (by simp [Job.call?])).behind rfl)

theorem mute_subscribe_variable (plant : Plant) (id : VariableId) (listener : Listener) :
    Mute plant (plant.subscribeVariable id listener).2 := by
  unfold subscribeVariable
  split
  · exact .refl plant
  · split
    · exact .refl plant
    · exact (mute_issue_ticket plant).then_same rfl

theorem mute_unsubscribe_variable (plant : Plant) (id : VariableId) (ticket : Ticket) :
    Mute plant (plant.unsubscribeVariable id ticket) := by
  unfold unsubscribeVariable
  split
  · exact .refl plant
  · exact mute_same rfl

theorem mute_refresh (plant : Plant) (id : ComparisonId) (comparison : Comparison)
    (stamp : Calendar.Instant) : Mute plant (plant.refresh id comparison stamp).2 :=
  (mute_publish _ _ _ _ (by simp [Job.call?])).behind rfl

theorem mute_link_variables (plant : Plant) (id : ComparisonId) (vars : List VariableId) :
    Mute plant (plant.linkVariables id vars).2 :=
  link_variables_keep (Mute plant) id (fun next v mute => mute.trans (mute_subscribe_variable next v _))
    vars plant (.refl plant)

theorem mute_activate_comparison (plant : Plant) (id : ComparisonId) :
    Mute plant (plant.activateComparison id) := by
  unfold activateComparison
  split
  · exact .refl plant
  · split
    · exact .refl plant
    · exact (mute_link_variables plant id _).then_same rfl

theorem mute_deactivate_comparison (plant : Plant) (id : ComparisonId) :
    Mute plant (plant.deactivateComparison id) := by
  unfold deactivateComparison
  split
  · exact .refl plant
  · next comparison found =>
      exact (mute_foldl (fun plant (link : VariableId × Ticket) => plant.unsubscribeVariable link.1 link.2)
        (fun plant link => mute_unsubscribe_variable plant link.1 link.2) comparison.links plant).then_same rfl

theorem mute_subscribe_comparison (plant : Plant) (id : ComparisonId) (listener : Listener) :
    Mute plant (plant.subscribeComparison id listener).2 := by
  unfold subscribeComparison
  split
  · exact .refl plant
  · split
    · exact .refl plant
    · exact (mute_issue_ticket plant).then_same rfl

theorem mute_unsubscribe_comparison (plant : Plant) (id : ComparisonId) (ticket : Ticket) :
    Mute plant (plant.unsubscribeComparison id ticket) := by
  unfold unsubscribeComparison
  split
  · exact .refl plant
  · exact mute_same rfl

theorem mute_make_comparison (plant : Plant) (table : TableId) (text : String) (id : ComparisonId)
    (next : Plant) (made : plant.makeComparison table text = .ok (id, next)) : Mute plant next := by
  obtain ⟨_, _, _, rfl⟩ := comparison_made made
  exact mute_same rfl

theorem mute_make_comparisons (plant : Plant) (table : TableId) (atoms : List String)
    (ids : List ComparisonId) (next : Plant)
    (made : plant.makeComparisons table atoms = .ok (ids, next)) : Mute plant next :=
  comparisons_keep (Mute plant)
    (fun between table text c next mute built => mute.trans (mute_make_comparison between table text c next built))
    table atoms ids made (.refl plant)

theorem mute_make_trigger (plant : Plant) (table : TableId) (expression : String) (times : Int)
    (id : TriggerId) (next : Plant)
    (made : plant.makeTrigger table expression times = .ok (id, next)) : Mute plant next := by
  obtain ⟨_, children, between, _, found, _, rfl⟩ := trigger_made made
  exact (mute_make_comparisons plant table _ children between found).then_same rfl

theorem mute_wake_waiting (plant : Plant) (id : TriggerId) : Mute plant (plant.wakeWaiting id) := by
  refine mute_foldl _ (fun plant item => ?_) _ plant
  obtain ⟨sequence, place⟩ := item
  dsimp only
  split
  · split
    · exact mute_same rfl
    · exact .refl plant
  · exact .refl plant

theorem mute_evaluate (plant : Plant) (id : TriggerId) (trigger : Trigger)
    (stamp : Calendar.Instant) : Mute plant (plant.evaluate id trigger stamp).2 := by
  unfold evaluate
  split
  · exact .refl plant
  · next found evaluated =>
      have set : Mute plant (plant.setTrigger id found.trigger) := mute_same rfl
      have told := set.trans (mute_wake_waiting _ id)
      have behind : ∀ job ∈ (if found.exhausted then [Job.exhaust id] else []) ++
          [Job.leave (.trigger id)], job.call? = none := by
        cases found.exhausted <;> simp [Job.call?]
      dsimp only
      split
      · exact told.trans ((mute_publish _ _ _ _ behind).behind rfl)
      · exact told.trans (mute_publish _ _ _ _ behind)

theorem mute_evaluate_now (plant : Plant) (id : TriggerId) (trigger : Trigger) :
    Mute plant (plant.evaluateNow id trigger).2 := (mute_evaluate _ id trigger _).behind rfl

theorem mute_deactivate_trigger (plant : Plant) (id : TriggerId) :
    Mute plant (plant.deactivateTrigger id) := by
  unfold deactivateTrigger
  split
  · exact .refl plant
  · next trigger found =>
      split
      · have set : Mute plant (plant.setTrigger id
            { trigger with active := false, links := [], children := [] }) := mute_same rfl
        exact ((set.trans (mute_foldl
          (fun plant (link : ComparisonId × Ticket) => plant.unsubscribeComparison link.1 link.2)
          (fun plant link => mute_unsubscribe_comparison plant link.1 link.2) trigger.links _)).trans
            (mute_foldl deactivateComparison mute_deactivate_comparison trigger.children _)).then_same rfl
      · exact .refl plant

theorem mute_link_children (plant : Plant) (id : TriggerId) (children : List ComparisonId) :
    Mute plant (plant.linkChildren id children).2 :=
  link_children_keep (Mute plant) id (fun next c mute => mute.trans (mute_activate_comparison next c))
    (fun next c mute => mute.trans (mute_subscribe_comparison next c _)) children plant (.refl plant)

theorem mute_children_of (plant : Plant) (trigger : Trigger) (children : List ComparisonId)
    (next : Plant) (made : plant.childrenOf trigger = .ok (children, next)) : Mute plant next := by
  obtain ⟨_, built⟩ | ⟨_, _, rfl⟩ := children_made made
  · exact mute_make_comparisons plant _ _ children next built
  · exact .refl _

theorem mute_activate_trigger (plant : Plant) (id : TriggerId) (trigger : Trigger) (next : Plant)
    (activated : plant.activateTrigger id trigger = .ok next) : Mute plant next := by
  cases activation activated with
  | spent => exact mute_same rfl
  | active => exact .refl plant
  | begun _ _ children between _ made ran =>
      have engaged : Mute plant (between.engage id trigger children) :=
        ((mute_children_of plant trigger children between made).trans
          (mute_link_children between id children)).then_same rfl
      have evaluated := engaged.trans (mute_evaluate_now _ id
        (trigger.started children (between.childLinks id children)))
      obtain rfl | ⟨_, details, _, rfl⟩ := ran
      · exact evaluated
      · exact evaluated.then_same rfl

theorem mute_rearm_trigger (plant : Plant) (id : TriggerId) : Mute plant (plant.rearmTrigger id) := by
  unfold rearmTrigger
  split
  · exact .refl plant
  · next trigger found =>
      split
      · exact .refl plant
      · have set : Mute plant (plant.setTrigger id trigger.rearm) := mute_same rfl
        exact set.trans (mute_wake_waiting _ id)

theorem mute_subscribe_trigger (plant : Plant) (id : TriggerId) (listener : Listener) :
    Mute plant (plant.subscribeTrigger id listener).2 := by
  unfold subscribeTrigger
  split
  · exact .refl plant
  · split
    · exact .refl plant
    · exact (mute_issue_ticket plant).then_same rfl

theorem mute_unsubscribe_trigger (plant : Plant) (id : TriggerId) (ticket : Ticket) :
    Mute plant (plant.unsubscribeTrigger id ticket) := by
  unfold unsubscribeTrigger
  split
  · exact .refl plant
  · exact mute_same rfl

theorem mute_hear (plant : Plant) (id : TriggerId) (stamp : Calendar.Instant) :
    Mute plant (plant.hear id stamp) := by
  obtain same | ⟨trigger, _, _, _, same | ⟨details, same⟩⟩ := plant.hear_cases id stamp <;> rw [same]
  · exact .refl plant
  · exact mute_evaluate plant id trigger stamp
  · exact (mute_evaluate plant id trigger stamp).then_same rfl

theorem mute_hear_variable (plant : Plant) (id : ComparisonId) (stamp : Calendar.Instant) :
    Mute plant (plant.hearVariable id stamp) := by
  unfold hearVariable
  split
  · exact .refl plant
  · split
    · exact mute_refresh plant id _ stamp
    · exact .refl plant

theorem mute_exhaust (plant : Plant) (id : TriggerId) : Mute plant (plant.exhaust id) := by
  unfold exhaust
  split
  · exact .refl plant
  · exact (mute_deactivate_trigger _ id).behind rfl

theorem mute_take_over (plant : Plant) (id : VariableId) (source : String) (event : Event) :
    Mute plant (plant.takeOver id source event) := by
  obtain same | ⟨var, value, _, _, _, same | ⟨details, same⟩⟩ := plant.take_over_cases id source event <;> rw [same]
  · exact .refl plant
  · exact mute_assign plant id var value
  · exact (mute_assign plant id var value).then_same rfl

theorem mute_poll (plant : Plant) (id : DeviceId) (next : Plant) (polled : plant.poll id = .ok next) :
    Mute plant next := by
  unfold poll at polled
  split at polled
  · cases polled
    exact .refl plant
  · split at polled
    · cases polled
      exact (mute_push _ _ (by simp [Job.call?])).behind rfl
    · contradiction
    · cases polled
      exact (mute_push _ _ (by simp [Job.call?])).behind rfl

theorem mute_activate_device (plant : Plant) (id : DeviceId) (next : Plant)
    (activated : plant.activateDevice id = .ok next) : Mute plant next := by
  unfold activateDevice at activated
  split at activated
  · cases activated
    exact .refl plant
  · split at activated
    · contradiction
    · split at activated
      · cases activated
        exact .refl plant
      · cases activated
        exact mute_same rfl

theorem mute_deactivate_device (plant : Plant) (id : DeviceId) :
    Mute plant (plant.deactivateDevice id) := by
  unfold deactivateDevice
  split
  · exact .refl plant
  · split
    · exact mute_same rfl
    · exact .refl plant

theorem mute_turn_device (plant : Plant) (id : DeviceId) : Mute plant (plant.turnDevice id) := by
  unfold turnDevice
  split
  · exact .refl plant
  · have pushed : Mute plant (plant.push [.settleDown id]) := mute_push plant _ (by simp [Job.call?])
    dsimp only
    split
    · next next polled => exact pushed.trans (mute_poll _ id next polled)
    · exact pushed.then_same rfl

theorem mute_settle_down (plant : Plant) (id : DeviceId) : Mute plant (plant.settleDown id) := by
  unfold settleDown
  split
  · exact .refl plant
  · split
    · exact mute_same rfl
    · exact .refl plant

theorem mute_retire (plant : Plant) : Mute plant plant.retire :=
  retire_keeps (Mute plant) (fun next id mute _ => mute.trans (mute_deactivate_trigger next id))
    (fun next id mute => mute.trans (mute_deactivate_comparison next id))
    (fun next id mute => mute.trans (mute_deactivate_device next id)) plant (.refl plant)

theorem mute_wake_task (plant : Plant) (id : SequenceId) (sequence : Schedule.Sequence) :
    Mute plant (plant.wakeTask id sequence) := by
  unfold wakeTask
  split
  · exact mute_same rfl
  · exact .refl plant

theorem mute_leave_step (plant : Plant) (id : SequenceId) : Mute plant (plant.leaveStep id) := by
  unfold leaveStep
  split
  · exact .refl plant
  · exact (mute_push _ _ (by simp [Job.call?])).behind rfl

theorem mute_push_steps (plant : Plant) (id : SequenceId) (step : Step) (count : Nat) :
    Mute plant (plant.pushSteps id step count) := by
  unfold pushSteps
  split
  · exact .refl plant
  · exact mute_same rfl

theorem mute_pause (plant : Plant) (id : SequenceId) : Mute plant (plant.pause id) := by
  unfold pause
  split
  · exact .refl plant
  · exact mute_same rfl

theorem mute_wait (plant : Plant) (id : SequenceId) : Mute plant (plant.waitForTrigger id) := by
  unfold waitForTrigger
  split
  · exact mute_leave_step plant id
  · dsimp only
    split
    · exact (mute_push _ _ (by simp [Job.call?])).behind rfl
    · exact mute_same rfl

theorem mute_disarm (plant : Plant) (id : SequenceId) : Mute plant (plant.disarm id) := by
  have taken := plant.disarm_case id
  generalize plant.disarm id = next at taken ⊢
  cases taken with
  | leave => exact mute_leave_step plant id
  | unmet s t => exact (mute_deactivate_trigger plant t).trans (mute_leave_step _ id)
  | satisfied s t => exact (mute_deactivate_trigger plant t).trans ((mute_leave_step _ id).behind rfl)

theorem mute_turn (plant : Plant) (runner : Runner) : Mute plant (plant.turn runner) := by
  cases runner with
  | sequence id =>
      rw [turn, turnSequence]
      split
      · exact .refl plant
      · split
        · exact (mute_push _ _ (by simp [Job.call?])).behind rfl
        · split
          · exact .refl plant
          · split
            · exact (mute_push _ _ (by simp [Job.call?])).behind rfl
            · exact mute_same rfl
        · exact .refl plant
  | device id => exact mute_turn_device plant id
  | stopped => exact .refl plant

theorem mute_script_of (plant : Plant) (id : ObserverId) (observer : Observer) :
    Mute plant (plant.scriptOf id observer) := by
  unfold scriptOf
  split
  · exact .refl plant
  · exact (mute_push _ _ (by simp [Job.call?])).behind rfl

theorem mute_deliver (plant : Plant) (listener : Listener) (notification : Notification) :
    Mute plant (plant.deliver listener notification) := by
  cases listener with
  | observer id =>
      rw [deliver]
      split
      · exact .refl plant
      · exact (mute_script_of _ id _).behind rfl
  | comparison id => exact mute_hear_variable plant id _
  | trigger id => exact mute_hear plant id _
  | follower id source => exact .refl plant

theorem mute_tell (plant : Plant) (listener : Listener) (event : Event) :
    Mute plant (plant.tell listener event) := by
  cases listener with
  | observer id =>
      rw [tell]
      split
      · exact .refl plant
      · exact (mute_script_of _ id _).behind rfl
  | follower id source => exact mute_take_over plant id source event
  | comparison | trigger => exact .refl plant

theorem mute_make_steps (plant : Plant) (table : TableId) (parts : List Config.Step)
    (steps : List Step) (next : Plant) (made : plant.makeSteps table parts = .ok (steps, next)) :
    Mute plant next :=
  steps_keep (Mute plant)
    (fun between table expression t next mute built =>
      mute.trans (mute_make_trigger between table expression 1 t next built))
    table parts steps made (.refl plant)

theorem mute_make_step (plant : Plant) (table : TableId) (part : Config.Step) (step : Step)
    (next : Plant) (made : plant.makeStep table part = .ok (step, next)) : Mute plant next := by
  obtain ⟨rfl, _⟩ | ⟨expression, t, built, _⟩ := step_made made
  · exact .refl _
  · exact mute_make_trigger plant table expression 1 t next built

end Plant

end Interlock
