import Interlock.Proofs.Plant.Detachment
import Interlock.Proofs.Plant.Wiring

/-!
What leaves a trigger alone. Only calls of the trigger itself move its value, its count or its
activity, or put the end of its transitions on the agenda.
-/

set_option autoImplicit false

namespace Interlock.Plant

open Interlock.Graph
open Interlock.Schedule (RegistryId SequenceId Step)
open Interlock.Session

structure Made (plant : Plant) (trigger : Trigger) : Prop where
  inactive : trigger.active = false
  latest : trigger.latest = trigger.condition.isNone
  full : trigger.remaining = trigger.limit
  compiled : trigger.Compiled
  wired : plant.Wired trigger

structure Spares (t : TriggerId) (plant next : Plant) : Prop where
  kept : ∀ trigger, plant.triggers[t]? = some trigger →
    ∃ after, next.triggers[t]? = some after ∧ after.core = trigger.core
  made : plant.triggers[t]? = none → ∀ after, next.triggers[t]? = some after → Made next after
  agenda : Adds (fun job => job.exhausted? ≠ some t) plant next
  comparisons : Bound plant next

theorem made_bound (plant next : Plant) (trigger after : Trigger) (same : after.core = trigger.core)
    (bound : Bound plant next) (made : Made plant trigger) : Made next after := by
  have alike := core_alike same
  refine ⟨?_, ?_, ?_, ?_, ?_⟩
  · rw [alike.active, made.inactive]
  · rw [alike.latest, alike.condition, made.latest]
  · rw [alike.remaining, alike.limit, made.full]
  · exact compiled_same trigger after alike.expression alike.condition made.compiled
  · refine wired_same next trigger after alike.children ?_ (wired_bound plant next bound trigger made.wired)
    unfold Trigger.atoms
    rw [alike.condition]

theorem spares_same {t : TriggerId} {plant next : Plant} (same : next.triggers[t]? = plant.triggers[t]?)
    (agenda : Adds (fun job => job.exhausted? ≠ some t) plant next) (bound : Bound plant next) :
    Spares t plant next := by
  refine ⟨fun trigger there => ⟨trigger, by rw [same, there], rfl⟩, ?_, agenda, bound⟩
  intro missing after there
  rw [same, missing] at there
  contradiction

theorem Spares.refl (t : TriggerId) (plant : Plant) : Spares t plant plant :=
  spares_same rfl (adds_refl _ plant) (bound_refl plant plant rfl)

theorem Spares.trans {t : TriggerId} {plant middle next : Plant} (first : Spares t plant middle)
    (second : Spares t middle next) : Spares t plant next := by
  refine ⟨?_, ?_, adds_trans _ _ _ _ first.agenda second.agenda,
    bound_trans _ _ _ first.comparisons second.comparisons⟩
  · intro trigger there
    obtain ⟨between, found, same⟩ := first.kept trigger there
    obtain ⟨after, still, again⟩ := second.kept between found
    exact ⟨after, still, again.trans same⟩
  · intro missing after there
    cases found : middle.triggers[t]? with
    | none => exact second.made found after there
    | some between =>
        obtain ⟨later, still, same⟩ := second.kept between found
        cases there.symm.trans still
        exact made_bound middle next between after same second.comparisons
          (first.made missing between found)

theorem Detached.spares {plant next : Plant} (t : TriggerId) (detached : Detached plant next) :
    Spares t plant next :=
  spares_same (by rw [detached.triggers])
    (adds_weaken _ _ (fun job apart => by rw [apart.2]; simp) _ _ detached.agenda) detached.comparisons

theorem Inert.spares {plant next : Plant} (t : TriggerId) (inert : Inert plant next) :
    Spares t plant next := inert.detached.spares t

section

variable (t : TriggerId) (plant : Plant)

theorem spares_set_other (id : TriggerId) (other : id ≠ t) (trigger : Trigger) :
    Spares t plant (plant.setTrigger id trigger) :=
  spares_same (by simp [setTrigger, other]) ⟨[], rfl, by simp⟩ (bound_refl _ _ rfl)

theorem spares_set_alike (id : TriggerId) (trigger after : Trigger)
    (there : plant.triggers[id]? = some trigger) (same : after.core = trigger.core) :
    Spares t plant (plant.setTrigger id after) := by
  by_cases own : id = t
  · subst id
    have inside := (List.getElem?_eq_some_iff.mp there).1
    have set : (plant.setTrigger t after).triggers[t]? = some after := by simp [setTrigger, inside]
    refine ⟨?_, ?_, ⟨[], rfl, by simp⟩, bound_refl _ _ rfl⟩
    · intro other found
      cases there.symm.trans found
      exact ⟨after, set, same⟩
    · intro missing
      rw [there] at missing
      contradiction
  · exact spares_set_other t plant id own after

theorem spares_add_trigger (trigger : Trigger) (made : Made plant trigger) :
    Spares t plant (plant.addTrigger trigger).2 := by
  refine ⟨?_, ?_, ⟨[], rfl, by simp⟩, bound_refl _ _ rfl⟩
  · intro other there
    have inside := (List.getElem?_eq_some_iff.mp there).1
    exact ⟨other, by simpa [addTrigger, List.getElem?_append_left inside] using there, rfl⟩
  · intro missing after there
    have outside := List.getElem?_eq_none_iff.mp missing
    rw [addTrigger, List.getElem?_append_right outside] at there
    have member := List.mem_of_getElem? there
    rw [List.mem_singleton.mp member]
    exact made_bound plant _ trigger trigger rfl (bound_refl _ _ rfl) made

theorem spares_evaluate (id : TriggerId) (other : id ≠ t) (trigger : Trigger)
    (stamp : Calendar.Instant) : Spares t plant (plant.evaluate id trigger stamp).2 := by
  unfold evaluate
  split
  · exact .refl t plant
  · rename_i found evaluated
    have told : Spares t plant ((plant.setTrigger id found.trigger).wakeWaiting id) :=
      (spares_set_other t plant id other found.trigger).trans ((inert_wake_waiting _ id).spares t)
    have published : ∀ (between : Plant) (notification : Notification), Spares t between
        (between.publish trigger.subscribers notification
          ((if found.exhausted then [.exhaust id] else []) ++ [.leave (.trigger id)])) := by
      intro between notification
      refine spares_same rfl ⟨_, rfl, ?_⟩ (bound_refl _ _ rfl)
      intro job member
      rcases List.mem_append.mp member with delivery | behind
      · rw [(deliveries_plain trigger.subscribers notification job delivery).2]
        simp
      · rcases List.mem_append.mp behind with last | left
        · split at last
          · rw [List.mem_singleton.mp last]
            simpa [Job.exhausted?] using other
          · contradiction
        · rw [List.mem_singleton.mp left]
          simp [Job.exhausted?]
    dsimp only
    split
    · exact told.trans (((inert_log _ _ _ _ _).spares t).trans (published _ _))
    · exact told.trans (published _ _)

theorem spares_evaluate_now (id : TriggerId) (other : id ≠ t) (trigger : Trigger) :
    Spares t plant (plant.evaluateNow id trigger).2 :=
  ((inert_read_clock plant).spares t).trans
    (spares_evaluate t plant.readClock.2 id other trigger plant.readClock.1)

theorem spares_deactivate_trigger (id : TriggerId) (other : id ≠ t) :
    Spares t plant (plant.deactivateTrigger id) := by
  unfold deactivateTrigger
  split
  · exact .refl t plant
  · rename_i trigger found
    split
    · have unlinked := fun plant : Plant => inert_foldl
        (fun plant (link : ComparisonId × Ticket) => plant.unsubscribeComparison link.1 link.2)
        (fun plant link => inert_unsubscribe_comparison plant link.1 link.2) trigger.links plant
      have stopped := fun plant : Plant => inert_foldl deactivateComparison
        inert_deactivate_comparison trigger.children plant
      exact (spares_set_other t plant id other _).trans
        (((unlinked _).trans ((stopped _).trans (inert_log _ _ _ _ _))).spares t)
    · exact .refl t plant

theorem spares_activate_trigger (id : TriggerId) (other : id ≠ t) (trigger : Trigger) (next : Plant)
    (activated : plant.activateTrigger id trigger = .ok next) : Spares t plant next := by
  cases activation activated with
  | spent => exact (inert_log _ _ _ _ _).spares t
  | active => exact .refl t plant
  | begun _ _ children between _ made ran =>
      have linked := (inert_children_of plant trigger children between made).trans
        (inert_link_children between id children)
      have engaged : Spares t plant (between.engage id trigger children) :=
        (linked.spares t).trans ((spares_set_other t _ id other _).trans ((inert_log _ _ _ _ _).spares t))
      have evaluated := engaged.trans (spares_evaluate_now t _ id other
        (trigger.started children (between.childLinks id children)))
      obtain rfl | ⟨_, details, _, rfl⟩ := ran
      · exact evaluated
      · exact evaluated.trans ((inert_log _ _ _ _ _).spares t)

theorem spares_rearm_trigger (id : TriggerId) (other : id ≠ t) :
    Spares t plant (plant.rearmTrigger id) := by
  unfold rearmTrigger
  split
  · exact .refl t plant
  · split
    · exact .refl t plant
    · exact (spares_set_other t plant id other _).trans ((inert_wake_waiting _ id).spares t)

theorem spares_hear (id : TriggerId) (other : id ≠ t) (stamp : Calendar.Instant) :
    Spares t plant (plant.hear id stamp) := by
  obtain same | ⟨trigger, _, _, _, same | ⟨details, same⟩⟩ := hear_cases plant id stamp
  · rw [same]
    exact .refl t plant
  · rw [same]
    exact spares_evaluate t plant id other trigger stamp
  · rw [same]
    exact (spares_evaluate t plant id other trigger stamp).trans ((inert_log _ _ _ _ _).spares t)

theorem spares_exhaust (id : TriggerId) (other : id ≠ t) : Spares t plant (plant.exhaust id) := by
  unfold exhaust
  split
  · exact .refl t plant
  · exact ((inert_log _ _ _ _ _).spares t).trans (spares_deactivate_trigger t _ id other)

theorem spares_make_trigger (table : TableId) (expression : String) (times : Int) (id : TriggerId)
    (next : Plant) (made : plant.makeTrigger table expression times = .ok (id, next)) :
    Spares t plant next := by
  obtain ⟨condition, children, after, compiled, found, _, rfl⟩ := trigger_made made
  have rooted := compiled_created expression condition compiled table children times
  have inert := inert_make_comparisons plant table _ children after found
  refine (inert.spares t).trans (spares_add_trigger t after _ ⟨rfl, rfl, rfl, rooted, ?_⟩)
  refine (made_comparisons_expressions plant table _ children after found ?_).trans ?_
  · intro atom member
    cases condition with
    | none => contradiction
    | some condition => exact compiled_clear _ rooted condition rfl atom member
  · cases condition <;> rfl

theorem spares_subscribe_trigger (id : TriggerId) (listener : Listener) :
    Spares t plant (plant.subscribeTrigger id listener).2 := by
  unfold subscribeTrigger
  split
  · exact .refl t plant
  · rename_i trigger there
    split
    · exact .refl t plant
    · exact ((inert_issue_ticket plant).spares t).trans
        (spares_set_alike t _ id trigger _ there rfl)

theorem spares_unsubscribe_trigger (id : TriggerId) (ticket : Ticket) :
    Spares t plant (plant.unsubscribeTrigger id ticket) := by
  unfold unsubscribeTrigger
  split
  · exact .refl t plant
  · rename_i trigger there
    exact spares_set_alike t _ id trigger _ there rfl

theorem spares_make_step (table : TableId) (part : Config.Step) (step : Step) (next : Plant)
    (made : plant.makeStep table part = .ok (step, next)) : Spares t plant next := by
  obtain ⟨rfl, _⟩ | ⟨expression, id, built, _⟩ := step_made made
  · exact .refl t _
  · exact spares_make_trigger t plant table expression 1 id next built

end

theorem spares_make_steps (t : TriggerId) (plant : Plant) (table : TableId)
    (parts : List Config.Step) (steps : List Step) (next : Plant)
    (made : plant.makeSteps table parts = .ok (steps, next)) : Spares t plant next :=
  steps_keep (Spares t plant)
    (fun between table expression id next spares built =>
      spares.trans (spares_make_trigger t between table expression 1 id next built))
    table parts steps made (.refl t plant)

theorem spares_make_schedule (t : TriggerId) (plant : Plant) (table : TableId)
    (registry : RegistryId) (procedure : Config.Procedure) (pollInterval : Nat)
    (scheduled : Scheduled) (next : Plant)
    (made : plant.makeSchedule table registry procedure pollInterval = .ok (scheduled, next)) :
    Spares t plant next := by
  obtain ⟨part, steps, between, details, _, stepped, _, rfl⟩ := schedule_made made
  have filled : Detached between (between.addFilled part.name registry pollInterval steps) :=
    detached_same _ _ rfl rfl rfl
  exact (spares_make_steps t plant table part.steps steps between stepped).trans
    ((filled.trans (inert_log _ _ _ _ _).detached).spares t)

theorem spares_subscribe (t : TriggerId) (plant : Plant) (publisher : Publisher)
    (listener : Listener) : Spares t plant (plant.subscribe publisher listener).2 := by
  cases publisher with
  | node node =>
      cases node with
      | var id => exact (inert_subscribe_variable plant id listener).spares t
      | comparison id => exact (inert_subscribe_comparison plant id listener).spares t
      | trigger id => exact spares_subscribe_trigger t plant id listener
  | channel id => exact (inert_subscribe_channel plant id listener).spares t

theorem Joining.spares {plant next : Plant} {id : String} {handler : Option String} {times : Nat}
    {script : List Command} (t : TriggerId) (call : plant.Joining id handler times script next) :
    Spares t plant next := by
  cases call with
  | idle => exact .refl t plant
  | refuse publisher observer between made =>
      exact ((inert_observer_for plant publisher id handler times script observer between made).spares t).trans
        (spares_subscribe t between publisher (.observer observer))
  | join publisher observer between ticket made _ =>
      refine ((inert_observer_for plant publisher id handler times script observer between made).spares t).trans
        ((spares_subscribe t between publisher (.observer observer)).trans
          (Inert.spares t (inert_push _ _ fun job member => ?_)))
      rw [List.mem_singleton.mp member]
      exact ⟨rfl, rfl⟩

theorem SubscribeCall.spares {plant next : Plant} {id : String} {handler : Option String} {times : Nat}
    {script : List Command} (t : TriggerId) (call : plant.SubscribeCall id handler times script next) :
    Spares t plant next := by
  cases call with
  | once _ first => exact first.spares t
  | again publisher between first => exact (first.spares t).trans ((inert_send_again between publisher).spares t)

theorem spares_unsubscribe (t : TriggerId) (plant : Plant) (publisher : Publisher) (ticket : Ticket) :
    Spares t plant (plant.unsubscribe publisher ticket) := by
  cases publisher with
  | node node =>
      cases node with
      | var id => exact (inert_unsubscribe_variable plant id ticket).spares t
      | comparison id => exact (inert_unsubscribe_comparison plant id ticket).spares t
      | trigger id => exact spares_unsubscribe_trigger t plant id ticket
  | channel id => exact (inert_unsubscribe_channel plant id ticket).spares t

theorem UnsubscribeCall.spares {plant next : Plant} {id : String} (t : TriggerId)
    (call : plant.UnsubscribeCall id next) : Spares t plant next := by
  cases call with
  | idle => exact .refl t plant
  | leave publisher ticket _ => exact spares_unsubscribe t plant publisher ticket

def Reaches (plant : Plant) (t : TriggerId) (name : String) : Prop :=
  ∃ trigger, plant.trigger? name = some (t, trigger)

-- A call from outside that moves a trigger: its value, its count or its activity.
def Drives (plant : Plant) (t : TriggerId) : Command → Prop
  | .trigger (.activate name) | .trigger (.deactivate name) | .trigger (.rearm name)
  | .trigger (.evaluate name) => plant.Reaches t name
  | _ => False

theorem TriggerCall.spares {plant next : Plant} {command : TriggerCommand} (t : TriggerId)
    (call : plant.TriggerCall command next) (undriven : ¬ plant.Drives t (.trigger command)) :
    Spares t plant next := by
  cases call with
  | idle => exact .refl t plant
  | make name expression times verbose id trigger between made there =>
      exact (spares_make_trigger t plant _ expression times id between made).trans
        ((spares_set_alike t between id trigger { trigger with verbose := verbose } there rfl).trans
          ((inert_keep _ _).spares t))
  | activate name id trigger _ found activated =>
      exact spares_activate_trigger t plant id (fun same => undriven ⟨trigger, same ▸ found⟩) trigger next
        activated
  | deactivate name id trigger found =>
      exact spares_deactivate_trigger t plant id fun same => undriven ⟨trigger, same ▸ found⟩
  | rearm name id trigger found =>
      exact spares_rearm_trigger t plant id fun same => undriven ⟨trigger, same ▸ found⟩
  | evaluate name id trigger found =>
      exact spares_evaluate_now t plant id (fun same => undriven ⟨trigger, same ▸ found⟩) trigger
  | drop | receive => exact (inert_keep plant _).spares t

theorem spares_execute (t : TriggerId) (plant : Plant) (command : Command)
    (undriven : ¬ plant.Drives t command) : Spares t plant (plant.execute command).2 := by
  cases command with
  | var command => exact (plant.variable_call command).inert.spares t
  | comparison command => exact (plant.comparison_call command).inert.spares t
  | trigger command => exact (plant.trigger_call command).spares t undriven
  | channel command => exact (plant.channel_call command).inert.spares t
  | device command => exact (plant.device_call command).inert.spares t
  | sequence command =>
      obtain detached | ⟨name, config, step, between, made, same⟩ := (plant.sequence_call command).detached
      · exact detached.spares t
      · rw [execute, same]
        exact (spares_make_step t plant _ config step between made).trans
          ((inert_keep_step between name step).spares t)
  | workspace command =>
      obtain detached | ⟨name, config, pollInterval, scheduled, between, made, same⟩ :=
        (plant.workspace_call command).detached
      · exact detached.spares t
      · rw [execute, same]
        exact (spares_make_schedule t plant _ _ config pollInterval scheduled between made).trans
          ((inert_keep between _).spares t)
  | subscribe name source publisher handler sendNow times script =>
      exact (plant.subscribe_call name source publisher handler sendNow times script).spares t
  | unsubscribe name => exact (plant.unsubscribe_call name).spares t

theorem spares_run_command (t : TriggerId) (plant : Plant) (label : String) (command : Command)
    (undriven : ¬ plant.Drives t command) : Spares t plant (plant.runCommand label command) := by
  have spares := spares_execute t plant command undriven
  obtain ⟨jobs, grown, _, same⟩ := run_command_next plant label command
  obtain ⟨more, regrown, foreign⟩ := spares.agenda
  have jobs_same : jobs = more := List.append_cancel_right (grown.symm.trans regrown)
  rw [same]
  refine ⟨spares.kept, ?_, ⟨jobs ++ [.conclude label (plant.execute command).1], by simp, ?_⟩,
    spares.comparisons⟩
  · intro missing after there
    exact made_bound (plant.execute command).2 _ after after rfl (bound_refl _ _ rfl)
      (spares.made missing after there)
  · intro job member
    rcases List.mem_append.mp member with caused | reply
    · exact foreign job (jobs_same ▸ caused)
    · rw [List.mem_singleton.mp reply]
      simp [Job.exhausted?]

end Interlock.Plant
