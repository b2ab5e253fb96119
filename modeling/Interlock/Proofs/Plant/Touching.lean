import Interlock.Proofs.Plant.Holding

/-!
Which jobs touch a trigger: what its children tell it, the end of its transitions, the arming and the
disarming by the tasks that hold it, and calls of the trigger itself.
-/

set_option autoImplicit false

namespace Interlock.Plant

open Interlock.Graph
open Interlock.Schedule
open Interlock.Session (Command TriggerCommand)

def Holds (plant : Plant) (id : SequenceId) (t : TriggerId) : Prop := (plant.course id).Holds t

def Touches (plant : Plant) (t : TriggerId) : Job → Prop
  | .deliver (.trigger other) _ => other = t
  | .exhaust other => other = t
  | .arm id | .disarm id => plant.Holds id t
  | .command _ command => plant.Drives t command
  | _ => False

section

variable (t : TriggerId) (plant : Plant)

theorem spares_push (jobs : List Job) (each : ∀ job ∈ jobs, job.exhausted? = none) :
    Spares t plant (plant.push jobs) :=
  spares_same rfl ⟨jobs, rfl, fun job member => by simp [each job member]⟩ (bound_refl _ _ rfl)

theorem spares_leave_step (id : SequenceId) : Spares t plant (plant.leaveStep id) := by
  unfold leaveStep
  split
  · exact .refl t plant
  · rename_i s held
    exact ((detached_set_sequence plant id s.free).spares t).trans
      (spares_push t _ [.next id] (by simp [Job.exhausted?]))

theorem spares_begin (id : SequenceId) : Spares t plant (plant.beginStep id) := by
  unfold beginStep
  split
  · exact .refl t plant
  · rename_i s step found
    have counted := (detached_set_sequence plant id { s with executed := s.executed + 1 }).spares t
    exact counted.trans (((inert_log _ _ _ _ _).spares t).trans
      ((spares_push t _ _ (by simp [Job.exhausted?])).trans
        ((detached_tell_stage _ s _ _ _).spares t)))

theorem spares_act (id : SequenceId) (actions : List Action) :
    Spares t plant (plant.actNext id actions) := by
  cases actions with
  | nil => exact spares_push t plant [.arm id] (by simp [Job.exhausted?])
  | cons action rest =>
      rw [actNext]
      split
      · exact .refl t plant
      · have after := spares_push t plant [.act id rest] (by simp [Job.exhausted?])
        unfold act
        dsimp only
        split
        · exact after.trans ((inert_log _ _ _ _ _).spares t)
        · rename_i value given
          split
          · exact after.trans ((spares_push t _ [.announce id (.actionApplied action.path value)]
              (by simp [Job.exhausted?])).trans
                (((inert_log _ _ _ _ _).trans (inert_write _ _ value)).spares t))
          · exact after.trans (((inert_log _ _ _ _ _).spares t).trans
              ((detached_announce _ id (.actionSkipped action.path)).spares t))

theorem spares_wait (id : SequenceId) : Spares t plant (plant.waitForTrigger id) := by
  unfold waitForTrigger
  split
  · exact spares_leave_step t plant id
  · rename_i s other trigger found
    have told := (detached_announce plant id (.waitingOnTrigger trigger.expression)).spares t
    dsimp only
    split
    · exact told.trans (spares_push t _ [.disarm id] (by simp [Job.exhausted?]))
    · exact told.trans (((detached_set_sequence _ id
        { s with task := s.task.map fun task => .waiting task.step }).spares t).trans
          ((inert_dispatch _ _).spares t))

theorem spares_next (id : SequenceId) : Spares t plant (plant.nextStep id) := by
  unfold nextStep
  split
  · exact .refl t plant
  · rename_i s held
    have idle := detached_set_sequence plant id { s with inFlight := false }
    dsimp only
    split
    · exact idle.spares t
    · split
      · exact (idle.trans (detached_finish _ id { s with inFlight := false })).spares t
      · rename_i step rest queue
        split
        · exact (detached_enter_pause plant id { s with inFlight := false }).spares t
        · exact ((detached_set_sequence plant id
            { s with queue := rest, task := some (.busy step) }).spares t).trans
              (spares_push t _ [.begin id] (by simp [Job.exhausted?]))

theorem spares_turn (runner : Runner) : Spares t plant (plant.turn runner) := by
  cases runner with
  | sequence id =>
      rw [turn, turnSequence]
      split
      · exact .refl t plant
      · rename_i s held
        split
        · rename_i step task
          exact ((detached_set_sequence plant id { s with task := some (.busy step) }).spares t).trans
            (spares_push t _ [.begin id] (by simp [Job.exhausted?]))
        · rename_i step task
          split
          · exact .refl t plant
          · rename_i other trigger _ found
            split
            · have cleared : Spares t plant (plant.dispatch fun dispatcher =>
                  dispatcher.clearTimer (.task (.sequence id))) := (inert_dispatch plant _).spares t
              exact cleared.trans (((detached_set_sequence _ id _).spares t).trans
                (spares_push t _ [.disarm id] (by simp [Job.exhausted?])))
            · exact (inert_dispatch plant _).spares t
        · exact .refl t plant
  | device id => exact (inert_turn_device plant id).spares t
  | stopped => exact .refl t plant

theorem current_other (id : SequenceId) (unheld : ¬ plant.Holds id t) (s : Sequence)
    (other : TriggerId) (trigger : Trigger)
    (found : plant.currentTrigger? id = some (s, other, trigger)) : other ≠ t := by
  rintro rfl
  obtain ⟨task, held, busy, waits, _⟩ := current_trigger_found plant id s other trigger found
  have there : (plant.course id).task? = some task := (task_held _ s held).trans busy
  exact unheld ⟨task, there, waits⟩

theorem spares_cancel (id : SequenceId) :
    Spares t plant ((plant.deactivateSequence id).leaveStep id) :=
  ((detached_deactivate plant id).spares t).trans (spares_leave_step t _ id)

theorem spares_arm (id : SequenceId) (unheld : ¬ plant.Holds id t) : Spares t plant (plant.arm id) := by
  have rearmed (s : Sequence) (other : TriggerId) (trigger : Trigger)
      (found : plant.currentTrigger? id = some (s, other, trigger)) : Spares t plant (plant.rearmTrigger other) :=
    spares_rearm_trigger t plant other (current_other t plant id unheld s other trigger found)
  have taken := plant.arm_case id
  generalize plant.arm id = next at taken ⊢
  cases taken with
  | leave => exact spares_leave_step t plant id
  | refuse s other trigger found =>
      exact (rearmed s other trigger found).trans
        (((inert_log _ _ _ _ _).spares t).trans (spares_cancel t _ id))
  | engage s other trigger started next found _ _ _ activated =>
      have apart := current_other t plant id unheld s other trigger found
      exact (rearmed s other trigger found).trans ((spares_push t _ [.wait id] (by simp [Job.exhausted?])).trans
        (spares_activate_trigger t _ other apart _ _ activated))

theorem spares_disarm (id : SequenceId) (unheld : ¬ plant.Holds id t) :
    Spares t plant (plant.disarm id) := by
  have ended (s : Sequence) (other : TriggerId) (trigger : Trigger)
      (found : plant.currentTrigger? id = some (s, other, trigger)) :
      Spares t plant (plant.deactivateTrigger other) :=
    spares_deactivate_trigger t plant other (current_other t plant id unheld s other trigger found)
  have taken := plant.disarm_case id
  generalize plant.disarm id = next at taken ⊢
  cases taken with
  | leave => exact spares_leave_step t plant id
  | unmet s other trigger found => exact (ended s other trigger found).trans (spares_leave_step t _ id)
  | satisfied s other trigger found =>
      exact (ended s other trigger found).trans (((inert_log _ _ _ _ _).spares t).trans
        (((detached_announce _ id (.triggerSatisfied trigger.expression)).spares t).trans
          (spares_leave_step t _ id)))

theorem spares_deliver (listener : Listener) (notification : Notification)
    (other : listener ≠ .trigger t) : Spares t plant (plant.deliver listener notification) := by
  cases listener with
  | observer id =>
      rw [deliver]
      split
      · exact .refl t plant
      · exact ((inert_note plant _ rfl).trans (inert_script_of _ id _)).spares t
  | comparison id => exact (inert_hear_variable plant id _).spares t
  | trigger id => exact spares_hear t plant id (fun same => other (by rw [same])) _
  | follower id source => exact .refl t plant

theorem spares_perform (job : Job) (untouched : ¬ plant.Touches t job) :
    Spares t plant (plant.perform job) := by
  cases job with
  | deliver listener notification =>
      refine spares_deliver t plant listener notification ?_
      rintro rfl
      exact untouched rfl
  | tell listener event => exact (inert_tell plant listener event).spares t
  | leave node => exact .refl t plant
  | exhaust other => exact spares_exhaust t plant other untouched
  | command label command => exact spares_run_command t plant label command untouched
  | conclude label reply => exact (inert_note plant _ rfl).spares t
  | write channel value => exact (inert_write plant channel value).spares t
  | settleDown device => exact (inert_settle_down plant device).spares t
  | keepSubscription name subscription =>
      exact (inert_keep_subscription plant name subscription).spares t
  | closeRun => exact (inert_dispatch plant _).spares t
  | announce id progress => exact (detached_announce plant id progress).spares t
  | begin id => exact spares_begin t plant id
  | act id actions => exact spares_act t plant id actions
  | arm id => exact spares_arm t plant id untouched
  | wait id => exact spares_wait t plant id
  | disarm id => exact spares_disarm t plant id untouched
  | next id => exact spares_next t plant id
  | complete id => exact (detached_complete plant id).spares t

theorem holds_found (id : SequenceId) (holds : plant.Holds id t) :
    ∃ s task, plant.sequences[id]? = some s ∧ s.task = some task ∧ task.step.trigger = some t := by
  obtain ⟨task, busy, waits⟩ := holds
  obtain ⟨s, held, running⟩ := Option.bind_eq_some_iff.mp busy
  exact ⟨s, task, held, running, waits⟩

theorem current_missing_trigger (id : SequenceId) (missing : plant.triggers[t]? = none)
    (holds : plant.Holds id t) : plant.currentTrigger? id = none := by
  obtain ⟨s, task, held, busy, waits⟩ := holds_found t plant id holds
  simp [currentTrigger?, current?, held, busy, waits, missing]

theorem current_held (id : SequenceId) (s : Sequence) (task : Task) (trigger : Trigger)
    (held : plant.sequences[id]? = some s) (busy : s.task = some task)
    (waits : task.step.trigger = some t) (there : plant.triggers[t]? = some trigger) :
    plant.currentTrigger? id = some (s, t, trigger) := by
  simp [currentTrigger?, current?, held, busy, waits, there]

theorem exhaust_own (trigger : Trigger) (there : plant.triggers[t]? = some trigger) :
    (trigger.active = false ∧ Inert plant (plant.exhaust t)) ∨
      Sets t plant trigger.halted (plant.exhaust t) := by
  unfold exhaust
  rw [there]
  dsimp only
  generalize logged : plant.log .trigger .debug "Repeat count reached zero"
    [("trigger", .text trigger.expression)] = next
  have inert : Inert plant next := logged ▸ inert_log _ _ _ _ _
  have there : next.triggers[t]? = some trigger := by rw [inert.triggers, there]
  rcases deactivate_trigger_own next t trigger there with ⟨inactive, same⟩ | sets
  · left
    rw [same]
    exact ⟨inactive, inert⟩
  · right
    have moved : Inert (plant.setTrigger t trigger.halted) (next.setTrigger t trigger.halted) := by
      rw [← logged]
      exact inert_log _ _ _ _ _
    exact moved.trans sets

theorem disarm_own (id : SequenceId) (s : Sequence) (task : Task) (trigger : Trigger)
    (held : plant.sequences[id]? = some s) (busy : s.task = some task)
    (waits : task.step.trigger = some t) (there : plant.triggers[t]? = some trigger) :
    Spares t (plant.deactivateTrigger t) (plant.disarm id) := by
  unfold disarm
  rw [current_held t plant id s task trigger held busy waits there]
  dsimp only
  split
  · exact ((inert_log _ _ _ _ _).spares t).trans
      (((detached_announce _ id (.triggerSatisfied trigger.expression)).spares t).trans
        (spares_leave_step t _ id))
  · exact spares_leave_step t _ id

-- A task of a running sequence arms its trigger in vain: it has no transitions even after it is
-- rearmed, or its activation fails.
def Refuses (plant : Plant) (id : SequenceId) (t : TriggerId) : Prop :=
  (∃ s, plant.sequences[id]? = some s ∧ s.active = true) ∧
    ∃ rearmed, (plant.rearmTrigger t).triggers[t]? = some rearmed ∧
      (rearmed.remaining = 0 ∨
        ∃ error, ((plant.rearmTrigger t).push [.wait id]).activateTrigger t rearmed = .error error)

theorem arm_own (id : SequenceId) (s : Sequence) (task : Task) (trigger : Trigger)
    (held : plant.sequences[id]? = some s) (busy : s.task = some task)
    (waits : task.step.trigger = some t) (there : plant.triggers[t]? = some trigger) :
    (s.active = false ∧ plant.arm id = plant.leaveStep id) ∨
      (s.active = true ∧ plant.Refuses id t ∧ ∃ logged, Inert (plant.rearmTrigger t) logged ∧
        plant.arm id = (logged.deactivateSequence id).leaveStep id) ∨
      (s.active = true ∧ ∃ rearmed, (plant.rearmTrigger t).triggers[t]? = some rearmed ∧
        rearmed.remaining ≠ 0 ∧
        ((plant.rearmTrigger t).push [.wait id]).activateTrigger t rearmed = .ok (plant.arm id)) := by
  unfold arm
  rw [current_held t plant id s task trigger held busy waits there]
  dsimp only
  cases active : s.active with
  | false => exact .inl ⟨rfl, rfl⟩
  | true =>
      right
      simp only [Bool.not_true, Bool.false_eq_true, if_false, true_and]
      have found := rearmed_there plant t trigger there
      rw [found]
      dsimp only
      split
      · rename_i spent
        exact .inl ⟨⟨⟨s, held, active⟩, _, found, .inl spent⟩, _, inert_log _ _ _ _ _, rfl⟩
      · rename_i left
        split
        · rename_i next activated
          exact .inr ⟨_, rfl, left, activated⟩
        · rename_i error failed
          exact .inl ⟨⟨⟨s, held, active⟩, _, found, .inr ⟨error, failed⟩⟩, _,
            inert_log _ _ _ _ _, rfl⟩

end

end Interlock.Plant
