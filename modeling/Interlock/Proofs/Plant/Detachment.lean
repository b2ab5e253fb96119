import Interlock.Proofs.Plant.Course

/-!
What a call lists. A call on a sequence leaves the graph alone, and no command lists a part of a step:
steps are handed to tasks, and the tasks list their parts.
-/

set_option autoImplicit false

namespace Interlock.Plant

open Interlock.Graph
open Interlock.Schedule
open Interlock.Session

structure Detached (plant next : Plant) : Prop where
  agenda : Adds (fun job => job.partOf? = none ∧ job.exhausted? = none) plant next
  triggers : next.triggers = plant.triggers
  comparisons : Bound plant next

theorem detached_same (plant next : Plant) (agenda : next.agenda = plant.agenda)
    (triggers : next.triggers = plant.triggers) (comparisons : next.comparisons = plant.comparisons) :
    Detached plant next := ⟨⟨[], agenda, by simp⟩, triggers, bound_refl plant next comparisons⟩

theorem Detached.refl (plant : Plant) : Detached plant plant := detached_same plant plant rfl rfl rfl

theorem Detached.trans {plant middle next : Plant} (first : Detached plant middle)
    (second : Detached middle next) : Detached plant next :=
  ⟨adds_trans _ _ _ _ first.agenda second.agenda, second.triggers.trans first.triggers,
    bound_trans _ _ _ first.comparisons second.comparisons⟩

theorem Inert.detached {plant next : Plant} (inert : Inert plant next) : Detached plant next :=
  ⟨adds_weaken _ _ (fun job plain => ⟨(foreign_part job plain.1).1, plain.2⟩) _ _ inert.agenda,
    inert.triggers, inert.comparisons⟩

theorem detached_announce (plant : Plant) (id : SequenceId) (progress : Progress) :
    Detached plant (plant.announce id progress) := detached_same _ _ rfl rfl rfl

theorem detached_set_state (plant : Plant) (id : SequenceId) (s : Sequence) (state : State) :
    Detached plant (plant.setState id s state) := detached_same _ _ rfl rfl rfl

theorem detached_set_sequence (plant : Plant) (id : SequenceId) (s : Sequence) :
    Detached plant (plant.setSequence id s) := detached_same _ _ rfl rfl rfl

theorem detached_wake_task (plant : Plant) (id : SequenceId) (s : Sequence) :
    Detached plant (plant.wakeTask id s) := by
  unfold wakeTask
  split
  · exact (inert_dispatch _ _).detached
  · exact .refl plant

theorem detached_tell_stage (plant : Plant) (s : Sequence) (command : String)
    (value : Option Value) (description : String) :
    Detached plant (plant.tellStage s command value description) :=
  ((inert_read_clock plant).trans (inert_notify _ _ _)).detached

theorem detached_finish (plant : Plant) (id : SequenceId) (s : Sequence) :
    Detached plant (plant.finish id s) := by
  unfold finish
  split
  · have pushed : Detached plant (plant.push [.complete id]) :=
      ⟨⟨[.complete id], rfl, by simp [Job.partOf?, Job.exhausted?]⟩, rfl, bound_refl _ _ rfl⟩
    exact pushed.trans (detached_tell_stage _ s _ _ _)
  · exact .refl plant

theorem detached_enter_pause (plant : Plant) (id : SequenceId) (s : Sequence) :
    Detached plant (plant.enterPause id s) := detached_same _ _ rfl rfl rfl

theorem detached_proceed (plant : Plant) (id : SequenceId) : Detached plant (plant.proceed id) := by
  unfold proceed
  split
  · exact .refl plant
  · split
    · exact .refl plant
    · split
      · exact detached_enter_pause plant id _
      · split
        · exact detached_finish plant id _
        · exact detached_same _ _ rfl rfl rfl

theorem detached_activate (plant : Plant) (id : SequenceId) (next : Plant)
    (activated : plant.activateSequence id = .ok next) : Detached plant next := by
  unfold activateSequence at activated
  split at activated
  · cases activated
    exact .refl _
  · rename_i s held
    split at activated
    · contradiction
    · split at activated
      · cases activated
        exact .refl _
      · cases activated
        have set := detached_set_state plant id { s with active := true, executed := 0 } .running
        have woken := set.trans ((inert_set_active _ s.channel true).detached.trans
          (detached_wake_task _ id { s with active := true, executed := 0 }))
        exact woken.trans ((inert_log _ _ _ _ _).detached.trans
          ((detached_announce _ id (.started s.name)).trans (detached_proceed _ id)))

theorem detached_deactivate (plant : Plant) (id : SequenceId) :
    Detached plant (plant.deactivateSequence id) := by
  unfold deactivateSequence
  split
  · exact .refl plant
  · rename_i s held
    split
    · have set := detached_set_state plant id s.stopped .cancelled
      have woken := set.trans ((detached_wake_task _ id s.stopped).trans
        (inert_set_active _ s.channel false).detached)
      exact woken.trans ((inert_log _ _ _ _ _).detached.trans (detached_announce _ id .cancelled))
    · exact .refl plant

theorem detached_pause (plant : Plant) (id : SequenceId) : Detached plant (plant.pause id) := by
  unfold pause
  split
  · exact .refl plant
  · exact detached_same _ _ rfl rfl rfl

theorem detached_resume (plant : Plant) (id : SequenceId) : Detached plant (plant.resume id) := by
  unfold resume
  split
  · exact .refl plant
  · split
    · exact .refl plant
    · split
      · exact detached_same _ _ rfl rfl rfl
      · rename_i s held _ _
        have set := detached_set_state plant id { s with paused := false } .running
        exact set.trans ((inert_log _ _ _ _ _).detached.trans
          ((detached_announce _ id .resumed).trans (detached_proceed _ id)))

theorem detached_set_paused (plant : Plant) (id : SequenceId) (paused : Bool) :
    Detached plant (plant.setPaused id paused) := by
  unfold setPaused
  split
  · exact detached_pause plant id
  · exact detached_resume plant id

theorem detached_dispose (plant : Plant) (id : SequenceId) :
    Detached plant (plant.disposeSequence id) := by
  have stopped := detached_deactivate plant id
  unfold disposeSequence
  dsimp only
  split
  · exact stopped
  · rename_i s held
    exact stopped.trans ((detached_set_sequence _ id { s with queue := [] }).trans
      (inert_clear_subscribers _ _).detached)

theorem detached_push_steps (plant : Plant) (id : SequenceId) (step : Step) (count : Nat) :
    Detached plant (plant.pushSteps id step count) := by
  unfold pushSteps
  split <;> exact detached_same _ _ rfl rfl rfl

theorem detached_complete (plant : Plant) (id : SequenceId) : Detached plant (plant.complete id) := by
  unfold complete
  split
  · exact .refl plant
  · rename_i s held
    split
    · have set := detached_set_state plant id { s with active := false } .completed
      have woken := set.trans ((detached_wake_task _ id s).trans
        (inert_set_active _ s.channel false).detached)
      exact woken.trans ((inert_log _ _ _ _ _).detached.trans (detached_announce _ id .completed))
    · exact .refl plant

theorem SequenceCall.detached {plant next : Plant} {command : SequenceCommand}
    (call : plant.SequenceCall command next) :
    Detached plant next ∨ ∃ name config step between,
      plant.makeStep plant.desk.table config = .ok (step, between) ∧ next = between.keepStep name step := by
  cases call with
  | stepOf name config step between made => exact .inr ⟨name, config, step, between, made, rfl⟩
  | idle => exact .inl (.refl plant)
  | make | step => exact .inl (detached_same _ _ rfl rfl rfl)
  | push => exact .inl (detached_push_steps plant _ _ _)
  | activate name id s _ found activated => exact .inl (detached_activate plant id next activated)
  | deactivate => exact .inl (detached_deactivate plant _)
  | setPaused => exact .inl (detached_set_paused plant _ _)
  | dispose => exact .inl (detached_dispose plant _)

theorem WorkspaceCall.detached {plant next : Plant} {command : WorkspaceCommand}
    (call : plant.WorkspaceCall command next) :
    Detached plant next ∨ ∃ name config pollInterval scheduled between,
      plant.makeSchedule plant.desk.table plant.desk.registry config pollInterval =
        .ok (scheduled, between) ∧
      next = between.keep fun desk =>
        { desk with
          sequences := desk.sequences.insert name scheduled.sequence, schedule := some scheduled } := by
  cases call with
  | schedule name config pollInterval scheduled between made =>
      exact .inr ⟨name, config, pollInterval, scheduled, between, made, rfl⟩
  | idle => exact .inl (.refl plant)
  | fail document config => exact .inl (inert_make_workspace plant config).detached
  | make document config workspace =>
      exact .inl ((inert_make_workspace plant config).trans (inert_open_workspace _ workspace)).detached
  | start devices _ started => exact .inl (inert_start_devices plant devices next started).detached
  | shutdown => exact .inl (inert_shutdown plant _).detached
  | startSchedule scheduled _ activated => exact .inl (detached_activate plant _ next activated)

def ListsNoPart (plant next : Plant) : Prop := Adds (fun job => job.partOf? = none) plant next

theorem ListsNoPart.refl (plant : Plant) : ListsNoPart plant plant := adds_refl _ plant

theorem ListsNoPart.trans {plant middle next : Plant} (first : ListsNoPart plant middle)
    (second : ListsNoPart middle next) : ListsNoPart plant next := adds_trans _ _ _ _ first second

theorem Quiet.lists_no_part {plant next : Plant} (quiet : Quiet plant next) : ListsNoPart plant next :=
  adds_weaken _ _ (fun job foreign => (foreign_part job foreign).1) _ _ quiet.agenda

theorem Detached.lists_no_part {plant next : Plant} (detached : Detached plant next) : ListsNoPart plant next :=
  adds_weaken _ _ (fun _ apart => apart.1) _ _ detached.agenda

theorem lists_no_part_make_schedule (plant : Plant) (table : TableId) (registry : RegistryId)
    (procedure : Config.Procedure) (pollInterval : Nat) (scheduled : Scheduled) (next : Plant)
    (made : plant.makeSchedule table registry procedure pollInterval = .ok (scheduled, next)) :
    ListsNoPart plant next := by
  obtain ⟨part, steps, between, details, _, stepped, _, rfl⟩ := schedule_made made
  have filled : ListsNoPart between (between.addFilled part.name registry pollInterval steps) :=
    (detached_same _ _ rfl rfl rfl).lists_no_part
  exact (quiet_make_steps plant table part.steps steps between stepped).lists_no_part.trans
    (filled.trans (inert_log _ _ _ _ _).detached.lists_no_part)

theorem lists_no_part_execute (plant : Plant) (command : Command) : ListsNoPart plant (plant.execute command).2 := by
  cases command with
  | var command => exact (plant.variable_call command).inert.detached.lists_no_part
  | comparison command => exact (plant.comparison_call command).inert.detached.lists_no_part
  | trigger command => exact (plant.trigger_call command).quiet.lists_no_part
  | channel command => exact (plant.channel_call command).inert.detached.lists_no_part
  | device command => exact (plant.device_call command).inert.detached.lists_no_part
  | sequence command =>
      obtain detached | ⟨name, config, step, between, made, same⟩ := (plant.sequence_call command).detached
      · exact detached.lists_no_part
      · rw [execute, same]
        exact (quiet_make_step plant _ config step between made).lists_no_part.trans
          (inert_keep_step between name step).detached.lists_no_part
  | workspace command =>
      obtain detached | ⟨name, config, pollInterval, scheduled, between, made, same⟩ :=
        (plant.workspace_call command).detached
      · exact detached.lists_no_part
      · rw [execute, same]
        exact (lists_no_part_make_schedule plant _ _ config pollInterval scheduled between made).trans
          (detached_same _ _ rfl rfl rfl).lists_no_part
  | subscribe name source publisher handler sendNow times script =>
      exact (plant.subscribe_call name source publisher handler sendNow times script).quiet.lists_no_part
  | unsubscribe name => exact (plant.unsubscribe_call name).quiet.lists_no_part

theorem run_command_next (plant : Plant) (label : String) (command : Command) :
    ∃ jobs, (plant.execute command).2.agenda = jobs ++ plant.agenda ∧
      (∀ job ∈ jobs, job.partOf? = none) ∧
      plant.runCommand label command =
        { (plant.execute command).2 with
          agenda := jobs ++ .conclude label (plant.execute command).1 :: plant.agenda } := by
  obtain ⟨jobs, grown, apart⟩ := lists_no_part_execute plant command
  refine ⟨jobs, grown, apart, ?_⟩
  have caused : (plant.execute command).2.agenda.take
      ((plant.execute command).2.agenda.length - plant.agenda.length) = jobs := by
    rw [grown, List.length_append, Nat.add_sub_cancel, List.take_left' rfl]
  unfold runCommand
  cases executed : plant.execute command with
  | mk reply next =>
      rw [executed] at caused
      simp only [caused]

end Interlock.Plant
