import Interlock.Proofs.Plant.Detachment
import Interlock.Proofs.Plant.Strokes

/-!
Every move carries the course of a sequence on by one stroke at most.
-/

set_option autoImplicit false

namespace Interlock.Plant

open Interlock.Graph
open Interlock.Schedule
open Interlock.Session

theorem drift_quiet (plant next : Plant) (id : SequenceId) (quiet : Quiet plant next) :
    Drift id (plant.course id) (next.course id) := .inl (course_quiet plant next id quiet)

theorem drift_inert (plant next : Plant) (id : SequenceId) (inert : Inert plant next) :
    Drift id (plant.course id) (next.course id) := drift_quiet plant next id inert.quiet

theorem drift_then_quiet (plant middle next : Plant) (id : SequenceId)
    (drift : Drift id (plant.course id) (middle.course id)) (quiet : Quiet middle next) :
    Drift id (plant.course id) (next.course id) := by
  rwa [course_quiet middle next id quiet]

theorem quiet_then_drift (plant middle next : Plant) (id : SequenceId) (quiet : Quiet plant middle)
    (drift : Drift id (middle.course id) (next.course id)) :
    Drift id (plant.course id) (next.course id) := by
  rwa [course_quiet plant middle id quiet] at drift

theorem add_sequence_course (plant : Plant) (name : String) (registry : RegistryId)
    (pollInterval : Nat) (id : SequenceId) :
    (plant.addSequence name registry pollInterval).2.course id =
      if id = plant.sequences.length then
        { plant.course id with
          sequence := some (.create name registry plant.channels.length pollInterval) }
      else plant.course id := by
  by_cases new : id = plant.sequences.length
  · subst id
    simp [course, addSequence, addChannel]
  · rw [if_neg new]
    have same : (plant.sequences ++
        [Sequence.create name registry plant.channels.length pollInterval])[id]? =
          plant.sequences[id]? := by
      rcases Nat.lt_or_ge id plant.sequences.length with inside | outside
      · exact List.getElem?_append_left inside
      · have beyond : plant.sequences.length < id := Nat.lt_of_le_of_ne outside (Ne.symm new)
        rw [List.getElem?_eq_none outside, List.getElem?_eq_none (by rwa [List.length_append])]
    simp [course, addSequence, addChannel, same]

theorem absent_new (plant : Plant) : (plant.course plant.sequences.length).sequence = none :=
  List.getElem?_eq_none (Nat.le_refl _)

theorem drift_add_sequence (plant : Plant) (name : String) (registry : RegistryId)
    (pollInterval : Nat) (id : SequenceId) :
    Drift id (plant.course id) ((plant.addSequence name registry pollInterval).2.course id) := by
  rw [add_sequence_course]
  split
  · rename_i new
    subst id
    exact .inr (.create _ name registry plant.channels.length pollInterval [] (absent_new plant))
  · exact .inl rfl

theorem add_filled_course (plant : Plant) (name : String) (registry : RegistryId)
    (pollInterval : Nat) (queue : List Step) (id : SequenceId) :
    (plant.addFilled name registry pollInterval queue).course id =
      if id = plant.sequences.length then
        { plant.course id with
          sequence :=
            some { Sequence.create name registry plant.channels.length pollInterval with queue := queue } }
      else plant.course id := by
  have added := add_sequence_course plant name registry pollInterval id
  rw [addFilled, course_set_sequence, added]
  by_cases new : id = plant.sequences.length
  · subst id
    have there := congrArg Course.sequence added
    rw [if_pos rfl] at there
    rw [if_pos rfl, if_pos rfl, if_pos rfl]
    exact congrArg (fun sequence => { plant.course plant.sequences.length with sequence := sequence })
      (congrArg (Option.map _) there)
  · rw [if_neg (Ne.symm new), if_neg new, if_neg new]

theorem drift_make_schedule (plant : Plant) (table : TableId) (registry : RegistryId)
    (procedure : Config.Procedure) (pollInterval : Nat) (scheduled : Scheduled) (next : Plant)
    (id : SequenceId)
    (made : plant.makeSchedule table registry procedure pollInterval = .ok (scheduled, next)) :
    Drift id (plant.course id) (next.course id) := by
  obtain ⟨part, steps, between, details, _, stepped, _, rfl⟩ := schedule_made made
  have quiet := quiet_make_steps plant table part.steps steps between stepped
  refine quiet_then_drift plant between _ id quiet ?_
  refine drift_then_quiet between _ _ id ?_ (inert_log _ _ _ _ _).quiet
  rw [add_filled_course]
  split
  · next new =>
      subst id
      exact .inr (.create _ part.name registry between.channels.length pollInterval steps (absent_new between))
  · exact .inl rfl

theorem SequenceCall.drift {plant next : Plant} {command : SequenceCommand}
    (call : plant.SequenceCall command next) (id : SequenceId) :
    Drift id (plant.course id) (next.course id) := by
  cases call with
  | idle => exact .inl rfl
  | make name pollInterval =>
      exact drift_then_quiet plant _ _ id
        (drift_add_sequence plant name plant.desk.registry pollInterval id) (inert_keep _ _).quiet
  | step => exact drift_inert plant _ id (inert_keep_step plant _ _)
  | stepOf name config step between made =>
      exact drift_quiet plant _ id
        ((quiet_make_step plant _ config step between made).trans (inert_keep_step between name step).quiet)
  | push => exact drift_push_steps plant _ id _ _
  | activate name other s _ found activated => exact drift_activate plant other id next activated
  | deactivate => exact drift_deactivate plant _ id
  | setPaused => exact drift_set_paused plant _ id _
  | dispose => exact drift_dispose plant _ id

theorem WorkspaceCall.drift {plant next : Plant} {command : WorkspaceCommand}
    (call : plant.WorkspaceCall command next) (id : SequenceId) :
    Drift id (plant.course id) (next.course id) := by
  cases call with
  | idle => exact .inl rfl
  | fail document config => exact drift_inert plant _ id (inert_make_workspace plant config)
  | make document config workspace =>
      exact drift_inert plant _ id
        ((inert_make_workspace plant config).trans (inert_open_workspace _ workspace))
  | start devices _ started => exact drift_inert plant next id (inert_start_devices plant devices next started)
  | shutdown => exact drift_inert plant _ id (inert_shutdown plant _)
  | schedule name config pollInterval scheduled between made =>
      exact drift_then_quiet plant between _ id
        (drift_make_schedule plant _ _ config pollInterval scheduled between id made) (inert_keep between _).quiet
  | startSchedule scheduled _ activated => exact drift_activate plant _ id next activated

theorem drift_execute (plant : Plant) (command : Command) (id : SequenceId) :
    Drift id (plant.course id) ((plant.execute command).2.course id) := by
  cases command with
  | var command => exact drift_inert plant _ id (plant.variable_call command).inert
  | comparison command => exact drift_inert plant _ id (plant.comparison_call command).inert
  | trigger command => exact drift_quiet plant _ id (plant.trigger_call command).quiet
  | channel command => exact drift_inert plant _ id (plant.channel_call command).inert
  | device command => exact drift_inert plant _ id (plant.device_call command).inert
  | sequence command => exact (plant.sequence_call command).drift id
  | workspace command => exact (plant.workspace_call command).drift id
  | subscribe name source publisher handler sendNow times script =>
      exact drift_quiet plant _ id
        (plant.subscribe_call name source publisher handler sendNow times script).quiet
  | unsubscribe name => exact drift_quiet plant _ id (plant.unsubscribe_call name).quiet

theorem drift_run_command (plant : Plant) (label : String) (command : Command) (id : SequenceId) :
    Drift id (plant.course id) ((plant.runCommand label command).course id) := by
  obtain ⟨jobs, grown, _, same⟩ := run_command_next plant label command
  have drift := drift_execute plant command id
  have kept : (plant.runCommand label command).course id = (plant.execute command).2.course id := by
    rw [same]
    simp [course, grown, Job.partOf?, Job.endOf?]
  rwa [kept]

theorem course_job (plant : Plant) (job : Job) (rest : List Job) (agenda : plant.agenda = job :: rest)
    (id : SequenceId) :
    plant.course id =
      { ({ plant with agenda := rest } : Plant).course id with
        jobs := [job].filter (fun job => job.partOf? == some id) ++
          (({ plant with agenda := rest } : Plant).course id).jobs,
        endings := [job].countP (fun job => job.endOf? == some id) +
          (({ plant with agenda := rest } : Plant).course id).endings } := by
  have split : job :: rest = [job] ++ rest := rfl
  simp only [course, agenda, split, List.filter_append, List.countP_append]

theorem drift_job (plant next : Plant) (stepped : plant.stepJob? = some next) (id : SequenceId) :
    Drift id (plant.course id) (next.course id) := by
  obtain ⟨job, rest, agenda, rfl⟩ := worked_off stepped
  have before := course_job plant job rest agenda id
  rw [course_retire, before]
  generalize ({ plant with agenda := rest } : Plant) = ready
  have foreign : job.owner? = none → ∀ after : Plant, Drift id (ready.course id) (after.course id) →
      Drift id
        { ready.course id with
          jobs := [job].filter (fun job => job.partOf? == some id) ++ (ready.course id).jobs,
          endings := [job].countP (fun job => job.endOf? == some id) + (ready.course id).endings }
        (after.course id) := by
    intro alien after drift
    obtain ⟨noPart, noEnd⟩ := foreign_part job alien
    simpa [noPart, noEnd] using drift
  have own : ∀ (other : SequenceId) (after : Plant), job.partOf? = some other →
      job.endOf? = none →
      (other = id → Stroke id (ready.pending id job) (after.course id)) →
      (other ≠ id → after.course id = ready.course id) →
      Drift id
        { ready.course id with
          jobs := [job].filter (fun job => job.partOf? == some id) ++ (ready.course id).jobs,
          endings := [job].countP (fun job => job.endOf? == some id) + (ready.course id).endings }
        (after.course id) := by
    intro other after part noEnd stroke apart
    by_cases mine : other = id
    · right
      simpa [part, noEnd, mine, pending] using stroke mine
    · left
      simp [part, noEnd, mine, apart mine]
  cases job with
  | deliver listener notification =>
      exact foreign rfl _ (drift_quiet ready _ id (quiet_deliver ready listener notification))
  | tell listener event => exact foreign rfl _ (drift_inert ready _ id (inert_tell ready listener event))
  | leave node => exact foreign rfl _ (.inl rfl)
  | exhaust trigger => exact foreign rfl _ (drift_quiet ready _ id (quiet_exhaust ready trigger))
  | command label command => exact foreign rfl _ (drift_run_command ready label command id)
  | conclude label reply => exact foreign rfl _ (drift_inert ready _ id (inert_note ready _ rfl))
  | write channel value => exact foreign rfl _ (drift_inert ready _ id (inert_write ready channel value))
  | settleDown device => exact foreign rfl _ (drift_inert ready _ id (inert_settle_down ready device))
  | keepSubscription name subscription =>
      exact foreign rfl _ (drift_inert ready _ id (inert_keep_subscription ready name subscription))
  | closeRun => exact foreign rfl _ (drift_inert ready _ id (inert_dispatch ready _))
  | announce other progress =>
      refine own other _ rfl rfl ?_ ?_
      · rintro rfl
        have stroke := Stroke.announce (ready.pending other (.announce other progress)) progress _ rfl
        simpa [perform, pending] using stroke
      · intro apart
        simp [perform, apart]
  | begin other =>
      exact own other _ rfl rfl (fun mine => mine ▸ stroke_begin ready other)
        (begin_other ready other id)
  | act other actions =>
      exact own other _ rfl rfl (fun mine => mine ▸ stroke_act ready other actions)
        (fun apart => act_other ready other id apart actions)
  | arm other =>
      exact own other _ rfl rfl (fun mine => mine ▸ stroke_arm ready other) (arm_other ready other id)
  | wait other =>
      exact own other _ rfl rfl (fun mine => mine ▸ stroke_wait ready other)
        (wait_other ready other id)
  | disarm other =>
      exact own other _ rfl rfl (fun mine => mine ▸ stroke_disarm ready other)
        (disarm_other ready other id)
  | next other =>
      exact own other _ rfl rfl (fun mine => mine ▸ stroke_next ready other)
        (next_other ready other id)
  | complete other =>
      by_cases mine : other = id
      · subst other
        right
        simpa [perform, Job.partOf?, Job.endOf?, Nat.add_comm] using stroke_complete ready id
      · left
        have same := complete_other ready other id mine
        simpa [perform, Job.partOf?, Job.endOf?, mine] using same

theorem drift_move (plant next : Plant) (deed : Deed) (move : Move plant deed next) (id : SequenceId) :
    Drift id (plant.course id) (next.course id) := by
  cases move with
  | job _ stepped => exact drift_job plant next stepped id
  | call command =>
      rw [course_retire]
      exact drift_execute plant command id
  | turn runner =>
      rw [course_retire]
      cases runner with
      | sequence other => exact drift_turn plant other id
      | device device => exact drift_inert plant _ id (inert_turn_device plant device)
      | stopped => exact .inl rfl
  | dispatch change => exact drift_inert plant _ id (inert_dispatch plant change)

end Interlock.Plant
