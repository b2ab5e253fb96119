import Interlock.Proofs.Plant.Layers
import Interlock.Proofs.Plant.Station

/-!
Who holds a trigger. A task holds the trigger of its step; it is at the trigger from the moment that it
has armed it until it has disarmed it.
-/

set_option autoImplicit false

namespace Interlock

open Interlock.Graph
open Interlock.Schedule

def Course.task? (c : Course) : Option Task := c.sequence.bind fun s => s.task

def Course.Holds (t : TriggerId) (c : Course) : Prop :=
  ∃ task ∈ c.task?, task.step.trigger = some t

inductive TaskStep (id : SequenceId) : Option Task → List Job → Option Task → List Job → Prop where
  | stay (task : Option Task) (jobs : List Job) : TaskStep id task jobs task jobs
  | hand (step : Step) : TaskStep id none [] (some (.fresh step)) []
  | take (step : Step) : TaskStep id (some (.fresh step)) [] (some (.busy step)) [.begin id]
  | begin (step : Step) (progress : Progress) :
      TaskStep id (some (.busy step)) [.begin id] (some (.busy step))
        [.announce id progress, .act id step.actions]
  | announce (step : Step) (progress : Progress) (actions : List Action) :
      TaskStep id (some (.busy step)) [.announce id progress, .act id actions] (some (.busy step))
        [.act id actions]
  | apply (step : Step) (action : Action) (progress : Progress) (rest : List Action) :
      TaskStep id (some (.busy step)) [.act id (action :: rest)] (some (.busy step))
        [.announce id progress, .act id rest]
  | pass (step : Step) (action : Action) (rest : List Action) :
      TaskStep id (some (.busy step)) [.act id (action :: rest)] (some (.busy step)) [.act id rest]
  | written (step : Step) :
      TaskStep id (some (.busy step)) [.act id []] (some (.busy step)) [.arm id]
  | engage (step : Step) : TaskStep id (some (.busy step)) [.arm id] (some (.busy step)) [.wait id]
  | await (step : Step) : TaskStep id (some (.busy step)) [.wait id] (some (.waiting step)) []
  | awaited (step : Step) : TaskStep id (some (.busy step)) [.wait id] (some (.busy step)) [.disarm id]
  | release (step : Step) : TaskStep id (some (.waiting step)) [] (some (.busy step)) [.disarm id]
  | leave (step : Step) (job : Job) (last : job = .arm id ∨ job = .wait id ∨ job = .disarm id) :
      TaskStep id (some (.busy step)) [job] none [.next id]
  | stop : TaskStep id none [.next id] none []
  | step (step : Step) : TaskStep id none [.next id] (some (.busy step)) [.begin id]

theorem task_held (c : Course) (s : Sequence) (held : c.sequence = some s) : c.task? = s.task := by
  rw [Course.task?, held]
  rfl

theorem task_step_work (id : SequenceId) (c : Course) (job : Job) (rest : List Job)
    (work : job.isWork = true) (jobs : c.jobs = job :: rest) (sound : c.Sound id) :
    ∃ step, c.task? = some (.busy step) ∧ rest = [] := by
  obtain ⟨s, step, held, _, busy, empty⟩ := sound_work id c job rest work jobs sound
  exact ⟨step, (task_held c s held).trans busy, empty⟩

theorem task_step_proceeds (id : SequenceId) (s after : Sequence) (endings : Nat)
    (told : List Progress) (jobs : List Job) (proceeds : Proceeds s endings told after)
    (station : Station id s.task s.inFlight jobs) : TaskStep id s.task jobs after.task jobs := by
  cases proceeds with
  | stays => exact .stay _ _
  | pauses => exact .stay _ _
  | ends => exact .stay _ _
  | hands step rest active free unpaused queue =>
      rw [free] at station
      obtain ⟨none, rfl⟩ := station_idle station
      rw [none]
      exact .hand step

theorem task_step_between (id : SequenceId) (c after : Course) (before now : Option Task)
    (jobs later : List Job) (task : c.task? = before) (listed : c.jobs = jobs)
    (changed : after.task? = now) (relisted : after.jobs = later)
    (task_step : TaskStep id before jobs now later) : TaskStep id c.task? c.jobs after.task? after.jobs := by
  rw [task, listed, changed, relisted]
  exact task_step

theorem stroke_task_step (id : SequenceId) (c after : Course) (stroke : Stroke id c after)
    (sound : c.Sound id) : TaskStep id c.task? c.jobs after.task? after.jobs := by
  have stays : ∀ s changed : Sequence, c.sequence = some s → changed.task = s.task →
      TaskStep id c.task? c.jobs changed.task c.jobs := by
    intro s changed held same
    rw [task_held c s held, same]
    exact .stay _ _
  cases stroke with
  | create name registry channel pollInterval queue absent =>
      rw [Course.task?, absent]
      exact .stay _ _
  | enqueue s step count held => exact stays s _ held rfl
  | pause s held => exact stays s _ held rfl
  | withdraw s held _ _ => exact stays s _ held rfl
  | resume s next endings told held _ _ _ proceeds =>
      have task_step := task_step_proceeds id _ next endings told c.jobs proceeds
        ((sound_held id c s held).mp sound)
      exact task_step_between id c _ _ _ _ _ (task_held c s held) rfl rfl rfl task_step
  | activate s next endings told held _ proceeds =>
      have task_step := task_step_proceeds id _ next endings told c.jobs proceeds
        ((sound_held id c s held).mp sound)
      exact task_step_between id c _ _ _ _ _ (task_held c s held) rfl rfl rfl task_step
  | deactivate s held _ => exact stays s _ held rfl
  | clear s held _ => exact stays s _ held rfl
  | take s step held task =>
      rw [sound_held id c s held, task] at sound
      rw [task_held c s held, task, (station_fresh sound).2]
      exact .take step
  | release s step held task =>
      rw [sound_held id c s held, task] at sound
      rw [task_held c s held, task, (station_waiting sound).2]
      exact .release step
  | lost job rest jobs missing =>
      exact absurd missing (sound_unlost id c job rest jobs sound)
  | announce progress rest jobs =>
      obtain ⟨s, step, actions, held, _, busy, rfl⟩ := sound_announce id c progress rest jobs sound
      have task := (task_held c s held).trans busy
      exact task_step_between id c _ _ _ _ _ task jobs task rfl (.announce step progress actions)
  | begin s task rest held busy jobs =>
      obtain ⟨step, there, rfl⟩ := task_step_work id c _ rest rfl jobs sound
      rw [task_held c s held, busy] at there
      cases there
      exact task_step_between id c _ _ _ _ _ ((task_held c s held).trans busy) jobs busy rfl
        (.begin step _)
  | written rest jobs =>
      obtain ⟨step, busy, rfl⟩ := task_step_work id c _ rest rfl jobs sound
      exact task_step_between id c _ _ _ _ _ busy jobs busy rfl (.written step)
  | placeholder action more rest bare jobs =>
      obtain ⟨step, busy, rfl⟩ := task_step_work id c _ rest rfl jobs sound
      exact task_step_between id c _ _ _ _ _ busy jobs busy rfl (.pass step action more)
  | apply action value more rest given jobs =>
      obtain ⟨step, busy, rfl⟩ := task_step_work id c _ rest rfl jobs sound
      exact task_step_between id c _ _ _ _ _ busy jobs busy rfl (.apply step action _ more)
  | skip action value more rest given jobs =>
      obtain ⟨step, busy, rfl⟩ := task_step_work id c _ rest rfl jobs sound
      exact task_step_between id c _ _ _ _ _ busy jobs busy rfl (.pass step action more)
  | engage s rest held active jobs =>
      obtain ⟨step, busy, rfl⟩ := task_step_work id c _ rest rfl jobs sound
      exact task_step_between id c _ _ _ _ _ busy jobs busy rfl (.engage step)
  | refuse s rest held active jobs =>
      obtain ⟨step, busy, rfl⟩ := task_step_work id c _ rest rfl jobs sound
      rw [jobs, busy]
      exact .leave step _ (.inl rfl)
  | await s step expression rest held active task jobs =>
      obtain ⟨found, busy, rfl⟩ := task_step_work id c _ rest rfl jobs sound
      rw [task_held c s held] at busy
      rw [busy] at task
      cases task
      rw [jobs, task_held c s held, busy]
      exact .await found
  | awaited expression rest jobs =>
      obtain ⟨step, busy, rfl⟩ := task_step_work id c _ rest rfl jobs sound
      exact task_step_between id c _ _ _ _ _ busy jobs busy rfl (.awaited step)
  | leave s job rest held jobs last =>
      have work : job.isWork = true := by obtain rfl | rfl | rfl := last <;> rfl
      obtain ⟨step, busy, rfl⟩ := task_step_work id c _ rest work jobs sound
      rw [jobs, busy]
      exact .leave step job last
  | satisfied s expression rest held jobs =>
      obtain ⟨step, busy, rfl⟩ := task_step_work id c _ rest rfl jobs sound
      rw [jobs, busy]
      exact .leave step _ (.inr (.inr rfl))
  | stop s rest held inactive jobs =>
      obtain ⟨_, rfl, task⟩ := sound_next id c s rest held jobs sound
      rw [jobs, task_held c s held, task_held _ _ rfl, task]
      exact .stop
  | drain s rest held active _ jobs =>
      obtain ⟨_, rfl, task⟩ := sound_next id c s rest held jobs sound
      rw [jobs, task_held c s held, task_held _ _ rfl, task]
      exact .stop
  | halt s rest held active _ _ jobs =>
      obtain ⟨_, rfl, task⟩ := sound_next id c s rest held jobs sound
      rw [jobs, task_held c s held, task_held _ _ rfl, task]
      exact .stop
  | step s step queue rest held active _ _ jobs =>
      obtain ⟨_, rfl, task⟩ := sound_next id c s rest held jobs sound
      rw [jobs, task_held c s held, task]
      exact .step step
  | complete s endings held active pending => exact stays s _ held rfl
  | passed endings pending inactive => exact .stay _ _

-- A task at the trigger of its step.
inductive AtTrigger (id : SequenceId) (t : TriggerId) : Option Task → List Job → Prop where
  | engaged (step : Step) (waits : step.trigger = some t) :
      AtTrigger id t (some (.busy step)) [.wait id]
  | waiting (step : Step) (waits : step.trigger = some t) :
      AtTrigger id t (some (.waiting step)) []
  | leaving (step : Step) (waits : step.trigger = some t) :
      AtTrigger id t (some (.busy step)) [.disarm id]

inductive Arming (id : SequenceId) (t : TriggerId) : Option Task → List Job → Prop where
  | arming (step : Step) (waits : step.trigger = some t) :
      Arming id t (some (.busy step)) [.arm id]

theorem task_step_to_trigger (id : SequenceId) (t : TriggerId) (task later : Option Task)
    (jobs after : List Job) (task_step : TaskStep id task jobs later after)
    (there : AtTrigger id t later after) : AtTrigger id t task jobs ∨ Arming id t task jobs := by
  cases task_step with
  | stay => exact .inl there
  | engage step =>
      cases there with
      | engaged _ waits => exact .inr (.arming step waits)
  | await step =>
      cases there with
      | waiting _ waits => exact .inl (.engaged step waits)
  | awaited step =>
      cases there with
      | leaving _ waits => exact .inl (.engaged step waits)
  | release step =>
      cases there with
      | leaving _ waits => exact .inl (.waiting step waits)
  | hand | take | begin | announce | apply | pass | written | leave | stop | step =>
      nomatch there

theorem task_step_from_trigger (id : SequenceId) (t : TriggerId) (task later : Option Task)
    (jobs after : List Job) (task_step : TaskStep id task jobs later after)
    (here : AtTrigger id t task jobs) :
    AtTrigger id t later after ∨
      (jobs = [.wait id] ∨ jobs = [.disarm id]) ∧ after = [.next id] := by
  cases here with
  | engaged step waits =>
      cases task_step with
      | stay => exact .inl (.engaged step waits)
      | await => exact .inl (.waiting step waits)
      | awaited => exact .inl (.leaving step waits)
      | leave => exact .inr ⟨.inl rfl, rfl⟩
  | waiting step waits =>
      cases task_step with
      | stay => exact .inl (.waiting step waits)
      | release => exact .inl (.leaving step waits)
  | leaving step waits =>
      cases task_step with
      | stay => exact .inl (.leaving step waits)
      | leave => exact .inr ⟨.inr rfl, rfl⟩

theorem at_trigger_holds (id : SequenceId) (t : TriggerId) (c : Course)
    (here : AtTrigger id t c.task? c.jobs) : c.Holds t := by
  unfold Course.Holds
  generalize c.task? = task at here
  generalize c.jobs = jobs at here
  cases here with
  | engaged step waits => exact ⟨_, rfl, waits⟩
  | waiting step waits => exact ⟨_, rfl, waits⟩
  | leaving step waits => exact ⟨_, rfl, waits⟩

theorem arming_holds (id : SequenceId) (t : TriggerId) (c : Course)
    (here : Arming id t c.task? c.jobs) : c.Holds t := by
  unfold Course.Holds
  generalize c.task? = task at here
  generalize c.jobs = jobs at here
  cases here with
  | arming step waits => exact ⟨_, rfl, waits⟩

namespace Plant

def IsAtTrigger (plant : Plant) (id : SequenceId) (t : TriggerId) : Prop :=
  AtTrigger id t (plant.course id).task? (plant.course id).jobs

def IsArming (plant : Plant) (id : SequenceId) (t : TriggerId) : Prop :=
  Arming id t (plant.course id).task? (plant.course id).jobs

theorem course_jobs_mem (plant : Plant) (id : SequenceId) (job : Job) (part : job.partOf? = some id) :
    job ∈ (plant.course id).jobs ↔ job ∈ plant.agenda := by
  simp [course, part]

theorem at_trigger_jobs (plant : Plant) (id : SequenceId) (t : TriggerId)
    (here : plant.IsAtTrigger id t) (job : Job) (part : job.partOf? = some id)
    (member : job ∈ plant.agenda) : job = .wait id ∨ job = .disarm id := by
  rw [← course_jobs_mem plant id job part] at member
  unfold IsAtTrigger at here
  generalize (plant.course id).task? = task at here
  generalize (plant.course id).jobs = jobs at here member
  cases here with
  | engaged => exact .inl (List.mem_singleton.mp member)
  | waiting => contradiction
  | leaving => exact .inr (List.mem_singleton.mp member)

theorem move_task_step (plant next : Plant) (deed : Deed) (move : Move plant deed next)
    (id : SequenceId) (sound : (plant.course id).Sound id) :
    TaskStep id (plant.course id).task? (plant.course id).jobs (next.course id).task?
      (next.course id).jobs := by
  obtain same | stroke := drift_move plant next deed move id
  · rw [same]
    exact .stay _ _
  · exact stroke_task_step id _ _ stroke sound

theorem move_keeps_job (plant next : Plant) (deed : Deed) (move : Move plant deed next) (job : Job)
    (member : job ∈ plant.agenda) :
    job ∈ next.agenda ∨ deed = .job ∧ ∃ rest, plant.agenda = job :: rest := by
  cases move with
  | job _ stepped =>
      obtain ⟨head, rest, agenda, rfl⟩ := worked_off stepped
      rw [agenda] at member
      rcases List.mem_cons.mp member with rfl | behind
      · exact .inr ⟨rfl, rest, agenda⟩
      · left
        obtain ⟨jobs, grown⟩ := perform_grows { plant with agenda := rest } head
        rw [(still_retire _).agenda, grown]
        exact List.mem_append_right jobs behind
  | call command =>
      left
      obtain ⟨jobs, grown, _⟩ := lists_no_part_execute plant command
      rw [(still_retire _).agenda, grown]
      exact List.mem_append_right jobs member
  | turn runner =>
      left
      obtain ⟨jobs, grown, _⟩ := lists_turn plant runner
      rw [(still_retire _).agenda, grown]
      exact List.mem_append_right jobs member
  | dispatch change => exact .inl member

theorem move_to_trigger (plant next : Plant) (deed : Deed) (move : Move plant deed next)
    (id : SequenceId) (t : TriggerId) (sound : (plant.course id).Sound id)
    (there : next.IsAtTrigger id t) :
    plant.IsAtTrigger id t ∨
      plant.IsArming id t ∧ deed = .job ∧ ∃ rest, plant.agenda = .arm id :: rest := by
  rcases task_step_to_trigger id t _ _ _ _ (move_task_step plant next deed move id sound) there with
    here | arming
  · exact .inl here
  · right
    refine ⟨arming, ?_⟩
    have listed : Job.arm id ∈ (plant.course id).jobs := by
      generalize (plant.course id).task? = task at arming
      generalize (plant.course id).jobs = jobs at arming
      cases arming
      simp
    rw [course_jobs_mem plant id _ rfl] at listed
    rcases move_keeps_job plant next deed move _ listed with kept | performed
    · rcases at_trigger_jobs next id t there _ rfl kept with same | same <;> contradiction
    · exact performed

theorem move_from_trigger (plant next : Plant) (deed : Deed) (move : Move plant deed next)
    (id : SequenceId) (t : TriggerId) (sound : (plant.course id).Sound id)
    (here : plant.IsAtTrigger id t) :
    next.IsAtTrigger id t ∨ deed = .job ∧ (next.course id).jobs = [.next id] ∧
      ∃ job rest, plant.agenda = job :: rest ∧ (job = .wait id ∨ job = .disarm id) := by
  rcases task_step_from_trigger id t _ _ _ _ (move_task_step plant next deed move id sound) here with
    there | ⟨place, gone⟩
  · exact .inl there
  · right
    have part : ∃ job, (job = .wait id ∨ job = .disarm id) ∧ job.partOf? = some id ∧
        (plant.course id).jobs = [job] := by
      rcases place with alone | alone
      · exact ⟨_, .inl rfl, rfl, alone⟩
      · exact ⟨_, .inr rfl, rfl, alone⟩
    obtain ⟨job, kind, owned, alone⟩ := part
    have listed : job ∈ plant.agenda := by
      rw [← course_jobs_mem plant id job owned, alone]
      simp
    rcases move_keeps_job plant next deed move job listed with kept | ⟨rfl, rest, agenda⟩
    · rw [← course_jobs_mem next id job owned, gone, List.mem_singleton] at kept
      rcases kind with rfl | rfl <;> contradiction
    · exact ⟨rfl, gone, job, rest, agenda, kind⟩

end Plant

end Interlock
