import Interlock.Proofs.Plant.Conduct
import Interlock.Proofs.Plant.Move
import Interlock.Session.Report

/-!
The course of one sequence: all that a plant holds of it. Every move leaves the course of a sequence as
it is or carries it on by one stroke.
-/

set_option autoImplicit false

namespace Interlock

open Interlock.Graph
open Interlock.Schedule
open Interlock.Session (Command progressOf)

-- The parts of a step and what lies between two steps. The end of a run stands apart: it may be
-- still to come when the next run has begun.
def Job.partOf? : Job → Option SequenceId
  | .announce id _ | .begin id | .act id _ | .arm id | .wait id | .disarm id | .next id => some id
  | _ => none

def Job.endOf? : Job → Option SequenceId
  | .complete id => some id
  | _ => none

structure Course where
  sequence : Option Sequence
  jobs : List Job
  endings : Nat
  -- the latest first
  told : List Progress

inductive Proceeds : Sequence → Nat → List Progress → Sequence → Prop where
  | stays (s : Sequence) (held : s.active = false ∨ s.inFlight = true) : Proceeds s 0 [] s
  | pauses (s : Sequence) (active : s.active = true) (free : s.inFlight = false)
      (paused : s.paused = true) : Proceeds s 0 [.paused] { s with state := .paused }
  | ends (s : Sequence) (active : s.active = true) (free : s.inFlight = false)
      (unpaused : s.paused = false) (empty : s.queue = []) : Proceeds s 1 [] s
  | hands (s : Sequence) (step : Step) (rest : List Step) (active : s.active = true)
      (free : s.inFlight = false) (unpaused : s.paused = false) (queue : s.queue = step :: rest) :
      Proceeds s 0 [] { s with queue := rest, inFlight := true, task := some (.fresh step) }

-- A sequence that is stopped, and one whose task lets go of its step.
def Schedule.Sequence.stopped (s : Sequence) : Sequence :=
  { s with active := false, paused := false, queue := [], state := .cancelled }

def Schedule.Sequence.free (s : Sequence) : Sequence := { s with task := none }

inductive Stroke (id : SequenceId) : Course → Course → Prop where
  | create (c : Course) (name : String) (registry : RegistryId) (channel : ChannelId)
      (pollInterval : Nat) (queue : List Step) (absent : c.sequence = none) :
      Stroke id c
        { c with
          sequence := some { Sequence.create name registry channel pollInterval with queue := queue } }
  -- calls
  | enqueue (c : Course) (s : Sequence) (step : Step) (count : Nat) (held : c.sequence = some s) :
      Stroke id c
        { c with sequence := some { s with queue := s.queue ++ List.replicate count step } }
  | pause (c : Course) (s : Sequence) (held : c.sequence = some s) :
      Stroke id c { c with sequence := some { s with paused := true } }
  | withdraw (c : Course) (s : Sequence) (held : c.sequence = some s) (paused : s.paused = true)
      (unreached : s.active = false ∨ s.state ≠ .paused) :
      Stroke id c { c with sequence := some { s with paused := false } }
  | resume (c : Course) (s after : Sequence) (endings : Nat) (told : List Progress)
      (held : c.sequence = some s) (paused : s.paused = true) (active : s.active = true)
      (reached : s.state = .paused)
      (proceeds : Proceeds { s with paused := false, state := .running } endings told after) :
      Stroke id c
        { c with
          sequence := some after, endings := endings + c.endings, told := told ++ .resumed :: c.told }
  | activate (c : Course) (s after : Sequence) (endings : Nat) (told : List Progress)
      (held : c.sequence = some s) (inactive : s.active = false)
      (proceeds :
        Proceeds { s with active := true, executed := 0, state := .running } endings told after) :
      Stroke id c
        { c with
          sequence := some after, endings := endings + c.endings,
          told := told ++ .started s.name :: c.told }
  | deactivate (c : Course) (s : Sequence) (held : c.sequence = some s) (active : s.active = true) :
      Stroke id c { c with sequence := some s.stopped, told := .cancelled :: c.told }
  | clear (c : Course) (s : Sequence) (held : c.sequence = some s) (inactive : s.active = false) :
      Stroke id c { c with sequence := some { s with queue := [] } }
  -- turns
  | take (c : Course) (s : Sequence) (step : Step) (held : c.sequence = some s)
      (task : s.task = some (.fresh step)) :
      Stroke id c
        { c with sequence := some { s with task := some (.busy step) }, jobs := .begin id :: c.jobs }
  | release (c : Course) (s : Sequence) (step : Step) (held : c.sequence = some s)
      (task : s.task = some (.waiting step)) :
      Stroke id c
        { c with sequence := some { s with task := some (.busy step) }, jobs := .disarm id :: c.jobs }
  -- jobs
  | lost (c : Course) (job : Job) (rest : List Job) (jobs : c.jobs = job :: rest)
      (missing : c.sequence = none ∨ job = .begin id ∧ ∀ s, c.sequence = some s → s.task = none) :
      Stroke id c { c with jobs := rest }
  | announce (c : Course) (progress : Progress) (rest : List Job)
      (jobs : c.jobs = .announce id progress :: rest) :
      Stroke id c { c with jobs := rest, told := progress :: c.told }
  | begin (c : Course) (s : Sequence) (task : Task) (rest : List Job) (held : c.sequence = some s)
      (busy : s.task = some task) (jobs : c.jobs = .begin id :: rest) :
      Stroke id c
        { c with
          sequence := some { s with executed := s.executed + 1 },
          jobs :=
            .announce id (.stepStarted (s.executed + 1) task.step.source task.step.description) ::
              .act id task.step.actions :: rest }
  | written (c : Course) (rest : List Job) (jobs : c.jobs = .act id [] :: rest) :
      Stroke id c { c with jobs := .arm id :: rest }
  | placeholder (c : Course) (action : Action) (more : List Action) (rest : List Job)
      (bare : action.value = none) (jobs : c.jobs = .act id (action :: more) :: rest) :
      Stroke id c { c with jobs := .act id more :: rest }
  | apply (c : Course) (action : Action) (value : Value) (more : List Action) (rest : List Job)
      (given : action.value = some value) (jobs : c.jobs = .act id (action :: more) :: rest) :
      Stroke id c
        { c with jobs := .announce id (.actionApplied action.path value) :: .act id more :: rest }
  | skip (c : Course) (action : Action) (value : Value) (more : List Action) (rest : List Job)
      (given : action.value = some value) (jobs : c.jobs = .act id (action :: more) :: rest) :
      Stroke id c
        { c with jobs := .act id more :: rest, told := .actionSkipped action.path :: c.told }
  | engage (c : Course) (s : Sequence) (rest : List Job) (held : c.sequence = some s)
      (active : s.active = true) (jobs : c.jobs = .arm id :: rest) :
      Stroke id c { c with jobs := .wait id :: rest }
  | refuse (c : Course) (s : Sequence) (rest : List Job) (held : c.sequence = some s)
      (active : s.active = true) (jobs : c.jobs = .arm id :: rest) :
      Stroke id c
        { c with
          sequence := some s.stopped.free, jobs := .next id :: rest, told := .cancelled :: c.told }
  | await (c : Course) (s : Sequence) (step : Step) (expression : String) (rest : List Job)
      (held : c.sequence = some s) (active : s.active = true)
      (task : s.task.map Task.step = some step) (jobs : c.jobs = .wait id :: rest) :
      Stroke id c
        { c with
          sequence := some { s with task := some (.waiting step) }, jobs := rest,
          told := .waitingOnTrigger expression :: c.told }
  | awaited (c : Course) (expression : String) (rest : List Job) (jobs : c.jobs = .wait id :: rest) :
      Stroke id c
        { c with jobs := .disarm id :: rest, told := .waitingOnTrigger expression :: c.told }
  | leave (c : Course) (s : Sequence) (job : Job) (rest : List Job) (held : c.sequence = some s)
      (jobs : c.jobs = job :: rest) (last : job = .arm id ∨ job = .wait id ∨ job = .disarm id) :
      Stroke id c { c with sequence := some s.free, jobs := .next id :: rest }
  | satisfied (c : Course) (s : Sequence) (expression : String) (rest : List Job)
      (held : c.sequence = some s) (jobs : c.jobs = .disarm id :: rest) :
      Stroke id c
        { c with
          sequence := some s.free, jobs := .next id :: rest,
          told := .triggerSatisfied expression :: c.told }
  | stop (c : Course) (s : Sequence) (rest : List Job) (held : c.sequence = some s)
      (inactive : s.active = false) (jobs : c.jobs = .next id :: rest) :
      Stroke id c { c with sequence := some { s with inFlight := false }, jobs := rest }
  | drain (c : Course) (s : Sequence) (rest : List Job) (held : c.sequence = some s)
      (active : s.active = true) (empty : s.queue = []) (jobs : c.jobs = .next id :: rest) :
      Stroke id c
        { c with
          sequence := some { s with inFlight := false }, jobs := rest, endings := c.endings + 1 }
  | halt (c : Course) (s : Sequence) (rest : List Job) (held : c.sequence = some s)
      (active : s.active = true) (filled : s.queue ≠ []) (paused : s.paused = true)
      (jobs : c.jobs = .next id :: rest) :
      Stroke id c
        { c with
          sequence := some { s with inFlight := false, state := .paused }, jobs := rest,
          told := .paused :: c.told }
  | step (c : Course) (s : Sequence) (step : Step) (queue : List Step) (rest : List Job)
      (held : c.sequence = some s) (active : s.active = true) (filled : s.queue = step :: queue)
      (unpaused : s.paused = false) (jobs : c.jobs = .next id :: rest) :
      Stroke id c
        { c with
          sequence := some { s with queue := queue, task := some (.busy step) },
          jobs := .begin id :: rest }
  | complete (c : Course) (s : Sequence) (endings : Nat) (held : c.sequence = some s)
      (active : s.active = true) (pending : c.endings = endings + 1) :
      Stroke id c
        { c with
          sequence := some { s with active := false, state := .completed }, endings := endings,
          told := .completed :: c.told }
  | passed (c : Course) (endings : Nat) (pending : c.endings = endings + 1)
      (inactive : ∀ s, c.sequence = some s → s.active = false) :
      Stroke id c { c with endings := endings }

def Drift (id : SequenceId) (c after : Course) : Prop := after = c ∨ Stroke id c after

namespace Plant

def course (plant : Plant) (id : SequenceId) : Course :=
  { sequence := plant.sequences[id]?,
    jobs := plant.agenda.filter fun job => job.partOf? == some id,
    endings := plant.agenda.countP fun job => job.endOf? == some id,
    told := progressOf id plant.trace }

theorem foreign_part (job : Job) (foreign : job.owner? = none) :
    job.partOf? = none ∧ job.endOf? = none := by
  cases job <;> first | exact ⟨rfl, rfl⟩ | contradiction

theorem course_same (plant next : Plant) (id : SequenceId)
    (sequence : next.sequences[id]? = plant.sequences[id]?)
    (agenda : Adds (fun job => job.partOf? ≠ some id ∧ job.endOf? ≠ some id) plant next)
    (trace : ∃ entries, next.trace = entries ++ plant.trace ∧ progressOf id entries = []) :
    next.course id = plant.course id := by
  obtain ⟨jobs, grown, foreign⟩ := agenda
  obtain ⟨entries, longer, silent⟩ := trace
  have noPart : (jobs.filter fun job => job.partOf? == some id) = [] := by
    rw [List.filter_eq_nil_iff]
    intro job member
    simpa using (foreign job member).1
  have noEnd : (jobs.countP fun job => job.endOf? == some id) = 0 := by
    rw [List.countP_eq_zero]
    intro job member
    simpa using (foreign job member).2
  have told : progressOf id (entries ++ plant.trace) = progressOf id plant.trace := by
    unfold progressOf at silent ⊢
    rw [List.filterMap_append, silent, List.nil_append]
  simp only [course, sequence, grown, longer, List.filter_append, List.countP_append, noPart, noEnd,
    told, List.nil_append, Nat.zero_add]

theorem silent_entries (id : SequenceId) (entries : List Entry)
    (foreign : ∀ entry ∈ entries, entry.teller? = none) : progressOf id entries = [] := by
  unfold progressOf
  rw [List.filterMap_eq_nil_iff]
  intro entry member
  cases entry with
  | announced other progress => exact absurd (foreign _ member) (by simp [Entry.teller?])
  | notified | told | replied | logged => rfl

theorem course_quiet (plant next : Plant) (id : SequenceId) (quiet : Quiet plant next) :
    next.course id = plant.course id := by
  refine course_same plant next id (by rw [quiet.sequences]) ?_ ?_
  · refine adds_weaken _ _ (fun job foreign => ?_) _ _ quiet.agenda
    obtain ⟨noPart, noEnd⟩ := foreign_part job foreign
    simp [noPart, noEnd]
  · obtain ⟨entries, longer, foreign⟩ := quiet.trace
    exact ⟨entries, longer, silent_entries id entries foreign⟩

theorem course_inert (plant next : Plant) (id : SequenceId) (inert : Inert plant next) :
    next.course id = plant.course id := course_quiet plant next id inert.quiet

@[simp] theorem course_log (plant : Plant) (part : Log.Part) (level : Log.Level) (message : String)
    (details : List (String × Json.Tree)) (id : SequenceId) :
    (plant.log part level message details).course id = plant.course id :=
  course_inert _ _ id (inert_log plant part level message details)

@[simp] theorem course_dispatch (plant : Plant) (change : Dispatcher → Dispatcher)
    (id : SequenceId) : (plant.dispatch change).course id = plant.course id :=
  course_inert _ _ id (inert_dispatch plant change)

@[simp] theorem course_enqueue (plant : Plant) (runner : Runner) (id : SequenceId) :
    (plant.enqueue runner).course id = plant.course id := course_dispatch plant _ id

@[simp] theorem course_set_active (plant : Plant) (channel : ChannelId) (active : Bool)
    (id : SequenceId) : (plant.setActive channel active).course id = plant.course id :=
  course_inert _ _ id (inert_set_active plant channel active)

@[simp] theorem course_clear_subscribers (plant : Plant) (channel : ChannelId) (id : SequenceId) :
    (plant.clearSubscribers channel).course id = plant.course id :=
  course_inert _ _ id (inert_clear_subscribers plant channel)

@[simp] theorem course_write (plant : Plant) (channel : ChannelId) (value : Value)
    (id : SequenceId) : (plant.write channel value).course id = plant.course id :=
  course_inert _ _ id (inert_write plant channel value)

@[simp] theorem course_wake_task (plant : Plant) (other : SequenceId) (sequence : Sequence)
    (id : SequenceId) : (plant.wakeTask other sequence).course id = plant.course id := by
  unfold wakeTask
  split
  · exact course_enqueue _ _ id
  · rfl

@[simp] theorem course_tell_stage (plant : Plant) (sequence : Sequence) (command : String)
    (value : Option Value) (description : String) (id : SequenceId) :
    (plant.tellStage sequence command value description).course id = plant.course id :=
  course_inert _ _ id ((inert_read_clock plant).trans (inert_notify _ _ _))

@[simp] theorem course_rearm_trigger (plant : Plant) (trigger : TriggerId) (id : SequenceId) :
    (plant.rearmTrigger trigger).course id = plant.course id :=
  course_quiet _ _ id (quiet_rearm_trigger plant trigger)

@[simp] theorem course_deactivate_trigger (plant : Plant) (trigger : TriggerId) (id : SequenceId) :
    (plant.deactivateTrigger trigger).course id = plant.course id :=
  course_quiet _ _ id (quiet_deactivate_trigger plant trigger)

@[simp] theorem course_retire (plant : Plant) (id : SequenceId) :
    plant.retire.course id = plant.course id := course_quiet _ _ id (quiet_retire plant)

@[simp] theorem course_set_sequence (plant : Plant) (other : SequenceId) (sequence : Sequence)
    (id : SequenceId) : (plant.setSequence other sequence).course id =
      if other = id then
        { plant.course id with sequence := (plant.sequences[id]?).map fun _ => sequence }
      else plant.course id := by
  by_cases own : other = id
  · subst other
    rw [if_pos rfl]
    cases found : plant.sequences[id]? with
    | none =>
        have outside := List.getElem?_eq_none_iff.mp found
        simp [course, setSequence, Nat.not_lt.mpr outside]
    | some old =>
        have inside := (List.getElem?_eq_some_iff.mp found).1
        simp [course, setSequence, inside]
  · rw [if_neg own]
    simp [course, setSequence, own]

@[simp] theorem course_set_state (plant : Plant) (other : SequenceId) (sequence : Sequence)
    (state : State) (id : SequenceId) : (plant.setState other sequence state).course id =
      if other = id then
        { plant.course id with
          sequence := (plant.sequences[id]?).map fun _ => { sequence with state := state } }
      else plant.course id := by
  rw [setState, course_dispatch, course_set_sequence]

@[simp] theorem course_announce (plant : Plant) (other : SequenceId) (progress : Progress)
    (id : SequenceId) : (plant.announce other progress).course id =
      if other = id then { plant.course id with told := progress :: (plant.course id).told }
      else plant.course id := by
  by_cases own : other = id
  · subst other
    simp [course, announce, note, progressOf]
  · simp [course, announce, note, progressOf, own]

@[simp] theorem course_push (plant : Plant) (jobs : List Job) (id : SequenceId) :
    (plant.push jobs).course id =
      { plant.course id with
        jobs := (jobs.filter fun job => job.partOf? == some id) ++ (plant.course id).jobs,
        endings := (jobs.countP fun job => job.endOf? == some id) + (plant.course id).endings } := by
  simp [course, push]

end Plant

end Interlock
