import Interlock.Proofs.Plant.Dealing
import Interlock.Proofs.Plant.Ledger
import Interlock.Proofs.Plant.Writing

/-!
Cancellation. A sequence that has been stopped takes no further step from its queue. It still winds up the
step that was in flight: it publishes its text if that is to come, writes the rest of its actions and
reports them. When no step was in flight it does nothing at all.
-/

set_option autoImplicit false

namespace Interlock

open Interlock.Calendar (Instant)
open Interlock.Graph (TriggerId Trigger)
open Interlock.Schedule

-- What is left of the step in flight.
inductive Stage where
  | idle
  | ready (step : Step)
  | acting (rest : List Action)
  -- its trigger is being activated
  | armed
  | waiting

def stageOf (task : Option Task) : List Job → Stage
  | [] =>
      match task with
      | some (.fresh step) => .ready step
      | some (.waiting _) => .waiting
      | _ => .idle
  | .begin _ :: _ =>
      match task with
      | some task => .ready task.step
      | none => .idle
  | .announce _ _ :: .act _ actions :: _ => .acting actions
  | .act _ actions :: _ => .acting actions
  | .arm _ :: _ => .acting []
  | .wait _ :: _ => .armed
  | .disarm _ :: _ => .waiting
  | _ => .idle

def Course.stage (c : Course) : Stage := stageOf c.task? c.jobs

inductive Output where
  | publish (channel : ChannelId) (event : Event)
  | write (channel : ChannelId) (value : Value)
  | report (progress : Progress)

namespace Output

def report? : Output → Option Progress
  | report progress => some progress
  | publish _ _ | write _ _ => none

def carry (channels : List Channel) : Output → List Channel
  | write c value => channels.modify c fun channel => { channel with value := some value }
  | publish _ _ | report _ => channels

def calls (channels : List Channel) : Output → List Job
  | publish c event => ((channels[c]?).map fun channel => channel.audience event).getD []
  | write _ _ | report _ => []

end Output

-- What a sequence puts out from a stage on once it is stopped. The message of a step stands with its start,
-- and the write of an action with its report.
inductive Aftermath : Stage → List Output → Prop where
  | nothing (stage : Stage) : Aftermath stage []
  | begins (step : Step) (index : Nat) (own : ChannelId) (name : String) (stamp : Instant)
      (said : List Output) (acts : Aftermath (.acting step.actions) said) :
      Aftermath (.ready step)
        (.publish own
            ⟨name, stamp, Sequence.nextCommand, some (.text step.source), step.description⟩ ::
          .report (.stepStarted index step.source step.description) :: said)
  | bare (action : Action) (rest : List Action) (said : List Output) (bare : action.value = none)
      (acts : Aftermath (.acting rest) said) : Aftermath (.acting (action :: rest)) said
  | applied (action : Action) (value : Value) (rest : List Action) (c : ChannelId) (name : String)
      (stamp : Instant) (said : List Output) (given : action.value = some value)
      (acts : Aftermath (.acting rest) said) :
      Aftermath (.acting (action :: rest))
        (.write c value :: .publish c ⟨name, stamp, Event.valueCommand, some value, ""⟩ ::
          .report (.actionApplied action.path value) :: said)
  | skipped (action : Action) (value : Value) (rest : List Action) (said : List Output)
      (given : action.value = some value) (acts : Aftermath (.acting rest) said) :
      Aftermath (.acting (action :: rest)) (.report (.actionSkipped action.path) :: said)
  | unheeded (expression : String) (said : List Output) (waits : Aftermath .waiting said) :
      Aftermath .armed (.report (.waitingOnTrigger expression) :: said)
  | satisfied (expression : String) : Aftermath .waiting [.report (.triggerSatisfied expression)]

theorem aftermath_idle (outputs : List Output) (aftermath : Aftermath .idle outputs) : outputs = [] := by
  cases aftermath
  rfl

theorem aftermath_after_idle (stage : Stage) (outputs : List Output)
    (aftermath : Aftermath .idle outputs) : Aftermath stage outputs := by
  rw [aftermath_idle outputs aftermath]
  exact .nothing stage

structure Unwinds (c after : Course) (outputs : List Output) : Prop where
  voiced : after.voiced = c.voiced ++ outputs.filterMap Output.report?
  queue : after.queue = c.queue
  step : ∀ step ∈ after.task?.map Task.step, step ∈ c.task?.map Task.step
  stage : ∀ said, Aftermath after.stage said → Aftermath c.stage (outputs ++ said)

theorem stage_at (c : Course) (task : Option Task) (jobs : List Job) (holds : c.task? = task)
    (listed : c.jobs = jobs) : c.stage = stageOf task jobs := by
  rw [Course.stage, holds, listed]

theorem unwinds_silently (c after : Course) (voiced : after.voiced = c.voiced)
    (queue : after.queue = c.queue) (task : after.task?.map Task.step = c.task?.map Task.step)
    (stage : after.stage = c.stage) : Unwinds c after [] :=
  ⟨by rw [voiced, List.filterMap_nil, List.append_nil], queue, fun step member => task ▸ member,
    fun said aftermath => by rw [stage] at aftermath; exact aftermath⟩

namespace Plant

inductive Outputs (id : SequenceId) (plant : Plant) : List Output → Prop where
  | none : Outputs id plant []
  | report (progress : Progress) : Outputs id plant [.report progress]
  | start (s : Sequence) (event : Event) (progress : Progress) (held : plant.sequences[id]? = some s)
      (source : event.source = s.name) : Outputs id plant [.publish s.channel event, .report progress]
  | apply (s : Sequence) (path : String) (value : Value) (c : ChannelId) (event : Event)
      (held : plant.sequences[id]? = some s)
      (found : Registry.resolve? (plant.registry s.registry) path = some c) :
      Outputs id plant [.write c value, .publish c event, .report (.actionApplied path value)]

-- The channels hold what is written, and the listeners are called for what is published.
structure Emits (id : SequenceId) (plant next : Plant) (outputs : List Output) : Prop where
  kind : Outputs id plant outputs
  channels : next.channels = outputs.foldl Output.carry plant.channels
  calls : ∃ behind, (∀ job ∈ behind, job.call? = none) ∧
    next.agenda = outputs.flatMap (Output.calls plant.channels) ++ behind ++ plant.agenda

section

variable {id : SequenceId} {plant next : Plant}

theorem Mute.silent (mute : Mute plant next) : Emits id plant next [] := by
  obtain ⟨jobs, grown, hushed⟩ := mute.agenda
  exact ⟨.none, mute.channels, jobs, hushed, grown⟩

theorem Mute.reporting (mute : Mute plant next) (progress : Progress) :
    Emits id plant next [.report progress] := by
  obtain ⟨jobs, grown, hushed⟩ := mute.agenda
  exact ⟨.report progress, mute.channels, jobs, hushed, grown⟩

theorem notify_calls (plant : Plant) (c : ChannelId) (event : Event) :
    (plant.notify c event).2.channels = plant.channels ∧
      (plant.notify c event).2.agenda = (Output.publish c event).calls plant.channels ++ plant.agenda := by
  cases there : plant.channels[c]? with
  | none =>
      rw [notify, there, Output.calls, there]
      exact ⟨rfl, rfl⟩
  | some channel =>
      rw [Output.calls, there]
      exact (notify_audience plant c channel event there).2

theorem write_calls (plant : Plant) (c : ChannelId) (value : Value) : ∃ name stamp,
    (plant.write c value).channels = (Output.write c value).carry plant.channels ∧
      (plant.write c value).agenda =
        (Output.publish c ⟨name, stamp, Event.valueCommand, some value, ""⟩).calls plant.channels ++
          plant.agenda := by
  cases there : plant.channels[c]? with
  | none =>
      refine ⟨"", plant.now, ?_, ?_⟩
      · rw [write, there, Output.carry, List.modify_eq_self (List.getElem?_eq_none_iff.mp there)]
      · rw [write, there, Output.calls, there]
        rfl
  | some channel =>
      refine ⟨channel.assigned, plant.readClock.1, write_modifies plant c channel value there, ?_⟩
      rw [Output.calls, there]
      exact (write_audience plant c channel value there).2

end

def WindsUp (id : SequenceId) (c : Course) (plant next : Plant) : Prop :=
  ∃ outputs, Emits id plant next outputs ∧ Unwinds c (next.course id) outputs

section

variable {id : SequenceId} {plant : Plant}

theorem announce_winds_up (progress : Progress) (sound : (plant.pending id (.announce id progress)).Sound id) :
    WindsUp id (plant.pending id (.announce id progress)) plant (plant.announce id progress) := by
  obtain ⟨_, _, actions, _, _, _, rest⟩ := sound_announce id _ progress _ rfl sound
  refine ⟨[], Mute.silent (mute_same rfl), unwinds_silently _ _ ?_ ?_ ?_ ?_⟩
  · simp [Course.voiced, pending, Job.message?]
  · simp [Course.queue, pending]
  · simp [Course.task?, pending]
  · simp [Course.stage, stageOf, pending, rest]

theorem working_stage (job : Job) (work : job.isWork = true)
    (sound : (plant.pending id job).Sound id) :
    ∃ s step, plant.sequences[id]? = some s ∧ s.task = some (.busy step) ∧ (plant.course id).jobs = [] ∧
      (plant.pending id job).stage = stageOf (some (.busy step)) [job] := by
  obtain ⟨s, step, held, _, busy, rest⟩ := sound_work id _ job _ work rfl sound
  refine ⟨s, step, held, busy, rest, stage_at _ _ _ ((task_held _ s held).trans busy) ?_⟩
  rw [pending, rest]

theorem begin_winds_up (sound : (plant.pending id (.begin id)).Sound id) :
    WindsUp id (plant.pending id (.begin id)) plant (plant.beginStep id) := by
  obtain ⟨s, step, there, busy, rest, stage⟩ := working_stage (.begin id) rfl sound
  have current : plant.current? id = some (s, step) := by
    rw [current?, there]
    dsimp only
    rw [busy]
    rfl
  have begun : (plant.beginStep id).course id =
      { plant.course id with
        sequence := some { s with executed := s.executed + 1 },
        jobs :=
          [.announce id (.stepStarted (s.executed + 1) step.source step.description),
            .act id step.actions] } := by
    rw [beginStep, current]
    simp [Job.partOf?, Job.endOf?, there, rest]
  obtain ⟨ready, stamp, performed, listed, _, _, _, channels, _⟩ := begin_tells plant s step current
  let event : Event :=
    ⟨s.name, stamp, Sequence.nextCommand, some (.text step.source), step.description⟩
  obtain ⟨kept, called⟩ := notify_calls ready s.channel event
  refine ⟨[.publish s.channel event, .report (.stepStarted (s.executed + 1) step.source step.description)],
    ⟨.start s event _ there rfl, ?_, [.announce id (.stepStarted (s.executed + 1) step.source step.description),
      .act id step.actions], by simp [Job.call?], ?_⟩, ?_⟩
  · rw [performed, kept, channels]
    rfl
  · rw [performed, called, channels, listed]
    simp [Output.calls]
  · rw [begun]
    refine ⟨?_, ?_, ?_, fun said acts => ?_⟩
    · simp [Course.voiced, pending, rest, List.filterMap_cons, Job.message?, Output.report?]
    · simp [Course.queue, pending, there, course]
    · simp [Course.task?, pending, there, course]
    · rw [stage]
      exact .begins step _ _ _ _ said acts

theorem act_winds_up (actions : List Action) (sound : (plant.pending id (.act id actions)).Sound id) :
    WindsUp id (plant.pending id (.act id actions)) plant (plant.actNext id actions) := by
  obtain ⟨s, step, there, _, rest, stage⟩ := working_stage (.act id actions) rfl sound
  cases actions with
  | nil =>
      refine ⟨[], Mute.silent (mute_push plant [.arm id] (by simp [Job.call?])), ?_⟩
      refine unwinds_silently _ _ ?_ ?_ ?_ ?_
      · simp [actNext, Course.voiced, pending, List.filterMap_cons, Job.message?, Job.partOf?, rest]
      · simp [actNext, Course.queue, pending]
      · simp [actNext, Course.task?, pending]
      · rw [stage]
        simp [actNext, Course.stage, stageOf, Job.partOf?, rest]
  | cons action more =>
      cases given : action.value with
      | none =>
          obtain ⟨details, performed⟩ := act_bare plant action more there given
          rw [performed]
          refine ⟨[], Mute.silent ?_, ?_, ?_, ?_, fun said acts => ?_⟩
          · exact (mute_push plant [.act id more] (by simp [Job.call?])).then_same rfl
          · simp [Course.voiced, pending, List.filterMap_cons, Job.message?, Job.partOf?, rest]
          · simp [Course.queue, pending]
          · simp [Course.task?, pending]
          · rw [stage]
            exact .bare action more said given (by simpa [Course.stage, stageOf, Job.partOf?, rest] using acts)
      | some value =>
          cases found : Registry.resolve? (plant.registry s.registry) action.path with
          | none =>
              obtain ⟨details, performed⟩ := act_skips plant action more there value given found
              rw [performed]
              refine ⟨[.report (.actionSkipped action.path)], Mute.reporting ?_ _, ?_, ?_, ?_, fun said acts => ?_⟩
              · exact (mute_push plant [.act id more] (by simp [Job.call?])).then_same rfl
              · simp [Course.voiced, pending, List.filterMap_cons, Job.message?, Job.partOf?, rest,
                  Output.report?]
              · simp [Course.queue, pending]
              · simp [Course.task?, pending]
              · rw [stage]
                exact .skipped action value more said given
                  (by simpa [Course.stage, stageOf, Job.partOf?, rest] using acts)
          | some c =>
              have applied : (plant.actNext id (action :: more)).course id =
                  { plant.course id with
                    jobs := [.announce id (.actionApplied action.path value), .act id more] } := by
                rw [actNext, there]
                dsimp only
                rw [act, given]
                dsimp only
                rw [found]
                simp [Job.partOf?, Job.endOf?, rest]
              obtain ⟨ready, performed, listed, _, _, _, channels, _⟩ :=
                act_applies plant action more there value given c found
              obtain ⟨name, stamp, changed, called⟩ := write_calls ready c value
              refine ⟨[.write c value, .publish c ⟨name, stamp, Event.valueCommand, some value, ""⟩,
                .report (.actionApplied action.path value)], ⟨.apply s action.path value c _ there found, ?_,
                [.announce id (.actionApplied action.path value), .act id more], by simp [Job.call?], ?_⟩,
                ?_, ?_, ?_, fun said acts => ?_⟩
              · rw [performed, changed, channels]
                rfl
              · rw [performed, called, channels, listed]
                simp [Output.calls]
              · rw [applied]
                simp [Course.voiced, pending, List.filterMap_cons, Job.message?, rest, Output.report?]
              · rw [applied]
                rfl
              · rw [applied]
                exact fun step member => member
              · rw [stage]
                rw [applied] at acts
                exact .applied action value more c name stamp said given
                  (by simpa [Course.stage, stageOf] using acts)

theorem leave_unwinds (job : Job) (last : job = .arm id ∨ job = .wait id ∨ job = .disarm id)
    (sound : (plant.pending id job).Sound id) :
    Unwinds (plant.pending id job) ((plant.leaveStep id).course id) [] := by
  have work : job.isWork = true := by obtain rfl | rfl | rfl := last <;> rfl
  obtain ⟨s, step, held, _, busy, rest⟩ := sound_work id _ job _ work rfl sound
  rw [leave_own plant id s held]
  refine ⟨?_, ?_, ?_, fun said idle => aftermath_after_idle _ said idle⟩
  · obtain rfl | rfl | rfl := last <;>
      simp [Course.voiced, pending, List.filterMap_cons, Job.message?, rest]
  · simp [Course.queue, pending, Sequence.free, show (plant.course id).sequence = some s from held]
  · simp [Course.task?, Sequence.free]

theorem arm_winds_up (stopped : (plant.course id).Stopped) (sound : (plant.pending id (.arm id)).Sound id) :
    WindsUp id (plant.pending id (.arm id)) plant (plant.arm id) := by
  have running (s : Sequence) (t : TriggerId) (trigger : Trigger)
      (found : plant.currentTrigger? id = some (s, t, trigger)) : s.active = false := by
    obtain ⟨_, held, _⟩ := current_trigger_found plant id s t trigger found
    exact stopped s held
  have taken := plant.arm_case id
  generalize plant.arm id = next at taken ⊢
  cases taken with
  | leave => exact ⟨[], (mute_leave_step plant id).silent, leave_unwinds _ (.inl rfl) sound⟩
  | refuse s t trigger found active =>
      rw [running s t trigger found] at active
      contradiction
  | engage s t trigger _ _ found active =>
      rw [running s t trigger found] at active
      contradiction

theorem wait_winds_up (stopped : (plant.course id).Stopped) (sound : (plant.pending id (.wait id)).Sound id) :
    WindsUp id (plant.pending id (.wait id)) plant (plant.waitForTrigger id) := by
  have mute := mute_wait plant id
  obtain ⟨s, step, held, _, busy, rest⟩ := sound_work id _ (.wait id) _ rfl rfl sound
  cases found : plant.currentTrigger? id with
  | none =>
      have left : plant.waitForTrigger id = plant.leaveStep id := by rw [waitForTrigger, found]
      rw [left] at mute ⊢
      exact ⟨[], mute.silent, leave_unwinds _ (.inr (.inl rfl)) sound⟩
  | some current =>
      obtain ⟨s, t, trigger⟩ := current
      obtain ⟨_, held, _⟩ := current_trigger_found plant id s t trigger found
      have released : isReleased s trigger = true := by
        rw [isReleased, stopped s held]
        simp
      have waited : (plant.waitForTrigger id).course id =
          { plant.course id with
            jobs := [.disarm id], told := .waitingOnTrigger trigger.expression :: (plant.course id).told } := by
        rw [waitForTrigger, found]
        dsimp only
        rw [if_pos released]
        simp [Job.partOf?, Job.endOf?, rest]
      refine ⟨[.report (.waitingOnTrigger trigger.expression)], mute.reporting _, ?_⟩
      rw [waited]
      refine ⟨?_, rfl, fun step member => member, fun said waits => ?_⟩
      · simp [Course.voiced, pending, List.filterMap_cons, Job.message?, rest, Output.report?]
      · exact .unheeded trigger.expression said waits

theorem disarm_winds_up (sound : (plant.pending id (.disarm id)).Sound id) :
    WindsUp id (plant.pending id (.disarm id)) plant (plant.disarm id) := by
  have mute := mute_disarm plant id
  have taken := plant.disarm_case id
  generalize plant.disarm id = next at taken mute ⊢
  cases taken with
  | leave => exact ⟨[], mute.silent, leave_unwinds _ (.inr (.inr rfl)) sound⟩
  | unmet s t trigger found =>
      have same : (plant.deactivateTrigger t).pending id (.disarm id) = plant.pending id (.disarm id) := by
        rw [pending, course_deactivate_trigger, pending]
      refine ⟨[], mute.silent, ?_⟩
      rw [← same] at sound ⊢
      exact leave_unwinds _ (.inr (.inr rfl)) sound
  | satisfied s t trigger found details =>
      obtain ⟨_, held, _⟩ := current_trigger_found plant id s t trigger found
      obtain ⟨_, step, _, _, busy, rest⟩ := sound_work id _ (.disarm id) _ rfl rfl sound
      have told : ((((plant.deactivateTrigger t).log .sequence .debug "Trigger satisfied" details).announce id
          (.triggerSatisfied trigger.expression))).course id =
            { plant.course id with
              told := .triggerSatisfied trigger.expression :: (plant.course id).told } := by simp
      have ended := leave_own _ id s ((congrArg Course.sequence told).trans held)
      rw [told] at ended
      refine ⟨[.report (.triggerSatisfied trigger.expression)], mute.reporting _, ?_⟩
      rw [ended]
      refine ⟨?_, ?_, ?_, fun said idle => ?_⟩
      · simp [Course.voiced, pending, List.filterMap_cons, Job.message?, rest, Output.report?]
      · simp [Course.queue, pending, Sequence.free, course, held]
      · simp [Course.task?, Sequence.free]
      · rw [aftermath_idle said idle]
        exact .satisfied trigger.expression

theorem next_winds_up (stopped : (plant.course id).Stopped) (sound : (plant.pending id (.next id)).Sound id) :
    WindsUp id (plant.pending id (.next id)) plant (plant.nextStep id) := by
  obtain ⟨s, held, _⟩ := sound_flies id _ (.next id) _ rfl sound
  obtain ⟨_, rest, task⟩ := sound_next id _ s _ held rfl sound
  have there : plant.sequences[id]? = some s := held
  have ended : plant.nextStep id = plant.setSequence id { s with inFlight := false } := by
    rw [nextStep, there]
    dsimp only
    rw [stopped s held]
    rfl
  have course : (plant.nextStep id).course id =
      { plant.course id with sequence := some { s with inFlight := false } } := by
    rw [ended]
    simp [there]
  refine ⟨[], ?_, ?_⟩
  · rw [ended]
    exact Mute.silent (mute_same rfl)
  · rw [course]
    refine unwinds_silently _ _ ?_ ?_ ?_ ?_
    · simp [Course.voiced, pending, List.filterMap_cons, Job.message?]
    · rw [Course.queue, Course.queue, held]
      rfl
    · rw [task_held _ s held]
      rfl
    · refine (stage_at _ none [] ?_ ?_).trans (stage_at _ none [.next id] ?_ ?_).symm
      · exact task
      · exact rest
      · exact (task_held _ s held).trans task
      · rw [pending, rest]

theorem take_unwinds (plant : Plant) (s : Sequence) (task : Task) (job : Job) (held : plant.sequences[id]? = some s)
    (holds : s.task = some task) (jobs : (plant.course id).jobs = []) (part : job.partOf? = some id)
    (goesOn : job.endOf? = none ∧ job.message? = none)
    (stage : stageOf (some (.busy task.step)) [job] = stageOf (some task) []) :
    Unwinds (plant.course id)
      (((plant.setSequence id { s with task := some (.busy task.step) }).push [job]).course id) [] := by
  have taken : ((plant.setSequence id { s with task := some (.busy task.step) }).push [job]).course id =
      { plant.course id with sequence := some { s with task := some (.busy task.step) }, jobs := [job] } := by
    simp [part, goesOn.1, held, jobs]
  have busy : (plant.course id).task? = some task := (task_held _ s held).trans holds
  rw [taken]
  refine unwinds_silently _ _ ?_ ?_ ?_ ?_
  · simp [Course.voiced, jobs, goesOn.2]
  · simp [Course.queue, course, held]
  · rw [busy]
    rfl
  · rw [stage_at _ (some (.busy task.step)) [job] rfl rfl, stage, stage_at _ (some task) [] busy jobs]

theorem turn_winds_up (stopped : (plant.course id).Stopped) (sound : (plant.course id).Sound id) :
    WindsUp id (plant.course id) plant (plant.turnSequence id) := by
  have mute := mute_turn plant (.sequence id)
  refine ⟨[], mute.silent, ?_⟩
  have silently : Unwinds (plant.course id) (plant.course id) [] := unwinds_silently _ _ rfl rfl rfl rfl
  rw [turnSequence]
  split
  · exact silently
  · next s held =>
      have there : (plant.course id).sequence = some s := held
      split
      · next step task =>
          rw [sound_held id _ s there, task] at sound
          exact take_unwinds plant s (.fresh step) (.begin id) held task (station_fresh sound).2 rfl ⟨rfl, rfl⟩ rfl
      · next step task =>
          rw [sound_held id _ s there, task] at sound
          split
          · exact silently
          · next current t trigger found =>
              obtain ⟨_, again, _⟩ := current_trigger_found plant id current t trigger found
              obtain rfl : s = current := Option.some.inj (held.symm.trans again)
              have released : isReleased s trigger = true := by
                rw [isReleased, stopped s there]
                simp
              rw [if_pos released]
              exact take_unwinds (plant.dispatch _) s (.waiting step) (.disarm id) held task
                (station_waiting sound).2 rfl ⟨rfl, rfl⟩ rfl
      · exact silently

theorem complete_winds_up (stopped : (plant.course id).Stopped) :
    WindsUp id { plant.course id with endings := (plant.course id).endings + 1 } plant (plant.complete id) := by
  have vain : plant.complete id = plant := by
    rw [complete]
    split
    · rfl
    · next s held => rw [if_neg (by simp [stopped s held])]
  rw [vain]
  exact ⟨[], (Mute.refl plant).silent, unwinds_silently _ _ rfl rfl rfl rfl⟩

end

-- Whether a deed is work of a sequence: a turn of its task, or a job of its agenda.
def works (plant : Plant) (id : SequenceId) : Deed → Bool
  | .job => plant.agenda.head?.any fun job => job.partOf? == some id || job.endOf? == some id
  | .turn (.sequence other) => other == id
  | .turn _ | .call _ | .dispatch _ => false

section

variable {id : SequenceId} {plant next : Plant} {deed : Deed} {c : Course}

theorem WindsUp.retire (windsUp : WindsUp id c plant next) : WindsUp id c plant next.retire := by
  obtain ⟨outputs, ⟨kind, channels, behind, hushed, agenda⟩, unwinds⟩ := windsUp
  refine ⟨outputs, ⟨kind, (mute_retire next).channels.trans channels, behind, hushed, ?_⟩, ?_⟩
  · rw [(still_retire next).agenda, agenda]
  · rw [course_retire]
    exact unwinds

theorem perform_winds_up (ready : Plant) (job : Job) (part : job.partOf? = some id)
    (stopped : (ready.course id).Stopped) (sound : (ready.pending id job).Sound id) :
    WindsUp id (ready.pending id job) ready (ready.perform job) := by
  cases job with
  | announce other progress =>
      cases part
      exact announce_winds_up progress sound
  | begin other =>
      cases part
      exact begin_winds_up sound
  | act other actions =>
      cases part
      exact act_winds_up actions sound
  | arm other =>
      cases part
      exact arm_winds_up stopped sound
  | wait other =>
      cases part
      exact wait_winds_up stopped sound
  | disarm other =>
      cases part
      exact disarm_winds_up sound
  | next other =>
      cases part
      exact next_winds_up stopped sound
  | deliver | tell | leave | exhaust | command | conclude | write | settleDown | keepSubscription
  | closeRun | complete => contradiction

theorem work_winds_up (move : Move plant deed next) (works : plant.works id deed = true)
    (stopped : plant.Stopped id) (sound : (plant.course id).Sound id) :
    WindsUp id (plant.course id) (plant.rested deed) next := by
  cases move with
  | job _ stepped =>
      obtain ⟨job, rest, agenda, rfl⟩ := worked_off stepped
      refine WindsUp.retire ?_
      have still : (({ plant with agenda := rest } : Plant).course id).Stopped := stopped
      have before := course_job plant job rest agenda id
      simp only [rested, agenda, List.tail_cons]
      simp only [Plant.works, agenda, List.head?_cons, Option.any_some, Bool.or_eq_true, beq_iff_eq] at works
      rcases works with part | ends
      · have due : plant.course id = ({ plant with agenda := rest } : Plant).pending id job := by
          rw [before, pending]
          cases job <;> simp_all [Job.partOf?, Job.endOf?]
        rw [due] at sound ⊢
        exact perform_winds_up _ job part still sound
      · obtain ⟨_, rfl⟩ : ∃ other, job = .complete other := by
          cases job <;> simp_all [Job.endOf?]
        cases ends
        rw [before]
        simpa [perform, Job.partOf?, Job.endOf?, Nat.add_comm] using complete_winds_up still
  | turn runner =>
      cases runner with
      | sequence other =>
          obtain rfl := beq_iff_eq.mp works
          exact (turn_winds_up stopped sound).retire
      | device | stopped => contradiction
  | call | dispatch => contradiction

theorem perform_other (ready : Plant) (job : Job) (other : SequenceId) (part : job.partOf? = some other)
    (apart : other ≠ id) : (ready.perform job).course id = ready.course id := by
  cases job with
  | announce owner progress =>
      cases part
      simp [perform, apart]
  | begin owner =>
      cases part
      exact begin_other ready _ id apart
  | act owner actions =>
      cases part
      exact act_other ready _ id apart actions
  | arm owner =>
      cases part
      exact arm_other ready _ id apart
  | wait owner =>
      cases part
      exact wait_other ready _ id apart
  | disarm owner =>
      cases part
      exact disarm_other ready _ id apart
  | next owner =>
      cases part
      exact next_other ready _ id apart
  | deliver | tell | leave | exhaust | command | conclude | write | settleDown | keepSubscription
  | closeRun | complete => contradiction

theorem turn_other (plant : Plant) (other : SequenceId) (apart : other ≠ id) :
    (plant.turnSequence other).course id = plant.course id := by
  rw [turnSequence]
  split
  · rfl
  · split
    · simp [apart, Job.partOf?, Job.endOf?]
    · split
      · rfl
      · split
        · simp [apart, Job.partOf?, Job.endOf?]
        · simp [sleepTask]
    · rfl

theorem lists_no_part_relists (partless : ListsNoPart plant next) : ¬ Relists (plant.course id) (next.course id) := by
  obtain ⟨jobs, grown, apart⟩ := partless
  refine not_relists _ _ ?_ ?_
  · rw [course, grown, List.filter_append, List.filter_eq_nil_iff.mpr fun job member => by simp [apart job member]]
    rfl
  · simp [course, grown]

theorem aside_relists (move : Move plant deed next) (aside : plant.works id deed = false) :
    ¬ Relists (plant.course id) (next.course id) := by
  cases move with
  | job _ stepped =>
      obtain ⟨job, rest, agenda, rfl⟩ := worked_off stepped
      simp only [works, agenda, List.head?_cons, Option.any_some, Bool.or_eq_false_iff, beq_eq_false_iff_ne] at aside
      have before : plant.course id = ({ plant with agenda := rest } : Plant).course id := by
        rw [course_job plant job rest agenda id]
        simp [aside]
      rw [course_retire, before]
      cases part : job.partOf? with
      | none => exact lists_no_part_relists (lists_no_part_perform _ job part)
      | some other =>
          have apart : other ≠ id := fun same => aside.1 (part.trans (congrArg some same))
          rw [perform_other _ job other part apart]
          exact not_relists _ _ rfl (Nat.le_refl _)
  | call command =>
      rw [course_retire]
      exact lists_no_part_relists (lists_no_part_execute plant command)
  | turn runner =>
      rw [course_retire]
      cases runner with
      | sequence other =>
          rw [show (plant.turn (.sequence other)).course id = plant.course id from
            turn_other plant other (beq_eq_false_iff_ne.mp aside)]
          exact not_relists _ _ rfl (Nat.le_refl _)
      | device device => exact lists_no_part_relists (inert_turn_device plant device).detached.lists_no_part
      | stopped => exact not_relists _ _ rfl (Nat.le_refl _)
  | dispatch change => exact lists_no_part_relists (inert_dispatch plant change).detached.lists_no_part

-- What a stopped sequence does in a move. Its queue may grow, and is emptied by a call that disposes of it.
structure Does (id : SequenceId) (plant : Plant) (deed : Deed) (outputs : List Output) (next : Plant) :
    Prop where
  voiced : (next.course id).voiced = (plant.course id).voiced ++ outputs.filterMap Output.report?
  queue : (plant.course id).queue <+: (next.course id).queue ∨ plant.asks? id deed = some .dispose
  step : ∀ step ∈ (next.course id).task?.map Task.step, step ∈ (plant.course id).task?.map Task.step
  work : plant.works id deed = true → Emits id (plant.rested deed) next outputs
  aside : plant.works id deed = false → outputs = []

theorem answers_unwinds (summons : Summons) (c after : Course) (answers : Answers summons c after)
    (stopped : c.Stopped) (still : after.Stopped) :
    after.voiced = c.voiced ∧ after.stage = c.stage ∧ after.task? = c.task? ∧
      (c.queue <+: after.queue ∨ summons = .dispose) := by
  have keeps (s : Sequence) (task : c.task? = s.task)
      (queue : c.queue <+: s.queue ∨ summons = .dispose) :
      let after := { c with sequence := some s }
      after.voiced = c.voiced ∧ after.stage = c.stage ∧ after.task? = c.task? ∧
        (c.queue <+: after.queue ∨ summons = .dispose) :=
    ⟨rfl, congrArg (stageOf · c.jobs) task.symm, task.symm, queue⟩
  have filled (s : Sequence) (held : c.sequence = some s) : c.queue = s.queue := by
    rw [Course.queue, held]
    rfl
  cases answers with
  | create _ name registry channel pollInterval queue absent =>
      exact keeps _ (by rw [Course.task?, absent]; rfl) (.inl (by rw [Course.queue, absent]; exact List.nil_prefix))
  | push _ s steps held =>
      exact keeps _ (task_held c s held) (.inl (by rw [filled s held]; exact List.prefix_append _ _))
  | activate _ s next endings told held _ proceeds =>
      have active := still next rfl
      cases proceeds <;> contradiction
  | pause _ s held => exact keeps _ (task_held c s held) (.inl (by rw [filled s held]))
  | withdraw _ s held => exact keeps _ (task_held c s held) (.inl (by rw [filled s held]))
  | resume _ s next endings told held _ active =>
      rw [stopped s held] at active
      contradiction
  | stop _ _ s stops held active =>
      rw [stopped s held] at active
      contradiction
  | clear _ s held => exact keeps _ (task_held c s held) (.inr rfl)
  | vain => exact ⟨rfl, rfl, rfl, .inl (List.prefix_refl _)⟩

theorem move_does (move : Move plant deed next) (stopped : plant.Stopped id) (still : next.Stopped id)
    (sound : (plant.course id).Sound id) :
    ∃ outputs, Does id plant deed outputs next ∧
      ∀ said, Aftermath (next.course id).stage said → Aftermath (plant.course id).stage (outputs ++ said) := by
  cases works : plant.works id deed with
  | true =>
      obtain ⟨outputs, emits, unwinds⟩ := work_winds_up move works stopped sound
      refine ⟨outputs, ⟨unwinds.voiced, .inl ?_, unwinds.step, fun _ => emits, ?_⟩, unwinds.stage⟩
      · rw [unwinds.queue]
      · rw [works]
        exact nofun
  | false =>
      have silently (voiced : (next.course id).voiced = (plant.course id).voiced)
          (stage : (next.course id).stage = (plant.course id).stage)
          (task : (next.course id).task? = (plant.course id).task?)
          (queue : (plant.course id).queue <+: (next.course id).queue ∨ plant.asks? id deed = some .dispose) :
          ∃ outputs, Does id plant deed outputs next ∧ ∀ said, Aftermath (next.course id).stage said →
            Aftermath (plant.course id).stage (outputs ++ said) := by
        refine ⟨[], ⟨?_, queue, fun step member => task ▸ member, ?_, fun _ => rfl⟩, fun said aftermath => ?_⟩
        · rw [voiced, List.filterMap_nil, List.append_nil]
        · rw [works]
          exact nofun
        · rw [stage] at aftermath
          exact aftermath
      have idle : (plant.course id).Stopped := stopped
      have later : (next.course id).Stopped := still
      have dealt := move_deals plant next deed move id
      have unlisted := aside_relists move works
      generalize plant.course id = c, next.course id = after, plant.asks? id deed = summons at *
      cases dealt with
      | stays => exact silently rfl rfl rfl (.inl (List.prefix_refl _))
      | answers summons c after answers =>
          obtain ⟨voiced, stage, task, queue⟩ := answers_unwinds summons _ _ answers idle later
          exact silently voiced stage task (queue.imp_right (congrArg some))
      | works _ _ _ relists => exact absurd relists unlisted

end

-- A run during which a sequence stays stopped.
inductive StoppedRun (id : SequenceId) : Plant → List Deed → Plant → Prop where
  | rest (plant : Plant) : StoppedRun id plant [] plant
  | move (plant next last : Plant) (deed : Deed) (deeds : List Deed) (move : Move plant deed next)
      (still : next.Stopped id) (later : StoppedRun id next deeds last) :
      StoppedRun id plant (deed :: deeds) last

-- A run with all that the sequence puts out. A deed has one outcome only, so the deeds are the run.
inductive Unwound (id : SequenceId) : Plant → List Deed → List Output → Plant → Prop where
  | rest (plant : Plant) : Unwound id plant [] [] plant
  | move (plant next last : Plant) (deed : Deed) (deeds : List Deed) (outputs said : List Output)
      (move : Move plant deed next) (does : Does id plant deed outputs next)
      (later : Unwound id next deeds said last) :
      Unwound id plant (deed :: deeds) (outputs ++ said) last

section

variable {id : SequenceId} {plant next : Plant} {deeds : List Deed} {outputs : List Output}

theorem unwound_voiced (unwound : Unwound id plant deeds outputs next) :
    (next.course id).voiced = (plant.course id).voiced ++ outputs.filterMap Output.report? := by
  induction unwound with
  | rest => simp
  | move _ _ _ _ _ _ _ _ does _ ih =>
      rw [ih, does.voiced, List.filterMap_append, List.append_assoc]

theorem unwound_step (unwound : Unwound id plant deeds outputs next) :
    ∀ step ∈ (next.course id).task?.map Task.step, step ∈ (plant.course id).task?.map Task.step := by
  induction unwound with
  | rest => exact fun step member => member
  | move _ _ _ _ _ _ _ _ does _ ih => exact fun step member => does.step step (ih step member)

theorem stopped_unwinds (run : StoppedRun id plant deeds next) (reached : plant.Reached)
    (stopped : plant.Stopped id) :
    ∃ outputs, Unwound id plant deeds outputs next ∧ Aftermath (plant.course id).stage outputs := by
  induction run with
  | rest plant => exact ⟨[], .rest plant, .nothing _⟩
  | move plant next last deed deeds move still _ ih =>
      obtain ⟨outputs, does, unwinds⟩ := move_does move stopped still (reached_sound plant reached id)
      obtain ⟨said, unwound, aftermath⟩ := ih (reached_move plant next reached deed move) still
      exact ⟨outputs ++ said, .move plant next last deed deeds outputs said move does unwound,
        unwinds said aftermath⟩

theorem idle_stage (c : Course) (sound : c.Sound id)
    (idle : ∀ s, c.sequence = some s → s.inFlight = false) : c.stage = .idle := by
  cases held : c.sequence with
  | none =>
      rw [sound_absent id c held] at sound
      exact stage_at c none [] (by rw [Course.task?, held]; rfl) sound
  | some s =>
      rw [sound_held id c s held, idle s held] at sound
      obtain ⟨task, jobs⟩ := station_idle sound
      exact stage_at c none [] ((task_held c s held).trans task) jobs

theorem follows_stopped (plant : Plant) (deeds : List Deed)
    (passed : follows (fun _ _ next => decide (next.Stopped id)) plant deeds = true) :
    StoppedRun id plant deeds (deeds.foldl after plant) := by
  induction deeds generalizing plant with
  | nil => exact .rest plant
  | cons deed rest ih =>
      simp only [follows, Bool.and_eq_true, decide_eq_true_eq] at passed
      exact .move plant _ _ deed rest (after_orderly plant deed passed.1.1).move passed.1.2 (ih _ passed.2)

end

-- Until it is activated again, all that a stopped sequence writes, publishes and reports is what its step in
-- flight still does. Move by move no step is taken from the queue, and without a step in flight nothing is
-- put out.
theorem stopped_sequence_aftermath (plant next : Plant) (id : SequenceId) (deeds : List Deed)
    (reached : plant.Reached) (stopped : plant.Stopped id) (run : StoppedRun id plant deeds next) :
    ∃ outputs, Unwound id plant deeds outputs next ∧ Aftermath (plant.course id).stage outputs ∧
      (next.course id).voiced = (plant.course id).voiced ++ outputs.filterMap Output.report? ∧
      (∀ step ∈ (next.course id).task?.map Task.step, step ∈ (plant.course id).task?.map Task.step) ∧
      ((∀ s, plant.sequences[id]? = some s → s.inFlight = false) → outputs = []) := by
  obtain ⟨outputs, unwound, aftermath⟩ := stopped_unwinds run reached stopped
  refine ⟨outputs, unwound, aftermath, unwound_voiced unwound, unwound_step unwound, fun idle => ?_⟩
  rw [idle_stage _ (reached_sound plant reached id) idle] at aftermath
  exact aftermath_idle outputs aftermath

-- A sequence is stopped before its task has had a turn, and its step is executed all the same.
def stoppedEarly : Plant :=
  (blank ⟨0, 0⟩ true).runAll
    [.channel (.make "out" true none (some "Bath.Pump") false), .sequence (.make "s" 100),
      .sequence (.step "p" "Bath.Pump=1" none ""), .sequence (.push "s" "p" 1),
      .sequence (.activate "s"), .sequence (.deactivate "s")]

def stoppedLate : List Deed := .turn (.sequence 0) :: List.replicate 7 .job

theorem stopped_early_aftermath :
    (stoppedEarly.Stopped 0 ∧ (stoppedEarly.course 0).told.map Progress.name = ["Cancelled", "Started"]) ∧
      ∃ outputs, Unwound 0 stoppedEarly stoppedLate outputs (stoppedLate.foldl after stoppedEarly) ∧
        Aftermath (stoppedEarly.course 0).stage outputs ∧
        ((stoppedLate.foldl after stoppedEarly).course 0).told.map Progress.name =
          ["ActionApplied", "StepStarted", "Cancelled", "Started"] ∧
        (stoppedLate.foldl after stoppedEarly).channels[0]?.bind (fun channel => channel.value) =
          some (.number 1) := by
  have reached : stoppedEarly.Reached :=
    ⟨⟨0, 0⟩, true, run_all_runs (fun _ _ _ => true) (fun _ _ _ done _ => done.move) _ _
      (by decide +kernel)⟩
  obtain ⟨outputs, unwound, aftermath, _⟩ := stopped_sequence_aftermath stoppedEarly _ 0 stoppedLate reached
    (by decide +kernel) (follows_stopped stoppedEarly stoppedLate (by decide +kernel))
  exact ⟨by decide +kernel, outputs, unwound, aftermath, by decide +kernel, by decide +kernel⟩

end Plant

end Interlock
