import Interlock.Proofs.Plant.Release

/-!
Gating. A task takes its next step only when the trigger of the last one has been true, on the values
that its variables had after the actions of that step were written.
-/

set_option autoImplicit false

namespace Interlock

open Interlock.Graph
open Interlock.Schedule
open Interlock.Session (Command TriggerCommand)

theorem arming_station (id : SequenceId) (t : TriggerId) (c : Course) (sound : c.Sound id)
    (listed : Job.arm id ∈ c.jobs) (holds : c.Holds t) : Arming id t c.task? c.jobs := by
  obtain ⟨task, busy, waits⟩ := holds
  obtain ⟨s, held, running⟩ := Option.bind_eq_some_iff.mp busy
  have station := (sound_held id c s held).mp sound
  have same : s.task = some task := running
  rw [Option.mem_def.mp busy]
  rw [same] at station
  generalize c.jobs = jobs at station listed
  generalize flight : s.inFlight = flies at station
  cases station with
  | arming step => exact .arming step waits
  | fresh | waiting => contradiction
  | begun | telling | acting | engaged | leaving => simp at listed

theorem task_step_engages (id : SequenceId) (t : TriggerId) (task later : Option Task)
    (jobs after : List Job) (task_step : TaskStep id task jobs later after) (arming : Arming id t task jobs)
    (listed : Job.wait id ∈ after) : AtTrigger id t later after := by
  cases arming with
  | arming step waits =>
      cases task_step with
      | stay => simp at listed
      | engage => exact .engaged step waits
      | leave => simp at listed

theorem task_step_stays (id : SequenceId) (t : TriggerId) (task later : Option Task)
    (jobs after : List Job) (task_step : TaskStep id task jobs later after) (arming : Arming id t task jobs)
    (listed : Job.arm id ∈ after) : Arming id t later after := by
  cases arming with
  | arming step waits =>
      cases task_step with
      | stay => exact .arming step waits
      | engage => simp at listed
      | leave => simp at listed

namespace Plant

-- A move with which only the task of one sequence drives the trigger.
structure Serves (id : SequenceId) (t : TriggerId) (plant : Plant) (deed : Deed) (next : Plant) :
    Prop where
  orderly : OrderlyMove plant deed next
  undriven : ∀ command ∈ plant.order? deed, ¬ plant.Drives t command
  sole : ∀ other, plant.Holds other t → other = id

theorem spoils_drives (plant : Plant) (t : TriggerId) (command : Command)
    (spoils : plant.Spoils t command) : plant.Drives t command := by
  cases command with
  | trigger command =>
      cases command with
      | deactivate | rearm | evaluate => exact spoils
      | make | activate | state | drop | watch | look => exact spoils.elim
  | var | comparison | channel | device | sequence | workspace | subscribe | unsubscribe =>
      exact spoils.elim

theorem serves_unspoiled (id : SequenceId) (t : TriggerId) (plant : Plant) (deed : Deed) (next : Plant)
    (serves : Serves id t plant deed next) : UnspoiledMove t plant deed next :=
  ⟨serves.orderly.move, fun command ordered spoils =>
    serves.undriven command ordered (spoils_drives plant t command spoils)⟩

def Attended (plant : Plant) (id : SequenceId) (t : TriggerId) : Prop :=
  ∀ trigger, plant.triggers[t]? = some trigger → trigger.active = true → plant.IsAtTrigger id t

theorem missing_spares (t : TriggerId) (plant : Plant) (job : Job)
    (missing : plant.triggers[t]? = none)
    (undriven : ∀ label command, job = .command label command → ¬ plant.Drives t command) :
    Spares t plant (plant.perform job) := by
  by_cases touched : plant.Touches t job
  · cases job with
    | deliver listener notification =>
        cases listener with
        | trigger other =>
            cases touched
            have same : plant.hear t notification.stamp = plant := by
              unfold hear
              rw [missing]
            rw [perform, deliver, same]
            exact .refl t plant
        | observer | comparison | follower => exact touched.elim
    | exhaust other =>
        cases touched
        have same : plant.exhaust t = plant := by
          unfold exhaust
          rw [missing]
        rw [perform, same]
        exact .refl t plant
    | arm id =>
        rw [perform, arm, current_missing_trigger t plant id missing touched]
        exact spares_leave_step t plant id
    | disarm id =>
        rw [perform, disarm, current_missing_trigger t plant id missing touched]
        exact spares_leave_step t plant id
    | command label command => exact absurd touched (undriven label command rfl)
    | tell | leave | conclude | write | settleDown | keepSubscription | closeRun | announce | begin
    | act | wait | next | complete => exact touched.elim
  · exact spares_perform t plant job touched

def Dormant (plant : Plant) (t : TriggerId) : Prop :=
  ∀ trigger, plant.triggers[t]? = some trigger → trigger.active = false

theorem dormant_spares (t : TriggerId) (plant next : Plant) (spares : Spares t plant next)
    (dormant : plant.Dormant t) : next.Dormant t := by
  intro after found
  cases there : plant.triggers[t]? with
  | none => exact (spares.made there after found).inactive
  | some trigger =>
      obtain ⟨same, still, core⟩ := spares.kept trigger there
      cases found.symm.trans still
      exact (core_alike core).active.trans (dormant trigger there)

theorem dormant_retire (t : TriggerId) (plant : Plant) (dormant : plant.Dormant t) :
    plant.retire.Dormant t := by
  refine retire_keeps (fun plant => plant.Dormant t) ?_ ?_ ?_ plant dormant
  · intro plant id dormant _
    by_cases own : id = t
    · subst own
      have same : plant.deactivateTrigger id = plant := by
        unfold deactivateTrigger
        split
        · rfl
        · rename_i trigger there
          rw [if_neg (by simp [dormant trigger there])]
      rw [same]
      exact dormant
    · exact dormant_spares t plant _ (spares_deactivate_trigger t plant id own) dormant
  · exact fun plant id dormant =>
      dormant_spares t plant _ ((inert_deactivate_comparison plant id).spares t) dormant
  · exact fun plant id dormant =>
      dormant_spares t plant _ ((inert_deactivate_device plant id).spares t) dormant

theorem missing_move (id : SequenceId) (t : TriggerId) (plant next : Plant) (deed : Deed)
    (serves : Serves id t plant deed next) (missing : plant.triggers[t]? = none) : next.Dormant t := by
  have dormant : plant.Dormant t := fun trigger there => by
    rw [missing] at there
    contradiction
  obtain ⟨⟨move, _⟩, undriven, _⟩ := serves
  cases move with
  | job _ stepped =>
      obtain ⟨job, rest, agenda, rfl⟩ := worked_off stepped
      refine dormant_retire t _ (dormant_spares t { plant with agenda := rest } _
        (missing_spares t _ job missing ?_) dormant)
      rintro label command rfl
      exact undriven command (by simp [order?, agenda])
  | call command =>
      exact dormant_retire t _
        (dormant_spares t plant _ (spares_execute t plant command (undriven command rfl)) dormant)
  | turn runner => exact dormant_retire t _ (dormant_spares t plant _ (spares_turn t plant runner) dormant)
  | dispatch change => exact dormant_spares t plant _ ((inert_dispatch plant change).spares t) dormant

theorem wait_fate (plant : Plant) (id : SequenceId) (t : TriggerId) (s : Sequence) (task : Task)
    (trigger : Trigger) (held : plant.sequences[id]? = some s) (busy : s.task = some task)
    (waits : task.step.trigger = some t) (there : plant.triggers[t]? = some trigger) :
    ((plant.waitForTrigger id).agenda = .disarm id :: plant.agenda ∧
        (plant.waitForTrigger id).sequences = plant.sequences ∧
        (trigger.latest = true ∨ s.active = false)) ∨
      (plant.waitForTrigger id).agenda = plant.agenda := by
  unfold waitForTrigger
  rw [current_held t plant id s task trigger held busy waits there]
  dsimp only
  split
  · rename_i released
    refine .inl ⟨rfl, rfl, ?_⟩
    simpa [isReleased] using released
  · exact .inr rfl

theorem leaves_by_disarming (id : SequenceId) (t : TriggerId) (plant next : Plant) (deed : Deed)
    (move : Move plant deed next) (sound : (plant.course id).Sound id) (trigger : Trigger)
    (there : plant.triggers[t]? = some trigger) (here : plant.IsAtTrigger id t) :
    next.IsAtTrigger id t ∨ deed = .job ∧ ∃ rest, plant.agenda = .disarm id :: rest := by
  rcases move_from_trigger plant next deed move id t sound here with
    stays | ⟨rfl, left, job, rest, agenda, rfl | rfl⟩
  · exact .inl stays
  · have holds : plant.Holds id t := at_trigger_holds id t _ here
    obtain ⟨s, task, held, busy, waits⟩ := holds_found t plant id holds
    have gone : Job.next id ∈ next.agenda := by
      rw [← course_jobs_mem _ id _ rfl, left]
      simp
    rw [job_next plant next _ rest move agenda, (still_retire _).agenda, perform] at gone
    have kept : Job.next id ∈ rest := by
      rcases wait_fate { plant with agenda := rest } id t s task trigger held busy waits there with
        ⟨listed, _⟩ | listed
      · rw [listed] at gone
        simpa using gone
      · rw [listed] at gone
        exact gone
    exact absurd (by rw [agenda]; exact List.mem_cons_of_mem _ kept) (at_trigger_stays plant id t here)
  · exact .inr ⟨rfl, rest, agenda⟩

theorem attended_idle (id : SequenceId) (t : TriggerId) (plant next : Plant) (deed : Deed)
    (settled : Settled t plant) (serves : Serves id t plant deed next) (trigger later : Trigger)
    (there : plant.triggers[t]? = some trigger) (idle : trigger.active = false)
    (found_later : next.triggers[t]? = some later) (active : later.active = true) :
    next.IsAtTrigger id t := by
  have move := serves.orderly.move
  have unspoiled := serves_unspoiled id t plant deed next serves
  obtain ⟨between, after, found, fate, retired⟩ := move_fate t plant next deed move trigger there
    (settled.joined trigger there) unspoiled.commands
  have listens : after.active = true := by
    rcases retired with rfl | rfl
    · obtain ⟨last, still, core | ended⟩ := retire_fate between t after found
      · cases found_later.symm.trans still
        exact (core_alike core).active.symm.trans active
      · cases found_later.symm.trans still
        rw [ended.idle] at active
        contradiction
    · cases found_later.symm.trans found
      exact active
  have agenda : next.agenda = between.agenda := by
    rcases retired with rfl | rfl
    · exact (still_retire between).agenda
    · rfl
  have never : ∀ ended : Trigger, ended.active = false → after.active = ended.active →
      next.IsAtTrigger id t := fun ended off same => by
    rw [same, off] at listens
    contradiction
  cases fate with
  | same core => exact never trigger idle (core_alike core).active
  | heard active _ _ =>
      rw [idle] at active
      contradiction
  | armed other performs holds _ _ _ waits =>
      cases serves.sole other holds
      obtain ⟨rfl, rest, listed⟩ := performs
      have arms : Job.arm id ∈ (plant.course id).jobs :=
        (course_jobs_mem plant id _ rfl).mpr (by simp [listed])
      have arming := arming_station id t _ (settled.sound id) arms holds
      refine task_step_engages id t _ _ _ _ (move_task_step plant next _ move id (settled.sound id)) arming ?_
      rw [course_jobs_mem next id _ rfl, agenda]
      exact waits
  | driven command ordered drives _ => exact absurd drives (serves.undriven command ordered)
  | exhausted _ ended => exact never after ended.idle rfl
  | disarmed _ _ _ ended => exact never after ended.idle rfl
  | refused _ _ _ _ _ _ core =>
      exact never trigger.rearm (rearmed_idle trigger idle).1 (core_alike core).active

theorem attended_move (id : SequenceId) (t : TriggerId) (plant next : Plant) (deed : Deed)
    (settled : Settled t plant) (serves : Serves id t plant deed next)
    (attended : plant.Attended id t) : next.Attended id t := by
  intro later found_later active
  have move := serves.orderly.move
  cases there : plant.triggers[t]? with
  | none =>
      rw [missing_move id t plant next deed serves there later found_later] at active
      contradiction
  | some trigger =>
      cases listens : trigger.active with
      | false =>
          exact attended_idle id t plant next deed settled serves trigger later there listens found_later
            active
      | true =>
          have here := attended trigger there listens
          rcases leaves_by_disarming id t plant next deed move (settled.sound id) trigger there here with
            stays | ⟨rfl, rest, agenda⟩
          · exact stays
          · have holds : plant.Holds id t := at_trigger_holds id t _ here
            obtain ⟨s, task, held, busy, waits⟩ := holds_found t plant id holds
            obtain ⟨after, found, ended⟩ := disarm_fate { plant with agenda := rest } id t s task trigger
              held busy waits there
            rw [job_next plant next _ rest move agenda] at found_later
            obtain ⟨last, still, kept⟩ := retire_fate _ t after found
            cases found_later.symm.trans still
            have idle : later.active = false := by
              rcases kept with core | ended_too
              · exact (core_alike core).active.trans ended.idle
              · exact ended_too.idle
            rw [idle] at active
            contradiction

theorem perform_parts (plant : Plant) (id : SequenceId) (job part : Job) (own : part.partOf? = some id)
    (other : job.partOf? ≠ some id) (listed : part ∈ (plant.perform job).agenda) :
    part ∈ plant.agenda := by
  have same : ∀ runner, job.partOf? = some runner →
      (runner ≠ id → (plant.perform job).course id = plant.course id) → part ∈ plant.agenda := by
    intro runner owner unchanged
    have apart : runner ≠ id := by
      rintro rfl
      exact other owner
    rw [← course_jobs_mem _ id part own, unchanged apart, course_jobs_mem plant id part own] at listed
    exact listed
  cases owner : job.partOf? with
  | none =>
      obtain ⟨jobs, grown, foreign⟩ := lists_no_part_perform plant job owner
      rw [grown] at listed
      rcases List.mem_append.mp listed with new | old
      · rw [foreign part new] at own
        contradiction
      · exact old
  | some runner =>
      cases job with
      | announce runner progress => exact same runner rfl fun apart => by simp [perform, apart]
      | begin runner => exact same runner rfl (begin_other plant runner id)
      | act runner actions => exact same runner rfl fun apart => act_other plant runner id apart actions
      | arm runner => exact same runner rfl (arm_other plant runner id)
      | wait runner => exact same runner rfl (wait_other plant runner id)
      | disarm runner => exact same runner rfl (disarm_other plant runner id)
      | next runner => exact same runner rfl (next_other plant runner id)
      | deliver | tell | leave | exhaust | command | conclude | write | settleDown | keepSubscription
      | closeRun | complete => contradiction

theorem stopped_sequences (plant next : Plant) (id : SequenceId)
    (same : next.sequences = plant.sequences) (stopped : plant.Stopped id) : next.Stopped id := by
  intro s found
  have held : next.sequences[id]? = some s := found
  rw [same] at held
  exact stopped s held

theorem left_retire (plant : Plant) (id : SequenceId) (left : plant.Left id) : plant.retire.Left id :=
  ⟨stopped_sequences plant _ id (retire_sequences plant) left.1, by
    rw [(still_retire plant).agenda]
    exact left.2⟩

theorem turn_sequence_fate (plant : Plant) (id : SequenceId) :
    (plant.turnSequence id).agenda = plant.agenda ∨
      (plant.turnSequence id).agenda = .begin id :: plant.agenda ∨
      ∃ s t trigger after, plant.currentTrigger? id = some (s, t, trigger) ∧
        isReleased s trigger = true ∧ (plant.turnSequence id).agenda = .disarm id :: plant.agenda ∧
        (plant.turnSequence id).sequences[id]? = some after ∧ after.active = s.active := by
  unfold turnSequence
  split
  · exact .inl rfl
  · rename_i s held
    split
    · exact .inr (.inl rfl)
    · rename_i step task
      split
      · exact .inl rfl
      · rename_i found t trigger reached
        obtain ⟨_, there, _⟩ := current_trigger_found plant id found t trigger reached
        split
        · rename_i released
          refine .inr (.inr ⟨found, t, trigger, { found with task := some (.busy step) }, reached, released,
            rfl, ?_, rfl⟩)
          have inside := (List.getElem?_eq_some_iff.mp there).1
          simp [push, setSequence, dispatch, inside]
        · exact .inl rfl
    · exact .inl rfl

theorem turn_released (plant : Plant) (id : SequenceId) (t : TriggerId) (trigger : Trigger)
    (runner : Runner) (rests : plant.agenda = []) (there : plant.triggers[t]? = some trigger)
    (low : trigger.latest = false) (holds : plant.Holds id t)
    (listed : Job.disarm id ∈ (plant.turn runner).agenda) :
    (plant.turn runner).Stopped id ∧ (plant.turn runner).agenda.head? = some (.disarm id) := by
  have nothing : Job.disarm id ∉ plant.agenda := by simp [rests]
  cases runner with
  | device other =>
      obtain ⟨jobs, grown, foreign⟩ := (inert_turn_device plant other).detached.lists_no_part
      rw [turn, grown] at listed
      rcases List.mem_append.mp listed with new | old
      · have none_of := foreign _ new
        contradiction
      · exact absurd old nothing
  | stopped => exact absurd listed nothing
  | sequence other =>
      rw [turn] at listed ⊢
      rcases turn_sequence_fate plant other with
        same | begins | ⟨s, found, reached, after, current, released, disarms, kept, active⟩
      · rw [same] at listed
        exact absurd listed nothing
      · rw [begins, rests] at listed
        simp at listed
      · have own : id = other := by
          rw [disarms, rests] at listed
          simpa using listed
        subst own
        obtain ⟨held, task, there_too, busy, waits⟩ := holds_found t plant id holds
        rw [current_held t plant id held task trigger there_too busy waits there] at current
        cases current
        refine ⟨?_, by rw [disarms]; rfl⟩
        intro later found_later
        have same : (plant.turnSequence id).sequences[id]? = some later := found_later
        cases kept.symm.trans same
        rw [active]
        simpa [isReleased, low] using released

def Fulfilled (plant : Plant) (t : TriggerId) : Prop :=
  ∃ trigger, plant.triggers[t]? = some trigger ∧ plant.Fulfils trigger

def InFlight (plant : Plant) (id : SequenceId) : Prop :=
  ∃ s, plant.sequences[id]? = some s ∧ s.inFlight = true

-- The task has written the actions of its step and its trigger has not been true since: the trigger
-- is still to be armed, or the task waits for it, or its sequence has been stopped.
inductive Unmet (id : SequenceId) (t : TriggerId) (plant : Plant) : Prop where
  | arming (trigger : Trigger) (there : plant.triggers[t]? = some trigger)
      (here : plant.IsArming id t)
  | waiting (trigger : Trigger) (there : plant.triggers[t]? = some trigger)
      (here : plant.IsAtTrigger id t) (low : trigger.latest = false)
      (givenUp : Job.disarm id ∈ plant.agenda →
        plant.Stopped id ∧ plant.agenda.head? = some (.disarm id))
  | left (left : plant.Left id)

-- The task is at its trigger, and the expression of the trigger is true.
def Met (plant : Plant) (id : SequenceId) (t : TriggerId) : Prop :=
  plant.IsAtTrigger id t ∧ plant.Fulfilled t

theorem unmet_or_met (id : SequenceId) (t : TriggerId) (next : Plant) (after : Trigger)
    (there : next.triggers[t]? = some after) (here : next.IsAtTrigger id t)
    (shown : next.LatestFulfils after)
    (givenUp : Job.disarm id ∈ next.agenda → next.Stopped id ∧ next.agenda.head? = some (.disarm id)) :
    Unmet id t next ∨ next.Met id t := by
  cases latest : after.latest with
  | true => exact .inr ⟨here, after, there, shown latest⟩
  | false => exact .inl (.waiting after there here latest givenUp)

theorem part_first (plant next : Plant) (deed : Deed) (job : Job) (orderly : OrderlyMove plant deed next)
    (first : plant.agenda.head? = some job) (inner : job.isDelivery = false) :
    (deed = .job ∧ ∃ rest, plant.agenda = job :: rest) ∨
      (next.agenda = plant.agenda ∧ next.sequences = plant.sequences) := by
  obtain ⟨rest, agenda⟩ := List.head?_eq_some_iff.mp first
  obtain ⟨move, order⟩ := orderly
  cases move with
  | job _ stepped => exact .inl ⟨rfl, rest, agenda⟩
  | call command =>
      have delivery := order job first
      rw [inner] at delivery
      contradiction
  | turn runner =>
      have rests : plant.agenda = [] := order
      rw [agenda] at rests
      contradiction
  | dispatch change => exact .inr ⟨rfl, rfl⟩

theorem unmet_left (id : SequenceId) (t : TriggerId) (plant next : Plant) (deed : Deed)
    (orderly : OrderlyMove plant deed next) (sound : (plant.course id).Sound id) (left : plant.Left id)
    (flies : next.InFlight id) : Unmet id t next := by
  rcases part_first plant next deed (.next id) orderly left.2 rfl with
    ⟨rfl, rest, agenda⟩ | ⟨agenda, sequences⟩
  · -- a stopped sequence takes no step, and then nothing is in flight
    cases held : plant.sequences[id]? with
    | none =>
        have listed := (course_jobs_mem plant id _ rfl).mpr (left_next plant id left)
        rw [(sound_absent id _ held).mp sound] at listed
        contradiction
    | some s =>
        have inactive : s.active = false := left.1 s held
        have inside := (List.getElem?_eq_some_iff.mp held).1
        obtain ⟨after, found, flying⟩ := flies
        rw [job_next plant next _ rest orderly.move agenda, retire_sequences, perform, nextStep] at found
        dsimp only at found
        rw [held] at found
        simp only [inactive, Bool.not_false, if_true, setSequence, List.getElem?_set_self inside] at found
        cases found
        contradiction
  · refine .left ⟨stopped_sequences plant next id sequences left.1, ?_⟩
    rw [agenda]
    exact left.2

theorem wait_listed (id : SequenceId) (t : TriggerId) (plant : Plant) (here : plant.IsAtTrigger id t)
    (listed : Job.wait id ∈ plant.agenda) : Job.disarm id ∉ plant.agenda := by
  rw [← course_jobs_mem plant id _ rfl] at listed ⊢
  unfold IsAtTrigger at here
  generalize (plant.course id).task? = task at here
  generalize (plant.course id).jobs = jobs at here listed
  cases here with
  | engaged => simp
  | waiting => contradiction
  | leaving => simp at listed

theorem unmet_armed (id : SequenceId) (t : TriggerId) (plant next : Plant) (rest : List Job)
    (trigger : Trigger) (settled : Settled t plant) (attended : plant.Attended id t)
    (serves : Serves id t plant .job next) (agenda : plant.agenda = .arm id :: rest)
    (there : plant.triggers[t]? = some trigger) (arming : plant.IsArming id t) :
    Unmet id t next ∨ next.Met id t := by
  have move := serves.orderly.move
  have done := job_next plant next _ rest move agenda
  have holds : plant.Holds id t := arming_holds id t _ arming
  have idle : trigger.active = false := by
    cases active : trigger.active with
    | false => rfl
    | true => exact absurd rfl (armed_apart t plant id id rest agenda (attended trigger there active))
  obtain ⟨s, task, held, busy, waits⟩ := holds_found t plant id holds
  have joined := joined_agenda plant rest trigger (settled.joined trigger there)
  obtain ⟨after, found, fate⟩ := arm_fate { plant with agenda := rest } id t s task trigger held busy
    waits there joined
  rcases fate with ⟨left, _⟩ | ⟨wait, active, core | ⟨_, shown⟩⟩
  · rw [done]
    exact .inl (.left (left_retire _ id left))
  · rw [(core_alike core).active, idle] at active
    contradiction
  · have listed : Job.wait id ∈ next.agenda := by
      rw [done, (still_retire _).agenda]
      exact wait
    have here : next.IsAtTrigger id t :=
      task_step_engages id t _ _ _ _ (move_task_step plant next _ move id (settled.sound id)) arming
        ((course_jobs_mem next id _ rfl).mpr listed)
    have unspoiled := serves_unspoiled id t plant .job next serves
    have sound := (settled_unspoiled t plant next .job settled unspoiled).sound id
    have givenUp : Job.disarm id ∈ next.agenda → next.Stopped id ∧
        next.agenda.head? = some (.disarm id) := fun disarms =>
      absurd disarms (wait_listed id t next here listed)
    subst done
    have spares := retire_spares _ id t sound (at_trigger_holds id t _ here)
    obtain ⟨later, still, same⟩ := spares.kept after found
    refine unmet_or_met id t _ later still here ?_ givenUp
    intro latest
    exact fulfils_same _ _ after later same (still_retire _).values spares.comparisons
      (shown ((core_alike same).latest.symm.trans latest))

theorem unmet_arming (id : SequenceId) (t : TriggerId) (plant next : Plant) (deed : Deed)
    (trigger : Trigger) (settled : Settled t plant) (attended : plant.Attended id t)
    (serves : Serves id t plant deed next) (there : plant.triggers[t]? = some trigger)
    (arming : plant.IsArming id t) : Unmet id t next ∨ next.Met id t := by
  have move := serves.orderly.move
  have unspoiled := serves_unspoiled id t plant deed next serves
  have sound := (settled_unspoiled t plant next deed settled unspoiled).sound id
  have listed : Job.arm id ∈ plant.agenda := by
    rw [← course_jobs_mem plant id _ rfl]
    unfold IsArming at arming
    generalize (plant.course id).task? = task at arming
    generalize (plant.course id).jobs = jobs at arming
    cases arming
    simp
  rcases move_keeps_job plant next deed move _ listed with kept | ⟨rfl, rest, agenda⟩
  · have still : next.IsArming id t :=
      task_step_stays id t _ _ _ _ (move_task_step plant next deed move id (settled.sound id)) arming
        ((course_jobs_mem next id _ rfl).mpr kept)
    obtain ⟨after, found, _⟩ := held_fate t plant next deed move trigger there
      (settled.joined trigger there) unspoiled.commands id sound (arming_holds id t _ still)
    exact .inl (.arming after found still)
  · exact unmet_armed id t plant next rest trigger settled attended serves agenda there arming

theorem disarm_left (plant : Plant) (id : SequenceId) (t : TriggerId) (trigger : Trigger)
    (there : plant.triggers[t]? = some trigger) (holds : plant.Holds id t)
    (stopped : plant.Stopped id) : (plant.disarm id).Left id := by
  obtain ⟨s, task, held, busy, waits⟩ := holds_found t plant id holds
  have inactive : s.active = false := stopped s held
  have kept : (plant.deactivateTrigger t).sequences[id]? = some s := by
    rw [(quiet_deactivate_trigger plant t).sequences, held]
  unfold disarm
  rw [current_held t plant id s task trigger held busy waits there]
  dsimp only
  split
  · exact leave_step_left _ id s kept inactive
  · exact leave_step_left _ id s kept inactive

theorem over_stopped (id : SequenceId) (t : TriggerId) (plant next : Plant) (deed : Deed)
    (trigger : Trigger) (orderly : OrderlyMove plant deed next)
    (there : plant.triggers[t]? = some trigger) (low : trigger.latest = false)
    (here : plant.IsAtTrigger id t) (stays : next.IsAtTrigger id t)
    (givenUp : Job.disarm id ∈ plant.agenda →
      plant.Stopped id ∧ plant.agenda.head? = some (.disarm id))
    (listed : Job.disarm id ∈ next.agenda) :
    next.Stopped id ∧ next.agenda.head? = some (.disarm id) := by
  have holds : plant.Holds id t := at_trigger_holds id t _ here
  obtain ⟨move, order⟩ := orderly
  by_cases before : Job.disarm id ∈ plant.agenda
  · obtain ⟨stopped, first⟩ := givenUp before
    rcases part_first plant next deed (.disarm id) ⟨move, order⟩ first rfl with
      ⟨rfl, rest, agenda⟩ | ⟨agenda, sequences⟩
    · exact absurd rfl (disarmed_apart t plant next id id rest trigger move agenda there holds stays)
    · exact ⟨stopped_sequences plant next id sequences stopped, by rw [agenda, first]⟩
  · cases move with
    | job _ stepped =>
        obtain ⟨job, rest, agenda, rfl⟩ := worked_off stepped
        rw [(still_retire _).agenda] at listed ⊢
        have behind : Job.disarm id ∉ rest := fun member => before (by simp [agenda, member])
        by_cases own : job.partOf? = some id
        · have waits : job = .wait id := by
            rcases at_trigger_jobs plant id t here job own (by simp [agenda]) with same | same
            · exact same
            · exact absurd (by simp [agenda, same]) before
          subst waits
          obtain ⟨s, task, held, busy, waits⟩ := holds_found t plant id holds
          rcases wait_fate { plant with agenda := rest } id t s task trigger held busy waits there with
            ⟨grown, sequences, released⟩ | same
          · refine ⟨?_, by rw [perform, grown]; rfl⟩
            have inactive : s.active = false := by
              rcases released with latest | inactive
              · rw [low] at latest
                contradiction
              · exact inactive
            have stopped : plant.Stopped id := by
              intro other found
              cases held.symm.trans found
              exact inactive
            exact stopped_sequences plant _ id ((retire_sequences _).trans sequences) stopped
          · rw [perform, same] at listed
            exact absurd listed behind
        · exact absurd (perform_parts _ id job _ rfl own listed) behind
    | call command =>
        rw [(still_retire _).agenda] at listed
        obtain ⟨jobs, grown, foreign⟩ := lists_no_part_execute plant command
        rw [grown] at listed
        rcases List.mem_append.mp listed with new | old
        · have none_of := foreign _ new
          contradiction
        · exact absurd old before
    | turn runner =>
        rw [(still_retire _).agenda] at listed ⊢
        obtain ⟨stopped, first⟩ := turn_released plant id t trigger runner order there low holds listed
        exact ⟨stopped_sequences _ _ id (retire_sequences _) stopped, first⟩
    | dispatch change => exact absurd listed before

theorem unmet_waiting (id : SequenceId) (t : TriggerId) (plant next : Plant) (deed : Deed)
    (trigger : Trigger) (settled : Settled t plant) (serves : Serves id t plant deed next)
    (there : plant.triggers[t]? = some trigger) (here : plant.IsAtTrigger id t)
    (low : trigger.latest = false)
    (givenUp : Job.disarm id ∈ plant.agenda →
      plant.Stopped id ∧ plant.agenda.head? = some (.disarm id)) :
    Unmet id t next ∨ next.Met id t := by
  have move := serves.orderly.move
  have unspoiled := serves_unspoiled id t plant deed next serves
  have sound := (settled_unspoiled t plant next deed settled unspoiled).sound id
  rcases leaves_by_disarming id t plant next deed move (settled.sound id) trigger there here with
    stays | ⟨rfl, rest, agenda⟩
  · have over_next := over_stopped id t plant next deed trigger serves.orderly there low here stays givenUp
    obtain ⟨after, found, fate⟩ := held_fate t plant next deed move trigger there
      (settled.joined trigger there) unspoiled.commands id sound (at_trigger_holds id t _ stays)
    have low : after.latest = trigger.latest → Unmet id t next ∨ next.Met id t := fun same =>
      .inl (.waiting after found stays (same.trans low) over_next)
    cases fate with
    | same core => exact low (core_alike core).latest
    | heard _ _ shown => exact unmet_or_met id t next after found stays shown over_next
    | armed _ _ _ _ _ shown _ => exact unmet_or_met id t next after found stays shown over_next
    | driven command ordered drives _ => exact absurd drives (serves.undriven command ordered)
    | exhausted _ ended => exact low ended.latest
    | disarmed _ _ _ ended => exact low ended.latest
    | refused other rest performs holds _ _ _ =>
        exact absurd (serves.sole other holds) (armed_apart t plant id other rest performs.2 here)
  · -- the task gives up its wait for a sequence that has been stopped
    obtain ⟨stopped, _⟩ := givenUp (by simp [agenda])
    have holds : plant.Holds id t := at_trigger_holds id t _ here
    rw [job_next plant next _ rest move agenda]
    exact .inl (.left (left_retire _ id
      (disarm_left { plant with agenda := rest } id t trigger there holds stopped)))

theorem unmet_move (id : SequenceId) (t : TriggerId) (plant next : Plant) (deed : Deed)
    (settled : Settled t plant) (attended : plant.Attended id t) (serves : Serves id t plant deed next)
    (flies : next.InFlight id) (unmet : Unmet id t plant) : Unmet id t next ∨ next.Met id t := by
  cases unmet with
  | arming trigger there here =>
      exact unmet_arming id t plant next deed trigger settled attended serves there here
  | waiting trigger there here low givenUp =>
      exact unmet_waiting id t plant next deed trigger settled serves there here low givenUp
  | left left =>
      exact .inl (unmet_left id t plant next deed serves.orderly (settled.sound id) left flies)

def Begins (plant : Plant) (id : SequenceId) : Prop := Job.begin id ∈ plant.agenda

theorem next_alone (id : SequenceId) (c : Course) (sound : c.Sound id)
    (listed : Job.next id ∈ c.jobs) : c.jobs = [.next id] := by
  cases held : c.sequence with
  | none =>
      rw [(sound_absent id c held).mp sound] at listed
      contradiction
  | some s =>
      have station := (sound_held id c s held).mp sound
      generalize c.jobs = jobs at station listed ⊢
      generalize s.task = task at station
      generalize s.inFlight = flight at station
      cases station with
      | between => rfl
      | idle | fresh | waiting => contradiction
      | begun | telling | acting | arming | engaged | leaving => simp at listed

theorem unmet_begins (id : SequenceId) (t : TriggerId) (plant : Plant)
    (sound : (plant.course id).Sound id) (unmet : Unmet id t plant) : ¬ plant.Begins id := by
  intro begins
  have listed := (course_jobs_mem plant id _ rfl).mpr begins
  cases unmet with
  | arming trigger there here =>
      unfold IsArming at here
      generalize (plant.course id).task? = task at here
      generalize (plant.course id).jobs = jobs at here listed
      cases here
      simp at listed
  | waiting trigger there here low givenUp =>
      rcases at_trigger_jobs plant id t here _ rfl begins with same | same <;> contradiction
  | left left =>
      have next := (course_jobs_mem plant id _ rfl).mpr (left_next plant id left)
      rw [next_alone id _ sound next] at listed
      simp at listed

theorem attended_runs (id : SequenceId) (t : TriggerId) (start : Calendar.Instant)
    (hasRuntime : Bool) (plant : Plant) (run : Runs (Serves id t) (blank start hasRuntime) plant) :
    Settled t plant ∧ plant.Attended id t := by
  refine runs_invariant (fun plant => Settled t plant ∧ plant.Attended id t) ?_ _ plant ?_ run
  · rintro plant deed next ⟨settled, attended⟩ serves
    exact ⟨settled_unspoiled t plant next deed settled (serves_unspoiled id t plant deed next serves),
      attended_move id t plant next deed settled serves attended⟩
  · exact ⟨settled_blank t, fun _ there => nomatch there⟩

def Continues (id : SequenceId) (t : TriggerId) (plant next : Plant) : Prop :=
  ∃ deed, Serves id t plant deed next ∧ next.InFlight id

theorem unmet_path (id : SequenceId) (t : TriggerId) (path : List Plant) (plant last : Plant)
    (settled : Settled t plant) (attended : plant.Attended id t) (unmet : Unmet id t plant)
    (chain : List.IsChain (Continues id t) (plant :: (path ++ [last]))) (begins : last.Begins id) :
    ∃ moment ∈ path, moment.Met id t := by
  induction path generalizing plant with
  | nil =>
      obtain ⟨⟨deed, serves, flies⟩, _⟩ := List.isChain_cons_cons.mp chain
      have settled_last := settled_unspoiled t plant last deed settled
        (serves_unspoiled id t plant deed last serves)
      rcases unmet_move id t plant last deed settled attended serves flies unmet with unmet_last | met
      · exact absurd begins (unmet_begins id t last (settled_last.sound id) unmet_last)
      · rcases at_trigger_jobs last id t met.1 _ rfl begins with same | same <;> contradiction
  | cons next rest ih =>
      obtain ⟨⟨deed, serves, flies⟩, later⟩ := List.isChain_cons_cons.mp chain
      have settled_next := settled_unspoiled t plant next deed settled
        (serves_unspoiled id t plant deed next serves)
      have attended_next := attended_move id t plant next deed settled serves attended
      rcases unmet_move id t plant next deed settled attended serves flies unmet with unmet_next | met
      · obtain ⟨moment, member, met⟩ := ih next settled_next attended_next unmet_next later
        exact ⟨moment, List.mem_cons_of_mem next member, met⟩
      · exact ⟨next, List.mem_cons_self, met⟩

-- Between the last action of a step with a trigger and the start of the next step of the same task
-- there is a moment at which the task is at the trigger and its expression is true.
theorem step_gated (id : SequenceId) (t : TriggerId) (start : Calendar.Instant) (hasRuntime : Bool)
    (plant : Plant) (run : Runs (Serves id t) (blank start hasRuntime) plant)
    (written : Job.arm id ∈ plant.agenda) (s : Sequence) (trigger : Trigger)
    (current : plant.currentTrigger? id = some (s, t, trigger)) (path : List Plant) (last : Plant)
    (chain : List.IsChain (Continues id t) (plant :: (path ++ [last]))) (begins : last.Begins id) :
    ∃ moment ∈ path, moment.Met id t := by
  obtain ⟨settled, attended⟩ := attended_runs id t start hasRuntime plant run
  obtain ⟨task, held, busy, waits, there⟩ := current_trigger_found plant id s t trigger current
  have holds : plant.Holds id t := ⟨task, (task_held _ s held).trans busy, waits⟩
  have arming := arming_station id t _ (settled.sound id) ((course_jobs_mem plant id _ rfl).mpr written)
    holds
  exact unmet_path id t path plant last settled attended (.arming trigger there arming) chain begins

def arms (id : SequenceId) : Job → Bool
  | .arm other => other == id
  | _ => false

def starts (id : SequenceId) : Job → Bool
  | .begin other => other == id
  | _ => false

theorem arms_listed (plant : Plant) (id : SequenceId) (found : plant.agenda.any (arms id) = true) :
    Job.arm id ∈ plant.agenda := by
  obtain ⟨job, member, same⟩ := List.any_eq_true.mp found
  cases job with
  | arm other => exact beq_iff_eq.mp same ▸ member
  | deliver | tell | leave | exhaust | command | conclude | write | settleDown | keepSubscription
  | closeRun | announce | begin | act | wait | disarm | next | complete => contradiction

theorem starts_listed (plant : Plant) (id : SequenceId) (found : plant.agenda.any (starts id) = true) :
    plant.Begins id := by
  obtain ⟨job, member, same⟩ := List.any_eq_true.mp found
  cases job with
  | begin other => exact beq_iff_eq.mp same ▸ member
  | deliver | tell | leave | exhaust | command | conclude | write | settleDown | keepSubscription
  | closeRun | announce | arm | act | wait | disarm | next | complete => contradiction

def unguided : Command → Bool
  | .trigger (.activate _) | .trigger (.deactivate _) | .trigger (.rearm _)
  | .trigger (.evaluate _) => false
  | _ => true

def attends (plant : Plant) (deed : Deed) (_ : Plant) : Bool :=
  (plant.order? deed).all unguided && decide (plant.sequences.length ≤ 1)

theorem attends_sound (t : TriggerId) (plant : Plant) (deed : Deed) (next : Plant)
    (orderly : OrderlyMove plant deed next) (test : attends plant deed next = true) :
    Serves 0 t plant deed next := by
  simp only [attends, Bool.and_eq_true, decide_eq_true_eq] at test
  obtain ⟨guided, few⟩ := test
  refine ⟨orderly, ?_, ?_⟩
  · intro command ordered drives
    rw [Option.mem_def.mp ordered] at guided
    cases command with
    | trigger command => cases command <;> contradiction
    | var | comparison | channel | device | sequence | workspace | subscribe | unsubscribe =>
        exact drives
  · intro other holds
    obtain ⟨s, _, held, _⟩ := holds_found t plant other holds
    have inside := (List.getElem?_eq_some_iff.mp held).1
    exact Nat.lt_one_iff.mp (Nat.lt_of_lt_of_le inside few)

def keepsOn (plant : Plant) (deed : Deed) (next : Plant) : Bool :=
  attends plant deed next && next.sequences[0]?.any fun s => s.inFlight

theorem keeps_on_sound (t : TriggerId) (plant : Plant) (deed : Deed) (next : Plant)
    (orderly : OrderlyMove plant deed next) (test : keepsOn plant deed next = true) :
    Serves 0 t plant deed next ∧ next.InFlight 0 := by
  rw [keepsOn, Bool.and_eq_true] at test
  obtain ⟨serves, flies⟩ := test
  refine ⟨attends_sound t plant deed next orderly serves, ?_⟩
  cases held : next.sequences[0]? with
  | none => simp [held] at flies
  | some s => exact ⟨s, held, by simpa [held] using flies⟩

def paired : Plant :=
  (blank ⟨0, 0⟩ true).runAll
    [.var (.make "x" (.bool false) false), .trigger (.make "t" "x==true" 2 false),
      .sequence (.make "s" 100), .sequence (.step "p" "Bath.Pump" (some "t") ""),
      .sequence (.push "s" "p" 2), .sequence (.activate "s")]

def firstWritten : Plant := settle 4 (paired.turn (.sequence 0)).retire

def wayToSecond : List Deed :=
  List.replicate 3 .job ++ .call (.var (.set "x" (.bool true))) :: List.replicate 5 .job ++
    [.turn (.sequence 0), .job]

def secondBegins : Plant := (wayToSecond.foldl after firstWritten).after .job

theorem second_step_gated : ∃ moment ∈ firstWritten.states wayToSecond, moment.Met 0 0 := by
  have run : Runs (Serves 0 0) (blank ⟨0, 0⟩ true) firstWritten :=
    (run_all_runs attends (attends_sound 0) (blank ⟨0, 0⟩ true) _ (by decide +kernel)).trans
      (turn_runs attends (attends_sound 0) 4 paired (.sequence 0) (by decide +kernel)
        (by decide +kernel) (by decide +kernel))
  have chain := states_chain keepsOn (keeps_on_sound 0) firstWritten (wayToSecond ++ [.job])
    (by decide +kernel)
  rw [states_append] at chain
  have there : ∃ s trigger, firstWritten.currentTrigger? 0 = some (s, 0, trigger) := by
    have busy : ∃ found ∈ firstWritten.currentTrigger? 0, found.2.1 = 0 := by decide +kernel
    obtain ⟨⟨s, t, trigger⟩, found, rfl⟩ := busy
    exact ⟨s, trigger, found⟩
  obtain ⟨s, trigger, current⟩ := there
  exact step_gated 0 0 ⟨0, 0⟩ true firstWritten run (arms_listed _ 0 (by decide +kernel)) s trigger
    current (firstWritten.states wayToSecond) secondBegins chain
    (starts_listed _ 0 (by decide +kernel))

end Plant

end Interlock
