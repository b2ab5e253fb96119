import Interlock.Proofs.Plant.Course

/-!
What the operations on sequences do to the course of one sequence.
-/

set_option autoImplicit false

namespace Interlock.Plant

open Interlock.Graph
open Interlock.Schedule

@[simp] theorem announce_sequences (plant : Plant) (id : SequenceId) (progress : Progress) :
    (plant.announce id progress).sequences = plant.sequences := rfl

theorem course_held (plant : Plant) (id : SequenceId) (s : Sequence)
    (held : plant.sequences[id]? = some s) : (plant.course id).sequence = some s := held

theorem finish_other (plant : Plant) (other id : SequenceId) (s : Sequence) (apart : other ≠ id) :
    (plant.finish other s).course id = plant.course id := by
  unfold finish
  split
  · simp [Job.partOf?, Job.endOf?, apart]
  · rfl

theorem finish_own (plant : Plant) (id : SequenceId) (s : Sequence) (active : s.active = true) :
    (plant.finish id s).course id =
      { plant.course id with endings := (plant.course id).endings + 1 } := by
  rw [finish, if_pos active]
  simp [Job.partOf?, Job.endOf?, Nat.add_comm]

theorem proceed_other (plant : Plant) (other id : SequenceId) (apart : other ≠ id) :
    (plant.proceed other).course id = plant.course id := by
  unfold proceed
  split
  · rfl
  · rename_i s held
    split
    · rfl
    · split
      · simp [enterPause, apart]
      · split
        · exact finish_other plant other id s apart
        · simp [apart]

theorem proceed_own (plant : Plant) (id : SequenceId) (s : Sequence)
    (held : plant.sequences[id]? = some s) :
    ∃ endings told after, Proceeds s endings told after ∧
      (plant.proceed id).course id =
        { plant.course id with
          sequence := some after, endings := endings + (plant.course id).endings,
          told := told ++ (plant.course id).told } := by
  have there := course_held plant id s held
  unfold proceed
  rw [held]
  dsimp only
  by_cases still : (!s.active || s.inFlight) = true
  · rw [if_pos still]
    refine ⟨0, [], s, .stays s (by simpa using still), ?_⟩
    simp [← there]
  · rw [if_neg still]
    obtain ⟨active, free⟩ : s.active = true ∧ s.inFlight = false := by simpa using still
    by_cases paused : s.paused = true
    · rw [if_pos paused]
      refine ⟨0, [.paused], _, .pauses s active free paused, ?_⟩
      simp [enterPause, held]
    · rw [if_neg paused]
      have unpaused : s.paused = false := by simpa using paused
      cases queue : s.queue with
      | nil =>
          refine ⟨1, [], s, .ends s active free unpaused queue, ?_⟩
          simp [finish_own plant id s active, ← there, Nat.add_comm]
      | cons step rest =>
          refine ⟨0, [], _, .hands s step rest active free unpaused queue, ?_⟩
          simp [held]

theorem stroke_start (plant ready : Plant) (id : SequenceId) (s : Sequence)
    (held : plant.sequences[id]? = some s) (inactive : s.active = false)
    (begun : ready.course id = { plant.course id with
      sequence := some { s with active := true, executed := 0, state := .running },
      told := .started s.name :: (plant.course id).told }) :
    Stroke id (plant.course id) ((ready.proceed id).course id) := by
  obtain ⟨endings, told, after, proceeds, same⟩ :=
    proceed_own ready id _ (congrArg Course.sequence begun)
  rw [same, begun]
  exact .activate _ s after endings told held inactive proceeds

theorem drift_activate (plant : Plant) (other id : SequenceId) (next : Plant)
    (activated : plant.activateSequence other = .ok next) :
    Drift id (plant.course id) (next.course id) := by
  unfold activateSequence at activated
  split at activated
  · cases activated
    exact .inl rfl
  · rename_i s held
    split at activated
    · contradiction
    · by_cases active : s.active = true
      · rw [if_pos active] at activated
        cases activated
        exact .inl rfl
      · rw [if_neg active] at activated
        cases activated
        by_cases own : other = id
        · subst other
          exact .inr (stroke_start plant _ id s held (by simpa using active) (by simp [held]))
        · left
          rw [proceed_other _ other id own]
          simp [own]

theorem deactivate_other (plant : Plant) (other id : SequenceId) (apart : other ≠ id) :
    (plant.deactivateSequence other).course id = plant.course id := by
  unfold deactivateSequence
  split
  · rfl
  · split
    · simp [apart]
    · rfl

theorem deactivate_own (plant : Plant) (id : SequenceId) (s : Sequence)
    (held : plant.sequences[id]? = some s) (active : s.active = true) :
    (plant.deactivateSequence id).course id =
      { plant.course id with
        sequence := some s.stopped, told := .cancelled :: (plant.course id).told } := by
  rw [deactivateSequence, held]
  dsimp only
  rw [if_pos active]
  simp only [course_announce, course_log, course_set_active, course_wake_task, course_set_state,
    if_true, held, Option.map_some]
  rfl

theorem deactivate_inactive (plant : Plant) (id : SequenceId)
    (inactive : ∀ s, plant.sequences[id]? = some s → s.active = false) :
    plant.deactivateSequence id = plant := by
  unfold deactivateSequence
  split
  · rfl
  · rename_i s held
    rw [if_neg (by simp [inactive s held])]

theorem drift_deactivate (plant : Plant) (other id : SequenceId) :
    Drift id (plant.course id) ((plant.deactivateSequence other).course id) := by
  by_cases own : other = id
  · subst other
    cases held : plant.sequences[id]? with
    | none =>
        rw [deactivate_inactive plant id (by simp [held])]
        exact .inl rfl
    | some s =>
        by_cases active : s.active = true
        · rw [deactivate_own plant id s held active]
          exact .inr (.deactivate _ s held active)
        · rw [deactivate_inactive plant id (by simpa [held] using active)]
          exact .inl rfl
  · exact .inl (deactivate_other plant other id own)

theorem drift_pause (plant : Plant) (other id : SequenceId) :
    Drift id (plant.course id) ((plant.pause other).course id) := by
  unfold pause
  split
  · exact .inl rfl
  · rename_i s held
    by_cases own : other = id
    · subst other
      right
      simp only [course_log, course_set_sequence, if_true, held, Option.map_some]
      exact .pause _ s held
    · left
      simp [own]

theorem stroke_resume (plant ready : Plant) (id : SequenceId) (s : Sequence)
    (held : plant.sequences[id]? = some s) (paused : s.paused = true) (active : s.active = true)
    (reached : s.state = .paused)
    (begun : ready.course id = { plant.course id with
      sequence := some { s with paused := false, state := .running },
      told := .resumed :: (plant.course id).told }) :
    Stroke id (plant.course id) ((ready.proceed id).course id) := by
  obtain ⟨endings, told, after, proceeds, same⟩ :=
    proceed_own ready id _ (congrArg Course.sequence begun)
  rw [same, begun]
  exact .resume _ s after endings told held paused active reached proceeds

theorem drift_resume (plant : Plant) (other id : SequenceId) :
    Drift id (plant.course id) ((plant.resume other).course id) := by
  unfold resume
  split
  · exact .inl rfl
  · rename_i s held
    by_cases paused : s.paused = true
    · rw [if_neg (by simpa using paused)]
      by_cases unreached : (!s.active || s.state != .paused) = true
      · rw [if_pos unreached]
        by_cases own : other = id
        · subst other
          right
          simp only [course_log, course_set_sequence, if_true, held, Option.map_some]
          exact .withdraw _ s held paused (by simpa using unreached)
        · left
          simp [own]
      · rw [if_neg unreached]
        obtain ⟨active, reached⟩ : s.active = true ∧ s.state = .paused := by simpa using unreached
        by_cases own : other = id
        · subst other
          exact .inr (stroke_resume plant _ id s held paused active reached (by simp [held]))
        · left
          rw [proceed_other _ other id own]
          simp [own]
    · rw [if_pos (by simpa using paused)]
      exact .inl rfl

theorem drift_set_paused (plant : Plant) (other id : SequenceId) (paused : Bool) :
    Drift id (plant.course id) ((plant.setPaused other paused).course id) := by
  unfold setPaused
  split
  · exact drift_pause plant other id
  · exact drift_resume plant other id

theorem drift_dispose (plant : Plant) (other id : SequenceId) :
    Drift id (plant.course id) ((plant.disposeSequence other).course id) := by
  unfold disposeSequence
  dsimp only
  by_cases own : other = id
  · subst other
    cases held : plant.sequences[id]? with
    | none =>
        rw [deactivate_inactive plant id (by simp [held]), held]
        exact .inl rfl
    | some s =>
        by_cases active : s.active = true
        · have stopped := deactivate_own plant id s held active
          have there : (plant.deactivateSequence id).sequences[id]? = some s.stopped :=
            congrArg Course.sequence stopped
          rw [there]
          right
          simp only [course_clear_subscribers, course_set_sequence, if_true, there, Option.map_some,
            stopped]
          exact .deactivate _ s held active
        · have inactive : s.active = false := by simpa using active
          rw [deactivate_inactive plant id (by simpa [held] using active), held]
          right
          simp only [course_clear_subscribers, course_set_sequence, if_true, held, Option.map_some]
          exact .clear _ s held inactive
  · left
    have same := deactivate_other plant other id own
    split
    · exact same
    · simp [own, same]

theorem drift_push_steps (plant : Plant) (other id : SequenceId) (step : Step) (count : Nat) :
    Drift id (plant.course id) ((plant.pushSteps other step count).course id) := by
  unfold pushSteps
  split
  · exact .inl rfl
  · rename_i s held
    by_cases own : other = id
    · subst other
      right
      simp only [course_set_sequence, if_true, held, Option.map_some]
      exact .enqueue _ s step count held
    · left
      simp [own]

theorem current_missing (plant : Plant) (id : SequenceId) (missing : plant.current? id = none) :
    ∀ s, (plant.course id).sequence = some s → s.task = none := by
  intro s held
  have there : plant.sequences[id]? = some s := held
  rw [current?, there] at missing
  simpa using missing

theorem drift_turn (plant : Plant) (other id : SequenceId) :
    Drift id (plant.course id) ((plant.turnSequence other).course id) := by
  unfold turnSequence
  split
  · exact .inl rfl
  · rename_i s held
    split
    · rename_i step task
      by_cases own : other = id
      · subst other
        right
        simp only [course_push, course_set_sequence, if_true, held, Option.map_some]
        simpa [Job.partOf?, Job.endOf?] using Stroke.take (plant.course id) s step held task
      · left
        simp [own, Job.partOf?, Job.endOf?]
    · rename_i step task
      split
      · exact .inl rfl
      · rename_i current triggerId trigger found
        obtain ⟨_, again, _, _, _⟩ := current_trigger_found plant other current triggerId trigger found
        obtain rfl : s = current := Option.some.inj (held.symm.trans again)
        split
        · by_cases own : other = id
          · subst other
            right
            simp only [course_push, course_set_sequence, course_dispatch, if_true]
            simpa [Job.partOf?, Job.endOf?, dispatch, held] using
              Stroke.release (plant.course id) s step held task
          · left
            simp [own, Job.partOf?, Job.endOf?]
        · left
          simp [sleepTask]
    · exact .inl rfl

theorem leave_other (plant : Plant) (other id : SequenceId) (apart : other ≠ id) :
    (plant.leaveStep other).course id = plant.course id := by
  unfold leaveStep
  split
  · rfl
  · simp [apart, Job.partOf?, Job.endOf?]

theorem leave_own (plant : Plant) (id : SequenceId) (s : Sequence)
    (held : plant.sequences[id]? = some s) :
    (plant.leaveStep id).course id =
      { plant.course id with
        sequence := some s.free, jobs := .next id :: (plant.course id).jobs } := by
  rw [leaveStep, held]
  simp [held, Job.partOf?, Job.endOf?, Sequence.free]

def pending (plant : Plant) (id : SequenceId) (job : Job) : Course :=
  { plant.course id with jobs := job :: (plant.course id).jobs }

theorem stroke_leave (plant : Plant) (id : SequenceId) (job : Job)
    (last : job = .arm id ∨ job = .wait id ∨ job = .disarm id) :
    Stroke id (plant.pending id job) ((plant.leaveStep id).course id) := by
  cases held : plant.sequences[id]? with
  | none =>
      rw [leaveStep, held]
      exact .lost (plant.pending id job) job _ rfl (.inl held)
  | some s =>
      rw [leave_own plant id s held]
      exact .leave (plant.pending id job) s job _ held rfl last

theorem stroke_begin (plant : Plant) (id : SequenceId) :
    Stroke id (plant.pending id (.begin id)) ((plant.beginStep id).course id) := by
  unfold beginStep
  split
  · rename_i missing
    exact .lost (plant.pending id (.begin id)) _ _ rfl
      (.inr ⟨rfl, current_missing plant id missing⟩)
  · rename_i s step found
    obtain ⟨task, held, busy, rfl⟩ := current_found plant id s step found
    simp only [course_tell_stage, course_push, course_log, course_set_sequence, if_true, held,
      Option.map_some]
    simpa [Job.partOf?, Job.endOf?, pending] using
      Stroke.begin (plant.pending id (.begin id)) s task _ held busy rfl

theorem begin_other (plant : Plant) (other id : SequenceId) (apart : other ≠ id) :
    (plant.beginStep other).course id = plant.course id := by
  unfold beginStep
  split
  · rfl
  · simp [apart, Job.partOf?, Job.endOf?]

theorem stroke_act (plant : Plant) (id : SequenceId) (actions : List Action) :
    Stroke id (plant.pending id (.act id actions)) ((plant.actNext id actions).course id) := by
  cases actions with
  | nil =>
      rw [actNext]
      simpa [Job.partOf?, Job.endOf?, pending] using
        Stroke.written (plant.pending id (.act id [])) _ rfl
  | cons action rest =>
      rw [actNext]
      cases held : plant.sequences[id]? with
      | none =>
          exact .lost (plant.pending id _) _ _ rfl (.inl held)
      | some s =>
          dsimp only
          unfold act
          cases given : action.value with
          | none =>
              simpa [Job.partOf?, Job.endOf?, pending] using
                Stroke.placeholder (plant.pending id (.act id (action :: rest))) action rest _ given rfl
          | some value =>
              dsimp only
              split
              · simp only [course_write]
                simpa [Job.partOf?, Job.endOf?, pending] using
                  Stroke.apply (plant.pending id (.act id (action :: rest))) action value rest _ given
                    rfl
              · simp only [course_announce, course_log, if_true]
                simpa [Job.partOf?, Job.endOf?, pending] using
                  Stroke.skip (plant.pending id (.act id (action :: rest))) action value rest _ given
                    rfl

theorem act_other (plant : Plant) (other id : SequenceId) (apart : other ≠ id)
    (actions : List Action) : (plant.actNext other actions).course id = plant.course id := by
  cases actions with
  | nil => simp [actNext, apart, Job.partOf?, Job.endOf?]
  | cons action rest =>
      rw [actNext]
      split
      · rfl
      · unfold act
        dsimp only
        split
        · simp [apart, Job.partOf?, Job.endOf?]
        · split
          · simp [apart, Job.partOf?, Job.endOf?]
          · simp [apart, Job.partOf?, Job.endOf?]

theorem course_wait_pushed (plant : Plant) (id : SequenceId) :
    (plant.push [.wait id]).course id =
      { plant.course id with jobs := .wait id :: (plant.course id).jobs } := by
  simp [Job.partOf?, Job.endOf?]

theorem stroke_refuse (plant ready : Plant) (id : SequenceId) (s : Sequence)
    (held : plant.sequences[id]? = some s) (active : s.active = true)
    (same : ready.course id = plant.course id) :
    Stroke id (plant.pending id (.arm id))
      (((ready.deactivateSequence id).leaveStep id).course id) := by
  have there : ready.sequences[id]? = some s := (congrArg Course.sequence same).trans held
  have stopped := deactivate_own ready id s there active
  rw [leave_own _ id s.stopped (congrArg Course.sequence stopped), stopped, same]
  exact .refuse (plant.pending id (.arm id)) s _ held active rfl

theorem stroke_arm (plant : Plant) (id : SequenceId) :
    Stroke id (plant.pending id (.arm id)) ((plant.arm id).course id) := by
  have leaves : ∀ ready : Plant, ready.course id = plant.course id →
      Stroke id (plant.pending id (.arm id)) ((ready.leaveStep id).course id) := by
    intro ready same
    have stroke := stroke_leave ready id (.arm id) (.inl rfl)
    rwa [pending, same] at stroke
  have taken := plant.arm_case id
  generalize plant.arm id = next at taken ⊢
  cases taken with
  | leave => exact leaves plant rfl
  | refuse s triggerId trigger found active =>
      obtain ⟨task, held, _⟩ := current_trigger_found plant id s triggerId trigger found
      exact stroke_refuse plant _ id s held active (by simp)
  | engage s triggerId trigger rearmed _ found active _ _ activated =>
      obtain ⟨task, held, _⟩ := current_trigger_found plant id s triggerId trigger found
      have quiet := quiet_activate_trigger _ triggerId rearmed _ activated
      rw [course_quiet _ _ id quiet, course_wait_pushed, course_rearm_trigger]
      exact .engage (plant.pending id (.arm id)) s _ held active rfl

theorem arm_other (plant : Plant) (other id : SequenceId) (apart : other ≠ id) :
    (plant.arm other).course id = plant.course id := by
  have taken := plant.arm_case other
  generalize plant.arm other = next at taken ⊢
  cases taken with
  | leave => exact leave_other plant other id apart
  | refuse =>
      rw [leave_other _ other id apart, deactivate_other _ other id apart]
      simp
  | engage s t trigger rearmed _ _ _ _ _ activated =>
      rw [course_quiet _ _ id (quiet_activate_trigger _ t rearmed _ activated)]
      simp [apart, Job.partOf?, Job.endOf?]

theorem stroke_wait (plant : Plant) (id : SequenceId) :
    Stroke id (plant.pending id (.wait id)) ((plant.waitForTrigger id).course id) := by
  unfold waitForTrigger
  split
  · exact stroke_leave plant id _ (.inr (.inl rfl))
  · rename_i s triggerId trigger found
    obtain ⟨task, held, busy, waited, there⟩ := current_trigger_found plant id s triggerId trigger found
    dsimp only
    by_cases released : isReleased s trigger = true
    · rw [if_pos released]
      simpa [Job.partOf?, Job.endOf?, pending] using
        Stroke.awaited (plant.pending id (.wait id)) trigger.expression _ rfl
    · rw [if_neg released]
      have active : s.active = true := by
        simp only [isReleased, Bool.or_eq_true, Bool.not_eq_true', not_or] at released
        simpa using released.2
      have suspended := Stroke.await (plant.pending id (.wait id)) s task.step trigger.expression _ held
        active (by rw [busy]; rfl) rfl
      simpa [sleepTask, held, busy, pending] using suspended

theorem wait_other (plant : Plant) (other id : SequenceId) (apart : other ≠ id) :
    (plant.waitForTrigger other).course id = plant.course id := by
  unfold waitForTrigger
  split
  · exact leave_other plant other id apart
  · dsimp only
    split
    · simp [apart, Job.partOf?, Job.endOf?]
    · simp [apart, sleepTask]

theorem stroke_satisfied (plant ready : Plant) (id : SequenceId) (s : Sequence) (expression : String)
    (held : plant.sequences[id]? = some s)
    (same : ready.course id = { plant.course id with
      told := .triggerSatisfied expression :: (plant.course id).told }) :
    Stroke id (plant.pending id (.disarm id)) ((ready.leaveStep id).course id) := by
  rw [leave_own ready id s ((congrArg Course.sequence same).trans held), same]
  exact .satisfied (plant.pending id (.disarm id)) s expression _ held rfl

theorem stroke_disarm (plant : Plant) (id : SequenceId) :
    Stroke id (plant.pending id (.disarm id)) ((plant.disarm id).course id) := by
  have taken := plant.disarm_case id
  generalize plant.disarm id = next at taken ⊢
  cases taken with
  | leave => exact stroke_leave plant id _ (.inr (.inr rfl))
  | unmet s t trigger found =>
      obtain ⟨task, held, _⟩ := current_trigger_found plant id s t trigger found
      have same : (plant.deactivateTrigger t).course id = plant.course id := by simp
      rw [leave_own _ id s ((congrArg Course.sequence same).trans held), same]
      exact .leave (plant.pending id (.disarm id)) s _ _ held rfl (.inr (.inr rfl))
  | satisfied s t trigger found =>
      obtain ⟨task, held, _⟩ := current_trigger_found plant id s t trigger found
      exact stroke_satisfied plant _ id s trigger.expression held (by simp)

theorem disarm_other (plant : Plant) (other id : SequenceId) (apart : other ≠ id) :
    (plant.disarm other).course id = plant.course id := by
  have taken := plant.disarm_case other
  generalize plant.disarm other = next at taken ⊢
  cases taken with
  | leave => exact leave_other plant other id apart
  | unmet | satisfied =>
      rw [leave_other _ other id apart]
      simp [apart]

theorem stroke_next (plant : Plant) (id : SequenceId) :
    Stroke id (plant.pending id (.next id)) ((plant.nextStep id).course id) := by
  unfold nextStep
  cases held : plant.sequences[id]? with
  | none =>
      exact .lost (plant.pending id (.next id)) _ _ rfl (.inl held)
  | some s =>
      dsimp only
      by_cases active : s.active = true
      · rw [if_neg (by simpa using active)]
        cases queue : s.queue with
        | nil =>
            have drained := Stroke.drain (plant.pending id (.next id)) s _ held active queue rfl
            dsimp only
            rw [finish_own _ id { s with queue := [], inFlight := false } active]
            simpa [held, queue, pending] using drained
        | cons step rest =>
            by_cases paused : s.paused = true
            · have halted := Stroke.halt (plant.pending id (.next id)) s _ held active (by simp [queue])
                paused rfl
              simpa [paused, enterPause, held, queue, pending] using halted
            · have unpaused : s.paused = false := by simpa using paused
              have taken := Stroke.step (plant.pending id (.next id)) s step rest _ held active queue
                unpaused rfl
              simpa [unpaused, held, queue, pending, Job.partOf?, Job.endOf?] using taken
      · have inactive : s.active = false := by simpa using active
        rw [if_pos (by simpa using active)]
        have stopped := Stroke.stop (plant.pending id (.next id)) s _ held inactive rfl
        simpa [held, pending] using stopped

theorem next_other (plant : Plant) (other id : SequenceId) (apart : other ≠ id) :
    (plant.nextStep other).course id = plant.course id := by
  unfold nextStep
  split
  · rfl
  · dsimp only
    split
    · simp [apart]
    · split
      · rw [finish_other _ other id _ apart]
        simp [apart]
      · split
        · simp [apart, enterPause]
        · simp [apart, Job.partOf?, Job.endOf?]

theorem stroke_complete (plant : Plant) (id : SequenceId) :
    Stroke id { plant.course id with endings := (plant.course id).endings + 1 }
      ((plant.complete id).course id) := by
  unfold complete
  cases held : plant.sequences[id]? with
  | none =>
      exact .passed { plant.course id with endings := (plant.course id).endings + 1 } _ rfl
        fun s there => by
          rw [course, held] at there
          contradiction
  | some s =>
      dsimp only
      by_cases active : s.active = true
      · rw [if_pos active]
        have completed : Stroke id _ _ := .complete
          { plant.course id with endings := (plant.course id).endings + 1 } s _ held active rfl
        simpa [held] using completed
      · rw [if_neg active]
        refine .passed { plant.course id with endings := (plant.course id).endings + 1 } _ rfl ?_
        intro other there
        obtain rfl : s = other := Option.some.inj (held.symm.trans there)
        simpa using active

theorem complete_other (plant : Plant) (other id : SequenceId) (apart : other ≠ id) :
    (plant.complete other).course id = plant.course id := by
  unfold complete
  split
  · rfl
  · split
    · simp [apart]
    · rfl

end Interlock.Plant
