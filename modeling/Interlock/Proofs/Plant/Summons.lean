import Interlock.Proofs.Plant.Station

/-!
Calls on a sequence, and how the course of the sequence answers them.
-/

set_option autoImplicit false

namespace Interlock

open Interlock.Graph
open Interlock.Schedule

-- What a call asks of a sequence.
inductive Summons where
  | create (queue : List Step)
  | push (steps : List Step)
  | activate
  | pause
  | resume
  | deactivate
  | dispose
deriving DecidableEq

inductive Answers : Summons → Course → Course → Prop where
  | create (c : Course) (name : String) (registry : RegistryId) (channel : ChannelId)
      (pollInterval : Nat) (queue : List Step) (absent : c.sequence = none) :
      Answers (.create queue) c
        { c with
          sequence := some { Sequence.create name registry channel pollInterval with queue := queue } }
  | push (c : Course) (s : Sequence) (steps : List Step) (held : c.sequence = some s) :
      Answers (.push steps) c { c with sequence := some { s with queue := s.queue ++ steps } }
  | activate (c : Course) (s after : Sequence) (endings : Nat) (told : List Progress)
      (held : c.sequence = some s) (inactive : s.active = false)
      (proceeds :
        Proceeds { s with active := true, executed := 0, state := .running } endings told after) :
      Answers .activate c
        { c with
          sequence := some after, endings := endings + c.endings,
          told := told ++ .started s.name :: c.told }
  | pause (c : Course) (s : Sequence) (held : c.sequence = some s) :
      Answers .pause c { c with sequence := some { s with paused := true } }
  | withdraw (c : Course) (s : Sequence) (held : c.sequence = some s) (paused : s.paused = true)
      (unreached : s.active = false ∨ s.state ≠ .paused) :
      Answers .resume c { c with sequence := some { s with paused := false } }
  | resume (c : Course) (s after : Sequence) (endings : Nat) (told : List Progress)
      (held : c.sequence = some s) (paused : s.paused = true) (active : s.active = true)
      (reached : s.state = .paused)
      (proceeds : Proceeds { s with paused := false, state := .running } endings told after) :
      Answers .resume c
        { c with
          sequence := some after, endings := endings + c.endings, told := told ++ .resumed :: c.told }
  | stop (summons : Summons) (c : Course) (s : Sequence)
      (stops : summons = .deactivate ∨ summons = .dispose) (held : c.sequence = some s)
      (active : s.active = true) :
      Answers summons c { c with sequence := some s.stopped, told := .cancelled :: c.told }
  | clear (c : Course) (s : Sequence) (held : c.sequence = some s) (inactive : s.active = false) :
      Answers .dispose c { c with sequence := some { s with queue := [] } }
  -- activated while active, resumed while not paused, stopped while not active
  | vain (summons : Summons) (c : Course)
      (idle : summons = .activate ∨ summons = .resume ∨ summons = .deactivate) : Answers summons c c

namespace Plant

theorem answers_start (plant ready : Plant) (id : SequenceId) (s : Sequence)
    (held : plant.sequences[id]? = some s) (inactive : s.active = false)
    (begun : ready.course id = { plant.course id with
      sequence := some { s with active := true, executed := 0, state := .running },
      told := .started s.name :: (plant.course id).told }) :
    Answers .activate (plant.course id) ((ready.proceed id).course id) := by
  obtain ⟨endings, told, after, proceeds, same⟩ :=
    proceed_own ready id _ (congrArg Course.sequence begun)
  rw [same, begun]
  exact .activate _ s after endings told held inactive proceeds

theorem answers_activate (plant next : Plant) (id : SequenceId)
    (activated : plant.activateSequence id = .ok next) :
    Answers .activate (plant.course id) (next.course id) := by
  rw [activateSequence] at activated
  split at activated
  · cases activated
    exact .vain _ _ (.inl rfl)
  · rename_i s held
    split at activated
    · contradiction
    · by_cases active : s.active = true
      · rw [if_pos active] at activated
        cases activated
        exact .vain _ _ (.inl rfl)
      · rw [if_neg active] at activated
        cases activated
        exact answers_start plant _ id s held (by simpa using active) (by simp [held])

theorem activate_other (plant next : Plant) (other id : SequenceId) (apart : other ≠ id)
    (activated : plant.activateSequence other = .ok next) : next.course id = plant.course id := by
  rw [activateSequence] at activated
  split at activated
  · cases activated
    rfl
  · split at activated
    · contradiction
    · split at activated
      · cases activated
        rfl
      · cases activated
        rw [proceed_other _ other id apart]
        simp [apart]

theorem answers_resumption (plant ready : Plant) (id : SequenceId) (s : Sequence)
    (held : plant.sequences[id]? = some s) (paused : s.paused = true) (active : s.active = true)
    (reached : s.state = .paused)
    (begun : ready.course id = { plant.course id with
      sequence := some { s with paused := false, state := .running },
      told := .resumed :: (plant.course id).told }) :
    Answers .resume (plant.course id) ((ready.proceed id).course id) := by
  obtain ⟨endings, told, after, proceeds, same⟩ :=
    proceed_own ready id _ (congrArg Course.sequence begun)
  rw [same, begun]
  exact .resume _ s after endings told held paused active reached proceeds

theorem answers_resume (plant : Plant) (id : SequenceId) :
    Answers .resume (plant.course id) ((plant.resume id).course id) := by
  rw [resume]
  split
  · exact .vain _ _ (.inr (.inl rfl))
  · rename_i s held
    by_cases paused : s.paused = true
    · rw [if_neg (by simpa using paused)]
      by_cases unreached : (!s.active || s.state != .paused) = true
      · rw [if_pos unreached]
        simp only [course_log, course_set_sequence, if_true, held, Option.map_some]
        exact .withdraw _ s held paused (by simpa using unreached)
      · rw [if_neg unreached]
        obtain ⟨active, reached⟩ : s.active = true ∧ s.state = .paused := by simpa using unreached
        exact answers_resumption plant _ id s held paused active reached (by simp [held])
    · rw [if_pos (by simpa using paused)]
      exact .vain _ _ (.inr (.inl rfl))

theorem resume_other (plant : Plant) (other id : SequenceId) (apart : other ≠ id) :
    (plant.resume other).course id = plant.course id := by
  rw [resume]
  split
  · rfl
  · split
    · rfl
    · split
      · simp [apart]
      · rw [proceed_other _ other id apart]
        simp [apart]

theorem answers_pause (plant : Plant) (id : SequenceId) (s : Sequence)
    (held : plant.sequences[id]? = some s) :
    Answers .pause (plant.course id) ((plant.pause id).course id) := by
  rw [pause]
  rw [held]
  simp only [course_log, course_set_sequence, if_true, held, Option.map_some]
  exact .pause _ s held

theorem pause_other (plant : Plant) (other id : SequenceId) (apart : other ≠ id) :
    (plant.pause other).course id = plant.course id := by
  rw [pause]
  split
  · rfl
  · simp [apart]

theorem answers_deactivate (plant : Plant) (id : SequenceId) (s : Sequence)
    (held : plant.sequences[id]? = some s) :
    Answers .deactivate (plant.course id) ((plant.deactivateSequence id).course id) := by
  by_cases active : s.active = true
  · rw [deactivate_own plant id s held active]
    exact .stop _ _ s (.inl rfl) held active
  · rw [deactivate_inactive plant id (by simpa [held] using active)]
    exact .vain _ _ (.inr (.inr rfl))

theorem answers_dispose (plant : Plant) (id : SequenceId) (s : Sequence)
    (held : plant.sequences[id]? = some s) :
    Answers .dispose (plant.course id) ((plant.disposeSequence id).course id) := by
  rw [disposeSequence]
  by_cases active : s.active = true
  · have stopped := deactivate_own plant id s held active
    have there : (plant.deactivateSequence id).sequences[id]? = some s.stopped :=
      congrArg Course.sequence stopped
    rw [there]
    simp only [course_clear_subscribers, course_set_sequence, if_true, there, Option.map_some, stopped]
    exact .stop _ _ s (.inr rfl) held active
  · have inactive : s.active = false := by simpa using active
    rw [deactivate_inactive plant id (by simpa [held] using active), held]
    simp only [course_clear_subscribers, course_set_sequence, if_true, held, Option.map_some]
    exact .clear _ s held inactive

theorem dispose_other (plant : Plant) (other id : SequenceId) (apart : other ≠ id) :
    (plant.disposeSequence other).course id = plant.course id := by
  rw [disposeSequence]
  have same := deactivate_other plant other id apart
  split
  · exact same
  · simp [apart, same]

theorem answers_push (plant : Plant) (id : SequenceId) (s : Sequence)
    (held : plant.sequences[id]? = some s) (step : Step) (count : Nat) :
    Answers (.push (List.replicate count step)) (plant.course id)
      ((plant.pushSteps id step count).course id) := by
  rw [pushSteps]
  rw [held]
  simp only [course_set_sequence, if_true, held, Option.map_some]
  exact .push _ s _ held

theorem push_other (plant : Plant) (other id : SequenceId) (apart : other ≠ id) (step : Step)
    (count : Nat) : (plant.pushSteps other step count).course id = plant.course id := by
  rw [pushSteps]
  split
  · rfl
  · simp [apart]

end Plant

end Interlock
