import Interlock.Proofs.Plant.Release
import Interlock.Proofs.Plant.Renewal

/-!
A run after another. What is pushed between two runs is started in order and counted from one, and a step
that is still in flight comes before it. A wait that a stop has ended tells no more than what its trigger
says.
-/

set_option autoImplicit false

namespace Interlock

open Interlock.Graph
open Interlock.Schedule
open Interlock.Session (Command)

namespace Plant

-- Moves between two runs: the sequence stays stopped and is not asked to pause. Counts what it gets.
inductive Refills (id : SequenceId) (plant : Plant) : List Step → Plant → Prop where
  | ended : Refills id plant [] plant
  | move (pushed : List Step) (middle next : Plant) (deed : Deed)
      (earlier : Refills id plant pushed middle) (move : Move middle deed next)
      (stopped : next.Stopped id) (unpaused : middle.asks? id deed ≠ some .pause) :
      Refills id plant (refilled (middle.asks? id deed) pushed) next

-- Moves of one run and behind it, with what is pushed meanwhile, and whether nothing was dropped.
inductive Pursues (id : SequenceId) (plant : Plant) : List Step → Bool → Plant → Prop where
  | begun : Pursues id plant [] true plant
  | move (pushed : List Step) (kept : Bool) (middle next : Plant) (deed : Deed)
      (earlier : Pursues id plant pushed kept middle) (move : Move middle deed next)
      (one : middle.Stopped id → next.Stopped id) :
      Pursues id plant (pushed ++ ((middle.asks? id deed).map Summons.steps).getD [])
        (kept && !((middle.asks? id deed).any Summons.disposes ||
          ((middle.course id).news (next.course id)).contains .cancelled)) next

section

variable {id : SequenceId} {plant next : Plant}

theorem reached_unmarked (reached : plant.Reached) :
    ∀ progress, .announce id progress ∈ (plant.course id).jobs → progress.mark? = none := by
  obtain ⟨start, hasRuntime, moves⟩ := reached
  obtain ⟨_, recorded⟩ := runs_recorded start hasRuntime moves
  exact recorded_unmarked recorded

theorem refills_reached (pushed : List Step) (reached : plant.Reached)
    (refills : Refills id plant pushed next) : next.Reached := by
  induction refills with
  | ended => exact reached
  | move _ _ _ deed _ move _ _ ih => exact reached_move _ _ ih deed move

theorem pursues_reached (pushed : List Step) (kept : Bool) (reached : plant.Reached)
    (pursues : Pursues id plant pushed kept next) : next.Reached := by
  induction pursues with
  | begun => exact reached
  | move _ _ _ _ deed _ move _ ih => exact reached_move _ _ ih deed move

theorem refills_refilled (pushed : List Step) (refills : Refills id plant pushed next)
    (waits : (plant.course id).Refilled []) : (next.course id).Refilled pushed := by
  induction refills with
  | ended => exact waits
  | move pushed middle next deed _ move stopped unpaused ih =>
      exact refilled_deals _ (move_deals middle next deed move id) pushed stopped unpaused ih

theorem pursues_pursued (pushed : List Step) (kept : Bool) (reached : plant.Reached)
    (executed : (plant.course id).executed = 0) (pursues : Pursues id plant pushed kept next) :
    ∃ done, Pursued (plant.course id) (next.course id)
      ((plant.course id).unbegun ++ (plant.course id).queue ++ pushed) kept done := by
  induction pursues with
  | begun =>
      refine ⟨[], ⟨[], rfl, by simp [counted]⟩, executed, ?_, fun _ => ?_, fun lost => ?_⟩
      · simp
      · simp
      · contradiction
  | move pushed kept middle next deed earlier move one ih =>
      obtain ⟨done, pursued⟩ := ih
      have there := pursues_reached pushed kept reached earlier
      obtain ⟨news, begun, goes⟩ := goes_deals _ (move_deals middle next deed move id)
        (reached_sound middle there id) (reached_unmarked there) one
      rw [news_told _ _ news goes.told, ← List.append_assoc]
      exact ⟨done ++ begun, pursued_goes _ _ _ done begun kept _ news pursued goes⟩

theorem turn_ends_wait (t : TriggerId) (trigger : Trigger) (sound : (plant.course id).Sound id)
    (stopped : plant.Stopped id) (waits : plant.WaitsFor id t)
    (there : plant.triggers[t]? = some trigger) :
    ((plant.turn (.sequence id)).retire.course id).jobs = [.disarm id] := by
  obtain ⟨s, step, held, task, needs⟩ := waits
  have inactive : s.active = false := stopped s held
  have station := (sound_held id _ s held).mp sound
  rw [task] at station
  have jobs := (station_waiting station).2
  have current := current_held t plant id s _ trigger held task needs there
  have released : isReleased s trigger = true := by simp [isReleased, inactive]
  rw [course_retire, turn, turnSequence, held]
  dsimp only
  rw [task]
  dsimp only
  rw [current]
  dsimp only
  rw [if_pos released]
  simp [jobs, Job.partOf?]

theorem disarm_leaves (t : TriggerId) (trigger : Trigger) (holds : plant.Holds id t)
    (there : plant.triggers[t]? = some trigger) :
    ((plant.disarm id).course id).jobs = .next id :: (plant.course id).jobs ∧
      ((plant.disarm id).course id).task? = none ∧
      ((plant.disarm id).course id).told =
        (if trigger.latest then [.triggerSatisfied trigger.expression] else []) ++
          (plant.course id).told := by
  obtain ⟨s, task, held, busy, needs⟩ := holds_found t plant id holds
  rw [disarm]
  rw [current_held t plant id s task trigger held busy needs there]
  dsimp only
  have same : (plant.deactivateTrigger t).course id = plant.course id := by simp
  have still : (plant.deactivateTrigger t).sequences[id]? = some s :=
    (congrArg Course.sequence same).trans held
  by_cases lit : trigger.latest = true
  · rw [if_pos lit, if_pos lit, leave_own _ id s (by exact still)]
    exact ⟨by simp, rfl, by simp⟩
  · rw [if_neg lit, if_neg lit, leave_own _ id s still, same]
    exact ⟨rfl, rfl, rfl⟩

theorem turn_begins (s : Sequence) (step : Step) (held : plant.sequences[id]? = some s)
    (task : s.task = some (.fresh step)) (sound : (plant.course id).Sound id) :
    ((plant.turn (.sequence id)).retire.course id).jobs = [.begin id] := by
  have station := (sound_held id _ s held).mp sound
  rw [task] at station
  have jobs := (station_fresh station).2
  rw [course_retire, turn, turnSequence, held]
  dsimp only
  rw [task]
  simp [jobs, Job.partOf?]

theorem next_run_starts (before plant ready : Plant) (id : SequenceId) (deed : Deed)
    (pushed : List Step) (reached : before.Reached) (ends : Move before deed plant)
    (active : ¬ before.Stopped id) (stopped : plant.Stopped id)
    (clear : ∀ s, plant.sequences[id]? = some s → s.state = .completed →
      s.paused = false ∧ s.queue = [])
    (refills : Refills id plant pushed ready) :
    (∀ call next, Move ready call next → ready.asks? id call = some .activate → ¬ next.Stopped id →
      (∃ old s, ready.sequences[id]? = some old ∧ next.sequences[id]? = some s ∧ s.state = .running ∧
        (old.inFlight = false → ∀ first rest, pushed = first :: rest →
          s.task = some (.fresh first) ∧ s.queue = rest ∧
            ∀ after, Move next (.turn (.sequence id)) after → (after.course id).jobs = [.begin id])) ∧
      ∀ more kept later, Pursues id next more kept later →
        (next.course id).starts (later.course id) <+:
            (ready.course id).announced ++ counted 1 ((ready.course id).unbegun ++ pushed ++ more) ∧
          (kept = true → (next.course id).starts (later.course id) ++ (later.course id).coming =
            (ready.course id).announced ++ counted 1 ((ready.course id).unbegun ++ pushed ++ more))) ∧
      (∀ t trigger after, ready.WaitsFor id t → ready.triggers[t]? = some trigger →
        Move ready (.turn (.sequence id)) after → (after.course id).jobs = [.disarm id]) ∧
      ∀ t trigger rest after, ready.Holds id t → ready.triggers[t]? = some trigger →
        ready.agenda = .disarm id :: rest → Move ready .job after →
        (after.course id).jobs = [.next id] ∧ (after.course id).task? = none ∧
          (after.course id).told =
            (if trigger.latest then [.triggerSatisfied trigger.expression] else []) ++
              (ready.course id).told := by
  have ended := reached_move before plant reached deed ends
  have there := refills_reached pushed ended refills
  have sound := reached_sound ready there id
  have waits : (ready.course id).Refilled pushed := by
    refine refills_refilled pushed refills ?_
    obtain same | stroke := drift_move before plant deed ends id
    · rw [Stopped, same] at stopped
      exact absurd stopped active
    · exact ended_refilled stroke active stopped clear
  refine ⟨?_, ?_, ?_⟩
  · intro call next move asked begins
    have deals := move_deals ready next call move id
    rw [asked] at deals
    cases deals with
    | answers _ _ _ answers =>
        obtain ⟨old, s, held, now, state, steps, announced, executed, hands⟩ :=
          activation_begins answers begins sound pushed waits
        have reached := reached_move ready next there call move
        refine ⟨⟨old, s, held, now, state, fun free first rest filled => ?_⟩, ?_⟩
        · obtain ⟨task, queue⟩ := hands free first rest filled
          refine ⟨task, queue, fun after turn => ?_⟩
          cases turn with
          | turn => exact turn_begins s first now task (reached_sound next reached id)
        · intro more kept later pursues
          obtain ⟨done, pursued⟩ := pursues_pursued more kept reached executed pursues
          rw [← announced, ← steps]
          exact pursued_starts _ done kept pursued
  · intro t trigger after waiting known move
    obtain ⟨s, held, inactive, _⟩ := waits
    cases move with
    | turn =>
        refine turn_ends_wait t trigger sound (fun other there => ?_) waiting known
        cases held.symm.trans there
        exact inactive
  · intro t trigger rest after holds known agenda move
    have jobs : (({ ready with agenda := rest } : Plant).course id).jobs = [] := by
      have whole := course_job ready (.disarm id) rest agenda id
      have part : (ready.course id).jobs =
          .disarm id :: (({ ready with agenda := rest } : Plant).course id).jobs := by
        rw [whole]
        simp [Job.partOf?]
      obtain ⟨s, step, held, _⟩ := sound_work id _ (.disarm id) _ rfl part sound
      have station := (sound_held id _ s held).mp sound
      rw [part] at station
      exact (station_work rfl station).2.1
    rw [job_next ready after (.disarm id) rest move agenda, course_retire]
    have here : ({ ready with agenda := rest } : Plant).Holds id t := holds
    obtain ⟨next, free, told⟩ := disarm_leaves t trigger here known
    rw [jobs] at next
    exact ⟨next, free, told⟩

end

-- A sequence, a step that waits for a trigger and two that do not.
def prepared : Plant :=
  (blank ⟨0, 0⟩ true).runAll
    [.var (.make "x" (.bool false) false), .trigger (.make "t" "x==true" 2 false),
      .sequence (.make "s" 100), .sequence (.step "p" "Bath.Pump=1" none ""),
      .sequence (.step "q" "Bath.Pump=2" none ""),
      .sequence (.step "w" "Bath.Pump=3" (some "t") "")]

def startOf (step : String) : List Command :=
  [.sequence (.push "s" step 1), .sequence (.activate "s")]

def stop : Command := .sequence (.deactivate "s")

def turned (plant : Plant) : Plant := settle 20 (plant.turn (.sequence 0)).retire

def stoppedFresh : Plant := prepared.runAll (startOf "p" ++ [stop])

def awaiting : Plant := (prepared.runAll (startOf "w")).turned

def stoppedTrue : Plant := awaiting.runAll [.var (.set "x" (.bool true)), stop]

def stoppedFalse : Plant := awaiting.runAll [stop]

def pausedLast : Plant := (prepared.runAll (startOf "p" ++ [.sequence (.setPaused "s" true)])).turned

-- What of an earlier run shows in the next one: a step that had not begun, a wait whose trigger has come
-- true or that goes on, and a pause that was asked for while the run came to its end.
theorem earlier_run_shows :
    (stoppedFresh.Stopped 0 ∧
      (stoppedFresh.course 0).starts ((stoppedFresh.runAll (startOf "q")).turned.course 0) =
        [(1, "Bath.Pump=1", ""), (2, "Bath.Pump=2", "")]) ∧
      (awaiting.WaitsFor 0 0 ∧ stoppedTrue.Stopped 0 ∧
        .triggerSatisfied "x==true" ∈
          (stoppedTrue.course 0).news ((stoppedTrue.runAll (startOf "q")).turned.course 0)) ∧
      (stoppedFalse.Stopped 0 ∧ (stoppedFalse.runAll (startOf "q")).turned.WaitsFor 0 0) ∧
      pausedLast.Stopped 0 ∧
        (pausedLast.course 0).news ((pausedLast.runAll (startOf "q")).course 0) =
          [.paused, .started "s"] := by
  decide +kernel

-- The last job of a run, and the run behind it.
def lastJob : Plant := settle 6 ((prepared.runAll (startOf "p")).turn (.sequence 0)).retire

def finished : Plant := lastJob.after .job

def refill : Deed := .call (.sequence (.push "s" "q" 1))

def restart : Deed := .call (.sequence (.activate "s"))

def refilledOnce : Plant := finished.after refill

def restarted : Plant := refilledOnce.after restart

def restartTaken : Plant := restarted.after (.turn (.sequence 0))

def disarms (plant : Plant) (id : SequenceId) : Bool :=
  match plant.agenda with
  | .disarm other :: _ => other == id
  | _ => false

theorem disarms_first (plant : Plant) (id : SequenceId) (first : plant.disarms id = true) :
    ∃ rest, plant.agenda = .disarm id :: rest := by
  rw [disarms] at first
  split at first
  · next other rest agenda =>
      rw [beq_iff_eq] at first
      exact ⟨rest, by rw [agenda, first]⟩
  · contradiction

-- A run that is stopped while its trigger is true, and the task behind its turn.
def litAwaiting : Plant := awaiting.runAll [.var (.set "x" (.bool true))]

def stoppedLit : Plant := litAwaiting.after (.call stop)

def stoppedTurned : Plant := stoppedLit.after (.turn (.sequence 0))

theorem refilled_run_starts :
    (restarted.course 0).starts ((restartTaken.after .job).course 0) <+: [(1, "Bath.Pump=2", "")] ∧
      ((stoppedTurned.after .job).course 0).told =
        .triggerSatisfied "x==true" :: (stoppedTurned.course 0).told := by
  have any : ∀ plant deed next, OrderlyMove plant deed next → true = true → Move plant deed next :=
    fun _ _ _ orderly _ => orderly.move
  have moved : ∀ (plant : Plant) deed, plant.goesOn deed = true → Move plant deed (plant.after deed) :=
    fun plant deed ordered => (after_orderly plant deed ordered).move
  constructor
  · have reached : lastJob.Reached :=
      ⟨⟨0, 0⟩, true, (run_all_runs (fun _ _ _ => true) any _ _ (by decide +kernel)).trans
        ((run_all_runs (fun _ _ _ => true) any _ _ (by decide +kernel)).trans
          (turn_runs (fun _ _ _ => true) any 6 _ _ (by decide +kernel) rfl (by decide +kernel)))⟩
    obtain ⟨runs, _⟩ := next_run_starts lastJob finished refilledOnce 0 .job _ reached
      (moved _ _ (by decide +kernel)) (by decide +kernel) (by decide +kernel) (by decide +kernel)
      (.move _ _ _ refill .ended (moved _ _ (by decide +kernel)) (by decide +kernel) (by decide +kernel))
    have follows : Pursues 0 restarted _ _ (restartTaken.after .job) :=
      .move _ _ restartTaken _ .job
        (.move _ _ restarted _ _ .begun (moved _ _ (by decide +kernel)) (by decide +kernel))
        (moved _ _ (by decide +kernel)) (by decide +kernel)
    obtain ⟨_, starts⟩ := runs restart restarted (moved _ _ (by decide +kernel)) (by decide +kernel)
      (by decide +kernel)
    have steps : (refilledOnce.course 0).announced ++ counted 1
        ((refilledOnce.course 0).unbegun ++ refilled (finished.asks? 0 refill) [] ++
          ([] ++ ((restarted.asks? 0 (.turn (.sequence 0))).map Summons.steps).getD [] ++
            ((restartTaken.asks? 0 .job).map Summons.steps).getD [])) =
        [(1, "Bath.Pump=2", "")] := by
      decide +kernel
    rw [← steps]
    exact (starts _ _ _ follows).1
  · have reached : litAwaiting.Reached :=
      ⟨⟨0, 0⟩, true, (run_all_runs (fun _ _ _ => true) any _ _ (by decide +kernel)).trans
        ((run_all_runs (fun _ _ _ => true) any _ _ (by decide +kernel)).trans
          ((turn_runs (fun _ _ _ => true) any 20 _ _ (by decide +kernel) rfl (by decide +kernel)).trans
            (run_all_runs (fun _ _ _ => true) any _ _ (by decide +kernel))))⟩
    obtain ⟨_, _, ends⟩ := next_run_starts litAwaiting stoppedLit stoppedTurned 0 (.call stop) _ reached
      (moved _ _ (by decide +kernel)) (by decide +kernel) (by decide +kernel) (by decide +kernel)
      (.move _ _ _ (.turn (.sequence 0)) .ended (moved _ _ (by decide +kernel)) (by decide +kernel)
        (by decide +kernel))
    have holds : ∃ trigger, stoppedTurned.triggers[0]? = some trigger ∧
        trigger.expression = "x==true" ∧ trigger.latest = true := by
      have lit : ∃ trigger ∈ stoppedTurned.triggers[0]?,
          trigger.expression = "x==true" ∧ trigger.latest = true := by
        decide +kernel
      exact lit
    obtain ⟨trigger, there, expression, latest⟩ := holds
    obtain ⟨rest, agenda⟩ := disarms_first stoppedTurned 0 (by decide +kernel)
    have held : stoppedTurned.Holds 0 0 := by
      have needs : ∃ task ∈ (stoppedTurned.course 0).task?, task.step.trigger = some 0 := by decide +kernel
      exact needs
    obtain ⟨_, _, told⟩ := ends 0 trigger rest _ held there agenda (moved _ _ (by decide +kernel))
    rw [told, latest, if_pos rfl, expression]
    rfl

end Plant

end Interlock
