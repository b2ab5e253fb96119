import Mathlib.Data.List.Chain
import Mathlib.Logic.Relation
import Interlock.Plant.Run

/-!
The moves of a plant. Whatever a session does is a chain of moves: it works off jobs, carries out
calls, gives turns to tasks and moves the clock.
-/

set_option autoImplicit false

namespace Interlock

open Interlock.Session (Command)

def Job.isDelivery : Job → Bool
  | .deliver _ _ | .tell _ _ => true
  | _ => false

inductive Deed where
  | job
  | call (command : Command)
  | turn (runner : Runner)
  | dispatch (change : Dispatcher → Dispatcher)

namespace Plant

-- Calls and turns may fall between any two jobs, tasks take turns in any order, and the dispatcher
-- changes as it likes, so a property of all moves holds for every schedule.
inductive Move (plant : Plant) : Deed → Plant → Prop where
  | job (next : Plant) (stepped : plant.stepJob? = some next) : Move plant .job next
  | call (command : Command) : Move plant (.call command) (plant.execute command).2.retire
  | turn (runner : Runner) : Move plant (.turn runner) (plant.turn runner).retire
  | dispatch (change : Dispatcher → Dispatcher) :
      Move plant (.dispatch change) (plant.dispatch change)

def Runs (move : Plant → Deed → Plant → Prop) : Plant → Plant → Prop :=
  Relation.ReflTransGen fun plant next => ∃ deed, move plant deed next

def Moves : Plant → Plant → Prop := Runs Move

def Open (plant : Plant) : Prop := ∀ job ∈ plant.agenda.head?, job.isDelivery = true

-- In a single thread a call comes while nothing is left to do, or from a handler while a message is
-- delivered to it, and a task takes its turn when the task before it is done.
def Orderly (plant : Plant) : Deed → Prop
  | .call _ => plant.Open
  | .turn _ => plant.agenda = []
  | .job | .dispatch _ => True

structure OrderlyMove (plant : Plant) (deed : Deed) (next : Plant) : Prop where
  move : Move plant deed next
  orderly : plant.Orderly deed

def OrderlyMoves : Plant → Plant → Prop := Runs OrderlyMove

theorem worked_off {plant next : Plant} (stepped : plant.stepJob? = some next) :
    ∃ job rest, plant.agenda = job :: rest ∧
      next = (perform { plant with agenda := rest } job).retire := by
  unfold stepJob? at stepped
  split at stepped
  · contradiction
  · next job rest agenda => exact ⟨job, rest, agenda, (Option.some.inj stepped).symm⟩

def order? (plant : Plant) : Deed → Option Command
  | .call command => some command
  | .job =>
      match plant.agenda with
      | .command _ command :: _ => some command
      | _ => none
  | .turn _ | .dispatch _ => none

theorem runs_invariant {move : Plant → Deed → Plant → Prop} (kept : Plant → Prop)
    (step : ∀ plant deed next, kept plant → move plant deed next → kept next) (plant next : Plant)
    (begins : kept plant) (runs : Runs move plant next) : kept next := by
  induction runs with
  | refl => exact begins
  | tail _ last ih =>
      obtain ⟨deed, moved⟩ := last
      exact step _ deed _ ih moved

theorem settle_moves (fuel : Nat) (plant : Plant) : OrderlyMoves plant (settle fuel plant) := by
  induction fuel generalizing plant with
  | zero => exact .refl
  | succ fuel ih =>
      rw [settle]
      cases stepped : plant.stepJob? with
      | none => exact .refl
      | some next => exact .head ⟨.job, .job next stepped, trivial⟩ (ih next)

theorem run_moves (plant : Plant) (command : Command) (free : plant.Open) :
    OrderlyMoves plant (plant.run command).2 :=
  .head ⟨_, .call command, free⟩ (settle_moves patience _)

theorem take_turn_moves (plant : Plant) (rest : plant.agenda = []) :
    OrderlyMoves plant plant.takeTurn.2 := by
  have looked : OrderlyMoves plant { plant with dispatcher := plant.dispatcher.next.2 } :=
    .single ⟨_, .dispatch fun _ => plant.dispatcher.next.2, trivial⟩
  rw [takeTurn]
  cases found : plant.dispatcher.next with
  | mk runner dispatcher =>
      rw [found] at looked
      cases runner with
      | none => exact looked
      | some runner =>
          exact looked.trans (.head ⟨_, .turn runner, rest⟩ (settle_moves patience _))

def settles (test : Plant → Deed → Plant → Bool) : Nat → Plant → Bool
  | 0, _ => true
  | fuel + 1, plant =>
      match plant.stepJob? with
      | none => true
      | some next => test plant .job next && settles test fuel next

-- Carries out commands one after the other, and whether each of them found nothing left to do and
-- passes a test with all that it causes.
def runAll (plant : Plant) (commands : List Command) : Plant :=
  commands.foldl (fun plant command => (plant.run command).2) plant

def passes (test : Plant → Deed → Plant → Bool) : Plant → List Command → Bool
  | _, [] => true
  | plant, command :: rest =>
      plant.agenda.isEmpty && test plant (.call command) (plant.execute command).2.retire &&
        settles test patience (plant.execute command).2.retire && passes test (plant.run command).2 rest

-- The plant after a deed, the plants after one deed after the other, and whether each of the deeds can
-- be done in its turn and passes a test.
def after (plant : Plant) : Deed → Plant
  | .job => plant.stepJob?.getD plant
  | .call command => (plant.execute command).2.retire
  | .turn runner => (plant.turn runner).retire
  | .dispatch change => plant.dispatch change

def states : Plant → List Deed → List Plant
  | _, [] => []
  | plant, deed :: rest => plant.after deed :: (plant.after deed).states rest

def goesOn (plant : Plant) : Deed → Bool
  | .job => plant.stepJob?.isSome
  | .call _ => (plant.agenda.head?).all Job.isDelivery
  | .turn _ => plant.agenda.isEmpty
  | .dispatch _ => true

def follows (test : Plant → Deed → Plant → Bool) : Plant → List Deed → Bool
  | _, [] => true
  | plant, deed :: rest =>
      plant.goesOn deed && test plant deed (plant.after deed) && follows test (plant.after deed) rest

theorem states_append (plant : Plant) (deeds more : List Deed) :
    plant.states (deeds ++ more) = plant.states deeds ++ (deeds.foldl after plant).states more := by
  induction deeds generalizing plant with
  | nil => rfl
  | cons deed rest ih => rw [List.cons_append, states, states, ih, List.cons_append, List.foldl_cons]

theorem after_orderly (plant : Plant) (deed : Deed) (ordered : plant.goesOn deed = true) :
    OrderlyMove plant deed (plant.after deed) := by
  cases deed with
  | job =>
      cases stepped : plant.stepJob? with
      | none => simp [goesOn, stepped] at ordered
      | some next =>
          rw [after, stepped]
          exact ⟨.job next stepped, trivial⟩
  | call command =>
      refine ⟨.call command, fun job first => ?_⟩
      have all : (plant.agenda.head?).all Job.isDelivery = true := ordered
      rw [Option.mem_def.mp first] at all
      exact all
  | turn runner => exact ⟨.turn runner, List.isEmpty_iff.mp ordered⟩
  | dispatch change => exact ⟨.dispatch change, trivial⟩

section

variable {move : Plant → Deed → Plant → Prop} (test : Plant → Deed → Plant → Bool)
  (sound : ∀ plant deed next, OrderlyMove plant deed next → test plant deed next = true →
    move plant deed next)

include sound

theorem settle_runs (fuel : Nat) (plant : Plant) (settled : settles test fuel plant = true) :
    Runs move plant (settle fuel plant) := by
  induction fuel generalizing plant with
  | zero => exact .refl
  | succ fuel ih =>
      rw [settles] at settled
      rw [settle]
      cases stepped : plant.stepJob? with
      | none => exact .refl
      | some next =>
          simp only [stepped, Bool.and_eq_true] at settled
          exact .head ⟨_, sound plant .job next ⟨.job next stepped, trivial⟩ settled.1⟩
            (ih next settled.2)

theorem turn_runs (fuel : Nat) (plant : Plant) (runner : Runner) (rest : plant.agenda = [])
    (tested : test plant (.turn runner) (plant.turn runner).retire = true)
    (settled : settles test fuel (plant.turn runner).retire = true) :
    Runs move plant (settle fuel (plant.turn runner).retire) :=
  .head ⟨_, sound plant _ _ ⟨.turn runner, rest⟩ tested⟩ (settle_runs test sound fuel _ settled)

theorem states_chain (plant : Plant) (deeds : List Deed) (passed : follows test plant deeds = true) :
    List.IsChain (fun plant next => ∃ deed, move plant deed next) (plant :: plant.states deeds) := by
  induction deeds generalizing plant with
  | nil => exact .singleton plant
  | cons deed rest ih =>
      simp only [follows, Bool.and_eq_true] at passed
      obtain ⟨⟨ordered, tested⟩, later⟩ := passed
      exact List.isChain_cons_cons.mpr
        ⟨⟨deed, sound plant deed _ (after_orderly plant deed ordered) tested⟩, ih _ later⟩

theorem run_all_runs (plant : Plant) (commands : List Command)
    (passed : passes test plant commands = true) : Runs move plant (plant.runAll commands) := by
  induction commands generalizing plant with
  | nil => exact .refl
  | cons command commands ih =>
      rw [passes] at passed
      simp only [Bool.and_eq_true, List.isEmpty_iff] at passed
      obtain ⟨⟨⟨rest, tested⟩, settled⟩, later⟩ := passed
      have free : plant.Open := by simp [Open, rest]
      have first : move plant (.call command) (plant.execute command).2.retire :=
        sound plant _ _ ⟨.call command, free⟩ tested
      exact (Relation.ReflTransGen.head ⟨_, first⟩
        (settle_runs test sound patience _ settled)).trans (ih _ later)

end

end Plant

end Interlock
