import Mathlib.Data.List.Nodup
import Mathlib.Data.List.Perm.Basic
import Interlock.Proofs.Plant.Holding
import Interlock.Proofs.Plant.Numbering

/-!
A ledger of the steps of a sequence. Steps are numbered as they are pushed, and the ledger follows each of
them by what a move shows: its call, what it tells, whether the task lets go of its step, and how long
the queue is behind it.
-/

set_option autoImplicit false

namespace Interlock

open Interlock.Schedule

structure Ledger where
  pushed : List Step
  queued : List Nat
  -- taken from the queue and not yet executed
  flying : List Nat
  started : List Nat
  executed : List Nat
  discarded : List Nat
deriving DecidableEq, Repr

namespace Ledger

def blank : Ledger := ⟨[], [], [], [], [], []⟩

def push (ledger : Ledger) (steps : List Step) : Ledger :=
  { ledger with
    pushed := ledger.pushed ++ steps,
    queued := ledger.queued ++ List.range' ledger.pushed.length steps.length }

def start (ledger : Ledger) : Ledger :=
  { ledger with started := ledger.started ++ ledger.flying.take 1 }

def finish (ledger : Ledger) : Ledger :=
  { ledger with
    flying := ledger.flying.drop 1, executed := ledger.executed ++ ledger.flying.take 1 }

def drop (ledger : Ledger) : Ledger :=
  { ledger with queued := [], discarded := ledger.discarded ++ ledger.queued }

def take (ledger : Ledger) (count : Nat) : Ledger :=
  { ledger with
    queued := ledger.queued.drop count, flying := ledger.flying ++ ledger.queued.take count }

-- The steps that a move pushes, whether it starts, finishes and drops steps, and how many it leaves.
def enter (ledger : Ledger) (steps : List Step) (starts finishes drops : Bool) (left : Nat) : Ledger :=
  let ledger := ledger.push steps
  let ledger := if starts then ledger.start else ledger
  let ledger := if finishes then ledger.finish else ledger
  let ledger := if drops then ledger.drop else ledger
  ledger.take (ledger.queued.length - left)

end Ledger

def Summons.steps : Summons → List Step
  | .create queue => queue
  | .push steps => steps
  | _ => []

def Summons.disposes : Summons → Bool
  | .dispose => true
  | _ => false

def Schedule.Step.text (step : Step) : String × String := (step.source, step.description)

-- The step whose start is told, as far as the message says.
def Schedule.Progress.text? : Progress → Option (String × String)
  | .stepStarted _ source description => some (source, description)
  | _ => none

def Course.queue (c : Course) : List Step := (c.sequence.map fun s => s.queue).getD []

def Course.news (c after : Course) : List Progress :=
  after.told.take (after.told.length - c.told.length)

def Ledger.follow (ledger : Ledger) (summons : Option Summons) (c after : Course) : Ledger :=
  ledger.enter ((summons.map Summons.steps).getD [])
    ((c.news after).any fun progress => progress.text?.isSome)
    (c.task?.isSome && after.task?.isNone)
    (summons.any Summons.disposes || (c.news after).contains .cancelled)
    after.queue.length

structure Ledger.Balanced (ledger : Ledger) : Prop where
  kept : ledger.executed ++ ledger.flying ++ ledger.queued =
    (List.range ledger.pushed.length).filter fun number => number ∉ ledger.discarded
  once : ledger.discarded.Nodup
  bounded : ∀ number ∈ ledger.discarded, number < ledger.pushed.length

namespace Ledger

theorem balanced_blank : blank.Balanced := ⟨rfl, .nil, by simp [blank]⟩

theorem balanced_push (ledger : Ledger) (steps : List Step) (balanced : ledger.Balanced) :
    (ledger.push steps).Balanced := by
  refine ⟨?_, balanced.once, fun number member => ?_⟩
  · have later : (List.range' ledger.pushed.length steps.length).filter
        (fun number => number ∉ ledger.discarded) =
          List.range' ledger.pushed.length steps.length := by
      rw [List.filter_eq_self]
      intro number member
      have beyond := (List.mem_range'_1.mp member).1
      simpa using fun discarded => Nat.not_lt.mpr beyond (balanced.bounded number discarded)
    have all : List.range (ledger.pushed ++ steps).length =
        List.range ledger.pushed.length ++ List.range' ledger.pushed.length steps.length := by
      rw [List.length_append, List.range_eq_range', List.range_eq_range', ← List.range'_append_1,
        Nat.zero_add]
    calc ledger.executed ++ ledger.flying ++
          (ledger.queued ++ List.range' ledger.pushed.length steps.length)
        = (List.range ledger.pushed.length).filter (fun number => number ∉ ledger.discarded) ++
            List.range' ledger.pushed.length steps.length := by
          rw [← balanced.kept, List.append_assoc, List.append_assoc, List.append_assoc]
      _ = (List.range (ledger.pushed ++ steps).length).filter
            (fun number => number ∉ ledger.discarded) := by
          rw [all, List.filter_append, later]
  · have inside := balanced.bounded number member
    simp only [push, List.length_append]
    omega

theorem balanced_start (ledger : Ledger) (balanced : ledger.Balanced) : ledger.start.Balanced :=
  ⟨balanced.kept, balanced.once, balanced.bounded⟩

theorem balanced_finish (ledger : Ledger) (balanced : ledger.Balanced) : ledger.finish.Balanced := by
  refine ⟨Eq.trans ?_ balanced.kept, balanced.once, balanced.bounded⟩
  rw [finish, List.append_assoc ledger.executed, List.take_append_drop]

theorem balanced_take (ledger : Ledger) (count : Nat) (balanced : ledger.Balanced) :
    (ledger.take count).Balanced := by
  refine ⟨Eq.trans ?_ balanced.kept, balanced.once, balanced.bounded⟩
  rw [take, List.append_assoc, List.append_assoc, List.take_append_drop, List.append_assoc]

theorem balanced_drop (ledger : Ledger) (balanced : ledger.Balanced) : ledger.drop.Balanced := by
  have distinct : (ledger.executed ++ ledger.flying ++ ledger.queued).Nodup := by
    rw [balanced.kept]
    exact List.nodup_range.filter _
  have apart : ∀ number ∈ ledger.queued, number ∉ ledger.discarded ∧ number < ledger.pushed.length := by
    intro number member
    have kept : number ∈ ledger.executed ++ ledger.flying ++ ledger.queued :=
      List.mem_append_right _ member
    rw [balanced.kept, List.mem_filter, List.mem_range] at kept
    exact ⟨by simpa using kept.2, kept.1⟩
  obtain ⟨_, queued, disjoint⟩ := List.nodup_append.mp distinct
  refine ⟨?_, ?_, ?_⟩
  · have earlier : (ledger.executed ++ ledger.flying).filter (fun number => number ∉ ledger.queued) =
        ledger.executed ++ ledger.flying := by
      rw [List.filter_eq_self]
      intro number member
      simpa using fun late => disjoint number member number late rfl
    have gone : ledger.queued.filter (fun number => number ∉ ledger.queued) = [] := by
      simp
    calc ledger.executed ++ ledger.flying ++ []
        = (ledger.executed ++ ledger.flying ++ ledger.queued).filter
            (fun number => number ∉ ledger.queued) := by
          rw [List.filter_append, earlier, gone]
      _ = (List.range ledger.pushed.length).filter
            (fun number => number ∉ ledger.discarded ++ ledger.queued) := by
          rw [balanced.kept, List.filter_filter]
          congr 1
          funext number
          simp [and_comm]
  · exact List.nodup_append.mpr ⟨balanced.once, queued, fun number discarded other late same =>
      (apart other late).1 (same ▸ discarded)⟩
  · intro number member
    rcases List.mem_append.mp member with discarded | late
    · exact balanced.bounded number discarded
    · exact (apart number late).2

theorem balanced_enter (ledger : Ledger) (steps : List Step) (starts finishes drops : Bool)
    (left : Nat) (balanced : ledger.Balanced) :
    (ledger.enter steps starts finishes drops left).Balanced := by
  rw [enter]
  apply balanced_take
  have pushed := balanced_push ledger steps balanced
  have started : (if starts then (ledger.push steps).start else ledger.push steps).Balanced := by
    cases starts with
    | true => exact balanced_start _ pushed
    | false => exact pushed
  generalize (if starts then (ledger.push steps).start else ledger.push steps) = begun at started
  have finished : (if finishes then begun.finish else begun).Balanced := by
    cases finishes with
    | true => exact balanced_finish _ started
    | false => exact started
  cases drops with
  | true => exact balanced_drop _ finished
  | false => exact finished

theorem balanced_perm (ledger : Ledger) (balanced : ledger.Balanced) :
    (ledger.queued ++ ledger.flying ++ ledger.executed ++ ledger.discarded).Perm
      (List.range ledger.pushed.length) := by
  have discarded : ((List.range ledger.pushed.length).filter
      fun number => !decide (number ∉ ledger.discarded)).Perm ledger.discarded := by
    rw [List.perm_ext_iff_of_nodup (List.nodup_range.filter _) balanced.once]
    intro number
    simpa using balanced.bounded number
  have kept : (ledger.queued ++ ledger.flying ++ ledger.executed).Perm
      ((List.range ledger.pushed.length).filter fun number => number ∉ ledger.discarded) := by
    rw [← balanced.kept]
    exact ((List.perm_append_comm.append_right _).trans List.perm_append_comm).trans
      (by rw [List.append_assoc])
  exact (kept.append discarded.symm).trans (List.filter_append_perm _ _)

end Ledger

end Interlock
