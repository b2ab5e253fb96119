import Mathlib.Logic.Hydra
import Interlock.Proofs.Plant.Ripple

/-!
What an assignment causes comes to an end. Comparisons listen to variables and triggers to comparisons,
so what a job causes reaches less far than the job itself.
-/

set_option autoImplicit false

namespace Interlock

open Interlock.Calendar (Instant)
open Interlock.Graph

def Job.reach : Job → Nat
  | .deliver (.comparison _) _ => 2
  | .deliver (.trigger _) _ => 1
  | _ => 0

theorem comparison_tells (c : ComparisonId) (listener : Listener) (notification : Notification)
    (admitted : Node.admits (.comparison c) listener = true) :
    (Job.deliver listener notification).reach < 2 := by
  cases listener with
  | observer | trigger | follower => simp [Job.reach]
  | comparison => contradiction

theorem trigger_tells (t : TriggerId) (listener : Listener) (notification : Notification)
    (admitted : Node.admits (.trigger t) listener = true) :
    (Job.deliver listener notification).reach < 1 := by
  cases listener with
  | observer | follower => simp [Job.reach]
  | comparison | trigger => contradiction

namespace Plant

def reaches (plant : Plant) : Multiset Nat := plant.agenda.map Job.reach

-- What is left to do of a job, in front of the rest, reaches less far than the job.
def Recedes (job : Job) (rest : List Job) (next : Plant) : Prop :=
  ∃ caused, next.agenda = caused ++ rest ∧ ∀ other ∈ caused, other.reach < job.reach

section

variable {plant next : Plant} {t : TriggerId} {job : Job} {rest : List Job}

theorem recedes_done (agenda : next.agenda = rest) : Recedes job rest next :=
  ⟨[], agenda, by simp⟩

theorem recedes_reaches (agenda : plant.agenda = job :: rest) (recedes : Recedes job rest next) :
    Relation.CutExpand (· < ·) next.reaches plant.reaches := by
  obtain ⟨caused, left, less⟩ := recedes
  refine ⟨caused.map Job.reach, job.reach, ?_, ?_⟩
  · intro reach member
    obtain ⟨other, caused_here, rfl⟩ := List.mem_map.mp (Multiset.mem_coe.mp member)
    exact less other caused_here
  · rw [reaches, reaches, left, agenda, List.map_append, List.map_cons, ← Multiset.coe_add,
      ← Multiset.cons_coe, ← Multiset.singleton_add]
    ac_rfl

theorem observer_recedes (passive : ∀ observer ∈ plant.observers, observer.Passive) (id : ObserverId)
    (notification : Notification) (agenda : plant.agenda = rest) :
    Recedes job rest (plant.deliver (.observer id) notification) := by
  apply recedes_done
  cases known : plant.observers[id]? with
  | none =>
      rw [deliver, known]
      exact agenda
  | some observer =>
      obtain ⟨after, _, _, delivered⟩ := passive_delivers plant passive id observer known notification
      rw [delivered]
      exact agenda

theorem hear_variable_recedes (linked : plant.Linked) (c : ComparisonId) (notification : Notification)
    (agenda : plant.agenda = rest) :
    Recedes (.deliver (.comparison c) notification) rest (plant.hearVariable c notification.stamp) := by
  rw [hearVariable]
  split
  · exact recedes_done agenda
  · next comparison there =>
      split
      · obtain ⟨_, told, grown⟩ := refresh_publishes plant c comparison there notification.stamp
        refine ⟨_, by rw [grown, agenda, ← List.append_assoc], fun other member => ?_⟩
        rcases List.mem_append.mp member with delivery | left
        · obtain ⟨s, listens, rfl⟩ := List.mem_map.mp delivery
          rw [← listeners_comparison c comparison there] at listens
          exact comparison_tells c s.listener told (linked.layered _ s listens)
        · rw [List.mem_singleton.mp left]
          exact Nat.zero_lt_succ _
      · exact recedes_done agenda

theorem published_recedes (linked : plant.Linked) (trigger : Trigger) (found : Trigger.Evaluation)
    (there : plant.triggers[t]? = some trigger) (notification : Notification)
    (agenda : plant.agenda = rest) (published : Published t plant next trigger found) :
    Recedes (.deliver (.trigger t) notification) rest next := by
  obtain ⟨stamp, grown⟩ := published.agenda
  refine ⟨_, by rw [grown, agenda, ← List.append_assoc], fun other member => ?_⟩
  rcases List.mem_append.mp member with delivery | own
  · obtain ⟨s, listens, rfl⟩ := List.mem_map.mp delivery
    rw [← listeners_trigger t trigger there] at listens
    exact trigger_tells t s.listener _ (linked.layered _ s listens)
  · rcases behind_deliveries _ t other own with ⟨rfl, _⟩ | rfl
    · exact Nat.zero_lt_succ _
    · exact Nat.zero_lt_succ _

theorem hear_recedes (linked : plant.Linked) (joined : plant.JoinedAt t) (notification : Notification)
    (agenda : plant.agenda = rest) :
    Recedes (.deliver (.trigger t) notification) rest (plant.hear t notification.stamp) := by
  cases there : plant.triggers[t]? with
  | none =>
      rw [hear, there]
      exact recedes_done agenda
  | some trigger =>
      have compiled := (joined trigger there).compiled
      rw [hear_evaluates plant t trigger there compiled notification.stamp]
      split
      · obtain ⟨found, _, published⟩ :=
          evaluate_publishes plant t trigger there compiled notification.stamp
        exact published_recedes linked trigger found there notification agenda published
      · exact recedes_done agenda

theorem perform_recedes (linked : plant.Linked) (joined : ∀ t, plant.JoinedAt t)
    (passive : ∀ observer ∈ plant.observers, observer.Passive) (ripple : job.isRipple = true)
    (agenda : plant.agenda = rest) : Recedes job rest (plant.perform job) := by
  cases job with
  | deliver listener notification =>
      cases listener with
      | observer id => exact observer_recedes passive id notification agenda
      | comparison c => exact hear_variable_recedes linked c notification agenda
      | trigger other => exact hear_recedes linked (joined other) notification agenda
      | follower => exact recedes_done agenda
  | leave => exact recedes_done agenda
  | exhaust other => exact recedes_done ((exhaust_hushed plant other).2.trans agenda)
  | tell | command | conclude | write | settleDown | keepSubscription | closeRun | announce | begin
  | act | arm | wait | disarm | next | complete => contradiction

theorem step_recedes (poised : plant.Poised) (watched : plant.Watched t)
    (stepped : plant.stepJob? = some next) :
    Relation.CutExpand (· < ·) next.reaches plant.reaches := by
  obtain ⟨job, rest, agenda, rfl⟩ := worked_off stepped
  have popped := watched_popped job rest agenda watched
  have linked := (coherent_popped poised.consistent agenda).linked
  have joined : ∀ t, JoinedAt { plant with agenda := rest } t := fun t trigger there =>
    joined_agenda plant rest trigger (poised.joined t trigger there)
  have ripple : job.isRipple = true := watched.ripples job (by rw [agenda]; exact List.mem_cons_self)
  obtain ⟨caused, left, less⟩ := perform_recedes linked joined popped.passive ripple rfl
  exact recedes_reaches agenda ⟨caused, (still_retire _).agenda.trans left, less⟩

-- By induction on the reaches of all jobs: no matter how many a job causes, they are below its own.
theorem ripples_settle (poised : plant.Poised) (watched : plant.Watched t)
    (there : ∃ trigger, plant.triggers[t]? = some trigger) : ∃ fuel, (settle fuel plant).agenda = [] := by
  induction plant using (InvImage.wf reaches wellFounded_lt.cutExpand).induction with
  | _ plant ih =>
    cases stepped : plant.stepJob? with
    | none =>
        refine ⟨0, ?_⟩
        rw [stepJob?] at stepped
        split at stepped
        · assumption
        · contradiction
    | some next =>
        obtain ⟨trigger, found⟩ := there
        obtain ⟨after, moved⟩ := job_watched_move poised watched stepped trigger found
        obtain ⟨fuel, settled⟩ := ih next (step_recedes poised watched stepped)
          (poised_move .job (.job next stepped) poised) moved.watched ⟨after, moved.there⟩
        refine ⟨fuel + 1, ?_⟩
        rw [settle, stepped]
        exact settled

end

end Plant

end Interlock
