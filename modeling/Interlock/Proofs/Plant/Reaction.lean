import Interlock.Proofs.Plant.Enactment
import Interlock.Proofs.Plant.Propagation

/-!
How the plant reacts to a message as long as handlers only look. Variables take values over, comparisons
and triggers hear of them, and handlers look around; no job causes one that reaches as far as itself, so
the reaction comes to an end, and no channel and no sequence has changed.
-/

set_option autoImplicit false

namespace Interlock

open Interlock.Calendar (Instant)
open Interlock.Graph
open Interlock.Schedule (SequenceId)
open Interlock.Session (Command progressOf)

-- Commands that only look.
def Session.Command.observes : Command → Bool
  | .var (.get _) | .var (.list _) | .comparison (.state _) | .trigger (.state _) | .trigger (.watch _)
  | .trigger (.look _) | .channel (.resolve _) | .channel (.read _) | .channel .list | .channel (.state _)
  | .device (.atIndex _ _) | .device (.byName _ _) | .device (.state _) | .sequence (.state _) => true
  | _ => false

def Observer.Onlooks (observer : Observer) : Prop :=
  observer.remaining = 0 ∨ ∀ command ∈ observer.script, command.observes = true

def Job.Reacts : Job → Prop
  | .deliver _ _ | .tell _ _ | .leave _ | .exhaust _ | .conclude _ _ => True
  | .command _ order => order.observes = true
  | _ => False

-- How many layers of listeners, handlers and commands a job can pass through.
def Job.depth : Job → Nat
  | .tell (.follower _ _) _ => 5
  | .deliver (.comparison _) _ => 4
  | .deliver (.trigger _) _ => 3
  | .deliver (.observer _) _ | .tell (.observer _) _ => 2
  | .command _ _ => 1
  | _ => 0

def Node.depth : Node → Nat
  | .var _ => 5
  | .comparison _ => 4
  | .trigger _ => 3

theorem delivery_depth (node : Node) (listener : Listener) (notification : Notification)
    (admitted : node.admits listener = true) :
    (Job.deliver listener notification).depth < node.depth := by
  cases listener <;> cases node <;> first | contradiction | simp [Job.depth, Node.depth]

namespace Plant

def Onlookers (plant : Plant) : Prop := ∀ observer ∈ plant.observers, observer.Onlooks

-- What is left of a job, in front of the rest, comes from it and has less before it.
structure LeavesLess (job : Job) (plant next : Plant) : Prop where
  agenda : Adds (fun other => other.Reacts ∧ other.depth < job.depth) plant next
  onlookers : next.Onlookers

structure Writable (id : SequenceId) (registry : Directory) (plant : Plant) : Prop where
  poised : plant.Poised
  onlookers : plant.Onlookers
  reads : ∃ sequence, plant.sequences[id]? = some sequence ∧ plant.registry sequence.registry = registry
  stocked : ∀ c ∈ registry.ids, c < plant.channels.length

section

variable {plant next : Plant} {job : Job} {rest : List Job} {id : SequenceId} {registry : Directory}

theorem execute_observes (plant : Plant) (command : Command) (observes : command.observes = true) :
    ∃ receivers, (plant.execute command).2 =
      { plant with desk := { plant.desk with receivers := receivers } } := by
  have same : ∃ receivers, plant = { plant with desk := { plant.desk with receivers := receivers } } :=
    ⟨plant.desk.receivers, rfl⟩
  cases command with
  | var command =>
      cases command with
      | get name =>
          rw [execute, onVariable]
          split <;> exact same
      | list name => exact same
      | make | set | follow => contradiction
  | comparison command =>
      cases command with
      | state name =>
          rw [execute, onComparison]
          split <;> exact same
      | make | activate | deactivate | refresh | drop => contradiction
  | trigger command =>
      cases command with
      | state name =>
          rw [execute, onTrigger]
          split <;> exact same
      | watch name =>
          rw [execute, onTrigger]
          split
          · exact same
          · exact ⟨_, rfl⟩
      | look name =>
          rw [execute, onTrigger]
          split
          · exact same
          · split
            · exact same
            · exact ⟨_, rfl⟩
      | make | activate | deactivate | rearm | evaluate | drop => contradiction
  | channel command =>
      cases command with
      | resolve path =>
          rw [execute, onChannel]
          split
          · exact same
          · split <;> exact same
      | read name =>
          rw [execute, onChannel]
          split <;> exact same
      | list => exact same
      | state name =>
          rw [execute, onChannel]
          split <;> exact same
      | make | register | unregister | write | setActive | rename | clear | notify => contradiction
  | device command =>
      cases command with
      | atIndex name index =>
          rw [execute, onDevice]
          split <;> exact same
      | byName name channel =>
          rw [execute, onDevice]
          split <;> exact same
      | state name =>
          rw [execute, onDevice]
          split <;> exact same
      | make | add | remove | register | poll | activate | deactivate | dispose => contradiction
  | sequence command =>
      cases command with
      | state name =>
          rw [execute, onSequence]
          split <;> exact same
      | make | step | stepOf | push | activate | deactivate | setPaused | dispose => contradiction
  | workspace | subscribe | unsubscribe => contradiction

theorem look_concludes (plant : Plant) (label : String) (command : Command)
    (observes : command.observes = true) :
    ∃ receivers reply, plant.runCommand label command =
      { plant with
        desk := { plant.desk with receivers := receivers },
        agenda := .conclude label reply :: plant.agenda } := by
  obtain ⟨receivers, executed⟩ := execute_observes plant command observes
  refine ⟨receivers, (plant.execute command).1, ?_⟩
  rw [runCommand]
  dsimp only
  rw [executed]
  simp

theorem leaves_less_idle (onlookers : plant.Onlookers) (agenda : next.agenda = plant.agenda)
    (observers : next.observers = plant.observers) : LeavesLess job plant next :=
  ⟨⟨[], agenda, by simp⟩, fun observer member => onlookers observer (observers ▸ member)⟩

theorem leaves_less_publishes (linked : plant.Linked) (onlookers : plant.Onlookers) (node : Node)
    (deep : job.depth = node.depth) (notification : Notification) (behind : List Job)
    (last : ∀ other ∈ behind, other.Reacts ∧ other.depth = 0)
    (agenda : next.agenda = ((plant.listeners node).map fun s => Job.deliver s.listener notification) ++
      (behind ++ plant.agenda)) (observers : next.observers = plant.observers) : LeavesLess job plant next := by
  refine ⟨⟨_, by rw [agenda, List.append_assoc], fun other member => ?_⟩,
    fun observer member => onlookers observer (observers ▸ member)⟩
  rw [deep]
  rcases List.mem_append.mp member with delivery | ending
  · obtain ⟨s, listens, rfl⟩ := List.mem_map.mp delivery
    exact ⟨trivial, delivery_depth node s.listener notification (linked.layered node s listens)⟩
  · obtain ⟨reacts, flat⟩ := last other ending
    refine ⟨reacts, flat ▸ ?_⟩
    cases node <;> simp [Node.depth]

theorem leaves_less_script (plant : Plant) (onlookers : plant.Onlookers) (o : ObserverId) (observer : Observer)
    (there : plant.observers[o]? = some observer) (deep : job.depth = 2) :
    LeavesLess job plant (plant.scriptOf o observer) := by
  have onlooks := onlookers observer (List.mem_of_getElem? there)
  rw [scriptOf]
  split
  · exact leaves_less_idle onlookers rfl rfl
  · next remaining left =>
      have looks := onlooks.resolve_left (by simp [left])
      refine ⟨⟨_, rfl, fun other member => ?_⟩, fun found member => ?_⟩
      · obtain ⟨command, scripted, rfl⟩ := List.mem_map.mp member
        exact ⟨looks command scripted, deep ▸ Nat.one_lt_two⟩
      · rcases List.mem_or_eq_of_mem_set member with old | rfl
        · exact onlookers found old
        · exact .inr looks

theorem leaves_less_hear_variable (linked : plant.Linked) (onlookers : plant.Onlookers) (c : ComparisonId)
    (notification : Notification) :
    LeavesLess (.deliver (.comparison c) notification) plant (plant.hearVariable c notification.stamp) := by
  rw [hearVariable]
  split
  · exact leaves_less_idle onlookers rfl rfl
  · next comparison there =>
      split
      · obtain ⟨hushed, told, grown⟩ := refresh_publishes plant c comparison there notification.stamp
        rw [← listeners_comparison c comparison there] at grown
        refine leaves_less_publishes linked onlookers (.comparison c) rfl told [.leave (.comparison c)] ?_ grown
          hushed.observers
        intro other member
        rw [List.mem_singleton.mp member]
        exact ⟨trivial, rfl⟩
      · exact leaves_less_idle onlookers rfl rfl

theorem leaves_less_hear (linked : plant.Linked) (onlookers : plant.Onlookers) (t : TriggerId)
    (joined : plant.JoinedAt t) (notification : Notification) :
    LeavesLess (.deliver (.trigger t) notification) plant (plant.hear t notification.stamp) := by
  cases there : plant.triggers[t]? with
  | none =>
      rw [hear, there]
      exact leaves_less_idle onlookers rfl rfl
  | some trigger =>
      have compiled := (joined trigger there).compiled
      rw [hear_evaluates plant t trigger there compiled notification.stamp]
      split
      · obtain ⟨found, _, published⟩ :=
          evaluate_publishes plant t trigger there compiled notification.stamp
        obtain ⟨stamp, grown⟩ := published.agenda
        rw [← listeners_trigger t trigger there] at grown
        refine leaves_less_publishes linked onlookers (.trigger t) rfl _ _ ?_ grown published.hushed.observers
        intro other member
        rcases behind_deliveries _ t other member with ⟨rfl, _⟩ | rfl <;> exact ⟨trivial, rfl⟩
      · exact leaves_less_idle onlookers rfl rfl

theorem leaves_less_take_over (linked : plant.Linked) (onlookers : plant.Onlookers) (v : VariableId)
    (source : String) (event : Event) :
    LeavesLess (.tell (.follower v source) event) plant (plant.takeOver v source event) := by
  have idle : LeavesLess (.tell (.follower v source) event) plant plant := leaves_less_idle onlookers rfl rfl
  cases there : plant.vars[v]? with
  | none =>
      rw [takeOver, there]
      exact idle
  | some var =>
      cases given : event.value with
      | none =>
          rw [takeOver, there, given]
          exact idle
      | some value =>
          by_cases used : plant.variableInUse v = true
          · cases assigned : var.assign plant.readClock.1 value with
            | ok result =>
                rw [takes_over plant source event there given used assigned]
                have announces := assign_announces plant there assigned
                refine leaves_less_publishes linked onlookers (.var v) rfl _ [.leave (.var v)] ?_ announces.agenda
                  announces.observers
                intro other member
                rw [List.mem_singleton.mp member]
                exact ⟨trivial, rfl⟩
            | error error =>
                obtain ⟨details, ignored⟩ := ignores_refused plant source event there given used error
                  assigned
                rw [ignored]
                exact leaves_less_idle onlookers rfl rfl
          · rw [takeOver, there, given]
            dsimp only
            rw [if_neg used]
            exact idle

theorem leaves_less_perform (linked : plant.Linked) (joined : ∀ t, plant.JoinedAt t)
    (onlookers : plant.Onlookers) (reacts : job.Reacts) : LeavesLess job plant (plant.perform job) := by
  cases job with
  | deliver listener notification =>
      cases listener with
      | observer o =>
          rw [perform, deliver]
          split
          · exact leaves_less_idle onlookers rfl rfl
          · next observer there =>
              have scripted : LeavesLess (.deliver (.observer o) notification) _ _ :=
                leaves_less_script (plant.note (.notified observer.label notification)) onlookers o observer there rfl
              exact ⟨scripted.agenda, scripted.onlookers⟩
      | comparison c => exact leaves_less_hear_variable linked onlookers c notification
      | trigger t => exact leaves_less_hear linked onlookers t (joined t) notification
      | follower => exact leaves_less_idle onlookers rfl rfl
  | tell listener event =>
      cases listener with
      | observer o =>
          rw [perform, tell]
          split
          · exact leaves_less_idle onlookers rfl rfl
          · next observer there =>
              have scripted : LeavesLess (.tell (.observer o) event) _ _ :=
                leaves_less_script (plant.note (.told observer.label event)) onlookers o observer there rfl
              exact ⟨scripted.agenda, scripted.onlookers⟩
      | follower v source => exact leaves_less_take_over linked onlookers v source event
      | comparison | trigger => exact leaves_less_idle onlookers rfl rfl
  | leave | conclude => exact leaves_less_idle onlookers rfl rfl
  | exhaust t =>
      obtain ⟨hushed, agenda⟩ := exhaust_hushed plant t
      exact leaves_less_idle onlookers agenda hushed.observers
  | command label command =>
      obtain ⟨receivers, reply, same⟩ := look_concludes plant label command reacts
      rw [perform, same]
      exact ⟨⟨[.conclude label reply], rfl, by simp [Job.Reacts, Job.depth]⟩, onlookers⟩
  | write | settleDown | keepSubscription | closeRun | announce | begin | act | arm | wait | disarm | next
  | complete => contradiction

theorem reacts_apart (plant : Plant) (reacts : job.Reacts) :
    Mute plant (plant.perform job) ∧ Quiet plant (plant.perform job) := by
  cases job with
  | deliver listener notification =>
      exact ⟨mute_deliver plant listener notification, quiet_deliver plant listener notification⟩
  | tell listener event => exact ⟨mute_tell plant listener event, (inert_tell plant listener event).quiet⟩
  | leave => exact ⟨.refl plant, .refl plant⟩
  | exhaust t => exact ⟨mute_exhaust plant t, quiet_exhaust plant t⟩
  | conclude label reply => exact ⟨mute_same rfl, (inert_note plant (.replied label reply) rfl).quiet⟩
  | command label command =>
      obtain ⟨receivers, reply, same⟩ := look_concludes plant label command reacts
      rw [perform, same]
      have left : ∀ job ∈ [Job.conclude label reply], job.call? = none ∧ job.owner? = none := by
        simp [Job.call?, Job.owner?]
      exact ⟨⟨rfl, rfl, Nat.le_refl _, _, rfl, fun job member => (left job member).1⟩,
        rfl, ⟨_, rfl, fun job member => (left job member).2⟩, ⟨[], rfl, by simp⟩, bound_refl _ _ rfl⟩
  | write | settleDown | keepSubscription | closeRun | announce | begin | act | arm | wait | disarm | next
  | complete => contradiction

theorem hushes_silent (agenda : plant.agenda = job :: rest)
    (hushes : Hushes { plant with agenda := rest } next) : plant.Silent next := by
  rw [Silent, agenda]
  refine adds_weaken _ _ (fun other silent => ?_) _ _ hushes
  cases other with
  | tell => contradiction
  | _ => rfl

theorem writable_kept (writable : Writable id registry plant) (poised : next.Poised) (onlookers : next.Onlookers)
    (sequences : ∀ sequence, plant.sequences[id]? = some sequence →
      ∃ after, next.sequences[id]? = some after ∧ after.registry = sequence.registry)
    (registries : next.registries = plant.registries)
    (channels : next.channels.length = plant.channels.length) : Writable id registry next := by
  obtain ⟨sequence, held, resolves⟩ := writable.reads
  obtain ⟨after, still, same⟩ := sequences sequence held
  refine ⟨poised, onlookers, ⟨after, still, ?_⟩, channels ▸ writable.stocked⟩
  rw [Plant.registry, registries, same]
  exact resolves

theorem reaction_step (writable : Writable id registry plant) (agenda : plant.agenda = job :: rest)
    (reacts : job.Reacts) : ∃ next, plant.stepJob? = some next ∧ Yields id plant [] next ∧
      Writable id registry next ∧ ∃ caused, next.agenda = caused ++ rest ∧
        ∀ other ∈ caused, other.Reacts ∧ other.depth < job.depth := by
  have stepped : plant.stepJob? = some ({ plant with agenda := rest }.perform job).retire := by
    rw [stepJob?, agenda]
  have linked := (coherent_popped writable.poised.consistent agenda).linked
  have joined : ∀ t, JoinedAt { plant with agenda := rest } t := fun t trigger there =>
    joined_agenda plant rest trigger (writable.poised.joined t trigger there)
  obtain ⟨⟨caused, left, less⟩, onlookers⟩ := leaves_less_perform linked joined
    (show Onlookers { plant with agenda := rest } from writable.onlookers) reacts
  obtain ⟨mute, quiet⟩ := reacts_apart { plant with agenda := rest } reacts
  have muted := mute.trans (mute_retire _)
  have quieted := quiet.trans (quiet_retire _)
  refine ⟨_, stepped, .nothing _ muted.channels ?_ (hushes_silent agenda muted.agenda), ?_,
    caused, (still_retire _).agenda.trans left, less⟩
  · exact congrArg Course.told (course_quiet _ _ id quieted)
  · refine writable_kept writable (poised_move .job (.job _ stepped) writable.poised) ?_
      (fun sequence held => ⟨sequence, by rw [quieted.sequences, held], rfl⟩) muted.registries
      (congrArg List.length muted.channels)
    rw [Onlookers, (hushed_retire _).observers]
    exact onlookers

-- By induction on the depths of all jobs: no matter how many a job causes, they are below its own.
theorem reaction_ends (front : List Job) (writable : Writable id registry plant)
    (agenda : plant.agenda = front ++ rest) (reacts : ∀ job ∈ front, job.Reacts) :
    ∃ last, Enacts id plant [] last ∧ Writable id registry last ∧ last.agenda = rest := by
  induction front using (InvImage.wf (fun front : List Job => (front.map Job.depth : Multiset Nat))
    wellFounded_lt.cutExpand).induction generalizing plant with
  | _ front ih =>
    cases front with
    | nil => exact ⟨plant, .refl plant, writable, agenda⟩
    | cons job more =>
        obtain ⟨next, stepped, yields, still, caused, left, less⟩ :=
          reaction_step writable agenda (reacts job List.mem_cons_self)
        have falls : Relation.CutExpand (· < ·) ((caused ++ more).map Job.depth : Multiset Nat)
            ((job :: more).map Job.depth : Multiset Nat) := by
          refine ⟨caused.map Job.depth, job.depth, ?_, ?_⟩
          · intro depth member
            obtain ⟨other, caused_here, rfl⟩ := List.mem_map.mp (Multiset.mem_coe.mp member)
            exact (less other caused_here).2
          · rw [List.map_append, List.map_cons, ← Multiset.coe_add, ← Multiset.cons_coe,
              ← Multiset.singleton_add]
            ac_rfl
        obtain ⟨last, enacts, ended, done⟩ := ih (caused ++ more) falls still
          (left.trans (List.append_assoc _ _ _).symm) fun other member =>
            (List.mem_append.mp member).elim (fun new => (less other new).1)
              fun old => reacts other (List.mem_cons_of_mem job old)
        exact ⟨last, .job plant next last [] [] stepped yields enacts, ended, done⟩

end

end Plant

end Interlock
