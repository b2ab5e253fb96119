import Interlock.Proofs.Plant.Edges
import Interlock.Proofs.Plant.Gating
import Interlock.Proofs.Plant.Passing
import Interlock.Proofs.Plant.Station

/-!
The allowance of a trigger. From its making or rearming on, each flip that a trigger tells while it listens
takes one of its transitions, unless the last of them is still being told.
-/

set_option autoImplicit false

namespace Interlock

open Interlock.Calendar (Instant)
open Interlock.Graph
open Interlock.Schedule
open Interlock.Session (Command TriggerCommand)

-- The value flips while the trigger listens. Apart from rearming, a value is written where `Changed` is
-- published, and only there.
structure Graph.Trigger.Flips (trigger after : Trigger) : Prop where
  listens : trigger.active = true ∨ after.active = true
  moved : after.latest ≠ trigger.latest

instance (trigger after : Trigger) : Decidable (trigger.Flips after) :=
  decidable_of_iff ((trigger.active = true ∨ after.active = true) ∧ after.latest ≠ trigger.latest)
    ⟨fun both => ⟨both.1, both.2⟩, fun flips => ⟨flips.listens, flips.moved⟩⟩

namespace Plant

def Disengaged (plant : Plant) (t : TriggerId) : Prop :=
  ∃ trigger ∈ plant.triggers[t]?, trigger.active = false

def Restores (plant : Plant) (t : TriggerId) (command : Command) : Prop :=
  ∃ name, command = .trigger (.rearm name) ∧ plant.Reaches t name

-- The trigger is rearmed in effect: by a command, or by the task of a running sequence at its trigger.
structure Rearms (plant : Plant) (t : TriggerId) (deed : Deed) : Prop where
  idle : plant.Disengaged t
  cause : (∃ command ∈ plant.order? deed, plant.Restores t command) ∨
    ∃ id, plant.Performs deed (.arm id) ∧ plant.Holds id t ∧ ¬ plant.Stopped id

-- The subscribers are told the flip next, in front of what was on the agenda.
def Publishes (t : TriggerId) (base : List Job) (next : Plant) (trigger after : Trigger) : Prop :=
  ∃ stamp behind, .leave (.trigger t) ∈ behind ∧ next.agenda =
    (trigger.subscribers.map fun s => Job.deliver s.listener
      ⟨trigger.expression, .changed, .bool after.latest, stamp⟩) ++ (behind ++ base)

inductive CountStep (t : TriggerId) (base : List Job) (next : Plant) (trigger after : Trigger) : Prop where
  | unchanged (remaining : after.remaining = trigger.remaining)
      (level : after.latest = trigger.latest ∨ trigger.active = false ∧ after.active = false)
  | counted (listens : after.active = true) (ready : trigger.active = true ∨ trigger.remaining ≠ 0)
      (moved : after.latest ≠ trigger.latest) (remaining : after.remaining = trigger.remaining - 1)
      (publishes : Publishes t base next trigger after)

structure TriggerStep (t : TriggerId) (base : List Job) (next : Plant) (trigger after : Trigger) : Prop where
  there : next.triggers[t]? = some after
  limit : after.limit = trigger.limit
  blank : after.condition.isNone = trigger.condition.isNone
  count : CountStep t base next trigger after

section

variable {plant middle next : Plant} {t : TriggerId} {trigger between after : Trigger} {jobs base : List Job}

theorem trigger_step_core (there : next.triggers[t]? = some after) (core : after.core = trigger.core) :
    TriggerStep t base next trigger after := by
  have alike := core_alike core
  exact ⟨there, alike.limit, by rw [alike.condition], .unchanged alike.remaining (.inl alike.latest)⟩

theorem trigger_step_spared (base : List Job) (there : plant.triggers[t]? = some trigger)
    (spares : Spares t plant next) :
    ∃ after, TriggerStep t base next trigger after := by
  obtain ⟨after, found, core⟩ := spares.kept trigger there
  exact ⟨after, trigger_step_core found core⟩

theorem trigger_step_halted (there : next.triggers[t]? = some after) (core : after.core = trigger.halted.core) :
    TriggerStep t base next trigger after := by
  have alike := core_alike core
  exact ⟨there, alike.limit, by rw [alike.condition]; rfl, .unchanged alike.remaining (.inl alike.latest)⟩

theorem trigger_step_deactivated (there : plant.triggers[t]? = some trigger)
    (spares : Spares t (plant.deactivateTrigger t) next) : ∃ after, TriggerStep t base next trigger after := by
  rcases deactivate_trigger_own plant t trigger there with ⟨_, same⟩ | sets
  · rw [same] at spares
    exact trigger_step_spared _ there spares
  · obtain ⟨after, found, core⟩ := spares.kept _ (sets_there plant _ t trigger _ there sets)
    exact ⟨after, trigger_step_halted found core⟩

theorem trigger_step_evaluated (plant : Plant) (there : plant.triggers[t]? = some trigger) (compiled : trigger.Compiled)
    (stamp : Instant) : ∃ after, TriggerStep t plant.agenda (plant.evaluate t trigger stamp).2 trigger after := by
  obtain ⟨found, evaluated, published⟩ := evaluate_publishes plant t trigger there compiled stamp
  obtain ⟨_, condition, _, limit, active⟩ := evaluate_keeps trigger _ found evaluated
  have still : (plant.evaluate t trigger stamp).2.triggers[t]? = some found.trigger := by
    rw [published.triggers]
    exact set_trigger_there plant t trigger found.trigger there
  have blank : found.trigger.condition.isNone = trigger.condition.isNone := by
    rw [condition, Trigger.bindChildren, Option.isNone_map]
  refine ⟨found.trigger, still, limit, blank, ?_⟩
  cases listens : trigger.active with
  | false =>
      have kept : found.trigger.remaining = trigger.remaining := by
        obtain ⟨_, _, ⟨_, rfl⟩ | ⟨_, rfl⟩⟩ := evaluate_found trigger _ found evaluated
        · rfl
        · simp [Trigger.send, listens]
      exact .unchanged kept (.inr ⟨listens, active.trans listens⟩)
  | true =>
      rcases evaluate_moves _ found evaluated listens with
        ⟨level, _, _, remaining⟩ | ⟨moved, change, _, remaining⟩
      · exact .unchanged remaining (.inl level)
      · obtain ⟨moment, agenda⟩ := published.agenda
        rw [change] at agenda
        exact .counted (active.trans listens) (.inl listens) moved remaining
          ⟨moment, _, List.mem_append_right _ (List.mem_singleton_self _), agenda⟩

theorem trigger_step_started (children : List ComparisonId) (links : List (ComparisonId × Ticket))
    (left : trigger.remaining ≠ 0) (steps : TriggerStep t base next (trigger.started children links) after) :
    TriggerStep t base next trigger after := by
  refine ⟨steps.there, steps.limit, steps.blank, ?_⟩
  cases steps.count with
  | unchanged remaining level =>
      refine .unchanged remaining (.inl (level.resolve_right ?_))
      rintro ⟨idle, _⟩
      contradiction
  | counted listens _ moved remaining publishes => exact .counted listens (.inr left) moved remaining publishes

theorem trigger_step_activated (coherent : plant.Coherent jobs) (joined : Joined plant trigger)
    (there : plant.triggers[t]? = some trigger) (activated : plant.activateTrigger t trigger = .ok next) :
    ∃ after, TriggerStep t plant.agenda next trigger after := by
  by_cases left : trigger.remaining = 0
  · rw [activateTrigger, if_pos left] at activated
    cases activated
    exact ⟨trigger, trigger_step_core there rfl⟩
  · by_cases active : trigger.active = true
    · rw [activateTrigger, if_neg left, if_pos active] at activated
      cases activated
      exact ⟨trigger, trigger_step_core there rfl⟩
    · obtain ⟨children, links, linked, _, agenda, begun, _, rfl⟩ :=
        activate_evaluates coherent joined there left (Bool.eq_false_iff.mpr active) activated
      obtain ⟨after, steps⟩ := trigger_step_evaluated linked.readClock.2 begun joined.compiled
        linked.readClock.1
      rw [← agenda]
      exact ⟨after, trigger_step_started children links left steps⟩

theorem trigger_step_command (coherent : plant.Coherent jobs) (joined : Joined plant trigger)
    (there : plant.triggers[t]? = some trigger) (command : Command)
    (lasts : plant.Restores t command → trigger.active = true) :
    ∃ after, TriggerStep t plant.agenda (plant.execute command).2 trigger after := by
  by_cases driven : plant.Drives t command
  · cases command with
    | trigger command =>
        cases command with
        | activate name =>
            obtain ⟨found, reached⟩ := driven
            cases there.symm.trans (found_there _ _ name t found reached)
            rw [execute, onTrigger, reached]
            dsimp only
            split
            · next activated => exact trigger_step_activated coherent joined there activated
            · exact ⟨trigger, trigger_step_core there rfl⟩
        | deactivate name =>
            obtain ⟨found, reached⟩ := driven
            rw [execute, onTrigger, reached]
            exact trigger_step_deactivated there (.refl t _)
        | rearm name =>
            have active := lasts ⟨name, rfl, driven⟩
            obtain ⟨found, reached⟩ := driven
            rw [execute, onTrigger, reached]
            rcases rearm_trigger_own plant t trigger there with ⟨_, same⟩ | ⟨idle, _⟩
            · dsimp only
              rw [same]
              exact ⟨trigger, trigger_step_core there rfl⟩
            · rw [active] at idle
              contradiction
        | evaluate name =>
            obtain ⟨found, reached⟩ := driven
            cases there.symm.trans (found_there _ _ name t found reached)
            have steps := trigger_step_evaluated plant.readClock.2 there joined.compiled
              plant.readClock.1
            rw [execute, onTrigger, reached]
            dsimp only
            split
            · next evaluated =>
                rw [← (congrArg Prod.snd evaluated :)]
                exact steps
            · next evaluated =>
                rw [← (congrArg Prod.snd evaluated :)]
                exact steps
        | make | state | drop | watch | look => exact driven.elim
    | var | comparison | channel | device | sequence | workspace | subscribe | unsubscribe =>
        exact driven.elim
  · exact trigger_step_spared _ there (spares_execute t plant command driven)

theorem trigger_step_restored (plant : Plant) (base : List Job) (there : plant.triggers[t]? = some trigger)
    (command : Command) (restores : plant.Restores t command) :
    ∃ after, TriggerStep t base (plant.execute command).2 trigger.rearm after := by
  obtain ⟨name, rfl, found, reached⟩ := restores
  rw [execute, onTrigger, reached]
  exact ⟨trigger.rearm, trigger_step_core (rearmed_there plant t trigger there) rfl⟩

theorem stopped_held (id : SequenceId) (s : Sequence) (held : plant.sequences[id]? = some s)
    (inactive : s.active = false) : plant.Stopped id := by
  intro other found
  cases found.symm.trans held
  exact inactive

theorem trigger_step_armed (coherent : plant.Consistent) (joined : plant.JoinedAt t)
    (there : plant.triggers[t]? = some trigger) (id : SequenceId) (holds : plant.Holds id t)
    (running : ¬ plant.Stopped id) : ∃ base after, TriggerStep t base (plant.arm id) trigger.rearm after := by
  obtain ⟨s, task, held, busy, waits⟩ := holds_found t plant id holds
  have rearmed := rearmed_there plant t trigger there
  rcases arm_own t plant id s task trigger held busy waits there with
    ⟨inactive, _⟩ | ⟨_, _, logged, inert, refused⟩ | ⟨_, ready, found, _, activated⟩
  · exact absurd (stopped_held id s held inactive) running
  · rw [refused]
    exact ⟨[], trigger_step_spared _ rearmed ((inert.spares t).trans (spares_cancel t logged id))⟩
  · cases found.symm.trans rearmed
    have coherent_rearmed := consistent_rearm_trigger coherent t
    have pushed : Joined ((plant.rearmTrigger t).push [.wait id]) trigger.rearm :=
      joined_agenda _ _ _ (joined_rearm_own joined trigger there _ rearmed)
    exact ⟨_, trigger_step_activated
      (consistent_calm coherent_rearmed (calm_push _ [.wait id] (by simp [Job.kept?]))) pushed rearmed
      activated⟩

theorem trigger_step_run (plant : Plant) (label : String) (command : Command)
    (ran : ∃ after, TriggerStep t plant.agenda (plant.execute command).2 trigger after) :
    ∃ base after, TriggerStep t base (plant.runCommand label command) trigger after := by
  obtain ⟨after, steps⟩ := ran
  obtain ⟨caused, grown, _, same⟩ := run_command_next plant label command
  refine ⟨.conclude label (plant.execute command).1 :: plant.agenda, after, ?_⟩
  rw [same]
  refine ⟨steps.there, steps.limit, steps.blank, ?_⟩
  cases steps.count with
  | unchanged remaining level => exact .unchanged remaining level
  | counted listens ready moved remaining publishes =>
      obtain ⟨stamp, behind, left, agenda⟩ := publishes
      refine .counted listens ready moved remaining ⟨stamp, behind, left, ?_⟩
      rw [grown, ← List.append_assoc, List.append_left_inj] at agenda
      rw [← List.append_assoc, ← agenda]

theorem trigger_step_job (job : Job) (coherent : plant.Coherent (job :: plant.agenda)) (joined : plant.JoinedAt t)
    (there : plant.triggers[t]? = some trigger)
    (ordered : ∀ label command, job = .command label command → plant.Restores t command →
      trigger.active = true)
    (armed : ∀ id, job = .arm id → plant.Holds id t → ¬ plant.Stopped id → trigger.active = true) :
    ∃ base after, TriggerStep t base (plant.perform job) trigger after := by
  by_cases touched : plant.Touches t job
  · cases job with
    | deliver listener notification =>
        cases listener with
        | trigger other =>
            cases touched
            have compiled := (joined trigger there).compiled
            rw [perform, deliver, hear_evaluates plant t trigger there compiled]
            split
            · exact ⟨_, trigger_step_evaluated _ there compiled _⟩
            · exact ⟨[], trigger, trigger_step_core there rfl⟩
        | observer | comparison | follower => exact touched.elim
    | exhaust other =>
        cases touched
        rcases exhaust_own t plant trigger there with ⟨_, inert⟩ | sets
        · exact ⟨[], trigger_step_spared _ there (inert.spares t)⟩
        · exact ⟨[], _, trigger_step_halted (sets_there plant _ t trigger _ there sets) rfl⟩
    | arm id =>
        have idle := consistent_idle coherent trivial
        by_cases stopped : plant.Stopped id
        · obtain ⟨s, task, held, busy, waits⟩ := holds_found t plant id touched
          rcases arm_own t plant id s task trigger held busy waits there with
            ⟨_, left⟩ | ⟨active, _⟩ | ⟨active, _⟩
          · rw [perform, left]
            exact ⟨[], trigger_step_spared _ there (spares_leave_step t plant id)⟩
          · rw [stopped s held] at active
            contradiction
          · rw [stopped s held] at active
            contradiction
        · have active := armed id rfl touched stopped
          have steps := trigger_step_armed idle joined there id touched stopped
          rw [rearm_active active] at steps
          exact steps
    | disarm id =>
        obtain ⟨s, task, held, busy, waits⟩ := holds_found t plant id touched
        exact ⟨[], trigger_step_deactivated there (disarm_own t plant id s task trigger held busy waits there)⟩
    | command label command =>
        have idle := consistent_idle coherent trivial
        exact trigger_step_run _ label command
          (trigger_step_command idle (joined trigger there) there command (ordered label command rfl))
    | tell | leave | conclude | write | settleDown | keepSubscription | closeRun | announce | begin
    | act | wait | next | complete => exact touched.elim
  · exact ⟨[], trigger_step_spared _ there (spares_perform t plant job touched)⟩

theorem halted_core (core : after.core = trigger.core) : after.halted.core = trigger.halted.core :=
  congrArg (fun core : Trigger => { core with active := false, children := [] }) core

theorem retire_ends (there : plant.triggers[t]? = some trigger) :
    ∃ after, plant.retire.triggers[t]? = some after ∧
      (after.core = trigger.core ∨ after.core = trigger.halted.core) := by
  refine retire_keeps (fun next => ∃ after, next.triggers[t]? = some after ∧
    (after.core = trigger.core ∨ after.core = trigger.halted.core)) ?_ ?_ ?_ plant
    ⟨trigger, there, .inl rfl⟩
  · rintro next id ⟨after, found, kept⟩ _
    by_cases own : id = t
    · subst own
      rcases deactivate_trigger_own next id after found with ⟨_, same⟩ | sets
      · rw [same]
        exact ⟨after, found, kept⟩
      · refine ⟨_, sets_there next _ id after _ found sets, .inr ?_⟩
        rcases kept with same | same
        · exact halted_core same
        · have twice := halted_core same
          exact twice
    · obtain ⟨later, still, same⟩ := (spares_deactivate_trigger t next id own).kept after found
      exact ⟨later, still, kept.imp same.trans same.trans⟩
  · rintro next id ⟨after, found, kept⟩
    rw [(inert_deactivate_comparison next id).triggers]
    exact ⟨after, found, kept⟩
  · rintro next id ⟨after, found, kept⟩
    rw [(inert_deactivate_device next id).triggers]
    exact ⟨after, found, kept⟩

theorem publishes_used (publishes : Publishes t base plant trigger after) :
    plant.triggerInUse t = true := by
  obtain ⟨stamp, behind, left, agenda⟩ := publishes
  have entered : plant.isEntered (.trigger t) = true := by
    rw [isEntered, agenda]
    exact List.any_eq_true.mpr ⟨.leave (.trigger t),
      List.mem_append_right _ (List.mem_append_left base left), by simp⟩
  rw [triggerInUse, entered]
  simp

theorem trigger_step_retire (steps : TriggerStep t base plant trigger between) :
    ∃ after, TriggerStep t base plant.retire trigger after := by
  cases steps.count with
  | unchanged remaining level =>
      obtain ⟨after, found, ends⟩ := retire_ends steps.there
      rcases ends with core | core
      · have alike := core_alike core
        refine ⟨after, found, alike.limit.trans steps.limit, by rw [alike.condition, steps.blank],
          .unchanged (alike.remaining.trans remaining) ?_⟩
        exact level.imp alike.latest.trans fun idle => ⟨idle.1, alike.active.trans idle.2⟩
      · have alike := core_alike core
        refine ⟨after, found, alike.limit.trans steps.limit, (congrArg _ alike.condition).trans steps.blank,
          .unchanged (alike.remaining.trans remaining) ?_⟩
        exact level.imp alike.latest.trans fun idle => ⟨idle.1, alike.active⟩
  | counted listens ready moved remaining publishes =>
      refine ⟨between, ?_, steps.limit, steps.blank, .counted listens ready moved remaining ?_⟩
      · rw [retire_keeps_used (publishes_used publishes)]
        exact steps.there
      · obtain ⟨stamp, behind, left, agenda⟩ := publishes
        exact ⟨stamp, behind, left, (still_retire plant).agenda.trans agenda⟩

theorem trigger_step_move (poised : plant.Poised) {deed : Deed} (move : Move plant deed next)
    (there : plant.triggers[t]? = some trigger) (lasts : ¬ plant.Rearms t deed) :
    ∃ base after, TriggerStep t base next trigger after := by
  have engaged : ∀ {cause : Prop}, cause → (cause → plant.Disengaged t → plant.Rearms t deed) →
      trigger.active = true := by
    intro cause holds rearms
    by_contra idle
    exact lasts (rearms holds ⟨trigger, there, Bool.eq_false_iff.mpr idle⟩)
  cases move with
  | job _ stepped =>
      obtain ⟨job, rest, agenda, rfl⟩ := worked_off stepped
      have joined : JoinedAt { plant with agenda := rest } t := fun trigger there =>
        joined_agenda plant rest trigger (poised.joined t trigger there)
      have ordered : ∀ label command, job = .command label command → plant.Restores t command →
          trigger.active = true := by
        rintro label command rfl restores
        exact engaged restores fun restores idle =>
          ⟨idle, .inl ⟨command, by simp [order?, agenda], restores⟩⟩
      have armed : ∀ id, job = .arm id → plant.Holds id t → ¬ plant.Stopped id →
          trigger.active = true := by
        rintro id rfl holds running
        exact engaged (And.intro holds running) fun both idle =>
          ⟨idle, .inr ⟨id, ⟨rfl, rest, agenda⟩, both⟩⟩
      obtain ⟨base, between, steps⟩ := trigger_step_job (t := t) job (coherent_popped poised.consistent agenda)
        joined there ordered armed
      exact ⟨base, trigger_step_retire steps⟩
  | call command =>
      obtain ⟨between, steps⟩ := trigger_step_command poised.consistent (poised.joined t trigger there) there
        command fun restores => engaged restores fun restores idle => ⟨idle, .inl ⟨command, rfl, restores⟩⟩
      exact ⟨_, trigger_step_retire steps⟩
  | turn runner =>
      obtain ⟨between, steps⟩ := trigger_step_spared [] there (spares_turn t plant runner)
      exact ⟨_, trigger_step_retire steps⟩
  | dispatch change => exact ⟨[], trigger, trigger_step_core there rfl⟩

theorem trigger_step_rearmed (poised : plant.Poised) {deed : Deed} (move : Move plant deed next)
    (there : plant.triggers[t]? = some trigger) (rearms : plant.Rearms t deed) :
    ∃ base after, TriggerStep t base next trigger.rearm after := by
  cases move with
  | job _ stepped =>
      obtain ⟨job, rest, agenda, rfl⟩ := worked_off stepped
      have joined : JoinedAt { plant with agenda := rest } t := fun trigger there =>
        joined_agenda plant rest trigger (poised.joined t trigger there)
      have coherent := coherent_popped poised.consistent agenda
      rcases rearms.cause with ⟨command, ordered, restores⟩ | ⟨id, ⟨_, _, same⟩, holds, running⟩
      · cases job with
        | command label other =>
            rw [order?, agenda] at ordered
            cases ordered
            have restored := trigger_step_restored { plant with agenda := rest } rest there command restores
            obtain ⟨base, between, steps⟩ := trigger_step_run { plant with agenda := rest } label command restored
            exact ⟨base, trigger_step_retire steps⟩
        | _ => simp [order?, agenda] at ordered
      · cases agenda.symm.trans same
        obtain ⟨base, between, steps⟩ := trigger_step_armed (consistent_idle coherent trivial) joined there id
          holds running
        exact ⟨base, trigger_step_retire steps⟩
  | call command =>
      rcases rearms.cause with ⟨_, ordered, restores⟩ | ⟨_, ⟨other, _⟩, _⟩
      · cases ordered
        obtain ⟨between, steps⟩ := trigger_step_restored _ [] there command restores
        exact ⟨_, trigger_step_retire steps⟩
      · contradiction
  | turn | dispatch =>
      rcases rearms.cause with ⟨_, ordered, _⟩ | ⟨_, ⟨other, _⟩, _⟩
      · contradiction
      · contradiction

def Alters (plant : Plant) (t : TriggerId) (next : Plant) : Prop :=
  ∃ trigger ∈ plant.triggers[t]?, ∃ after ∈ next.triggers[t]?, trigger.Flips after

-- The last transition is used up and still being told.
def Expiring (plant : Plant) (t : TriggerId) : Prop :=
  (∃ trigger ∈ plant.triggers[t]?, trigger.remaining = 0) ∧ Due t plant

instance (plant : Plant) (t : TriggerId) (next : Plant) : Decidable (plant.Alters t next) :=
  inferInstanceAs (Decidable (∃ trigger ∈ plant.triggers[t]?, ∃ after ∈ next.triggers[t]?,
    trigger.Flips after))

instance (plant : Plant) (t : TriggerId) : Decidable (plant.Expiring t) :=
  inferInstanceAs (Decidable ((∃ trigger ∈ plant.triggers[t]?, trigger.remaining = 0) ∧
    ∃ job ∈ plant.agenda, job.exhausted? = some t))

-- The moves from the making or a rearming of a trigger with a count of transitions up to its next
-- rearming: how many flips it has told, and how many more while it was expiring.
inductive RepeatPeriod (t : TriggerId) (count : Nat) : Nat → Nat → Plant → Prop where
  | made (plant next : Plant) (deed : Deed) (trigger : Trigger) (reached : plant.Reached)
      (move : Move plant deed next) (missing : plant.triggers[t]? = none)
      (there : next.triggers[t]? = some trigger) (limit : trigger.limit = count) : RepeatPeriod t count 0 0 next
  | rearmed (plant next : Plant) (deed : Deed) (trigger after : Trigger) (reached : plant.Reached)
      (move : Move plant deed next) (rearms : plant.Rearms t deed)
      (there : plant.triggers[t]? = some trigger) (found : next.triggers[t]? = some after)
      (limit : trigger.limit = count) : RepeatPeriod t count (if trigger.rearm.Flips after then 1 else 0) 0 next
  | silent (plant next : Plant) (deed : Deed) (told late : Nat) (before : RepeatPeriod t count told late plant)
      (move : Move plant deed next) (lasts : ¬ plant.Rearms t deed) (level : ¬ plant.Alters t next) :
      RepeatPeriod t count told late next
  | told (plant next : Plant) (deed : Deed) (told late : Nat) (before : RepeatPeriod t count told late plant)
      (move : Move plant deed next) (lasts : ¬ plant.Rearms t deed) (alters : plant.Alters t next)
      (free : ¬ plant.Expiring t) : RepeatPeriod t count (told + 1) late next
  | late (plant next : Plant) (deed : Deed) (told late : Nat) (before : RepeatPeriod t count told late plant)
      (move : Move plant deed next) (lasts : ¬ plant.Rearms t deed) (alters : plant.Alters t next)
      (expiring : plant.Expiring t) : RepeatPeriod t count told (late + 1) next

theorem changed_alters (there : plant.triggers[t]? = some trigger) (compiled : trigger.Compiled)
    (active : trigger.active = true) (stamp : Instant) :
    (plant.evaluate t trigger stamp).1 = .ok .changed ↔
      plant.Alters t (plant.evaluate t trigger stamp).2 := by
  obtain ⟨found, evaluated, published⟩ := evaluate_publishes plant t trigger there compiled stamp
  have still : (plant.evaluate t trigger stamp).2.triggers[t]? = some found.trigger := by
    rw [published.triggers]
    exact set_trigger_there plant t trigger found.trigger there
  have result : (plant.evaluate t trigger stamp).1 = .ok found.change := by
    rw [evaluate, evaluated]
  rw [result]
  rcases evaluate_moves _ found evaluated active with ⟨level, change, _⟩ | ⟨moved, change, _⟩
  · rw [change]
    constructor
    · intro other
      cases other
    · rintro ⟨again, known, after, later, flips⟩
      cases there.symm.trans known
      cases still.symm.trans later
      exact absurd level flips.moved
  · rw [change]
    exact ⟨fun _ => ⟨trigger, there, found.trigger, still, .inl active, moved⟩, fun _ => rfl⟩

theorem flips_counted (steps : TriggerStep t base next trigger after) (flips : trigger.Flips after) :
    (trigger.active = true ∨ trigger.remaining ≠ 0) ∧ after.remaining = trigger.remaining - 1 ∧
      Publishes t base next trigger after := by
  cases steps.count with
  | unchanged _ level =>
      rcases level with same | ⟨idle, still⟩
      · exact absurd same flips.moved
      · exact absurd flips.listens (by simp [idle, still])
  | counted _ ready _ remaining publishes => exact ⟨ready, remaining, publishes⟩

theorem level_unchanged (steps : TriggerStep t base next trigger after) (level : ¬ trigger.Flips after) :
    after.remaining = trigger.remaining := by
  cases steps.count with
  | unchanged remaining => exact remaining
  | counted listens _ moved => exact absurd ⟨.inr listens, moved⟩ level

-- What counts is what is published: each flip is, and of the evaluations of a trigger that listens, those
-- that publish `Changed` are flips.
structure FlipsPublished (t : TriggerId) (plant : Plant) : Prop where
  counted : ∀ deed next, Move plant deed next → ¬ plant.Rearms t deed → plant.Alters t next →
    ∃ trigger ∈ plant.triggers[t]?, ∃ after ∈ next.triggers[t]?, ∃ base, Publishes t base next trigger after
  rearmed : ∀ deed next trigger after, Move plant deed next → plant.Rearms t deed →
    plant.triggers[t]? = some trigger → next.triggers[t]? = some after → trigger.rearm.Flips after →
    ∃ base, Publishes t base next trigger.rearm after
  evaluated : ∀ trigger ∈ plant.triggers[t]?, trigger.active = true →
    ∀ (middle : Plant) stamp, middle.triggers[t]? = some trigger →
      ((middle.evaluate t trigger stamp).1 = .ok .changed ↔
        middle.Alters t (middle.evaluate t trigger stamp).2)

theorem flips_published (reached : plant.Reached) : FlipsPublished t plant := by
  have poised := reached_poised reached
  refine ⟨?_, ?_, ?_⟩
  · rintro deed next move lasts ⟨trigger, there, after, found, flips⟩
    obtain ⟨base, other, steps⟩ := trigger_step_move poised move there lasts
    cases found.symm.trans steps.there
    exact ⟨trigger, there, after, found, base, (flips_counted steps flips).2.2⟩
  · intro deed next trigger after move rearms there found flips
    obtain ⟨base, other, steps⟩ := trigger_step_rearmed poised move there rearms
    cases found.symm.trans steps.there
    exact ⟨base, (flips_counted steps flips).2.2⟩
  · intro trigger there active middle stamp known
    exact changed_alters known (poised.joined t trigger there).compiled active stamp

def Full (plant : Plant) (t : TriggerId) : Prop :=
  ∀ trigger, plant.triggers[t]? = some trigger → trigger.remaining = trigger.limit

theorem full_spares (spares : Spares t plant next) (full : plant.Full t) : next.Full t := by
  intro after found
  cases there : plant.triggers[t]? with
  | none => exact (spares.made there after found).full
  | some trigger =>
      obtain ⟨same, still, core⟩ := spares.kept trigger there
      cases found.symm.trans still
      have alike := core_alike core
      rw [alike.remaining, alike.limit]
      exact full trigger there

theorem full_retire (full : plant.Full t) : plant.retire.Full t := by
  refine retire_keeps (fun plant => plant.Full t) ?_ ?_ ?_ plant full
  · intro plant id full _
    by_cases own : id = t
    · subst own
      cases there : plant.triggers[id]? with
      | none =>
          rw [deactivateTrigger, there]
          exact full
      | some trigger =>
          rcases deactivate_trigger_own plant id trigger there with ⟨_, same⟩ | sets
          · rw [same]
            exact full
          · intro after found
            cases found.symm.trans (sets_there plant _ id trigger _ there sets)
            exact full trigger there
    · exact full_spares (spares_deactivate_trigger t plant id own) full
  · exact fun plant id full => full_spares ((inert_deactivate_comparison plant id).spares t) full
  · exact fun plant id full => full_spares ((inert_deactivate_device plant id).spares t) full

theorem missing_undriven (missing : plant.triggers[t]? = none) (command : Command) :
    ¬ plant.Drives t command := by
  have unreached : ∀ name, ¬ plant.Reaches t name := by
    rintro name ⟨trigger, reached⟩
    rw [found_there _ _ name t trigger reached] at missing
    contradiction
  cases command with
  | trigger command => cases command <;> first | exact unreached _ | exact id
  | _ => exact id

theorem made_full {deed : Deed} (move : Move plant deed next) (missing : plant.triggers[t]? = none) :
    next.Full t := by
  have full : plant.Full t := fun trigger there => by
    rw [missing] at there
    contradiction
  cases move with
  | job _ stepped =>
      obtain ⟨job, rest, _, rfl⟩ := worked_off stepped
      have spares := missing_spares t { plant with agenda := rest } job missing
        fun _ command _ => missing_undriven missing command
      exact full_retire (full_spares spares full)
  | call command =>
      exact full_retire (full_spares (spares_execute t plant command (missing_undriven missing command)) full)
  | turn runner => exact full_retire (full_spares (spares_turn t plant runner) full)
  | dispatch change => exact full

theorem period_reached {count told late : Nat} (period : RepeatPeriod t count told late plant) : plant.Reached := by
  induction period with
  | made plant next deed _ reached move => exact reached_move plant next reached deed move
  | rearmed plant next deed _ _ reached move => exact reached_move plant next reached deed move
  | silent plant next deed _ _ _ move _ _ reached => exact reached_move plant next reached deed move
  | told plant next deed _ _ _ move _ _ _ reached => exact reached_move plant next reached deed move
  | late plant next deed _ _ _ move _ _ _ reached => exact reached_move plant next reached deed move

theorem period_counts {count told late : Nat} (period : RepeatPeriod t count told late plant) :
    ∃ trigger ∈ plant.triggers[t]?, trigger.limit = count ∧ told + trigger.remaining = count ∧
      (late ≠ 0 → told = count) := by
  induction period with
  | made plant next deed trigger reached move missing there limit =>
      have full := made_full move missing trigger there
      exact ⟨trigger, there, limit, by omega, fun none => absurd rfl none⟩
  | rearmed plant next deed trigger after reached move rearms there found limit =>
      obtain ⟨base, other, steps⟩ := trigger_step_rearmed (reached_poised reached) move there rearms
      cases found.symm.trans steps.there
      obtain ⟨again, known, idle⟩ := rearms.idle
      cases there.symm.trans known
      obtain ⟨off, _, _, full⟩ := rearmed_idle trigger idle
      have same : trigger.rearm.limit = trigger.limit := by
        rw [Trigger.rearm, if_neg (by simp [idle])]
        rfl
      refine ⟨after, found, steps.limit.trans (same.trans limit), ?_, fun none => absurd rfl none⟩
      split
      · next flips =>
          obtain ⟨ready, remaining, _⟩ := flips_counted steps flips
          have left := ready.resolve_left (by simp [off])
          omega
      · next level =>
          have remaining := level_unchanged steps level
          omega
  | silent plant next deed told late before move lasts level ih =>
      obtain ⟨trigger, there, limit, sum, exhausted⟩ := ih
      obtain ⟨base, after, steps⟩ := trigger_step_move (reached_poised (period_reached before)) move there lasts
      have remaining := level_unchanged steps fun flips => level ⟨trigger, there, after, steps.there, flips⟩
      exact ⟨after, steps.there, steps.limit.trans limit, by omega, exhausted⟩
  | told plant next deed told late before move lasts alters free ih =>
      have poised := reached_poised (period_reached before)
      obtain ⟨trigger, there, limit, sum, exhausted⟩ := ih
      obtain ⟨again, known, after, found, flips⟩ := alters
      cases there.symm.trans known
      obtain ⟨base, other, steps⟩ := trigger_step_move poised move there lasts
      cases found.symm.trans steps.there
      obtain ⟨ready, remaining, _⟩ := flips_counted steps flips
      have left : trigger.remaining ≠ 0 := by
        intro spent
        have active := ready.resolve_right (absurd spent)
        have ending := (poised.consistent.fresh.supplied t trigger there active).resolve_left (absurd spent)
        exact free ⟨⟨trigger, there, spent⟩, _, ending, rfl⟩
      refine ⟨after, found, steps.limit.trans limit, by omega, fun more => ?_⟩
      have spent := exhausted more
      omega
  | late plant next deed told late before move lasts alters expiring ih =>
      obtain ⟨trigger, there, limit, sum, _⟩ := ih
      obtain ⟨⟨again, known, spent⟩, _⟩ := expiring
      cases there.symm.trans known
      obtain ⟨again, known, after, found, flips⟩ := alters
      cases there.symm.trans known
      obtain ⟨base, other, steps⟩ := trigger_step_move (reached_poised (period_reached before)) move there lasts
      cases found.symm.trans steps.there
      have remaining := (flips_counted steps flips).2.1
      exact ⟨after, found, steps.limit.trans limit, by omega, fun _ => by omega⟩

-- The flips that are told use up the transitions one by one; more of them come only while the last one is
-- being told. All of them are published.
theorem changes_bounded {count told late : Nat} (period : RepeatPeriod t count told late plant) :
    (∃ trigger ∈ plant.triggers[t]?, trigger.limit = count ∧ told + trigger.remaining = count ∧
      (late ≠ 0 → told = count)) ∧ FlipsPublished t plant :=
  ⟨period_counts period, flips_published (period_reached period)⟩

theorem listening_lasts {deed : Deed} (active : ∀ trigger ∈ plant.triggers[t]?, trigger.active = true) :
    ¬ plant.Rearms t deed := by
  rintro ⟨⟨trigger, there, idle⟩, _⟩
  rw [active trigger there] at idle
  contradiction

def listens (plant : Plant) (t : TriggerId) : Bool := (plant.triggers[t]?).all Trigger.active

theorem listens_lasts {deed : Deed} (active : plant.listens t = true) : ¬ plant.Rearms t deed := by
  refine listening_lasts fun trigger there => ?_
  rw [listens, Option.mem_def.mp there] at active
  exact active

theorem activation_lasts (name : String) : ¬ plant.Rearms t (.call (.trigger (.activate name))) := by
  rintro ⟨_, ⟨command, ordered, other, same, _⟩ | ⟨_, ⟨apart, _⟩, _⟩⟩
  · cases ordered
    cases same
  · contradiction

theorem period_follows {count told late : Nat} (deeds : List Deed) (before : RepeatPeriod t count told late plant)
    (silent : follows (fun plant _ next => plant.listens t && !decide (plant.Alters t next)) plant deeds = true) :
    RepeatPeriod t count told late (deeds.foldl Plant.after plant) := by
  induction deeds generalizing plant with
  | nil => exact before
  | cons deed rest ih =>
      simp only [follows, Bool.and_eq_true, Bool.not_eq_true', decide_eq_false_iff_not] at silent
      obtain ⟨⟨goes, active, level⟩, later⟩ := silent
      exact ih (.silent plant _ deed told late before (after_orderly plant deed goes).move
        (listens_lasts active) level) later

end

-- The handler of a trigger with one transition takes the value back while it hears of the flip.
def relapsing : Plant := (blank ⟨0, 0⟩ true).runAll [.var (.make "x" (.bool false) false)]

def relapseStart : Plant :=
  (relapsing.after (.call (.trigger (.make "t" "x==true" 1 false)))).after (.call (.trigger (.activate "t")))

def relapse : List Deed :=
  [.job, .call (.subscribe "h" .trigger "t" none false 1 [.var (.set "x" (.bool false))]), .job,
    .call (.var (.set "x" (.bool true))), .job]

def relapseFlip : Plant := relapse.foldl after relapseStart

def relapseReturn : Plant := [.job, .job, .job].foldl after (relapseFlip.after .job)

theorem relapse_bounded :
    RepeatPeriod 0 1 1 1 (relapseReturn.after .job) ∧
      (∃ trigger ∈ (relapseReturn.after .job).triggers[0]?, trigger.limit = 1 ∧ trigger.remaining = 0) ∧
        FlipsPublished 0 (relapseReturn.after .job) := by
  have reached : relapsing.Reached :=
    ⟨⟨0, 0⟩, true, run_all_runs (fun _ _ _ => true) (fun _ _ _ done _ => done.move) _ _
      (by decide +kernel)⟩
  have fresh : relapsing.triggers[0]? = none := by decide +kernel
  have primed : ∃ trigger ∈ (relapsing.after (.call (.trigger (.make "t" "x==true" 1 false)))).triggers[0]?,
      trigger.limit = 1 := by decide +kernel
  obtain ⟨trigger, there, limit⟩ := primed
  have made := RepeatPeriod.made (t := 0) relapsing _ _ trigger reached (.call _) fresh there limit
  have begun := RepeatPeriod.silent _ _ _ 0 0 made (.call (.trigger (.activate "t"))) (activation_lasts "t")
    (by decide +kernel)
  have level := period_follows relapse begun (by decide +kernel)
  have told := RepeatPeriod.told relapseFlip _ .job 0 0 level (after_orderly _ .job (by decide +kernel)).move
    (listens_lasts (by decide +kernel)) (by decide +kernel) (by decide +kernel)
  have still := period_follows [.job, .job, .job] told (by decide +kernel)
  have late := RepeatPeriod.late relapseReturn _ .job 1 0 still (after_orderly _ .job (by decide +kernel)).move
    (listens_lasts (by decide +kernel)) (by decide +kernel) (by decide +kernel)
  obtain ⟨⟨trigger, there, limit, sum, _⟩, published⟩ := changes_bounded late
  exact ⟨late, ⟨trigger, there, limit, by omega⟩, published⟩

end Plant

end Interlock
