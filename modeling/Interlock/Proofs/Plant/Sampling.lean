import Interlock.Proofs.Plant.Edges
import Interlock.Proofs.Plant.Passing

/-!
What a trigger finds when it is called to evaluate. With its children it samples the values of the moment.
A trigger that has ended its activity has dropped them, and finds what it found last until it is activated.
-/

set_option autoImplicit false

namespace Interlock.Plant

open Interlock.Calendar (Instant)
open Interlock.Formula (Condition EvaluationError)
open Interlock.Graph
open Interlock.Schedule (SequenceId)
open Interlock.Session (Command TriggerCommand)

def Asks (plant : Plant) (t : TriggerId) : Command → Prop
  | .trigger (.activate name) | .trigger (.evaluate name) => plant.Reaches t name
  | _ => False

def Consults (plant : Plant) (t : TriggerId) : Job → Prop
  | .command _ command => plant.Asks t command
  | .deliver (.trigger other) _ => other = t
  | .arm id => plant.Holds id t
  | _ => False

def Evaluates (plant : Plant) (t : TriggerId) : Deed → Prop
  | .call command => plant.Asks t command
  | .job => ∃ job ∈ plant.agenda.head?, plant.Consults t job
  | .turn _ | .dispatch _ => False

structure UnaskedMove (t : TriggerId) (plant : Plant) (deed : Deed) (next : Plant) : Prop where
  move : Move plant deed next
  unasked : ¬ plant.Evaluates t deed

structure Recalls (t : TriggerId) (plant next : Plant) : Prop where
  kept : ∀ trigger, plant.triggers[t]? = some trigger →
    ∃ after, next.triggers[t]? = some after ∧ after.condition = trigger.condition ∧
      (after.active = true → trigger.active = true ∧ after.latest = trigger.latest)
  made : plant.triggers[t]? = none → ∀ after, next.triggers[t]? = some after → after.active = false

def Current (t : TriggerId) (plant : Plant) : Prop :=
  ∀ trigger, plant.triggers[t]? = some trigger → trigger.active = true →
    trigger.truth = .ok trigger.latest

section

variable {t : TriggerId} {plant middle next : Plant} {trigger : Trigger}

theorem truth_same {after : Trigger} (condition : after.condition = trigger.condition) :
    after.truth = trigger.truth := by
  rw [Trigger.truth, Trigger.truth, condition]

theorem recalls_same (same : next.triggers[t]? = plant.triggers[t]?) : Recalls t plant next := by
  refine ⟨fun trigger there => ⟨trigger, same.trans there, rfl, fun active => ⟨active, rfl⟩⟩, ?_⟩
  intro missing after there
  rw [same, missing] at there
  contradiction

theorem Recalls.refl (plant : Plant) : Recalls t plant plant := recalls_same rfl

theorem Recalls.trans (first : Recalls t plant middle) (second : Recalls t middle next) :
    Recalls t plant next := by
  constructor
  · intro trigger there
    obtain ⟨between, found, same, before⟩ := first.kept trigger there
    obtain ⟨after, still, again, later⟩ := second.kept between found
    refine ⟨after, still, again.trans same, fun active => ?_⟩
    obtain ⟨lasting, latest⟩ := later active
    exact ⟨(before lasting).1, latest.trans (before lasting).2⟩
  · intro missing after there
    cases found : middle.triggers[t]? with
    | none => exact second.made found after there
    | some between =>
        obtain ⟨later, still, _, lasting⟩ := second.kept between found
        cases there.symm.trans still
        exact Bool.eq_false_iff.mpr fun active =>
          Bool.eq_false_iff.mp (first.made missing between found) (lasting active).1

theorem Spares.recalls (spares : Spares t plant next) : Recalls t plant next := by
  constructor
  · intro trigger there
    obtain ⟨after, still, same⟩ := spares.kept trigger there
    have alike := core_alike same
    exact ⟨after, still, alike.condition, fun active => ⟨alike.active ▸ active, alike.latest⟩⟩
  · exact fun missing after there => (spares.made missing after there).inactive

theorem sets_recalls (there : plant.triggers[t]? = some trigger) (after : Trigger)
    (condition : after.condition = trigger.condition) (idle : after.active = false)
    (sets : Sets t plant after next) : Recalls t plant next := by
  constructor
  · intro found known
    cases there.symm.trans known
    refine ⟨after, sets_there plant next t trigger after there sets, condition, fun active => ?_⟩
    rw [idle] at active
    contradiction
  · intro missing
    rw [there] at missing
    contradiction

theorem recalls_rearm (plant : Plant) : Recalls t plant (plant.rearmTrigger t) := by
  cases there : plant.triggers[t]? with
  | none =>
      rw [rearmTrigger, there]
      exact .refl plant
  | some trigger =>
      obtain ⟨_, same⟩ | ⟨idle, sets⟩ := rearm_trigger_own plant t trigger there
      · rw [same]
        exact .refl plant
      · refine sets_recalls there _ ?_ ?_ sets
        · rw [Trigger.rearm]
          split <;> rfl
        · rw [Trigger.rearm, if_neg (by simp [idle])]
          exact idle

theorem recalls_deactivate (plant : Plant) (id : TriggerId) : Recalls t plant (plant.deactivateTrigger id) := by
  by_cases own : id = t
  · subst own
    cases there : plant.triggers[id]? with
    | none =>
        rw [deactivateTrigger, there]
        exact .refl plant
    | some trigger =>
        obtain ⟨_, same⟩ | sets := deactivate_trigger_own plant id trigger there
        · rw [same]
          exact .refl plant
        · exact sets_recalls there trigger.halted rfl rfl sets
  · exact (spares_deactivate_trigger t plant id own).recalls

theorem recalls_exhaust (plant : Plant) : Recalls t plant (plant.exhaust t) := by
  rw [exhaust]
  split
  · exact .refl plant
  · exact ((inert_log _ _ _ _ _).spares t).recalls.trans (recalls_deactivate _ t)

theorem recalls_disarm (plant : Plant) (id : SequenceId) : Recalls t plant (plant.disarm id) := by
  by_cases holds : plant.Holds id t
  · obtain ⟨s, task, held, running, waits⟩ := holds_found t plant id holds
    cases there : plant.triggers[t]? with
    | none =>
        rw [disarm, current_missing_trigger t plant id there holds]
        exact (spares_leave_step t plant id).recalls
    | some trigger =>
        have rest := disarm_own t plant id s task trigger held running waits there
        exact (recalls_deactivate plant t).trans rest.recalls
  · exact (spares_disarm t plant id holds).recalls

theorem recalls_retire (plant : Plant) : Recalls t plant plant.retire := by
  refine retire_keeps (Recalls t plant) ?_ ?_ ?_ plant (.refl plant)
  · exact fun next id recalls _ => recalls.trans (recalls_deactivate next id)
  · exact fun next id recalls => recalls.trans ((inert_deactivate_comparison next id).spares t).recalls
  · exact fun next id recalls => recalls.trans ((inert_deactivate_device next id).spares t).recalls

theorem recalls_execute (plant : Plant) (command : Command) (unasked : ¬ plant.Asks t command) :
    Recalls t plant (plant.execute command).2 := by
  by_cases driven : plant.Drives t command
  · cases command with
    | trigger command =>
        cases command with
        | deactivate name =>
            obtain ⟨trigger, reached⟩ := driven
            rw [execute, onTrigger, reached]
            exact recalls_deactivate plant t
        | rearm name =>
            obtain ⟨trigger, reached⟩ := driven
            rw [execute, onTrigger, reached]
            exact recalls_rearm plant
        | activate | evaluate => exact absurd driven unasked
        | make | state | drop | watch | look => exact driven.elim
    | var | comparison | channel | device | sequence | workspace | subscribe | unsubscribe =>
        exact driven.elim
  · exact (spares_execute t plant command driven).recalls

theorem recalls_perform (plant : Plant) (job : Job) (unasked : ¬ plant.Consults t job) :
    Recalls t plant (plant.perform job) := by
  by_cases touched : plant.Touches t job
  · cases job with
    | deliver listener notification =>
        cases listener with
        | trigger other => exact absurd touched unasked
        | observer | comparison | follower => exact touched.elim
    | exhaust other =>
        cases touched
        exact recalls_exhaust plant
    | arm id => exact absurd touched unasked
    | disarm id => exact recalls_disarm plant id
    | command label command =>
        obtain ⟨_, _, _, same⟩ := run_command_next plant label command
        rw [perform, same]
        exact (recalls_execute plant command unasked).trans (recalls_same rfl)
    | tell | leave | conclude | write | settleDown | keepSubscription | closeRun | announce | begin
    | act | wait | next | complete => exact touched.elim
  · exact (spares_perform t plant job touched).recalls

theorem recalls_move (deed : Deed) (moved : UnaskedMove t plant deed next) : Recalls t plant next := by
  obtain ⟨move, unasked⟩ := moved
  cases move with
  | job next stepped =>
      obtain ⟨job, rest, agenda, rfl⟩ := worked_off stepped
      have popped : Recalls t plant { plant with agenda := rest } := recalls_same rfl
      have first : job ∈ plant.agenda.head? := by rw [agenda]; rfl
      have performed := recalls_perform (t := t) { plant with agenda := rest } job fun consults =>
        unasked ⟨job, first, consults⟩
      exact (popped.trans performed).trans (recalls_retire _)
  | call command => exact (recalls_execute plant command unasked).trans (recalls_retire _)
  | turn runner => exact (spares_turn t plant runner).recalls.trans (recalls_retire _)
  | dispatch change => exact ((inert_dispatch plant change).spares t).recalls

theorem recalls_run (moves : Runs (UnaskedMove t) plant next) : Recalls t plant next :=
  runs_invariant (Recalls t plant) (fun _ deed _ recalls moved => recalls.trans (recalls_move deed moved))
    plant next (.refl plant) moves

theorem evaluate_changes (truths : List (String × Bool)) (found : Trigger.Evaluation)
    (evaluated : trigger.evaluate truths = .ok found) :
    found.change = .changed ↔ found.trigger.latest ≠ trigger.latest := by
  obtain ⟨value, _, ⟨same, rfl⟩ | ⟨moved, rfl⟩⟩ := evaluate_found trigger truths found evaluated
  · simp [Trigger.send, Trigger.bindChildren]
  · simpa [Trigger.send] using moved

theorem exhausted_active (truths : List (String × Bool)) (found : Trigger.Evaluation)
    (evaluated : trigger.evaluate truths = .ok found) (exhausted : found.exhausted = true) :
    found.trigger.active = true := by
  obtain ⟨value, _, ⟨_, rfl⟩ | ⟨_, rfl⟩⟩ := evaluate_found trigger truths found evaluated
  · contradiction
  · exact (Bool.and_eq_true_iff.mp exhausted).1

-- What an evaluation stores, signals and publishes: with its children the truth of the moment, without them
-- the truth of what the comparisons were bound to last.
structure Answered (t : TriggerId) (plant next : Plant) (trigger after : Trigger) (change : Change) :
    Prop where
  there : next.triggers[t]? = some after
  values : next.valueOf = plant.valueOf
  signal : after.signal = after.latest
  published : ∃ stamp ends, next.agenda = (trigger.subscribers.map fun s => Job.deliver s.listener
      ⟨trigger.expression, change, .bool after.latest, stamp⟩) ++ (ends ++ plant.agenda) ∧
    ∀ job ∈ ends, job = .exhaust t ∨ job = .leave (.trigger t)
  change : change = .changed ↔ after.latest ≠ trigger.latest
  sampled : trigger.active = true ∨ trigger.children ≠ [] ∨ trigger.condition = none →
    next.Shows after after.latest
  recalled : trigger.children = [] → trigger.truth = .ok after.latest
  kept : after.truth = .ok after.latest

theorem evaluate_now_evaluates (plant : Plant) (there : plant.triggers[t]? = some trigger)
    (compiled : trigger.Compiled) : ∃ found, trigger.evaluate (plant.truths trigger.children) = .ok found ∧
      (plant.evaluateNow t trigger).1 = .ok found.change ∧
      Published t plant.readClock.2 (plant.evaluateNow t trigger).2 trigger found := by
  obtain ⟨found, evaluated, published⟩ :=
    evaluate_publishes plant.readClock.2 t trigger there compiled plant.readClock.1
  have again : trigger.evaluate (plant.readClock.2.truths trigger.children) = .ok found := evaluated
  refine ⟨found, evaluated, ?_, published⟩
  rw [evaluateNow]
  dsimp only
  rw [Plant.evaluate, again]

theorem bind_no_children (trigger : Trigger) : trigger.bindChildren [] = trigger := by
  simp [Trigger.bindChildren]

theorem wired_blank (joined : Joined plant trigger)
    (held : trigger.active = true ∨ trigger.children ≠ [] ∨ trigger.condition = none) :
    plant.Wired trigger := by
  by_cases filled : trigger.children = []
  · rcases held with active | filled' | blank
    · exact joined.wired (.inl active)
    · exact absurd filled filled'
    · simp [Wired, Trigger.atoms, filled, blank]
  · exact joined.wired (.inr filled)

theorem evaluation_answered (joined : Joined plant trigger) (there : plant.triggers[t]? = some trigger) :
    ∃ change after, (plant.evaluateNow t trigger).1 = .ok change ∧
      Answered t plant (plant.evaluateNow t trigger).2 trigger after change := by
  obtain ⟨found, evaluated, same, published⟩ := evaluate_now_evaluates plant there joined.compiled
  obtain ⟨truth, condition, _⟩ := evaluate_keeps trigger _ found evaluated
  refine ⟨found.change, found.trigger, same, ?_, published.hushed.values,
    evaluate_signal trigger _ found evaluated, ?_, evaluate_changes _ found evaluated, fun held => ?_,
    fun dropped => ?_, ?_⟩
  · rw [published.triggers]
    exact List.getElem?_set_self (List.getElem?_eq_some_iff.mp there).1
  · obtain ⟨stamp, agenda⟩ := published.agenda
    exact ⟨stamp, _, agenda, fun job member =>
      (behind_deliveries found.exhausted t job member).imp And.left id⟩
  · have shows := evaluate_shows trigger found joined.compiled (wired_blank joined held) evaluated
    exact shows_bound (show Bound plant _ from published.bound) published.hushed.values _ shows
  · rw [dropped] at truth
    rw [← truth]
    exact (congrArg Trigger.truth (bind_no_children trigger)).symm
  · rw [← truth]
    exact truth_same condition

theorem evaluated_poised (poised : plant.Poised) (there : plant.triggers[t]? = some trigger) :
    (plant.evaluateNow t trigger).2.retire.Poised := by
  have joined := joined_evaluate_now poised.joined t
  exact poised_retire (consistent_evaluate_now poised.consistent t trigger there (poised.joined t trigger there)
    fun _ member => .inl member) (joined_retire fun t' => joined t' trigger there)

theorem current_recalls (recalls : Recalls t plant next) (current : Current t plant) : Current t next := by
  intro after there active
  cases found : plant.triggers[t]? with
  | none =>
      rw [recalls.made found after there] at active
      contradiction
  | some trigger =>
      obtain ⟨same, still, condition, lasting⟩ := recalls.kept trigger found
      cases there.symm.trans still
      obtain ⟨before, latest⟩ := lasting active
      rw [truth_same condition, latest]
      exact current trigger found before

theorem current_there (there : next.triggers[t]? = some trigger) (truth : trigger.truth = .ok trigger.latest) :
    Current t next := by
  intro after found _
  cases there.symm.trans found
  exact truth

theorem current_evaluated (found : Trigger.Evaluation) (evaluated : Evaluated t plant next trigger found) :
    Current t next := by
  obtain ⟨truth, condition, _⟩ := evaluate_keeps trigger _ found evaluated.evaluated
  exact current_there evaluated.after ((truth_same condition).trans truth)

theorem current_evaluate_now (joined : Joined plant trigger) (there : plant.triggers[t]? = some trigger) :
    Current t (plant.evaluateNow t trigger).2 := by
  obtain ⟨_, _, _, answered⟩ := evaluation_answered joined there
  exact current_there answered.there answered.kept

theorem current_activate {jobs : List Job} (coherent : plant.Coherent jobs) (joined : Joined plant trigger)
    (there : plant.triggers[t]? = some trigger) (current : Current t plant)
    (activated : plant.activateTrigger t trigger = .ok next) : Current t next := by
  by_cases spent : trigger.remaining = 0
  · rw [activateTrigger, if_pos spent] at activated
    cases activated
    exact current_recalls (recalls_same rfl) current
  · by_cases active : trigger.active = true
    · rw [activateTrigger, if_neg spent, if_pos active] at activated
      cases activated
      exact current
    · obtain ⟨children, links, linked, _, _, started, wired, rfl⟩ := activate_evaluates coherent joined there
        spent (Bool.eq_false_iff.mpr active) activated
      exact current_evaluate_now ⟨joined.compiled, fun _ => wired⟩ started

theorem current_arm (consistent : plant.Consistent) (joined : ∀ t, plant.JoinedAt t) (id : SequenceId)
    (current : Current t plant) : Current t (plant.arm id) := by
  by_cases holds : plant.Holds id t
  · obtain ⟨s, task, held, running, waits⟩ := holds_found t plant id holds
    have rearmed := recalls_rearm (t := t) plant
    cases there : plant.triggers[t]? with
    | none =>
        rw [arm, current_missing_trigger t plant id there holds]
        exact current_recalls (spares_leave_step t plant id).recalls current
    | some trigger =>
        rcases arm_own t plant id s task trigger held running waits there with
          ⟨_, left⟩ | ⟨_, _, logged, inert, refused⟩ | ⟨_, after, found, _, activated⟩
        · rw [left]
          exact current_recalls (spares_leave_step t plant id).recalls current
        · rw [refused]
          exact current_recalls
            (rearmed.trans ((inert.spares t).trans (spares_cancel t logged id)).recalls) current
        · have ready := consistent_calm (consistent_rearm_trigger consistent t)
            (calm_push _ [.wait id] (by simp [Job.kept?]))
          exact current_activate ready (joined_agenda _ _ after (joined_rearm joined t t after found)) found
            (current_recalls (rearmed.trans (recalls_same rfl)) current) activated
  · exact current_recalls (spares_arm t plant id holds).recalls current

theorem current_execute (consistent : plant.Consistent) (joined : ∀ t, plant.JoinedAt t) (command : Command)
    (current : Current t plant) : Current t (plant.execute command).2 := by
  by_cases asks : plant.Asks t command
  · cases command with
    | trigger command =>
        cases command with
        | activate name =>
            obtain ⟨trigger, reached⟩ := asks
            have there := found_there _ _ name t trigger reached
            rw [execute, onTrigger, reached]
            dsimp only
            split
            · next after activated =>
                exact current_activate consistent (joined t trigger there) there current activated
            · exact current
        | evaluate name =>
            obtain ⟨trigger, reached⟩ := asks
            have there := found_there _ _ name t trigger reached
            have ran := current_evaluate_now (joined t trigger there) there
            rw [execute, onTrigger, reached]
            dsimp only
            split
            · next change later result =>
                rw [result] at ran
                exact ran
            · next error later result =>
                rw [result] at ran
                exact ran
        | make | deactivate | rearm | state | drop | watch | look => exact asks.elim
    | var | comparison | channel | device | sequence | workspace | subscribe | unsubscribe =>
        exact asks.elim
  · exact current_recalls (recalls_execute plant command asks) current

theorem current_perform (job : Job) (coherent : plant.Coherent (job :: plant.agenda))
    (joined : ∀ t, plant.JoinedAt t) (current : Current t plant) : Current t (plant.perform job) := by
  by_cases consults : plant.Consults t job
  · cases job with
    | command label command =>
        obtain ⟨_, _, _, same⟩ := run_command_next plant label command
        have executed := current_execute (consistent_idle coherent trivial) joined command current
        rw [perform, same]
        exact current_recalls (recalls_same rfl) executed
    | deliver listener notification =>
        cases listener with
        | trigger other =>
            cases consults
            cases there : plant.triggers[t]? with
            | none =>
                rw [perform, deliver, hear, there]
                exact current
            | some trigger =>
                rcases hear_own plant t trigger notification.stamp there with
                  inert | ⟨_, found, evaluated⟩
                · exact current_recalls (inert.spares t).recalls current
                · exact current_evaluated found evaluated
        | observer | comparison | follower => exact consults.elim
    | arm id => exact current_arm (consistent_idle coherent trivial) joined id current
    | tell | leave | exhaust | conclude | write | settleDown | keepSubscription | closeRun | announce
    | begin | act | wait | disarm | next | complete => exact consults.elim
  · exact current_recalls (recalls_perform plant job consults) current

theorem current_move (deed : Deed) (move : Move plant deed next) (poised : plant.Poised)
    (current : Current t plant) : Current t next := by
  cases move with
  | job next stepped =>
      obtain ⟨job, rest, agenda, rfl⟩ := worked_off stepped
      have joined : ∀ t, JoinedAt { plant with agenda := rest } t := fun t trigger there =>
        joined_agenda plant rest trigger (poised.joined t trigger there)
      exact current_recalls (recalls_retire _) (current_perform job
        (coherent_popped poised.consistent agenda) joined (current_recalls (recalls_same rfl) current))
  | call command =>
      exact current_recalls (recalls_retire _)
        (current_execute poised.consistent poised.joined command current)
  | turn runner =>
      exact current_recalls ((spares_turn t plant runner).recalls.trans (recalls_retire _)) current
  | dispatch change => exact current_recalls ((inert_dispatch plant change).spares t).recalls current

theorem reached_current (reached : plant.Reached) : Current t plant := by
  obtain ⟨start, hasRuntime, moves⟩ := reached
  refine (runs_invariant (fun plant => plant.Poised ∧ Current t plant) ?_ _ plant
    ⟨poised_blank start hasRuntime, fun trigger there => by simp [blank] at there⟩ moves).2
  exact fun _ deed _ both move =>
    ⟨poised_move deed move both.1, current_move deed move both.1 both.2⟩

theorem evaluation_returns (poised : plant.Poised) (matched : plant.Matched)
    (there : plant.triggers[t]? = some trigger) (used : plant.triggerInUse t = true)
    (discreet : plant.Discreet (.trigger t)) (after : Trigger)
    (found : (plant.evaluateNow t trigger).2.triggers[t]? = some after) :
    ∃ count last, (settle count (plant.evaluateNow t trigger).2.retire).agenda = plant.agenda ∧
      (settle count (plant.evaluateNow t trigger).2.retire).valueOf = plant.valueOf ∧
      (settle count (plant.evaluateNow t trigger).2.retire).triggers[t]? = some last ∧
      last.latest = after.latest := by
  have compiled := (poised.joined t trigger there).compiled
  obtain ⟨evaluation, evaluated, _, published⟩ := evaluate_now_evaluates plant there compiled
  have own : after = evaluation.trigger := by
    rw [published.triggers] at found
    exact Option.some.inj (found.symm.trans
      (List.getElem?_set_self (List.getElem?_eq_some_iff.mp there).1))
  subst own
  have lists := evaluate_lists plant.readClock.1 t trigger evaluation
    (show trigger.evaluate (plant.readClock.2.truths trigger.children) = .ok evaluation from evaluated)
  have read : Eases plant plant.readClock.2 := eases_same rfl
  have ran : Eases plant (plant.evaluateNow t trigger).2 :=
    read.trans (eases_evaluate plant.readClock.2 t trigger there compiled plant.readClock.1)
  have eases := ran.trans (eases_retire _)
  rw [← listeners_trigger t trigger there] at lists
  have each := told_observers poised t discreet
    ⟨trigger.expression, evaluation.change, .bool evaluation.trigger.latest, plant.readClock.1⟩ rfl
  have ready := evaluated_poised poised there
  have matching := (matched_retire (matched_evaluate_now matched t trigger there).matched).matched
  have agenda := (still_retire (plant.evaluateNow t trigger).2).agenda.trans lists
  have kept : (plant.evaluateNow t trigger).2.retire.triggers[t]? = some evaluation.trigger := by
    have in_front := lists.trans (List.append_assoc _ _ _).symm
    exact (retire_keeps_used (lasts_in_use _ (lasts_eases used ran) in_front)).trans found
  obtain ⟨final, passes, left, _, mine⟩ := passes_call_end ready matching t evaluation.exhausted _ agenda
    (lasts_eases used eases) fun job member =>
      match each job member with
      | ⟨id, notification, same, stamped, innocent⟩ =>
          ⟨id, notification, same, stamped, innocent_eases eases _ innocent⟩
  obtain ⟨count, rfl, _⟩ := passes.settled
  refine ⟨count, _, left, (eases.trans passes.eases).values,
    mine evaluation.trigger rfl kept (exhausted_active _ evaluation evaluated), ?_⟩
  split <;> rfl

theorem poised_run (poised : plant.Poised) (moves : Moves plant next) : next.Poised :=
  runs_invariant Poised (fun _ deed _ poised move => poised_move deed move poised) plant next poised moves

theorem rested_truthful (poised : plant.Poised) (rest : plant.agenda = [])
    (there : plant.triggers[t]? = some trigger) (active : trigger.active = true) :
    plant.Truthful trigger := by
  have fresh := poised.consistent.fresh
  rw [rest] at fresh
  rcases fresh.triggers t trigger there active with now | ⟨_, awaits⟩ | ⟨_, _, _, awaits⟩
  · exact now
  · contradiction
  · contradiction

theorem unasked_moves (moves : Runs (UnaskedMove t) plant next) : Moves plant next :=
  Relation.ReflTransGen.mono (fun _ _ ⟨deed, moved⟩ => ⟨deed, moved.move⟩) _ _ moves

def FindsAgain (t : TriggerId) (plant later : Plant) (value : Bool) : Prop :=
  Runs (UnaskedMove t) plant later → ∀ found, later.triggers[t]? = some found → found.children = [] →
    ∃ change after, (later.evaluateNow t found).1 = .ok change ∧
      (later.evaluateNow t found).2.triggers[t]? = some after ∧ after.latest = value

theorem recalled_again (poised : plant.Poised) (there : plant.triggers[t]? = some trigger) (value : Bool)
    (truth : trigger.truth = .ok value) (later : Plant) : FindsAgain t plant later value := by
  intro moves found known dropped
  obtain ⟨change, after, told, answered⟩ :=
    evaluation_answered ((poised_run poised (unasked_moves moves)).joined t found known) known
  refine ⟨change, after, told, answered.there, ?_⟩
  obtain ⟨_, held, condition, _⟩ := (recalls_run moves).kept trigger there
  cases known.symm.trans held
  have recalled := answered.recalled dropped
  rw [truth_same condition, truth] at recalled
  exact (Except.ok.inj recalled).symm

-- Every evaluation has an answer. At its return a trigger that listens tells the truth of the moment, and
-- where handlers only observe the answer still stands. What an active trigger tells, or an evaluation found,
-- is found again after the children are dropped, as long as nothing makes the trigger evaluate in between.
theorem evaluation_samples (reached : plant.Reached) (there : plant.triggers[t]? = some trigger) :
    ∃ change after, (plant.evaluateNow t trigger).1 = .ok change ∧
      Answered t plant (plant.evaluateNow t trigger).2 trigger after change ∧
      (∀ later, Moves (plant.evaluateNow t trigger).2.retire later → later.agenda = [] →
        ∀ found, later.triggers[t]? = some found → found.active = true → later.Shows found found.latest) ∧
      (plant.triggerInUse t = true → plant.Discreet (.trigger t) → ∃ count last,
        (settle count (plant.evaluateNow t trigger).2.retire).agenda = plant.agenda ∧
        (settle count (plant.evaluateNow t trigger).2.retire).valueOf = plant.valueOf ∧
        (settle count (plant.evaluateNow t trigger).2.retire).triggers[t]? = some last ∧
        last.latest = after.latest) ∧
      (∀ later, FindsAgain t (plant.evaluateNow t trigger).2.retire later after.latest) ∧
      (trigger.active = true → ∀ later, FindsAgain t plant later trigger.latest) := by
  have poised := reached_poised reached
  obtain ⟨change, after, same, answered⟩ := evaluation_answered (poised.joined t trigger there) there
  have ready := evaluated_poised poised there
  refine ⟨change, after, same, answered, ?_, ?_, ?_, ?_⟩
  · intro later moves rest found known active
    exact (rested_truthful (poised_run ready moves) rest known active).shows
  · intro used discreet
    exact evaluation_returns poised (reached_matched reached) there used discreet after answered.there
  · obtain ⟨_, held, condition, _⟩ := (recalls_retire _).kept after answered.there
    exact recalled_again ready held after.latest ((truth_same condition).trans answered.kept)
  · intro active
    exact recalled_again poised there trigger.latest (reached_current reached trigger there active)

end

def dormant : Plant :=
  (blank ⟨0, 0⟩ true).runAll
    [.var (.make "x" (.bool false) false), .trigger (.make "t" "x==true" 1 false),
      .var (.set "x" (.bool true))]

theorem dormant_samples : ∃ trigger ∈ dormant.triggers[0]?, ∃ after,
    (dormant.evaluateNow 0 trigger).1 = .ok .changed ∧
      (dormant.evaluateNow 0 trigger).2.Shows after true ∧ after.latest = true := by
  have reached : dormant.Reached :=
    ⟨⟨0, 0⟩, true, run_all_runs (fun _ _ _ => true) (fun _ _ _ done _ => done.move) _ _
      (by decide +kernel)⟩
  have ready : ∃ trigger ∈ dormant.triggers[0]?, trigger.latest = false ∧ trigger.children.isEmpty = false ∧
      (dormant.evaluateNow 0 trigger).1 = .ok .changed := by
    decide +kernel
  obtain ⟨trigger, there, low, filled, changed⟩ := ready
  obtain ⟨change, after, same, answered, _⟩ := evaluation_samples reached there
  rw [changed] at same
  cases same
  have moved := answered.change.mp rfl
  rw [low] at moved
  have high : after.latest = true := by simpa using moved
  have shows := answered.sampled (.inr (.inl fun none => by simp [none] at filled))
  rw [high] at shows
  exact ⟨trigger, there, after, changed, shows, high⟩

def expressionValue? (plant : Plant) (trigger : Trigger) : Option Bool :=
  match Trigger.compile trigger.expression with
  | .ok none => some true
  | .ok (some condition) =>
      (condition.evaluateWith fun atom =>
        (bind (plant.lookup trigger.table) plant.now atom).toOption.map fun relation =>
          relation.sample plant.valueOf).toOption
  | .error _ => none

def idled : Plant :=
  (blank ⟨0, 0⟩ true).runAll
    [.var (.make "x" (.bool false) false), .trigger (.make "t" "x==true" 1 false),
      .trigger (.activate "t"), .var (.set "x" (.bool true)), .var (.set "x" (.bool false))]

theorem idled_not_sampled : ¬ ∀ (plant : Plant) (t : TriggerId) (trigger : Trigger) (change : Change),
    plant.Reached → plant.triggers[t]? = some trigger → (plant.evaluateNow t trigger).1 = .ok change →
      ∃ after, (plant.evaluateNow t trigger).2.triggers[t]? = some after ∧
        (plant.evaluateNow t trigger).2.expressionValue? after = some after.latest ∧
        (change = .changed ↔ after.latest ≠ trigger.latest) := by
  intro always
  have reached : idled.Reached :=
    ⟨⟨0, 0⟩, true, run_all_runs (fun _ _ _ => true) (fun _ _ _ done _ => done.move) _ _
      (by decide +kernel)⟩
  have stale : ∃ trigger ∈ idled.triggers[0]?, (idled.evaluateNow 0 trigger).1 = .ok .updated ∧
      ∃ after ∈ (idled.evaluateNow 0 trigger).2.triggers[0]?, after.latest = true ∧
        (idled.evaluateNow 0 trigger).2.expressionValue? after = some false := by
    decide +kernel
  obtain ⟨trigger, there, updated, after, found, high, low⟩ := stale
  obtain ⟨other, known, value, _⟩ := always idled 0 trigger .updated reached there updated
  cases found.symm.trans known
  rw [low, high] at value
  contradiction

end Interlock.Plant
