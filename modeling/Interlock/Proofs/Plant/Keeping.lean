import Interlock.Proofs.Plant.Touching

/-!
Properties of a trigger that moves keep. A trigger is spared, halted, rearmed, started or evaluated, and
what all of these keep is kept by every job and every call.
-/

set_option autoImplicit false

namespace Interlock.Plant

open Interlock.Graph
open Interlock.Schedule
open Interlock.Session (Command TriggerCommand)

structure Joined (plant : Plant) (trigger : Trigger) : Prop where
  compiled : trigger.Compiled
  wired : trigger.active = true ∨ trigger.children ≠ [] → plant.Wired trigger

def JoinedAt (plant : Plant) (t : TriggerId) : Prop :=
  ∀ trigger, plant.triggers[t]? = some trigger → Joined plant trigger

def Due (t : TriggerId) (plant : Plant) : Prop := ∃ job ∈ plant.agenda, job.exhausted? = some t

theorem due_adds (t : TriggerId) (plant next : Plant)
    (adds : Adds (fun job => job.exhausted? ≠ some t) plant next) : Due t next ↔ Due t plant := by
  obtain ⟨jobs, grown, foreign⟩ := adds
  constructor
  · rintro ⟨job, member, last⟩
    rw [grown] at member
    rcases List.mem_append.mp member with new | old
    · exact absurd last (foreign job new)
    · exact ⟨job, old, last⟩
  · rintro ⟨job, member, last⟩
    exact ⟨job, by rw [grown]; exact List.mem_append_right jobs member, last⟩

theorem due_sets (t : TriggerId) (plant next : Plant) (trigger : Trigger)
    (sets : Sets t plant trigger next) : Due t next ↔ Due t plant :=
  (due_adds t (plant.setTrigger t trigger) next (Inert.spares t sets).agenda)

structure KeptBy (t : TriggerId) (kept : Plant → Prop) : Prop where
  joined : ∀ plant, kept plant → plant.JoinedAt t
  spares : ∀ plant next, kept plant → Spares t plant next → kept next
  halts : ∀ plant next trigger, kept plant → plant.triggers[t]? = some trigger →
    Sets t plant trigger.halted next → kept next
  starts : ∀ plant next trigger children links, kept plant → plant.triggers[t]? = some trigger →
    trigger.remaining ≠ 0 → plant.Wired (trigger.started children links) →
      Sets t plant (trigger.started children links) next → kept next
  evaluates : ∀ plant next trigger found, kept plant → plant.triggers[t]? = some trigger →
    trigger.active = true → trigger.remaining ≠ 0 → Evaluated t plant next trigger found → kept next
  relists : ∀ plant agenda, kept plant → (Due t { plant with agenda := agenda } ↔ Due t plant) →
    kept { plant with agenda := agenda }

def Spoils (plant : Plant) (t : TriggerId) : Command → Prop
  | .trigger (.deactivate name) | .trigger (.rearm name) | .trigger (.evaluate name) =>
      plant.Reaches t name
  | _ => False

section

variable {t : TriggerId} {kept : Plant → Prop} (keeps : KeptBy t kept)

include keeps

theorem activate_keeps (plant : Plant) (trigger : Trigger) (next : Plant) (start : kept plant)
    (there : plant.triggers[t]? = some trigger)
    (activated : plant.activateTrigger t trigger = .ok next) : kept next := by
  have joined := keeps.joined plant start trigger there
  rcases activate_trigger_own plant t trigger next there joined.compiled
    (fun filled => joined.wired (.inr filled)) activated with
    ⟨_, inert⟩ | ⟨_, rfl⟩ | ⟨left, inactive, children, links, linked, between, ready, wired, sets, done⟩
  · exact keeps.spares plant next start (inert.spares t)
  · exact start
  · have found_linked : linked.triggers[t]? = some trigger := by rw [ready.triggers, there]
    have kept_linked := keeps.spares plant linked start (ready.spares t)
    have kept_between := keeps.starts linked between trigger children links kept_linked found_linked
      left wired sets
    rcases done with inert | ⟨found, evaluated⟩
    · exact keeps.spares between next kept_between (inert.spares t)
    · exact keeps.evaluates between next (trigger.started children links) found kept_between
        (sets_there linked between t trigger _ found_linked sets) rfl left evaluated

theorem disarm_keeps (plant : Plant) (id : SequenceId) (start : kept plant) :
    kept (plant.disarm id) := by
  by_cases holds : plant.Holds id t
  · obtain ⟨s, task, held, running, waits⟩ := holds_found t plant id holds
    cases there : plant.triggers[t]? with
    | none =>
        rw [disarm, current_missing_trigger t plant id there holds]
        exact keeps.spares plant _ start (spares_leave_step t plant id)
    | some trigger =>
        have rest := disarm_own t plant id s task trigger held running waits there
        rcases deactivate_trigger_own plant t trigger there with ⟨_, same⟩ | sets
        · rw [same] at rest
          exact keeps.spares plant _ start rest
        · exact keeps.spares _ _ (keeps.halts plant _ trigger start there sets) rest
  · exact keeps.spares plant _ start (spares_disarm t plant id holds)

theorem arm_keeps (plant : Plant) (id : SequenceId) (start : kept plant)
    (rearms : ∀ trigger next, plant.triggers[t]? = some trigger → trigger.active = false →
      Sets t plant trigger.rearm next → kept next) : kept (plant.arm id) := by
  by_cases holds : plant.Holds id t
  · obtain ⟨s, task, held, running, waits⟩ := holds_found t plant id holds
    cases there : plant.triggers[t]? with
    | none =>
        rw [arm, current_missing_trigger t plant id there holds]
        exact keeps.spares plant _ start (spares_leave_step t plant id)
    | some trigger =>
        have rearmed : kept (plant.rearmTrigger t) := by
          rcases rearm_trigger_own plant t trigger there with ⟨_, same⟩ | ⟨inactive, sets⟩
          · rw [same]
            exact start
          · exact rearms trigger _ there inactive sets
        rcases arm_own t plant id s task trigger held running waits there with
          ⟨_, left⟩ | ⟨_, _, logged, inert, refused⟩ | ⟨_, after, found, remaining, activated⟩
        · rw [left]
          exact keeps.spares plant _ start (spares_leave_step t plant id)
        · rw [refused]
          exact keeps.spares _ _ rearmed ((inert.spares t).trans (spares_cancel t logged id))
        · have pushed := keeps.spares _ _ rearmed
            (spares_push t (plant.rearmTrigger t) [.wait id] (by simp [Job.exhausted?]))
          exact activate_keeps keeps _ after _ pushed found activated
  · exact keeps.spares plant _ start (spares_arm t plant id holds)

theorem exhaust_keeps (plant : Plant) (start : kept plant) : kept (plant.exhaust t) := by
  cases there : plant.triggers[t]? with
  | none =>
      unfold exhaust
      rw [there]
      exact start
  | some trigger =>
      rcases exhaust_own t plant trigger there with ⟨_, inert⟩ | sets
      · exact keeps.spares plant _ start (inert.spares t)
      · exact keeps.halts plant _ trigger start there sets

theorem retire_keeps_trigger (plant : Plant) (start : kept plant) : kept plant.retire := by
  refine retire_keeps kept ?_ ?_ ?_ plant start
  · intro plant id start _
    by_cases own : id = t
    · subst own
      cases there : plant.triggers[id]? with
      | none =>
          unfold deactivateTrigger
          rw [there]
          exact start
      | some trigger =>
          rcases deactivate_trigger_own plant id trigger there with ⟨_, same⟩ | sets
          · rw [same]
            exact start
          · exact keeps.halts plant _ trigger start there sets
    · exact keeps.spares plant _ start (spares_deactivate_trigger t plant id own)
  · exact fun plant id start => keeps.spares plant _ start ((inert_deactivate_comparison plant id).spares t)
  · exact fun plant id start => keeps.spares plant _ start ((inert_deactivate_device plant id).spares t)

theorem execute_keeps (plant : Plant) (command : Command) (start : kept plant)
    (unspoiled : ¬ plant.Spoils t command) : kept (plant.execute command).2 := by
  by_cases driven : plant.Drives t command
  · cases command with
    | trigger command =>
        cases command with
        | activate name =>
            obtain ⟨trigger, reached⟩ := driven
            have there := found_there _ _ name t trigger reached
            rw [execute, onTrigger, reached]
            dsimp only
            split
            · rename_i next activated
              exact activate_keeps keeps plant trigger next start there activated
            · exact start
        | deactivate | rearm | evaluate => exact absurd driven unspoiled
        | make | state | drop | watch | look => exact driven.elim
    | var | comparison | channel | device | sequence | workspace | subscribe | unsubscribe =>
        exact driven.elim
  · exact keeps.spares plant _ start (spares_execute t plant command driven)

theorem run_command_keeps (plant : Plant) (label : String) (command : Command) (start : kept plant)
    (unspoiled : ¬ plant.Spoils t command) : kept (plant.runCommand label command) := by
  obtain ⟨jobs, grown, _, same⟩ := run_command_next plant label command
  rw [same]
  refine keeps.relists _ _ (execute_keeps keeps plant command start unspoiled) ?_
  simp only [Due, grown, List.mem_append, List.mem_cons]
  constructor
  · rintro ⟨job, caused | rfl | rest, last⟩
    · exact ⟨job, .inl caused, last⟩
    · contradiction
    · exact ⟨job, .inr rest, last⟩
  · rintro ⟨job, caused | rest, last⟩
    · exact ⟨job, .inl caused, last⟩
    · exact ⟨job, .inr (.inr rest), last⟩

-- Rearming and hearing are left to the property: they may depend on what else is on the agenda.
theorem perform_keeps (plant : Plant) (job : Job) (start : kept plant)
    (unspoiled : ∀ label command, job = .command label command → ¬ plant.Spoils t command)
    (rearms : ∀ id trigger next, job = .arm id → plant.triggers[t]? = some trigger →
      trigger.active = false → Sets t plant trigger.rearm next → kept next)
    (hears : ∀ notification trigger found, job = .deliver (.trigger t) notification →
      plant.triggers[t]? = some trigger → trigger.active = true →
        Evaluated t plant (plant.perform job) trigger found → kept (plant.perform job)) :
    kept (plant.perform job) := by
  by_cases touched : plant.Touches t job
  · cases job with
    | deliver listener notification =>
        cases listener with
        | trigger other =>
            cases touched
            cases there : plant.triggers[t]? with
            | none =>
                have same : plant.hear t notification.stamp = plant := by
                  unfold hear
                  rw [there]
                rw [perform, deliver, same]
                exact start
            | some trigger =>
                rcases hear_own plant t trigger notification.stamp there with
                  inert | ⟨active, found, evaluated⟩
                · exact keeps.spares plant _ start (inert.spares t)
                · exact hears notification trigger found rfl there active evaluated
        | observer | comparison | follower => exact touched.elim
    | exhaust other =>
        cases touched
        exact exhaust_keeps keeps plant start
    | arm id => exact arm_keeps keeps plant id start fun trigger next => rearms id trigger next rfl
    | disarm id => exact disarm_keeps keeps plant id start
    | command label command =>
        exact run_command_keeps keeps plant label command start (unspoiled label command rfl)
    | tell | leave | conclude | write | settleDown | keepSubscription | closeRun | announce | begin
    | act | wait | next | complete => exact touched.elim
  · exact keeps.spares plant _ start (spares_perform t plant job touched)

end

theorem joined_same (plant next : Plant) (trigger after : Trigger) (bound : Bound plant next)
    (expression : after.expression = trigger.expression)
    (condition : after.condition = trigger.condition) (children : after.children = trigger.children)
    (active : after.active = true → trigger.active = true) (joined : Joined plant trigger) :
    Joined next after := by
  refine ⟨?_, ?_⟩
  · exact compiled_same trigger after expression condition joined.compiled
  · intro used
    rw [children] at used
    refine wired_same next trigger after children ?_
      (wired_bound plant next bound trigger (joined.wired (used.imp_left active)))
    unfold Trigger.atoms
    rw [condition]

theorem joined_bound (plant next : Plant) (trigger : Trigger) (bound : Bound plant next)
    (joined : Joined plant trigger) : Joined next trigger :=
  joined_same plant next trigger trigger bound rfl rfl rfl (fun active => active) joined

theorem joined_agenda (plant : Plant) (agenda : List Job) (trigger : Trigger)
    (joined : Joined plant trigger) : Joined { plant with agenda := agenda } trigger :=
  joined_bound plant _ trigger (bound_refl _ _ rfl) joined

theorem joined_spares (t : TriggerId) (plant next : Plant) (joined : plant.JoinedAt t)
    (spares : Spares t plant next) : next.JoinedAt t := by
  intro after there
  cases found : plant.triggers[t]? with
  | none =>
      have made := spares.made found after there
      exact ⟨made.compiled, fun _ => made.wired⟩
  | some trigger =>
      obtain ⟨same, still, core⟩ := spares.kept trigger found
      cases there.symm.trans still
      have alike := core_alike core
      exact joined_same plant next trigger after spares.comparisons alike.expression alike.condition
        alike.children (fun active => alike.active ▸ active) (joined trigger found)

theorem joined_evaluated (t : TriggerId) (plant next : Plant) (trigger : Trigger)
    (found : Trigger.Evaluation) (joined : plant.JoinedAt t)
    (there : plant.triggers[t]? = some trigger) (evaluated : Evaluated t plant next trigger found) :
    next.JoinedAt t := by
  intro after reached
  cases reached.symm.trans evaluated.after
  obtain ⟨_, condition, children, _, active⟩ := evaluate_keeps trigger _ found evaluated.evaluated
  have held := joined trigger there
  refine ⟨?_, ?_⟩
  · exact compiled_same (trigger.bindChildren (plant.truths trigger.children)) found.trigger
      (evaluate_expression trigger _ found evaluated.evaluated) condition
      (bind_children_compiled trigger _ held.compiled)
  · intro used
    rw [children, active] at used
    refine wired_same next trigger found.trigger children ?_
      (wired_bound plant next (bound_refl _ _ evaluated.comparisons) trigger (held.wired used))
    have atoms := bind_children_atoms trigger (plant.truths trigger.children)
    unfold Trigger.atoms at atoms ⊢
    rw [condition]
    exact atoms

theorem joined_sets (t : TriggerId) (plant next : Plant) (trigger after : Trigger)
    (there : plant.triggers[t]? = some trigger) (sets : Sets t plant after next)
    (joined : Joined plant after) : next.JoinedAt t := by
  intro found reached
  cases reached.symm.trans (sets_there plant next t trigger after there sets)
  exact joined_bound plant next after sets.comparisons joined

theorem joined_halts (t : TriggerId) (plant next : Plant) (trigger : Trigger)
    (joined : plant.JoinedAt t) (there : plant.triggers[t]? = some trigger)
    (sets : Sets t plant trigger.halted next) : next.JoinedAt t := by
  refine joined_sets t plant next trigger _ there sets ⟨(joined trigger there).compiled, ?_⟩
  rintro (active | filled)
  · contradiction
  · exact absurd rfl filled

theorem joined_rearms (t : TriggerId) (plant next : Plant) (trigger : Trigger)
    (joined : plant.JoinedAt t) (there : plant.triggers[t]? = some trigger)
    (inactive : trigger.active = false) (sets : Sets t plant trigger.rearm next) :
    next.JoinedAt t := by
  have rearmed : trigger.rearm =
      { trigger with remaining := trigger.limit, latest := trigger.condition.isNone }.send
        trigger.condition.isNone := by
    rw [Trigger.rearm, if_neg (by simp [inactive])]
  rw [rearmed] at sets
  have held := joined trigger there
  exact joined_sets t plant next trigger _ there sets ⟨held.compiled, held.wired⟩

theorem joined_kept (t : TriggerId) : KeptBy t (fun plant => plant.JoinedAt t) where
  joined _ joined := joined
  spares plant next := joined_spares t plant next
  halts plant next trigger := joined_halts t plant next trigger
  starts _ _ trigger _ _ joined there _ wired sets :=
    joined_sets t _ _ trigger _ there sets ⟨(joined trigger there).compiled, fun _ => wired⟩
  evaluates plant next trigger found joined there _ _ :=
    joined_evaluated t plant next trigger found joined there
  relists plant agenda joined _ := fun trigger there =>
    joined_agenda plant agenda trigger (joined trigger there)

end Interlock.Plant
