import Interlock.Proofs.Plant.Keeping

/-!
The fate of a trigger. What one move can do to it, and that a task at its trigger finds it there.
-/

set_option autoImplicit false

namespace Interlock.Plant

open Interlock.Graph
open Interlock.Schedule
open Interlock.Session (Command TriggerCommand)

def Performs (plant : Plant) (deed : Deed) (job : Job) : Prop :=
  deed = .job ∧ ∃ rest, plant.agenda = job :: rest

def LatestFulfils (plant : Plant) (trigger : Trigger) : Prop :=
  trigger.latest = true → plant.Fulfils trigger

-- The trigger listens no more; its value and its count stay.
structure Ended (trigger after : Trigger) : Prop where
  idle : after.active = false
  latest : after.latest = trigger.latest
  remaining : after.remaining = trigger.remaining

inductive Fate (t : TriggerId) (plant : Plant) (deed : Deed) (next : Plant) (trigger after : Trigger) :
    Prop where
  | same (core : after.core = trigger.core)
  | heard (listens : trigger.active = true) (active : after.active = true) (shown : next.LatestFulfils after)
  | armed (id : SequenceId) (performs : plant.Performs deed (.arm id)) (holds : plant.Holds id t)
      (idle : trigger.active = false) (active : after.active = true) (shown : next.LatestFulfils after)
      (waits : Job.wait id ∈ next.agenda)
  | driven (command : Command) (ordered : command ∈ plant.order? deed)
      (drives : plant.Drives t command) (active : after.active = true)
  | exhausted (performs : plant.Performs deed (.exhaust t)) (ended : Ended trigger after)
  | disarmed (id : SequenceId) (performs : plant.Performs deed (.disarm id))
      (holds : plant.Holds id t) (ended : Ended trigger after)
  | refused (id : SequenceId) (rest : List Job) (agenda : deed = .job ∧ plant.agenda = .arm id :: rest)
      (holds : plant.Holds id t) (idle : trigger.active = false)
      (refuses : { plant with agenda := rest }.Refuses id t) (core : after.core = trigger.rearm.core)

theorem evaluated_latest_fulfils (t : TriggerId) (plant next : Plant) (trigger : Trigger)
    (found : Trigger.Evaluation) (compiled : trigger.Compiled) (wired : plant.Wired trigger)
    (evaluated : Evaluated t plant next trigger found) : next.LatestFulfils found.trigger := by
  intro shown
  have fulfils := evaluate_fulfils plant trigger found compiled wired evaluated.evaluated shown
  refine fulfils_same plant next found.trigger found.trigger rfl ?_
    (bound_refl _ _ evaluated.comparisons) fulfils
  funext id
  rw [valueOf, evaluated.vars, valueOf]

theorem evaluated_active (t : TriggerId) (plant next : Plant) (trigger : Trigger)
    (found : Trigger.Evaluation) (evaluated : Evaluated t plant next trigger found) :
    found.trigger.active = trigger.active :=
  (evaluate_keeps trigger _ found evaluated.evaluated).2.2.2.2

theorem activate_starts (plant : Plant) (t : TriggerId) (trigger : Trigger) (next : Plant)
    (there : plant.triggers[t]? = some trigger) (joined : Joined plant trigger)
    (activated : plant.activateTrigger t trigger = .ok next) :
    ∃ after, next.triggers[t]? = some after ∧
      ((trigger.remaining = 0 ∧ after.core = trigger.core) ∨
        (trigger.active = true ∧ after.core = trigger.core) ∨
        (trigger.active = false ∧ after.active = true ∧
          ((after.latest = trigger.latest ∧ after.condition = trigger.condition ∧
              after.expression = trigger.expression) ∨ next.LatestFulfils after))) := by
  rcases activate_trigger_own plant t trigger next there joined.compiled
    (fun filled => joined.wired (.inr filled)) activated with
    ⟨spent, inert⟩ | ⟨active, rfl⟩ | ⟨_, inactive, children, links, linked, between, ready, wired,
      sets, done⟩
  · obtain ⟨after, found, core⟩ := (inert.spares t).kept trigger there
    exact ⟨after, found, .inl ⟨spent, core⟩⟩
  · exact ⟨trigger, there, .inr (.inl ⟨active, rfl⟩)⟩
  · have found_linked : linked.triggers[t]? = some trigger := by rw [ready.triggers, there]
    have started := sets_there linked between t trigger _ found_linked sets
    rcases done with inert | ⟨found, evaluated⟩
    · obtain ⟨after, found, core⟩ := (inert.spares t).kept _ started
      have alike := core_alike core
      exact ⟨after, found, .inr (.inr ⟨inactive, alike.active,
        .inl ⟨alike.latest, alike.condition, alike.expression⟩⟩)⟩
    · have wired_between := wired_bound linked between sets.comparisons _ wired
      refine ⟨found.trigger, evaluated.after, .inr (.inr ⟨inactive, ?_, .inr ?_⟩)⟩
      · rw [evaluated_active t between next _ found evaluated]
        rfl
      · exact evaluated_latest_fulfils t between next _ found
          (compiled_same trigger (trigger.started children links) rfl rfl joined.compiled) wired_between
          evaluated

theorem leave_step_next (plant : Plant) (id : SequenceId) (s : Sequence)
    (held : plant.sequences[id]? = some s) : Job.next id ∈ (plant.leaveStep id).agenda := by
  simp [leaveStep, held, push]

def Left (plant : Plant) (id : SequenceId) : Prop :=
  plant.Stopped id ∧ plant.agenda.head? = some (.next id)

theorem left_next (plant : Plant) (id : SequenceId) (left : plant.Left id) :
    Job.next id ∈ plant.agenda :=
  List.mem_of_mem_head? (Option.mem_def.mpr left.2)

theorem leave_step_left (plant : Plant) (id : SequenceId) (s : Sequence)
    (held : plant.sequences[id]? = some s) (inactive : s.active = false) :
    (plant.leaveStep id).Left id := by
  have own := leave_own plant id s held
  refine ⟨?_, by simp [leaveStep, held, push]⟩
  intro after found
  rw [congrArg Course.sequence own] at found
  cases found
  exact inactive

theorem cancel_left (plant : Plant) (id : SequenceId) (s : Sequence)
    (held : plant.sequences[id]? = some s) (active : s.active = true) :
    ((plant.deactivateSequence id).leaveStep id).Left id := by
  have stopped := congrArg Course.sequence (deactivate_own plant id s held active)
  exact leave_step_left _ id s.stopped stopped rfl

theorem rearm_expression (trigger : Trigger) : trigger.rearm.expression = trigger.expression := by
  unfold Trigger.rearm
  split
  · rfl
  · rfl

theorem rearm_children (trigger : Trigger) : trigger.rearm.children = trigger.children := by
  unfold Trigger.rearm
  split
  · rfl
  · rfl

theorem rearmed_idle (trigger : Trigger) (idle : trigger.active = false) :
    trigger.rearm.active = false ∧ trigger.rearm.latest = trigger.condition.isNone ∧
      trigger.rearm.condition = trigger.condition ∧ trigger.rearm.remaining = trigger.limit := by
  rw [Trigger.rearm, if_neg (by simp [idle])]
  exact ⟨idle, rfl, rfl, rfl⟩

theorem blank_latest_fulfils (plant : Plant) (trigger : Trigger) (compiled : trigger.Compiled)
    (latest : trigger.latest = trigger.condition.isNone) : plant.LatestFulfils trigger := by
  intro shown
  obtain ⟨origin, truths, made, bound⟩ := compiled
  rw [latest, Option.isNone_iff_eq_none, bound, Option.map_eq_none_iff] at shown
  subst shown
  exact ⟨none, made, fun condition member => nomatch member⟩

theorem refused_rearms (plant : Plant) (id : SequenceId) (t : TriggerId) (s : Sequence) (task : Task)
    (trigger : Trigger) (held : plant.sequences[id]? = some s) (busy : s.task = some task)
    (waits : task.step.trigger = some t) (there : plant.triggers[t]? = some trigger)
    (idle : trigger.active = false) (refuses : plant.Refuses id t) :
    ∃ after, (plant.arm id).triggers[t]? = some after ∧ after.core = trigger.rearm.core := by
  obtain ⟨⟨same, again, active⟩, ready, found, hopeless⟩ := refuses
  cases held.symm.trans again
  rcases arm_own t plant id s task trigger held busy waits there with
    ⟨inactive, _⟩ | ⟨_, _, logged, inert, refused⟩ | ⟨_, other, again, left, activated⟩
  · rw [active] at inactive
    contradiction
  · have rearmed := rearmed_there plant t trigger there
    rw [refused]
    exact ((inert.spares t).trans (spares_cancel t logged id)).kept _ rearmed
  · cases found.symm.trans again
    rcases hopeless with spent | ⟨error, failed⟩
    · exact absurd spent left
    · rw [failed] at activated
      contradiction

theorem arm_fate (plant : Plant) (id : SequenceId) (t : TriggerId) (s : Sequence) (task : Task)
    (trigger : Trigger) (held : plant.sequences[id]? = some s) (busy : s.task = some task)
    (waits : task.step.trigger = some t) (there : plant.triggers[t]? = some trigger)
    (joined : Joined plant trigger) :
    ∃ after, (plant.arm id).triggers[t]? = some after ∧
      (((plant.arm id).Left id ∧
          (after.core = trigger.core ∨
            trigger.active = false ∧ plant.Refuses id t ∧ after.core = trigger.rearm.core)) ∨
        (Job.wait id ∈ (plant.arm id).agenda ∧ after.active = true ∧
          (after.core = trigger.core ∨ trigger.active = false ∧ (plant.arm id).LatestFulfils after))) := by
  have rearmed : (trigger.active = true ∧ (plant.rearmTrigger t).triggers[t]? = some trigger) ∨
      (trigger.active = false ∧ (plant.rearmTrigger t).triggers[t]? = some trigger.rearm ∧
        Joined (plant.rearmTrigger t) trigger.rearm) := by
    rcases rearm_trigger_own plant t trigger there with ⟨active, same⟩ | ⟨idle, sets⟩
    · rw [same]
      exact .inl ⟨active, there⟩
    · have found := sets_there plant _ t trigger _ there sets
      refine .inr ⟨idle, found, ?_⟩
      obtain ⟨_, _, condition, _⟩ := rearmed_idle trigger idle
      exact joined_same plant _ trigger _ sets.comparisons (rearm_expression trigger) condition
        (rearm_children trigger) (fun active => by simp [rearmed_idle trigger idle] at active) joined
  rcases arm_own t plant id s task trigger held busy waits there with
    ⟨inactive, left⟩ | ⟨active, refuses, logged, inert, refused⟩ | ⟨_, ready, found, left, activated⟩
  · obtain ⟨after, still, core⟩ := (spares_leave_step t plant id).kept trigger there
    rw [left]
    exact ⟨after, still, .inl ⟨leave_step_left plant id s held inactive, .inl core⟩⟩
  · have rest := (inert.spares t).trans (spares_cancel t logged id)
    have held_logged : logged.sequences[id]? = some s := by
      rw [inert.sequences, (quiet_rearm_trigger plant t).sequences, held]
    have next := cancel_left logged id s held_logged active
    rcases rearmed with ⟨_, ready⟩ | ⟨idle, _, _⟩
    · obtain ⟨after, still, core⟩ := rest.kept trigger ready
      rw [refused]
      exact ⟨after, still, .inl ⟨next, .inl core⟩⟩
    · obtain ⟨after, still, core⟩ := refused_rearms plant id t s task trigger held busy waits there
        idle refuses
      rw [refused] at still ⊢
      exact ⟨after, still, .inl ⟨next, .inr ⟨idle, refuses, core⟩⟩⟩
  · have wait : Job.wait id ∈ (plant.arm id).agenda := by
      have quiet := quiet_activate_trigger _ t ready _ activated
      rw [← course_jobs_mem _ id _ rfl, course_quiet _ _ id quiet, course_wait_pushed]
      simp
    rcases rearmed with ⟨active, there⟩ | ⟨idle, there, joined⟩
    · cases found.symm.trans there
      have same : plant.arm id = (plant.rearmTrigger t).push [.wait id] := by
        unfold activateTrigger at activated
        rw [if_neg left, if_pos active] at activated
        exact (Except.ok.inj activated).symm
      refine ⟨trigger, by rw [same]; exact there, .inr ⟨wait, active, .inl rfl⟩⟩
    · cases found.symm.trans there
      obtain ⟨off, latest, condition, _⟩ := rearmed_idle trigger idle
      have pushed : Joined ((plant.rearmTrigger t).push [.wait id]) trigger.rearm :=
        joined_bound (plant.rearmTrigger t) _ _ (bound_refl _ _ rfl) joined
      obtain ⟨after, still, fate⟩ := activate_starts ((plant.rearmTrigger t).push [.wait id]) t
        trigger.rearm _ there pushed activated
      rcases fate with ⟨spent, _⟩ | ⟨active, _⟩ | ⟨_, active, kept | shown⟩
      · exact absurd spent left
      · rw [off] at active
        contradiction
      · obtain ⟨same_latest, same_condition, same_expression⟩ := kept
        have compiled := compiled_same _ after same_expression same_condition joined.compiled
        refine ⟨after, still, .inr ⟨wait, active, .inr ⟨idle, blank_latest_fulfils _ after compiled ?_⟩⟩⟩
        rw [same_latest, same_condition, latest, condition]
      · exact ⟨after, still, .inr ⟨wait, active, .inr ⟨idle, shown⟩⟩⟩

theorem ended_halted (trigger after : Trigger) (core : after.core = trigger.halted.core) :
    Ended trigger after := by
  have alike := core_alike core
  exact ⟨alike.active, alike.latest, alike.remaining⟩

theorem ended_idle (trigger after : Trigger) (idle : trigger.active = false)
    (core : after.core = trigger.core) : Ended trigger after := by
  have alike := core_alike core
  exact ⟨alike.active.trans idle, alike.latest, alike.remaining⟩

theorem disarm_fate (plant : Plant) (id : SequenceId) (t : TriggerId) (s : Sequence) (task : Task)
    (trigger : Trigger) (held : plant.sequences[id]? = some s) (busy : s.task = some task)
    (waits : task.step.trigger = some t) (there : plant.triggers[t]? = some trigger) :
    ∃ after, (plant.disarm id).triggers[t]? = some after ∧ Ended trigger after := by
  have rest := disarm_own t plant id s task trigger held busy waits there
  rcases deactivate_trigger_own plant t trigger there with ⟨idle, same⟩ | sets
  · rw [same] at rest
    obtain ⟨after, still, core⟩ := rest.kept trigger there
    exact ⟨after, still, ended_idle trigger after idle core⟩
  · obtain ⟨after, still, core⟩ := rest.kept _ (sets_there plant _ t trigger _ there sets)
    exact ⟨after, still, ended_halted trigger after core⟩

theorem exhaust_fate (plant : Plant) (t : TriggerId) (trigger : Trigger)
    (there : plant.triggers[t]? = some trigger) :
    ∃ after, (plant.exhaust t).triggers[t]? = some after ∧ Ended trigger after := by
  rcases exhaust_own t plant trigger there with ⟨idle, inert⟩ | sets
  · obtain ⟨after, still, core⟩ := (inert.spares t).kept trigger there
    exact ⟨after, still, ended_idle trigger after idle core⟩
  · exact ⟨_, sets_there plant _ t trigger _ there sets, ended_halted trigger _ rfl⟩

theorem evaluated_fate (t : TriggerId) (plant next : Plant) (trigger : Trigger)
    (found : Trigger.Evaluation) (deed : Deed) (origin : Plant) (active : trigger.active = true)
    (joined : Joined plant trigger) (evaluated : Evaluated t plant next trigger found) :
    ∃ after, next.triggers[t]? = some after ∧ Fate t origin deed next trigger after := by
  refine ⟨found.trigger, evaluated.after, .heard active ?_ ?_⟩
  · rw [evaluated_active t plant next trigger found evaluated, active]
  · exact evaluated_latest_fulfils t plant next trigger found joined.compiled (joined.wired (.inl active)) evaluated

theorem spared_fate (t : TriggerId) (plant next : Plant) (trigger : Trigger) (deed : Deed)
    (origin : Plant) (there : plant.triggers[t]? = some trigger) (spares : Spares t plant next) :
    ∃ after, next.triggers[t]? = some after ∧ Fate t origin deed next trigger after := by
  obtain ⟨after, found, core⟩ := spares.kept trigger there
  exact ⟨after, found, .same core⟩

theorem execute_fate (t : TriggerId) (plant : Plant) (command : Command) (trigger : Trigger)
    (there : plant.triggers[t]? = some trigger) (joined : Joined plant trigger)
    (unspoiled : ¬ plant.Spoils t command) :
    ∃ after, (plant.execute command).2.triggers[t]? = some after ∧
      (after.core = trigger.core ∨ plant.Drives t command ∧ after.active = true) := by
  by_cases driven : plant.Drives t command
  · cases command with
    | trigger command =>
        cases command with
        | activate name =>
            have driving := driven
            obtain ⟨found, reached⟩ := driven
            cases there.symm.trans (found_there _ _ name t found reached)
            rw [execute, onTrigger, reached]
            dsimp only
            split
            · rename_i next activated
              obtain ⟨after, still, fate⟩ := activate_starts plant t trigger next there joined activated
              refine ⟨after, still, ?_⟩
              rcases fate with ⟨_, core⟩ | ⟨_, core⟩ | ⟨_, active, _⟩
              · exact .inl core
              · exact .inl core
              · exact .inr ⟨driving, active⟩
            · exact ⟨trigger, there, .inl rfl⟩
        | deactivate | rearm | evaluate => exact absurd driven unspoiled
        | make | state | drop | watch | look => exact driven.elim
    | var | comparison | channel | device | sequence | workspace | subscribe | unsubscribe =>
        exact driven.elim
  · obtain ⟨after, still, core⟩ := (spares_execute t plant command driven).kept trigger there
    exact ⟨after, still, .inl core⟩

theorem run_command_triggers (plant : Plant) (label : String) (command : Command) :
    (plant.runCommand label command).triggers = (plant.execute command).2.triggers := by
  obtain ⟨_, _, _, same⟩ := run_command_next plant label command
  rw [same]

theorem job_fate (t : TriggerId) (plant : Plant) (job : Job) (rest : List Job) (trigger : Trigger)
    (agenda : plant.agenda = job :: rest) (there : plant.triggers[t]? = some trigger)
    (joined : Joined plant trigger)
    (unspoiled : ∀ command ∈ plant.order? .job, ¬ plant.Spoils t command) :
    ∃ after, ({ plant with agenda := rest }.perform job).triggers[t]? = some after ∧
      Fate t plant .job ({ plant with agenda := rest }.perform job) trigger after := by
  have performs : plant.Performs .job job := ⟨rfl, rest, agenda⟩
  have joined_popped := joined_agenda plant rest trigger joined
  generalize popped : { plant with agenda := rest } = ready at joined_popped
  have there_ready : ready.triggers[t]? = some trigger := by rw [← popped]; exact there
  by_cases touched : ready.Touches t job
  · cases job with
    | deliver listener notification =>
        cases listener with
        | trigger other =>
            cases touched
            rcases hear_own ready t trigger notification.stamp there_ready with
              inert | ⟨active, found, evaluated⟩
            · exact spared_fate t ready _ trigger .job plant there_ready (inert.spares t)
            · exact evaluated_fate t ready _ trigger found .job plant active joined_popped evaluated
        | observer | comparison | follower => exact touched.elim
    | exhaust other =>
        cases touched
        obtain ⟨after, still, ended⟩ := exhaust_fate ready t trigger there_ready
        exact ⟨after, still, .exhausted performs ended⟩
    | arm id =>
        have holds : plant.Holds id t := by rw [← popped] at touched; exact touched
        obtain ⟨s, task, held, busy, waits⟩ := holds_found t ready id touched
        obtain ⟨after, still, fate⟩ := arm_fate ready id t s task trigger held busy waits there_ready
          joined_popped
        refine ⟨after, still, ?_⟩
        rcases fate with ⟨_, core | ⟨idle, refuses, core⟩⟩ | ⟨wait, active, core | ⟨idle, shown⟩⟩
        · exact .same core
        · rw [← popped] at refuses
          exact .refused id rest ⟨rfl, agenda⟩ holds idle refuses core
        · exact .same core
        · exact .armed id performs holds idle active shown wait
    | disarm id =>
        have holds : plant.Holds id t := by rw [← popped] at touched; exact touched
        obtain ⟨s, task, held, busy, waits⟩ := holds_found t ready id touched
        obtain ⟨after, still, ended⟩ := disarm_fate ready id t s task trigger held busy waits there_ready
        exact ⟨after, still, .disarmed id performs holds ended⟩
    | command label command =>
        have ordered : command ∈ plant.order? .job := by simp [order?, agenda]
        obtain ⟨after, still, fate⟩ := execute_fate t ready command trigger there_ready joined_popped
          (by rw [← popped]; exact unspoiled command ordered)
        refine ⟨after, (congrArg (fun triggers => triggers[t]?)
          (run_command_triggers ready label command)).trans still, ?_⟩
        rcases fate with core | ⟨driven, active⟩
        · exact .same core
        · exact .driven command ordered (by rw [← popped] at driven; exact driven) active
    | tell | leave | conclude | write | settleDown | keepSubscription | closeRun | announce | begin
    | act | wait | next | complete => exact touched.elim
  · exact spared_fate t ready _ trigger .job plant there_ready (spares_perform t ready job touched)

theorem fate_spared (t : TriggerId) (plant between next : Plant) (deed : Deed)
    (trigger after later : Trigger) (core : later.core = after.core) (still : Still between next)
    (bound : Bound between next) (fate : Fate t plant deed between trigger after) :
    Fate t plant deed next trigger later := by
  have alike := core_alike core
  have shown : between.LatestFulfils after → next.LatestFulfils later := fun shown latest =>
    fulfils_same between next after later core still.values bound (shown (alike.latest ▸ latest))
  cases fate with
  | same first => exact .same (core.trans first)
  | heard listens active found => exact .heard listens (alike.active.trans active) (shown found)
  | armed id performs holds idle active found waits =>
      exact .armed id performs holds idle (alike.active.trans active) (shown found)
        (by rw [still.agenda]; exact waits)
  | driven command ordered drives active =>
      exact .driven command ordered drives (alike.active.trans active)
  | exhausted performs ended =>
      exact .exhausted performs ⟨alike.active.trans ended.idle, alike.latest.trans ended.latest,
        alike.remaining.trans ended.remaining⟩
  | disarmed id performs holds ended =>
      exact .disarmed id performs holds ⟨alike.active.trans ended.idle,
        alike.latest.trans ended.latest, alike.remaining.trans ended.remaining⟩
  | refused id rest agenda holds idle refuses first =>
      exact .refused id rest agenda holds idle refuses (core.trans first)

theorem move_fate (t : TriggerId) (plant next : Plant) (deed : Deed) (move : Move plant deed next)
    (trigger : Trigger) (there : plant.triggers[t]? = some trigger) (joined : Joined plant trigger)
    (unspoiled : ∀ command ∈ plant.order? deed, ¬ plant.Spoils t command) :
    ∃ between after, between.triggers[t]? = some after ∧ Fate t plant deed between trigger after ∧
      (next = between.retire ∨ next = between) := by
  cases move with
  | job _ stepped =>
      obtain ⟨job, rest, agenda, rfl⟩ := worked_off stepped
      obtain ⟨after, still, fate⟩ := job_fate t plant job rest trigger agenda there joined unspoiled
      exact ⟨_, after, still, fate, .inl rfl⟩
  | call command =>
      obtain ⟨after, still, fate⟩ := execute_fate t plant command trigger there joined
        (unspoiled command rfl)
      refine ⟨_, after, still, ?_, .inl rfl⟩
      rcases fate with core | ⟨driven, active⟩
      · exact .same core
      · exact .driven command rfl driven active
  | turn runner =>
      obtain ⟨after, still, fate⟩ := spared_fate t plant _ trigger (.turn runner) plant there
        (spares_turn t plant runner)
      exact ⟨_, after, still, fate, .inl rfl⟩
  | dispatch change => exact ⟨plant.dispatch change, trigger, there, .same rfl, .inr rfl⟩

theorem retire_fate (plant : Plant) (t : TriggerId) (trigger : Trigger)
    (there : plant.triggers[t]? = some trigger) :
    ∃ after, plant.retire.triggers[t]? = some after ∧
      (after.core = trigger.core ∨ Ended trigger after) := by
  refine retire_keeps (fun next => ∃ after, next.triggers[t]? = some after ∧
    (after.core = trigger.core ∨ Ended trigger after)) ?_ ?_ ?_ plant ⟨trigger, there, .inl rfl⟩
  · rintro next id ⟨after, found, kept⟩ _
    by_cases own : id = t
    · subst own
      rcases deactivate_trigger_own next id after found with ⟨_, still⟩ | sets
      · rw [still]
        exact ⟨after, found, kept⟩
      · refine ⟨_, sets_there next _ id after _ found sets, .inr ?_⟩
        rcases kept with core | ended
        · have alike := core_alike core
          exact ⟨rfl, alike.latest, alike.remaining⟩
        · exact ⟨rfl, ended.latest, ended.remaining⟩
    · obtain ⟨later, still, same⟩ := (spares_deactivate_trigger t next id own).kept after found
      have alike := core_alike same
      refine ⟨later, still, kept.imp same.trans ?_⟩
      intro ended
      exact ⟨alike.active.trans ended.idle, alike.latest.trans ended.latest,
        alike.remaining.trans ended.remaining⟩
  · rintro next id ⟨after, found, kept⟩
    rw [(inert_deactivate_comparison next id).triggers]
    exact ⟨after, found, kept⟩
  · rintro next id ⟨after, found, kept⟩
    rw [(inert_deactivate_device next id).triggers]
    exact ⟨after, found, kept⟩

theorem sound_holds (plant : Plant) (id : SequenceId) (t : TriggerId)
    (sound : (plant.course id).Sound id) (holds : plant.Holds id t) :
    ∃ s task, plant.sequences[id]? = some s ∧ s.task = some task ∧ task.step.trigger = some t ∧
      s.inFlight = true := by
  obtain ⟨s, task, held, busy, waits⟩ := holds_found t plant id holds
  have station := (sound_held id _ s held).mp sound
  refine ⟨s, task, held, busy, waits, ?_⟩
  rw [busy] at station
  cases flies : s.inFlight with
  | true => rfl
  | false =>
      rw [flies] at station
      have idle := (station_idle station).1
      contradiction

theorem retire_spares (plant : Plant) (id : SequenceId) (t : TriggerId)
    (sound : (plant.retire.course id).Sound id) (holds : plant.retire.Holds id t) :
    Spares t plant plant.retire := by
  obtain ⟨s, task, held, busy, waits, flies⟩ := sound_holds plant.retire id t sound holds
  rw [retire_sequences] at held
  exact retire_spares_held plant id t s task held busy waits flies

theorem held_fate (t : TriggerId) (plant next : Plant) (deed : Deed) (move : Move plant deed next)
    (trigger : Trigger) (there : plant.triggers[t]? = some trigger) (joined : Joined plant trigger)
    (unspoiled : ∀ command ∈ plant.order? deed, ¬ plant.Spoils t command) (id : SequenceId)
    (sound : (next.course id).Sound id) (holds : next.Holds id t) :
    ∃ after, next.triggers[t]? = some after ∧ Fate t plant deed next trigger after := by
  obtain ⟨between, after, found, fate, rfl | rfl⟩ :=
    move_fate t plant next deed move trigger there joined unspoiled
  · have spares := retire_spares between id t sound holds
    obtain ⟨later, still, core⟩ := spares.kept after found
    exact ⟨later, still, fate_spared t plant between _ deed trigger after later core
      (still_retire between) spares.comparisons fate⟩
  · exact ⟨after, found, fate⟩

theorem at_trigger_stays (plant : Plant) (id : SequenceId) (t : TriggerId)
    (here : plant.IsAtTrigger id t) : Job.next id ∉ plant.agenda := by
  intro member
  rcases at_trigger_jobs plant id t here _ rfl member with same | same <;> contradiction

theorem lone_arm (plant : Plant) (id : SequenceId) (t : TriggerId)
    (missing : plant.triggers[t]? = none) (holds : plant.Holds id t) :
    Job.next id ∈ (plant.arm id).agenda := by
  obtain ⟨s, task, held, busy, waits⟩ := holds_found t plant id holds
  rw [arm, current_missing_trigger t plant id missing holds]
  exact leave_step_next plant id s held

theorem arrival_active (t : TriggerId) (plant next : Plant) (id : SequenceId) (rest : List Job)
    (move : Move plant .job next) (agenda : plant.agenda = .arm id :: rest)
    (sound : (next.course id).Sound id) (joined : plant.JoinedAt t) (arming : plant.IsArming id t)
    (there : next.IsAtTrigger id t) :
    ∃ after, next.triggers[t]? = some after ∧ after.active = true := by
  have stepped : next = ({ plant with agenda := rest }.arm id).retire := by
    cases move with
    | job _ stepped =>
        rw [stepJob?, agenda] at stepped
        exact (Option.some.inj stepped).symm
  subst stepped
  have held : plant.Holds id t := arming_holds id t _ arming
  have holds : Plant.Holds { plant with agenda := rest } id t := held
  have stays := at_trigger_stays _ id t there
  have spares := retire_spares _ id t sound (at_trigger_holds id t _ there)
  rw [(still_retire _).agenda] at stays
  generalize popped : { plant with agenda := rest } = ready at stays spares holds ⊢
  cases found : ready.triggers[t]? with
  | none => exact absurd (lone_arm ready id t found holds) stays
  | some trigger =>
      have known : plant.triggers[t]? = some trigger := by rw [← popped] at found; exact found
      have joined_ready : Joined ready trigger := by
        rw [← popped]
        exact joined_agenda plant rest trigger (joined trigger known)
      obtain ⟨s, task, held, busy, waits⟩ := holds_found t ready id holds
      obtain ⟨after, still, fate⟩ := arm_fate ready id t s task trigger held busy waits found
        joined_ready
      rcases fate with ⟨left, _⟩ | ⟨_, active, _⟩
      · exact absurd (left_next _ id left) stays
      · obtain ⟨later, found_later, core⟩ := spares.kept after still
        exact ⟨later, found_later, (core_alike core).active.trans active⟩

theorem joined_move (t : TriggerId) (plant next : Plant) (deed : Deed) (move : Move plant deed next)
    (joined : plant.JoinedAt t) (unspoiled : ∀ command ∈ plant.order? deed, ¬ plant.Spoils t command) :
    next.JoinedAt t := by
  have keeps := joined_kept t
  cases move with
  | job _ stepped =>
      obtain ⟨job, rest, agenda, rfl⟩ := worked_off stepped
      have popped : JoinedAt { plant with agenda := rest } t := fun trigger there =>
        joined_agenda plant rest trigger (joined trigger there)
      refine retire_keeps_trigger keeps _ (perform_keeps keeps _ job popped ?_ ?_ ?_)
      · rintro label command rfl
        exact unspoiled command (by simp [order?, agenda])
      · exact fun id trigger next _ there idle sets =>
          joined_rearms t _ next trigger popped there idle sets
      · exact fun notification trigger found _ there _ evaluated =>
          joined_evaluated t _ _ trigger found popped there evaluated
  | call command =>
      exact retire_keeps_trigger keeps _ (execute_keeps keeps plant command joined (unspoiled command rfl))
  | turn runner =>
      exact retire_keeps_trigger keeps _ (joined_spares t plant _ joined (spares_turn t plant runner))
  | dispatch change => exact joined_spares t plant _ joined ((inert_dispatch plant change).spares t)

end Interlock.Plant
