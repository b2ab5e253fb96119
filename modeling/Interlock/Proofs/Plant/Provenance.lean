import Interlock.Proofs.Plant.Ownership

/-!
Where names and children come from. No command and no job gives away what belongs to a trigger, and none
wakes a comparison that has neither a name nor a trigger.
-/

set_option autoImplicit false

namespace Interlock.Plant

open Interlock.Calendar (Instant)
open Interlock.Graph
open Interlock.Schedule
open Interlock.Session

section

variable {plant next : Plant}

theorem VariableCall.reflects {command : VariableCommand} (call : plant.VariableCall command next) :
    Reflects plant next := by
  cases call with
  | idle => exact .refl plant
  | make => exact reflects_same rfl rfl rfl
  | set => exact reflects_assign plant _ _ _
  | follow =>
      exact (reflects_calm (calm_follow plant _ _)).renamed _ (fun _ member => .inl member) fun _ led => .inl led
  | refuse => exact reflects_calm (calm_follow plant _ _)

theorem ComparisonCall.reflects {command : ComparisonCommand} (call : plant.ComparisonCall command next) :
    Reflects plant next := by
  cases call with
  | idle => exact .refl plant
  | make name expression c between made =>
      obtain ⟨reflects, _, new⟩ := made_comparison_reflects _ expression c made
      refine reflects.renamed _ (fun other member => ?_) fun _ led => .inl led
      rcases Directory.inserted_ids _ _ _ _ member with rfl | old
      · exact .inr (Nat.le_of_eq new.symm)
      · exact .inl old
  | activate name c comparison found =>
      exact reflects_begins_only (begins_only_activate_comparison [c] c List.mem_cons_self)
        fun other member => List.mem_singleton.mp member ▸ found_known _ _ name c comparison found
  | deactivate => exact reflects_deactivate_comparison plant _
  | refresh name c comparison found =>
      have read : Reflects plant plant.readClock.2 := reflects_same rfl rfl rfl
      have there : plant.readClock.2.comparisons[c]? = some comparison := found_there _ _ name c comparison found
      exact read.trans (reflects_refresh c comparison there _)
  | drop name =>
      exact (Reflects.refl plant).renamed _ (fun _ member => .inl (Directory.removed_ids _ name _ member))
        fun _ led => .inl led

theorem TriggerCall.reflects {command : TriggerCommand} (call : plant.TriggerCall command next) :
    Reflects plant next := by
  cases call with
  | idle => exact .refl plant
  | make name expression times verbose t trigger between made there =>
      obtain ⟨reflects, _, new, inside⟩ := make_trigger_reflects _ expression times t made
      have set := reflects.trans (reflects_set_trigger t trigger { trigger with verbose := verbose } there rfl)
      refine set.renamed _ (fun _ member => .inl member) fun other led => ?_
      have count : (between.setTrigger t { trigger with verbose := verbose }).triggers.length =
          between.triggers.length := List.length_set
      rcases led with named | step
      · rcases Directory.inserted_ids _ _ _ _ named with rfl | old
        · exact .inr ⟨Nat.le_of_eq new.symm, Nat.lt_of_lt_of_eq inside count.symm⟩
        · exact .inl (.inl old)
      · exact .inl (.inr step)
  | activate name t trigger _ found activated =>
      exact activate_trigger_reflects t trigger (found_there _ _ name t trigger found) activated
  | deactivate => exact reflects_deactivate_trigger plant _
  | rearm => exact reflects_rearm_trigger plant _
  | evaluate name t trigger found => exact reflects_evaluate_now t trigger (found_there _ _ name t trigger found)
  | drop name =>
      exact (Reflects.refl plant).renamed _ (fun _ member => .inl member) fun t led =>
        .inl (led.imp_left fun member => Directory.removed_ids _ name t member)
  | receive => exact reflects_calm (calm_same _ _ rfl)

theorem make_step_reflects (table : TableId) (part : Config.Step) (step : Step)
    (made : plant.makeStep table part = .ok (step, next)) :
    Reflects plant next ∧ next.desk = plant.desk ∧
      ∀ t, step.trigger = some t → plant.triggers.length ≤ t ∧ t < next.triggers.length := by
  obtain ⟨rfl, none⟩ | ⟨expression, t, built, own⟩ := step_made made
  · exact ⟨.refl _, rfl, fun t waits => absurd (none.symm.trans waits) (Option.some_ne_none t).symm⟩
  · obtain ⟨reflects, desk, new, inside⟩ := make_trigger_reflects table expression 1 t built
    refine ⟨reflects, desk, fun other waits => ?_⟩
    cases own.symm.trans waits
    exact ⟨Nat.le_of_eq new.symm, inside⟩

theorem make_steps_reflect (table : TableId) (parts : List Config.Step) (steps : List Step)
    (made : plant.makeSteps table parts = .ok (steps, next)) :
    Reflects plant next ∧ next.desk = plant.desk ∧ ∀ step ∈ steps, ∀ t, step.trigger = some t →
      plant.triggers.length ≤ t ∧ t < next.triggers.length := by
  induction parts generalizing plant steps with
  | nil =>
      cases made
      exact ⟨.refl _, rfl, by simp⟩
  | cons part rest ih =>
      obtain ⟨step, between, others, first, later, rfl⟩ := steps_made made
      obtain ⟨reflects, desk, own⟩ := make_step_reflects table part step first
      obtain ⟨more, kept, behind⟩ := ih others later
      refine ⟨reflects.trans more, kept.trans desk, fun other member t waits => ?_⟩
      rcases List.mem_cons.mp member with rfl | follows
      · obtain ⟨new, inside⟩ := own t waits
        exact ⟨new, Nat.lt_of_lt_of_le inside more.triggers⟩
      · obtain ⟨new, inside⟩ := behind other follows t waits
        exact ⟨Nat.le_trans reflects.triggers new, inside⟩

theorem make_schedule_reflects (table : TableId) (registry : RegistryId)
    (procedure : Config.Procedure) (pollInterval : Nat) (scheduled : Scheduled)
    (made : plant.makeSchedule table registry procedure pollInterval = .ok (scheduled, next)) :
    Reflects plant next ∧ next.desk = plant.desk ∧ ∃ part steps between,
      procedure.activeSequence? = some part ∧ plant.makeSteps table part.steps = .ok (steps, between) ∧
        ∀ step ∈ steps, ∀ t, step.trigger = some t →
          plant.triggers.length ≤ t ∧ t < next.triggers.length := by
  obtain ⟨part, steps, between, details, chosen, found, _, rfl⟩ := schedule_made made
  obtain ⟨built, desk, new⟩ := make_steps_reflect table part.steps steps found
  exact ⟨built.calm (calm_same _ _ rfl), desk, part, steps, between, chosen, found, new⟩

theorem reflects_make_variables (table : TableId) (registry : RegistryId)
    (verbose : Bool) (parts : List Config.Variable) (plant : Plant) :
    Reflects plant (plant.makeVariables table registry verbose parts).2 :=
  variables_keep (Reflects plant) table registry verbose
    (fun _ _ _ reflects => reflects.trans (reflects_same rfl rfl rfl))
    (fun next v c reflects => reflects.calm (calm_follow next v c))
    (fun _ _ _ reflects => reflects.calm (calm_same _ _ rfl)) parts plant (.refl plant)

theorem reflects_make_workspace (plant : Plant) (config : Config) :
    Reflects plant (plant.makeWorkspace config).2 :=
  workspace_keep (Reflects plant) config (fun _ reflects => reflects.calm (calm_same _ _ rfl))
    (fun next registry reflects => reflects.calm (calm_make_devices next registry _ _))
    (fun next registry part reflects => reflects.calm (calm_make_channel next registry _ part))
    (fun next table registry reflects => reflects.trans (reflects_make_variables table registry _ _ next))
    (fun _ _ _ _ _ reflects => reflects.calm (calm_same _ _ rfl)) plant (.refl plant)

theorem SequenceCall.reflects {command : SequenceCommand} (call : plant.SequenceCall command next) :
    Reflects plant next := by
  obtain calm | ⟨name, config, step, between, made, rfl⟩ := call.calm
  · exact reflects_calm calm
  · obtain ⟨reflects, _, new⟩ := make_step_reflects _ config step made
    refine reflects.renamed _ (fun _ member => .inl member) fun t led => ?_
    rcases led with named | ⟨entry, member, waits⟩
    · exact .inl (.inl named)
    · rcases List.mem_cons.mp member with rfl | old
      · exact .inr (new t waits)
      · exact .inl (.inr ⟨entry, List.filter_sublist.subset old, waits⟩)

theorem WorkspaceCall.reflects {command : WorkspaceCommand} (call : plant.WorkspaceCall command next) :
    Reflects plant next := by
  cases call with
  | idle => exact .refl plant
  | fail document config => exact reflects_make_workspace plant config
  | make document config => exact (reflects_make_workspace plant config).calm (calm_same _ _ rfl)
  | start devices _ started => exact reflects_calm (calm_start_devices plant devices next started)
  | shutdown devices => exact reflects_calm (calm_foldl disposeDevice calm_dispose_device devices plant)
  | schedule name config pollInterval scheduled between made =>
      exact (make_schedule_reflects _ _ config pollInterval scheduled made).1.calm (calm_same _ _ rfl)
  | startSchedule scheduled _ activated => exact reflects_calm (calm_activate plant _ next activated)

theorem reflects_subscribe (plant : Plant) (publisher : Publisher) (listener : Listener) :
    Reflects plant (plant.subscribe publisher listener).2 := by
  have issued : Reflects plant plant.issueTicket.2 := reflects_same rfl rfl rfl
  cases publisher with
  | channel id => exact reflects_calm (calm_subscribe_channel plant id listener)
  | node node =>
      cases node with
      | var v =>
          rw [subscribe]
          rcases subscribe_variable_found plant v listener with ⟨made, _⟩ | ⟨var, there, made⟩
          · rw [made]
            exact .refl plant
          · rw [made]
            exact issued.trans (reflects_same rfl rfl rfl)
      | comparison c =>
          rw [subscribe]
          rcases subscribe_comparison_found plant c listener with ⟨made, _⟩ | ⟨comparison, there, made⟩
          · rw [made]
            exact .refl plant
          · rw [made]
            have found : plant.issueTicket.2.comparisons[c]? = some comparison := there
            exact issued.trans (reflects_set_comparison c comparison _ found id)
      | trigger t =>
          rw [subscribe]
          rcases subscribe_trigger_found plant t listener with made | ⟨trigger, there, made⟩
          · rw [made]
            exact .refl plant
          · rw [made]
            have found : plant.issueTicket.2.triggers[t]? = some trigger := there
            exact issued.trans (reflects_set_trigger t trigger _ found rfl)

theorem Joining.reflects {id : String} {handler : Option String} {times : Nat} {script : List Command}
    (call : plant.Joining id handler times script next) : Reflects plant next := by
  have joining (publisher : Publisher) (observer : ObserverId) (between : Plant)
      (made : plant.observerFor publisher id handler times script = some (observer, between)) :
      Reflects plant (between.subscribe publisher (.observer observer)).2 :=
    (reflects_calm (calm_observer_for plant publisher id handler times script observer made)).trans
      (reflects_subscribe between publisher (.observer observer))
  cases call with
  | idle => exact .refl plant
  | refuse publisher observer between made => exact joining publisher observer between made
  | join publisher observer between ticket made =>
      exact (joining publisher observer between made).trans (reflects_same rfl rfl rfl)

theorem SubscribeCall.reflects {id : String} {handler : Option String} {times : Nat} {script : List Command}
    (call : plant.SubscribeCall id handler times script next) : Reflects plant next := by
  cases call with
  | once _ first => exact first.reflects
  | again publisher between first => exact first.reflects.calm (calm_send_again between publisher)

theorem UnsubscribeCall.reflects {id : String} (call : plant.UnsubscribeCall id next) : Reflects plant next := by
  cases call with
  | idle => exact .refl plant
  | leave publisher ticket =>
      cases publisher with
      | channel channel => exact reflects_calm (calm_unsubscribe_channel plant channel ticket)
      | node node =>
          cases node with
          | var v =>
              dsimp only [unsubscribe]
              rw [unsubscribeVariable]
              split <;> exact reflects_same rfl rfl rfl
          | comparison c =>
              dsimp only [unsubscribe]
              rw [unsubscribeComparison]
              split
              · exact .refl plant
              · next comparison there => exact reflects_set_comparison c comparison _ there fun active => active
          | trigger t =>
              dsimp only [unsubscribe]
              rw [unsubscribeTrigger]
              split
              · exact .refl plant
              · next trigger there => exact reflects_set_trigger t trigger _ there rfl

theorem reflects_execute (plant : Plant) (command : Command) :
    Reflects plant (plant.execute command).2 := by
  cases command with
  | var command => exact (plant.variable_call command).reflects
  | comparison command => exact (plant.comparison_call command).reflects
  | trigger command => exact (plant.trigger_call command).reflects
  | channel command => exact reflects_calm (plant.channel_call command).calm
  | device command => exact reflects_calm (plant.device_call command).calm
  | sequence command => exact (plant.sequence_call command).reflects
  | workspace command => exact (plant.workspace_call command).reflects
  | subscribe id source name handler sendNow times script =>
      exact (plant.subscribe_call id source name handler sendNow times script).reflects
  | unsubscribe id => exact (plant.unsubscribe_call id).reflects

theorem reflects_hear_variable (plant : Plant) (c : ComparisonId) (stamp : Instant) :
    Reflects plant (plant.hearVariable c stamp) := by
  rw [hearVariable]
  split
  · exact .refl plant
  · next comparison there =>
      split
      · exact reflects_refresh c comparison there stamp
      · exact .refl plant

theorem reflects_hear (plant : Plant) (t : TriggerId) (stamp : Instant) :
    Reflects plant (plant.hear t stamp) := by
  obtain same | ⟨trigger, there, _, _, same | ⟨details, same⟩⟩ := plant.hear_cases t stamp <;> rw [same]
  · exact .refl plant
  · exact reflects_evaluate t trigger there stamp
  · exact (reflects_evaluate t trigger there stamp).calm (calm_same _ _ rfl)

theorem reflects_take_over (plant : Plant) (v : VariableId) (source : String) (event : Event) :
    Reflects plant (plant.takeOver v source event) := by
  obtain same | ⟨var, value, _, _, _, same | ⟨details, same⟩⟩ := plant.take_over_cases v source event <;> rw [same]
  · exact .refl plant
  · exact reflects_assign plant v var value
  · exact (reflects_assign plant v var value).calm (calm_same _ _ rfl)

theorem reflects_exhaust (plant : Plant) (t : TriggerId) : Reflects plant (plant.exhaust t) := by
  rw [exhaust]
  split
  · exact .refl plant
  · next trigger _ =>
      have logged : Reflects plant (plant.log .trigger .debug "Repeat count reached zero"
        [("trigger", .text trigger.expression)]) := reflects_same rfl rfl rfl
      exact logged.trans (reflects_deactivate_trigger _ t)

theorem reflects_arm (plant : Plant) (id : SequenceId) : Reflects plant (plant.arm id) := by
  have taken := plant.arm_case id
  generalize plant.arm id = next at taken ⊢
  cases taken with
  | leave => exact reflects_calm (calm_leave_step plant id)
  | refuse s t => exact (reflects_rearm_trigger plant t).calm ((calm_cancel _ id).behind rfl)
  | engage s t trigger started _ _ _ there _ activated =>
      have waits := calm_push (plant.rearmTrigger t) [.wait id] (by simp [Job.kept?])
      exact ((reflects_rearm_trigger plant t).calm waits).trans (activate_trigger_reflects t started there activated)

theorem reflects_disarm (plant : Plant) (id : SequenceId) : Reflects plant (plant.disarm id) := by
  have taken := plant.disarm_case id
  generalize plant.disarm id = next at taken ⊢
  cases taken with
  | leave => exact reflects_calm (calm_leave_step plant id)
  | unmet s t => exact (reflects_deactivate_trigger plant t).calm (calm_leave_step _ id)
  | satisfied s t => exact (reflects_deactivate_trigger plant t).calm ((calm_leave_step _ id).behind rfl)

theorem reflects_perform (plant : Plant) (job : Job) : Reflects plant (plant.perform job) := by
  cases job with
  | deliver listener notification =>
      cases listener with
      | comparison c => exact reflects_hear_variable plant c notification.stamp
      | trigger t => exact reflects_hear plant t notification.stamp
      | observer id =>
          rw [perform, deliver]
          split
          · exact .refl plant
          · exact reflects_calm ((calm_script_of _ id _).behind rfl)
      | follower v source => exact .refl plant
  | tell listener event =>
      cases listener with
      | observer id =>
          rw [perform, tell]
          split
          · exact .refl plant
          · exact reflects_calm ((calm_script_of _ id _).behind rfl)
      | follower v source => exact reflects_take_over plant v source event
      | comparison | trigger => exact .refl plant
  | exhaust t => exact reflects_exhaust plant t
  | command label command =>
      obtain ⟨jobs, _, _, same⟩ := run_command_next plant label command
      rw [perform, same]
      exact (reflects_execute plant command).trans (reflects_same rfl rfl rfl)
  | keepSubscription name subscription =>
      exact (Reflects.refl plant).renamed _ (fun _ member => .inl member) fun _ led => .inl led
  | arm id => exact reflects_arm plant id
  | disarm id => exact reflects_disarm plant id
  | leave node => exact .refl plant
  | conclude | closeRun | announce => exact reflects_same rfl rfl rfl
  | write id value => exact reflects_calm (calm_write plant id value)
  | settleDown id => exact reflects_calm (calm_settle_down plant id)
  | begin id => exact reflects_calm (calm_begin plant id)
  | act id actions => exact reflects_calm (calm_act plant id actions)
  | wait id => exact reflects_calm (calm_wait plant id)
  | next id => exact reflects_calm (calm_next plant id)
  | complete id => exact reflects_calm (calm_complete plant id)

theorem reflects_retire (plant : Plant) : Reflects plant plant.retire := by
  refine retire_keeps (Reflects plant) ?_ ?_ ?_ plant (.refl plant)
  · exact fun middle id reflects _ => reflects.trans (reflects_deactivate_trigger middle id)
  · exact fun middle id reflects => reflects.trans (reflects_deactivate_comparison middle id)
  · exact fun middle id reflects => reflects.calm (calm_deactivate_device middle id)

theorem reflects_move (deed : Deed) (move : Move plant deed next) : Reflects plant next := by
  cases move with
  | job next stepped =>
      obtain ⟨job, rest, agenda, rfl⟩ := worked_off stepped
      have popped : Reflects plant { plant with agenda := rest } := reflects_same rfl rfl rfl
      exact popped.trans ((reflects_perform _ job).trans (reflects_retire _))
  | call command => exact (reflects_execute plant command).trans (reflects_retire _)
  | turn runner => exact (reflects_calm (calm_turn plant runner)).trans (reflects_retire _)
  | dispatch change => exact reflects_same rfl rfl rfl

theorem reflects_moves (moves : Moves plant next) : Reflects plant next := by
  induction moves with
  | refl => exact .refl plant
  | tail _ last ih =>
      obtain ⟨deed, move⟩ := last
      exact ih.trans (reflects_move deed move)

end

end Interlock.Plant
