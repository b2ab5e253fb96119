import Interlock.Proofs.Plant.Propagation

/-!
What a variable's value outlasts. Nothing but an assignment changes the value of a variable.
-/

set_option autoImplicit false

namespace Interlock.Plant

open Interlock.Calendar (Instant)
open Interlock.Graph
open Interlock.Schedule (SequenceId Step RegistryId)
open Interlock.Session

def Endures (plant next : Plant) : Prop :=
  ∀ v value, plant.valueOf v = some value → next.valueOf v = some value

section

variable {plant middle next : Plant}

theorem endures_values (same : next.valueOf = plant.valueOf) : Endures plant next :=
  fun v value held => by rw [same, held]

theorem endures_vars (same : next.vars = plant.vars) : Endures plant next :=
  fun v value held => by rw [valueOf, same, ← valueOf, held]

theorem Endures.refl (plant : Plant) : Endures plant plant := endures_values rfl

theorem Endures.trans (first : Endures plant middle) (second : Endures middle next) : Endures plant next :=
  fun v value held => second v value (first v value held)

theorem Endures.then_same (first : Endures plant middle) (same : next.vars = middle.vars) : Endures plant next :=
  first.trans (endures_vars same)

theorem Endures.behind (second : Endures middle next) (same : middle.vars = plant.vars) : Endures plant next :=
  (endures_vars same).trans second

theorem Calm.endures (calm : Calm plant next) : Endures plant next := endures_vars calm.vars

theorem Hushed.endures (hushed : Hushed plant next) : Endures plant next := endures_values hushed.values

theorem endures_add_variable (plant : Plant) (var : Variable) : Endures plant (plant.addVariable var).2 := by
  intro v value held
  obtain ⟨found, there, same⟩ := Option.map_eq_some_iff.mp held
  exact Option.map_eq_some_iff.mpr ⟨found, List.getElem?_append_left
    (List.getElem?_eq_some_iff.mp there).1 ▸ there, same⟩

theorem endures_subscribe_variable (plant : Plant) (v : VariableId) (listener : Listener) :
    Endures plant (plant.subscribeVariable v listener).2 := by
  unfold subscribeVariable
  split
  · exact .refl plant
  · next var there =>
    split
    · exact .refl plant
    · exact endures_values (values_set_variable v var _ there rfl)

theorem endures_evaluate (plant : Plant) (t : TriggerId) (trigger : Trigger) (stamp : Instant) :
    Endures plant (plant.evaluate t trigger stamp).2 := by
  unfold evaluate
  split
  · exact .refl plant
  · next found _ =>
    obtain ⟨change, woken⟩ := wake_waiting_dispatch (plant.setTrigger t found.trigger) t
    rw [woken]
    dsimp only
    split <;> exact endures_vars rfl

theorem endures_evaluate_now (plant : Plant) (t : TriggerId) (trigger : Trigger) :
    Endures plant (plant.evaluateNow t trigger).2 := endures_evaluate plant.readClock.2 t trigger _

theorem endures_make_comparison (table : TableId) (text : String) (c : ComparisonId)
    (made : plant.makeComparison table text = .ok (c, next)) : Endures plant next := by
  obtain ⟨_, _, _, rfl⟩ := comparison_made made
  exact endures_vars rfl

theorem endures_make_comparisons (table : TableId) (atoms : List String) (ids : List ComparisonId)
    (made : plant.makeComparisons table atoms = .ok (ids, next)) : Endures plant next :=
  comparisons_keep (Endures plant)
    (fun _ table text c _ endures built => endures.trans (endures_make_comparison table text c built))
    table atoms ids made (.refl plant)

theorem endures_make_trigger (table : TableId) (expression : String) (times : Int) (t : TriggerId)
    (made : plant.makeTrigger table expression times = .ok (t, next)) : Endures plant next := by
  obtain ⟨_, children, between, _, found, _, rfl⟩ := trigger_made made
  exact (endures_make_comparisons _ _ children found).then_same rfl

theorem endures_activate_trigger (t : TriggerId) (trigger : Trigger)
    (activated : plant.activateTrigger t trigger = .ok next) : Endures plant next := by
  cases activation activated with
  | spent => exact endures_vars rfl
  | active => exact .refl plant
  | begun _ _ children between _ made ran =>
    have engaged : Endures plant (between.engage t trigger children) :=
      ((hushed_children_of plant trigger children made).endures.trans
        (hushed_link_children between t children).endures).then_same rfl
    have evaluated := engaged.trans (endures_evaluate_now _ t
      (trigger.started children (between.childLinks t children)))
    obtain rfl | ⟨_, details, _, rfl⟩ := ran
    · exact evaluated
    · exact evaluated.then_same rfl

theorem endures_rearm_trigger (plant : Plant) (t : TriggerId) : Endures plant (plant.rearmTrigger t) := by
  unfold rearmTrigger
  split
  · exact .refl plant
  · next trigger _ =>
    split
    · exact .refl plant
    · obtain ⟨change, woken⟩ := wake_waiting_dispatch (plant.setTrigger t trigger.rearm) t
      rw [woken]
      exact endures_vars rfl

theorem endures_subscribe_comparison (plant : Plant) (c : ComparisonId) (listener : Listener) :
    Endures plant (plant.subscribeComparison c listener).2 := by
  unfold subscribeComparison
  split
  · exact .refl plant
  · split <;> exact endures_vars rfl

theorem endures_subscribe_trigger (plant : Plant) (t : TriggerId) (listener : Listener) :
    Endures plant (plant.subscribeTrigger t listener).2 := by
  unfold subscribeTrigger
  split
  · exact .refl plant
  · split <;> exact endures_vars rfl

theorem endures_unsubscribe_trigger (plant : Plant) (t : TriggerId) (ticket : Ticket) :
    Endures plant (plant.unsubscribeTrigger t ticket) := by
  unfold unsubscribeTrigger
  split <;> exact endures_vars rfl

theorem endures_hear (plant : Plant) (t : TriggerId) (stamp : Instant) : Endures plant (plant.hear t stamp) := by
  obtain same | ⟨trigger, _, _, _, same | ⟨details, same⟩⟩ := plant.hear_cases t stamp <;> rw [same]
  · exact .refl plant
  · exact endures_evaluate plant t trigger stamp
  · exact (endures_evaluate plant t trigger stamp).then_same rfl

theorem endures_hear_variable (plant : Plant) (c : ComparisonId) (stamp : Instant) :
    Endures plant (plant.hearVariable c stamp) := by
  unfold hearVariable
  split
  · exact .refl plant
  · split
    · exact endures_vars rfl
    · exact .refl plant

theorem endures_exhaust (plant : Plant) (t : TriggerId) : Endures plant (plant.exhaust t) := by
  unfold exhaust
  split
  · exact .refl plant
  · exact (hushed_deactivate_trigger _ t).endures.behind rfl

theorem endures_make_steps (table : TableId) (parts : List Config.Step) (steps : List Step)
    (made : plant.makeSteps table parts = .ok (steps, next)) : Endures plant next :=
  steps_keep (Endures plant)
    (fun _ table expression t _ endures built => endures.trans (endures_make_trigger table expression 1 t built))
    table parts steps made (.refl plant)

theorem ComparisonCall.endures {command : ComparisonCommand} (call : plant.ComparisonCall command next) :
    Endures plant next := by
  cases call with
  | idle => exact .refl plant
  | make name expression c between made => exact (endures_make_comparison _ expression c made).then_same rfl
  | activate => exact (hushed_activate_comparison plant _).endures
  | deactivate => exact (hushed_deactivate_comparison plant _).endures
  | refresh | drop => exact endures_vars rfl

theorem TriggerCall.endures {command : TriggerCommand} (call : plant.TriggerCall command next) :
    Endures plant next := by
  cases call with
  | idle => exact .refl plant
  | make name expression times verbose t trigger between made =>
    exact (endures_make_trigger _ expression times t made).then_same rfl
  | activate name t trigger _ found activated => exact endures_activate_trigger t trigger activated
  | deactivate => exact (hushed_deactivate_trigger plant _).endures
  | rearm => exact endures_rearm_trigger plant _
  | evaluate => exact endures_evaluate_now plant _ _
  | drop | receive => exact endures_vars rfl

theorem endures_make_variables (plant : Plant) (table : TableId) (registry : RegistryId) (verbose : Bool)
    (parts : List Config.Variable) : Endures plant (plant.makeVariables table registry verbose parts).2 :=
  variables_keep (Endures plant) table registry verbose
    (fun next name value endures => endures.trans (endures_add_variable next (.create name value verbose)))
    (fun next v c endures => endures.trans (calm_follow next v c).endures)
    (fun _ _ _ endures => endures.then_same rfl) parts plant (.refl plant)

theorem endures_make_workspace (plant : Plant) (config : Config) :
    Endures plant (plant.makeWorkspace config).2 :=
  workspace_keep (Endures plant) config (fun _ endures => endures.then_same rfl)
    (fun next registry endures => endures.trans (calm_make_devices next registry _ _).endures)
    (fun next registry part endures => endures.trans (calm_make_channel next registry _ part).endures)
    (fun next table registry endures => endures.trans (endures_make_variables next table registry _ _))
    (fun _ _ _ _ _ endures => endures.then_same rfl) plant (.refl plant)

theorem SequenceCall.endures {command : SequenceCommand} (call : plant.SequenceCall command next) :
    Endures plant next := by
  obtain calm | ⟨name, config, step, between, made, rfl⟩ := call.calm
  · exact calm.endures
  · have kept : Endures plant between := by
      obtain ⟨rfl, _⟩ | ⟨expression, t, built, _⟩ := step_made made
      · exact .refl _
      · exact endures_make_trigger _ expression 1 t built
    exact kept.then_same rfl

theorem endures_make_schedule (table : TableId) (registry : RegistryId) (procedure : Config.Procedure)
    (pollInterval : Nat) (scheduled : Scheduled)
    (made : plant.makeSchedule table registry procedure pollInterval = .ok (scheduled, next)) :
    Endures plant next := by
  obtain ⟨part, steps, between, details, _, built, _, rfl⟩ := schedule_made made
  exact (endures_make_steps table part.steps steps built).then_same rfl

theorem WorkspaceCall.endures {command : WorkspaceCommand} (call : plant.WorkspaceCall command next) :
    Endures plant next := by
  cases call with
  | idle => exact .refl plant
  | fail document config => exact endures_make_workspace plant config
  | make document config => exact (endures_make_workspace plant config).then_same rfl
  | start devices _ started => exact (calm_start_devices plant devices next started).endures
  | shutdown devices => exact (calm_foldl disposeDevice calm_dispose_device devices plant).endures
  | schedule name config pollInterval scheduled between made =>
    exact (endures_make_schedule _ _ config pollInterval scheduled made).then_same rfl
  | startSchedule scheduled _ activated => exact (calm_activate plant _ next activated).endures

theorem endures_subscribe (plant : Plant) (publisher : Publisher) (listener : Listener) :
    Endures plant (plant.subscribe publisher listener).2 := by
  cases publisher with
  | node node =>
    cases node with
    | var v => exact endures_subscribe_variable plant v listener
    | comparison c => exact endures_subscribe_comparison plant c listener
    | trigger t => exact endures_subscribe_trigger plant t listener
  | channel c => exact (calm_subscribe_channel plant c listener).endures

theorem Joining.endures {id : String} {handler : Option String} {times : Nat} {script : List Command}
    (call : plant.Joining id handler times script next) : Endures plant next := by
  have joining (publisher : Publisher) (observer : ObserverId) (between : Plant)
      (made : plant.observerFor publisher id handler times script = some (observer, between)) :
      Endures plant (between.subscribe publisher (.observer observer)).2 :=
    (calm_observer_for plant publisher id handler times script observer made).endures.trans
      (endures_subscribe between publisher (.observer observer))
  cases call with
  | idle => exact .refl plant
  | refuse publisher observer between made => exact joining publisher observer between made
  | join publisher observer between ticket made => exact (joining publisher observer between made).then_same rfl

theorem SubscribeCall.endures {id : String} {handler : Option String} {times : Nat} {script : List Command}
    (call : plant.SubscribeCall id handler times script next) : Endures plant next := by
  cases call with
  | once _ first => exact first.endures
  | again publisher between first => exact first.endures.trans (calm_send_again between publisher).endures

theorem UnsubscribeCall.endures {id : String} (call : plant.UnsubscribeCall id next) : Endures plant next := by
  cases call with
  | idle => exact .refl plant
  | leave publisher ticket =>
    cases publisher with
    | node node =>
      cases node with
      | var v => exact (hushed_unsubscribe_variable plant v ticket).endures
      | comparison c => exact (hushed_unsubscribe_comparison plant c ticket).endures
      | trigger t => exact endures_unsubscribe_trigger plant t ticket
    | channel c => exact (calm_unsubscribe_channel plant c ticket).endures

theorem VariableCall.endures {command : VariableCommand} (call : plant.VariableCall command next)
    (plain : ∀ name value, command ≠ .set name value) : Endures plant next := by
  cases call with
  | idle => exact .refl plant
  | make => exact endures_add_variable plant _
  | set name value => exact absurd rfl (plain name value)
  | follow => exact (calm_follow plant _ _).endures.then_same rfl
  | refuse => exact (calm_follow plant _ _).endures

theorem endures_execute (plant : Plant) (command : Command)
    (plain : ∀ name value, command ≠ .var (.set name value)) : Endures plant (plant.execute command).2 := by
  cases command with
  | var command =>
    exact (plant.variable_call command).endures fun name value same => plain name value (by rw [same])
  | comparison command => exact (plant.comparison_call command).endures
  | trigger command => exact (plant.trigger_call command).endures
  | channel command => exact (plant.channel_call command).calm.endures
  | device command => exact (plant.device_call command).calm.endures
  | sequence command => exact (plant.sequence_call command).endures
  | workspace command => exact (plant.workspace_call command).endures
  | subscribe id source name handler sendNow times script =>
    exact (plant.subscribe_call id source name handler sendNow times script).endures
  | unsubscribe id => exact (plant.unsubscribe_call id).endures

theorem endures_retire (plant : Plant) : Endures plant plant.retire := endures_values (still_retire plant).values

theorem endures_arm (plant : Plant) (id : SequenceId) : Endures plant (plant.arm id) := by
  have taken := plant.arm_case id
  generalize plant.arm id = next at taken ⊢
  cases taken with
  | leave => exact (calm_leave_step plant id).endures
  | refuse s t => exact (endures_rearm_trigger plant t).trans ((calm_cancel _ id).endures.behind rfl)
  | engage s t trigger started next _ _ _ _ activated =>
    exact (endures_rearm_trigger plant t).trans ((endures_activate_trigger t _ activated).behind rfl)

theorem endures_disarm (plant : Plant) (id : SequenceId) : Endures plant (plant.disarm id) := by
  have taken := plant.disarm_case id
  generalize plant.disarm id = next at taken ⊢
  cases taken with
  | leave => exact (calm_leave_step plant id).endures
  | unmet s t => exact (hushed_deactivate_trigger plant t).endures.trans (calm_leave_step _ id).endures
  | satisfied s t =>
    exact (hushed_deactivate_trigger plant t).endures.trans ((calm_leave_step _ id).endures.behind rfl)

theorem endures_deliver (plant : Plant) (listener : Listener) (notification : Notification) :
    Endures plant (plant.deliver listener notification) := by
  cases listener with
  | observer o =>
    rw [deliver]
    split
    · exact .refl plant
    · exact (calm_script_of _ o _).endures.behind rfl
  | comparison c => exact endures_hear_variable plant c _
  | trigger t => exact endures_hear plant t _
  | follower => exact .refl plant

theorem endures_tell (plant : Plant) (listener : Listener) (event : Event)
    (plain : ∀ v source, listener ≠ .follower v source) : Endures plant (plant.tell listener event) := by
  cases listener with
  | observer o =>
    rw [tell]
    split
    · exact .refl plant
    · exact (calm_script_of _ o _).endures.behind rfl
  | follower v source => exact absurd rfl (plain v source)
  | comparison | trigger => exact .refl plant

theorem endures_run_command (plant : Plant) (label : String) (command : Command)
    (plain : ∀ name value, command ≠ .var (.set name value)) : Endures plant (plant.runCommand label command) := by
  obtain ⟨jobs, _, _, same⟩ := run_command_next plant label command
  rw [same]
  exact (endures_execute plant command plain).then_same rfl

theorem endures_perform (plant : Plant) (job : Job)
    (unset : ∀ label name value, job ≠ .command label (.var (.set name value)))
    (untold : ∀ v source event, job ≠ .tell (.follower v source) event) : Endures plant (plant.perform job) := by
  cases job with
  | deliver listener notification => exact endures_deliver plant listener notification
  | tell listener event =>
    exact endures_tell plant listener event fun v source same => untold v source event (by rw [same])
  | exhaust t => exact endures_exhaust plant t
  | command label command =>
    exact endures_run_command plant label command fun name value same => unset label name value (by rw [same])
  | write c value => exact (calm_write plant c value).endures
  | settleDown id => exact (calm_settle_down plant id).endures
  | begin id => exact (calm_begin plant id).endures
  | act id actions => exact (calm_act plant id actions).endures
  | arm id => exact endures_arm plant id
  | wait id => exact (calm_wait plant id).endures
  | disarm id => exact endures_disarm plant id
  | next id => exact (calm_next plant id).endures
  | complete id => exact (calm_complete plant id).endures
  | leave | conclude | keepSubscription | closeRun | announce => exact endures_vars rfl

theorem endures_missed (plant : Plant) (name : String) (value : Value) (unknown : plant.namedVar? name = none) :
    Endures plant (plant.execute (.var (.set name value))).2 := by
  rw [execute, onVariable, unknown]
  exact .refl plant

theorem endures_command_missed (plant : Plant) (label name : String) (value : Value)
    (unknown : plant.namedVar? name = none) :
    Endures plant (plant.runCommand label (.var (.set name value))) := by
  obtain ⟨jobs, _, _, same⟩ := run_command_next plant label (.var (.set name value))
  rw [same]
  exact (endures_missed plant name value unknown).then_same rfl

theorem endures_or_takes (plant : Plant) (v : VariableId) (source : String) (event : Event) :
    Endures plant (plant.takeOver v source event) ∨
      ∃ var value, plant.vars[v]? = some var ∧ event.value = some value ∧ plant.variableInUse v = true := by
  obtain same | ⟨var, value, there, told, used, _⟩ := plant.take_over_cases v source event
  · rw [same]
    exact .inl (.refl plant)
  · exact .inr ⟨var, value, there, told, used⟩

end

section

variable {plant next : Plant} {v w : VariableId} {var : Variable} {value : Value} {deed : Deed} {base : List Job}

theorem assigning_others (assigning : Assigning plant w var value deed base) (move : Move plant deed next)
    (other : v ≠ w) : next.valueOf v = plant.valueOf v := by
  cases assigned : var.assign plant.readClock.1 value with
  | ok result =>
    obtain ⟨done, rfl, announces⟩ := assigning_starts assigning next move assigned
    rw [(still_retire done).values, announces.values, Function.update_of_ne other]
    rfl
  | error error =>
    obtain ⟨done, rfl, _, _, hushed⟩ := assigning_refused assigning next move error assigned
    rw [(still_retire done).values, hushed.values]

theorem move_endures (move : Move plant deed next) (held : plant.valueOf v = some value)
    (unassigned : ∀ var value base, ¬ Assigning plant v var value deed base) :
    next.valueOf v = some value := by
  have along {w var given base} (assigning : Assigning plant w var given deed base) :
      next.valueOf v = some value := by
    rw [assigning_others assigning move (by rintro rfl; exact unassigned var given base assigning), held]
  cases move with
  | call command =>
    by_cases sets : ∃ name given, command = .var (.set name given)
    · obtain ⟨name, given, rfl⟩ := sets
      cases known : plant.namedVar? name with
      | none => exact endures_retire _ v value (endures_missed plant name given known v value held)
      | some found => exact along (.called name known)
    · exact endures_retire _ v value
        (endures_execute plant command (fun name given same => sets ⟨name, given, same⟩) v value held)
  | job next stepped =>
    obtain ⟨job, rest, agenda, rfl⟩ := worked_off stepped
    have performed (endures : Endures { plant with agenda := rest } (perform { plant with agenda := rest } job)) :=
      endures_retire _ v value (endures v value held)
    by_cases sets : ∃ label name given, job = .command label (.var (.set name given))
    · obtain ⟨label, name, given, rfl⟩ := sets
      cases known : plant.namedVar? name with
      | none => exact performed (endures_command_missed _ label name given known)
      | some found => exact along (.ordered label name rest agenda known)
    · by_cases tells : ∃ w source event, job = .tell (.follower w source) event
      · obtain ⟨w, source, event, rfl⟩ := tells
        rcases endures_or_takes { plant with agenda := rest } w source event with
          kept | ⟨var, given, there, told, used⟩
        · exact performed kept
        · exact along (.followed source event rest agenda there told used)
      · exact performed (endures_perform _ job (fun label name given same => sets ⟨label, name, given, same⟩)
          fun w source event same => tells ⟨w, source, event, same⟩)
  | turn runner => exact endures_retire _ v value ((calm_turn plant runner).endures v value held)
  | dispatch change => exact held

end

end Interlock.Plant
