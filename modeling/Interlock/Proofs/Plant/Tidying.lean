import Interlock.Proofs.Plant.Brood

/-!
Every call and every job leaves subscriptions that match, and only the commands that make and end
subscriptions change what handlers are subscribed to.
-/

set_option autoImplicit false

namespace Interlock.Plant

open Interlock.Calendar (Instant)
open Interlock.Graph
open Interlock.Schedule
open Interlock.Session

-- Commands that make or end the subscription of a handler.
def Resubscribes : Command → Prop
  | .subscribe .. | .unsubscribe .. => True
  | _ => False

section

variable {plant next : Plant} {job : Job} {jobs rest : List Job}

theorem Tidies.refl (matched : plant.Matched) : Tidies plant plant := ⟨matched, .refl plant⟩

theorem Tidies.then {middle : Plant} (tidies : Tidies plant middle)
    (more : middle.Matched → Tidies middle next) : Tidies plant next :=
  tidies.trans (more tidies.matched)

theorem Tidies.calm {middle : Plant} (tidies : Tidies plant middle) (calm : Calm middle next) :
    Tidies plant next := tidies.then fun matched => matched_calm matched calm

theorem matched_add_variable (matched : plant.Matched) (var : Variable) (unheard : var.subscribers = []) :
    Tidies plant (plant.addVariable var).2 := by
  refine matched_same matched rfl rfl ?_
  funext node
  cases node with
  | var id => exact appended_blank plant.vars var _ unheard id
  | comparison | trigger => rfl

theorem VariableCall.matched {command : VariableCommand} (call : plant.VariableCall command next)
    (matched : plant.Matched) : Tidies plant next := by
  cases call with
  | idle => exact .refl matched
  | make name value verbose =>
      exact (matched_add_variable matched (.create name value verbose) rfl).calm (calm_same _ _ rfl)
  | set name value v var found => exact matched_assign matched v var (lookup_there _ _ name v var found) value
  | follow id name channel v c ticket =>
      exact (matched_calm matched (calm_follow plant v c)).calm (calm_keep_channel _ id c ticket)
  | refuse => exact matched_calm matched (calm_follow plant _ _)

theorem ComparisonCall.matched {command : ComparisonCommand} (call : plant.ComparisonCall command next)
    (matched : plant.Matched) (consistent : plant.Consistent) : Tidies plant next := by
  cases call with
  | idle => exact .refl matched
  | make name expression c between made =>
      obtain ⟨tidies, _⟩ := made_comparison_matched matched _ expression c made
      exact tidies.trans (matched_same tidies.matched rfl rfl rfl)
  | activate name c comparison found =>
      have named := found_known _ _ name c comparison found
      obtain ⟨activated, outside⟩ := matching_activate_comparison matched consistent c
        fun t trigger there member idle => absurd named (consistent.tuned.own t trigger there c member).unnamed
      exact ⟨activated, outside⟩
  | deactivate name c => exact matched_deactivate_comparison matched c
  | refresh name c comparison found =>
      have read : Tidies plant plant.readClock.2 := matched_calm matched (calm_same _ _ rfl)
      exact read.trans (matched_refresh read.matched c comparison (found_there _ _ name c comparison found) _)
  | drop => exact matched_same matched rfl rfl rfl

theorem TriggerCall.matched {command : TriggerCommand} (call : plant.TriggerCall command next)
    (matched : plant.Matched) (consistent : plant.Consistent) : Tidies plant next := by
  cases call with
  | idle => exact .refl matched
  | make name expression times verbose t trigger between made there =>
      have tidies := matched_make_trigger matched _ expression times t made
      have set := matched_set_trigger tidies.matched t trigger { trigger with verbose := verbose } there rfl rfl rfl rfl
      exact (tidies.trans set).trans (matched_same set.matched rfl rfl rfl)
  | activate name t trigger _ found activated =>
      exact matched_activate_trigger matched consistent t trigger (found_there _ _ name t trigger found) activated
  | deactivate name t => exact matched_deactivate_trigger matched t
  | rearm name t => exact matched_rearm_trigger matched t
  | evaluate name t trigger found =>
      exact matched_evaluate_now matched t trigger (found_there _ _ name t trigger found)
  | drop => exact matched_same matched rfl rfl rfl
  | receive => exact matched_calm matched (calm_same _ _ rfl)

theorem matched_make_steps (matched : plant.Matched) (table : TableId) (parts : List Config.Step)
    (steps : List Step) (made : plant.makeSteps table parts = .ok (steps, next)) : Tidies plant next :=
  steps_keep (Tidies plant)
    (fun _ table expression t _ tidies built =>
      tidies.trans (matched_make_trigger tidies.matched table expression 1 t built))
    table parts steps made (.refl matched)

theorem matched_make_schedule (matched : plant.Matched) (table : TableId) (registry : RegistryId)
    (procedure : Config.Procedure) (pollInterval : Nat) (scheduled : Scheduled)
    (made : plant.makeSchedule table registry procedure pollInterval = .ok (scheduled, next)) :
    Tidies plant next := by
  obtain ⟨part, steps, between, details, _, found, _, rfl⟩ := schedule_made made
  exact (matched_make_steps matched table part.steps steps found).calm (calm_same _ _ rfl)

theorem matched_make_variables (matched : plant.Matched) (table : TableId) (registry : RegistryId)
    (verbose : Bool) (parts : List Config.Variable) :
    Tidies plant (plant.makeVariables table registry verbose parts).2 :=
  variables_keep (Tidies plant) table registry verbose
    (fun _ name value tidies => tidies.trans (matched_add_variable tidies.matched (.create name value verbose) rfl))
    (fun next v c tidies => tidies.calm (calm_follow next v c))
    (fun _ _ _ tidies => tidies.calm (calm_same _ _ rfl)) parts plant (.refl matched)

theorem matched_make_workspace (matched : plant.Matched) (config : Config) :
    Tidies plant (plant.makeWorkspace config).2 :=
  workspace_keep (Tidies plant) config (fun _ tidies => tidies.calm (calm_same _ _ rfl))
    (fun next registry tidies => tidies.calm (calm_make_devices next registry _ _))
    (fun next registry part tidies => tidies.calm (calm_make_channel next registry _ part))
    (fun _ table registry tidies => tidies.trans (matched_make_variables tidies.matched table registry _ _))
    (fun _ _ _ _ _ tidies => tidies.calm (calm_same _ _ rfl)) plant (.refl matched)

theorem SequenceCall.matched {command : SequenceCommand} (call : plant.SequenceCall command next)
    (matched : plant.Matched) : Tidies plant next := by
  obtain calm | ⟨name, config, step, between, made, rfl⟩ := call.calm
  · exact matched_calm matched calm
  · have tidies : Tidies plant between := by
      obtain ⟨rfl, _⟩ | ⟨expression, t, built, _⟩ := step_made made
      · exact .refl matched
      · exact matched_make_trigger matched _ expression 1 t built
    exact tidies.trans (matched_same tidies.matched rfl rfl rfl)

theorem WorkspaceCall.matched {command : WorkspaceCommand} (call : plant.WorkspaceCall command next)
    (matched : plant.Matched) : Tidies plant next := by
  cases call with
  | idle => exact .refl matched
  | fail document config => exact matched_make_workspace matched config
  | make document config => exact (matched_make_workspace matched config).calm (calm_same _ _ rfl)
  | start devices _ started => exact matched_calm matched (calm_start_devices plant devices next started)
  | shutdown devices => exact matched_calm matched (calm_foldl disposeDevice calm_dispose_device devices plant)
  | schedule name config pollInterval scheduled between made =>
      exact (matched_make_schedule matched _ _ config pollInterval scheduled made).calm (calm_same _ _ rfl)
  | startSchedule scheduled _ activated => exact matched_calm matched (calm_activate plant _ next activated)

theorem matched_ticketed (matched : plant.Matched) (retains : Retains plant next)
    (ties : next.tiesOf = plant.tiesOf) (ticketed : next.Ticketed plant.tiesOf) : next.Matched :=
  matching_retains matched rfl retains (by rw [dues, ties]; exact ticketed)

theorem matched_subscribe (matched : plant.Matched) (linked : plant.Linked) (publisher : Publisher)
    (o : ObserverId) : (plant.subscribe publisher (.observer o)).2.Matched := by
  have joined := fun (node : Node) (next : Plant) (listeners : next.listeners = _) =>
    ticketed_observer matched.ticketed linked.issued node o listeners
  have issued : Retains plant plant.issueTicket.2 := retains_same rfl rfl
  cases publisher with
  | channel id => exact (matched_calm matched (calm_subscribe_channel plant id _)).matched
  | node node =>
      cases node with
      | var v =>
          rw [subscribe]
          rcases subscribe_variable_found plant v (.observer o) with ⟨made, _⟩ | ⟨var, there, made⟩
          · rw [made]
            exact matched
          · rw [made]
            refine matched_ticketed matched (retains_same rfl rfl) rfl (joined (.var v) _ ?_)
            rw [listeners_var v var there]
            exact listeners_set_variable v var _ there
      | comparison c =>
          rw [subscribe]
          rcases subscribe_comparison_found plant c (.observer o) with
            ⟨made, _⟩ | ⟨comparison, there, made⟩
          · rw [made]
            exact matched
          · rw [made]
            refine matched_ticketed matched (issued.trans (retains_set_comparison c comparison _ there rfl rfl))
              (ties_set_subscribers c comparison there _) (joined (.comparison c) _ ?_)
            rw [listeners_comparison c comparison there]
            exact listeners_set_comparison c comparison _ there
      | trigger t =>
          rw [subscribe, subscribeTrigger]
          cases there : plant.triggers[t]? with
          | none => exact matched
          | some trigger =>
              dsimp only
              split
              · exact matched
              · refine matched_ticketed matched (issued.trans (retains_set_trigger t trigger _ there rfl rfl rfl))
                  (ties_set_heard t trigger there trigger.verbose _) (joined (.trigger t) _ ?_)
                rw [listeners_trigger t trigger there]
                exact listeners_set_trigger t trigger _ there

theorem Joining.matched {id : String} {handler : Option String} {times : Nat} {script : List Command}
    (call : plant.Joining id handler times script next) (matched : plant.Matched)
    (consistent : plant.Consistent) : next.Matched := by
  have joining (publisher : Publisher) (observer : ObserverId) (between : Plant)
      (made : plant.observerFor publisher id handler times script = some (observer, between)) :=
    have calm := calm_observer_for plant publisher id handler times script observer made
    matched_subscribe (matched_calm matched calm).matched (consistent_calm consistent calm).linked publisher observer
  cases call with
  | idle => exact matched
  | refuse publisher observer between made => exact joining publisher observer between made
  | join publisher observer between ticket made =>
      have pushed : Tidies (between.subscribe publisher (.observer observer)).2
          ((between.subscribe publisher (.observer observer)).2.push [.keepSubscription id ⟨publisher, ticket⟩]) :=
        matched_same (joining publisher observer between made) rfl rfl rfl
      exact pushed.matched

theorem SubscribeCall.matched {id : String} {handler : Option String} {times : Nat} {script : List Command}
    (call : plant.SubscribeCall id handler times script next) (matched : plant.Matched)
    (consistent : plant.Consistent) : next.Matched := by
  cases call with
  | once _ first => exact first.matched matched consistent
  | again publisher between first =>
      exact (matched_calm (first.matched matched consistent) (calm_send_again between publisher)).matched

theorem UnsubscribeCall.matched {id : String} (call : plant.UnsubscribeCall id next) (matched : plant.Matched)
    (linked : plant.Linked) : next.Matched := by
  cases call with
  | idle => exact matched
  | leave publisher ticket known =>
      cases publisher with
      | channel channel => exact (matched_calm matched (calm_unsubscribe_channel plant channel ticket)).matched
      | node node =>
          have loose : plant.Loose node ticket := kept_loose linked node ticket (.inl ⟨id, known⟩)
          have parted := fun (next : Plant) (parts : Parts [(node, ticket)] plant next) =>
            ticketed_loose matched.ticketed node ticket loose parts
          cases node with
          | var v =>
              obtain ⟨comparisons, triggers⟩ := retains_unsubscribe_variables [(v, ticket)] plant
              exact matched_ticketed matched (retains_same comparisons triggers)
                (ties_same comparisons triggers) (parted _ (parts_unsubscribe_variable plant v ticket))
          | comparison c =>
              obtain ⟨retains, ties⟩ := retains_unsubscribe_comparisons [(c, ticket)] plant
              exact matched_ticketed matched retains ties
                (parted _ (parts_unsubscribe_comparison plant c ticket))
          | trigger t =>
              rw [unsubscribe, unsubscribeTrigger]
              cases there : plant.triggers[t]? with
              | none => exact matched
              | some trigger =>
                  refine matched_ticketed matched (retains_set_trigger t trigger _ there rfl rfl rfl)
                    (ties_set_heard t trigger there trigger.verbose _) (parted _ ?_)
                  refine parts_unsubscribe (.trigger t) ticket ?_
                  rw [listeners_trigger t trigger there]
                  exact listeners_set_trigger t trigger _ there

theorem matched_execute (matched : plant.Matched) (consistent : plant.Consistent) (command : Command) :
    (plant.execute command).2.Matched ∧
      (¬ Resubscribes command → Outside plant (plant.execute command).2) := by
  have agreed : ∀ {next : Plant}, Tidies plant next →
      next.Matched ∧ (¬ Resubscribes command → Outside plant next) :=
    fun tidies => ⟨tidies.matched, fun _ => tidies.outside⟩
  cases command with
  | var command => exact agreed ((plant.variable_call command).matched matched)
  | comparison command => exact agreed ((plant.comparison_call command).matched matched consistent)
  | trigger command => exact agreed ((plant.trigger_call command).matched matched consistent)
  | channel command => exact agreed (matched_calm matched (plant.channel_call command).calm)
  | device command => exact agreed (matched_calm matched (plant.device_call command).calm)
  | sequence command => exact agreed ((plant.sequence_call command).matched matched)
  | workspace command => exact agreed ((plant.workspace_call command).matched matched)
  | subscribe id source name handler sendNow times script =>
      exact ⟨(plant.subscribe_call id source name handler sendNow times script).matched matched consistent,
        fun other => absurd trivial other⟩
  | unsubscribe id =>
      exact ⟨(plant.unsubscribe_call id).matched matched consistent.linked, fun other => absurd trivial other⟩

theorem matched_hear_variable (matched : plant.Matched) (c : ComparisonId) (stamp : Instant) :
    Tidies plant (plant.hearVariable c stamp) := by
  rw [hearVariable]
  split
  · exact .refl matched
  · next comparison there =>
      split
      · exact matched_refresh matched c comparison there stamp
      · exact .refl matched

theorem matched_hear (matched : plant.Matched) (t : TriggerId) (stamp : Instant) :
    Tidies plant (plant.hear t stamp) := by
  obtain same | ⟨trigger, there, _, _, same | ⟨details, same⟩⟩ := plant.hear_cases t stamp <;> rw [same]
  · exact .refl matched
  · exact matched_evaluate matched t trigger there stamp
  · exact (matched_evaluate matched t trigger there stamp).calm (calm_same _ _ rfl)

theorem matched_take_over (matched : plant.Matched) (v : VariableId) (source : String) (event : Event) :
    Tidies plant (plant.takeOver v source event) := by
  obtain same | ⟨var, value, there, _, _, same | ⟨details, same⟩⟩ := plant.take_over_cases v source event <;> rw [same]
  · exact .refl matched
  · exact matched_assign matched v var there value
  · exact (matched_assign matched v var there value).calm (calm_same _ _ rfl)

theorem matched_exhaust (matched : plant.Matched) (t : TriggerId) : Tidies plant (plant.exhaust t) := by
  rw [exhaust]
  split
  · exact .refl matched
  · next trigger there =>
      have logged : Tidies plant (plant.log .trigger .debug "Repeat count reached zero"
        [("trigger", .text trigger.expression)]) := matched_calm matched (calm_same _ _ rfl)
      exact logged.trans (matched_deactivate_trigger logged.matched t)

theorem matched_arm (matched : plant.Matched) (consistent : plant.Consistent) (id : SequenceId) :
    Tidies plant (plant.arm id) := by
  have rearmed (t : TriggerId) : Tidies plant (plant.rearmTrigger t) := matched_rearm_trigger matched t
  have taken := plant.arm_case id
  generalize plant.arm id = next at taken ⊢
  cases taken with
  | leave => exact matched_calm matched (calm_leave_step plant id)
  | refuse s t trigger _ _ message details =>
      exact (rearmed t).calm ((calm_cancel _ id).behind rfl)
  | engage s t trigger started _ _ _ there _ activated =>
      have waits := calm_push (plant.rearmTrigger t) [.wait id] (by simp [Job.kept?])
      have pushed := (rearmed t).calm waits
      exact pushed.trans (matched_activate_trigger pushed.matched
        (consistent_calm (consistent_rearm_trigger consistent t) waits) t started there activated)

theorem matched_disarm (matched : plant.Matched) (id : SequenceId) : Tidies plant (plant.disarm id) := by
  have ended (t : TriggerId) : Tidies plant (plant.deactivateTrigger t) := matched_deactivate_trigger matched t
  have taken := plant.disarm_case id
  generalize plant.disarm id = next at taken ⊢
  cases taken with
  | leave => exact matched_calm matched (calm_leave_step plant id)
  | unmet s t => exact (ended t).calm (calm_leave_step _ id)
  | satisfied s t => exact (ended t).calm ((calm_leave_step _ id).behind rfl)

theorem matched_perform (matched : plant.Matched) 
    (coherent : plant.Coherent (job :: plant.agenda)) :
    (plant.perform job).Matched ∧
      ((∀ label command, job = .command label command → ¬ Resubscribes command) →
        Outside plant (plant.perform job)) := by
  have agreed : ∀ {next : Plant}, Tidies plant next → next.Matched ∧
      ((∀ label command, job = .command label command → ¬ Resubscribes command) → Outside plant next) :=
    fun tidies => ⟨tidies.matched, fun _ => tidies.outside⟩
  cases job with
  | deliver listener notification =>
      cases listener with
      | comparison c => exact agreed (matched_hear_variable matched c notification.stamp)
      | trigger t => exact agreed (matched_hear matched t notification.stamp)
      | observer id =>
          rw [perform, deliver]
          split
          · exact agreed (.refl matched)
          · exact agreed (matched_calm matched ((calm_script_of _ id _).behind rfl))
      | follower v source => exact agreed (.refl matched)
  | tell listener event =>
      cases listener with
      | observer id =>
          rw [perform, tell]
          split
          · exact agreed (.refl matched)
          · exact agreed (matched_calm matched ((calm_script_of _ id _).behind rfl))
      | follower v source => exact agreed (matched_take_over matched v source event)
      | comparison | trigger => exact agreed (.refl matched)
  | exhaust t => exact agreed (matched_exhaust matched t)
  | command label command =>
      obtain ⟨executed, outside⟩ := matched_execute matched (consistent_idle coherent trivial) command
      obtain ⟨jobs, _, _, same⟩ := run_command_next plant label command
      rw [perform, same]
      have listed : Tidies (plant.execute command).2 { (plant.execute command).2 with
          agenda := jobs ++ .conclude label (plant.execute command).1 :: plant.agenda } :=
        matched_same executed rfl rfl rfl
      exact ⟨listed.matched, fun other => (outside (other label command rfl)).trans listed.outside⟩
  | keepSubscription name subscription => exact agreed (matched_same matched rfl rfl rfl)
  | arm id => exact agreed (matched_arm matched (consistent_idle coherent trivial) id)
  | disarm id => exact agreed (matched_disarm matched id)
  | leave node => exact agreed (.refl matched)
  | conclude | closeRun | announce => exact agreed (matched_calm matched (calm_same _ _ rfl))
  | write id value => exact agreed (matched_calm matched (calm_write plant id value))
  | settleDown id => exact agreed (matched_calm matched (calm_settle_down plant id))
  | begin id => exact agreed (matched_calm matched (calm_begin plant id))
  | act id actions => exact agreed (matched_calm matched (calm_act plant id actions))
  | wait id => exact agreed (matched_calm matched (calm_wait plant id))
  | next id => exact agreed (matched_calm matched (calm_next plant id))
  | complete id => exact agreed (matched_calm matched (calm_complete plant id))

theorem matched_retire (matched : plant.Matched) : Tidies plant plant.retire := by
  refine retire_keeps (Tidies plant) ?_ ?_ ?_ plant (.refl matched)
  · exact fun middle id tidies _ => tidies.trans (matched_deactivate_trigger tidies.matched id)
  · exact fun middle id tidies => tidies.trans (matched_deactivate_comparison tidies.matched id)
  · exact fun middle id tidies => tidies.calm (calm_deactivate_device middle id)

theorem matched_move (deed : Deed) (move : Move plant deed next) (poised : plant.Poised)
    (matched : plant.Matched) :
    next.Matched ∧
      ((∀ command ∈ plant.order? deed, ¬ Resubscribes command) → Outside plant next) := by
  cases move with
  | job next stepped =>
      obtain ⟨job, rest, agenda, rfl⟩ := worked_off stepped
      have popped : Tidies plant { plant with agenda := rest } := matched_same matched rfl rfl rfl
      obtain ⟨performed, outside⟩ :=
        matched_perform popped.matched (coherent_popped poised.consistent agenda)
      have retired := matched_retire performed
      refine ⟨retired.matched, fun other => popped.outside.trans ((outside ?_).trans retired.outside)⟩
      rintro label command rfl
      exact other command (by rw [order?, agenda]; rfl)
  | call command =>
      obtain ⟨executed, outside⟩ := matched_execute matched poised.consistent command
      have retired := matched_retire executed
      exact ⟨retired.matched, fun other => (outside (other command rfl)).trans retired.outside⟩
  | turn runner =>
      have turned := matched_calm matched (calm_turn plant runner)
      have retired := matched_retire turned.matched
      exact ⟨retired.matched, fun _ => turned.outside.trans retired.outside⟩
  | dispatch change =>
      have same : Tidies plant (plant.dispatch change) := matched_same matched rfl rfl rfl
      exact ⟨same.matched, fun _ => same.outside⟩

end

end Interlock.Plant
