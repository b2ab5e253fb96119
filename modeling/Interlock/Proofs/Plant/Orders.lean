import Interlock.Proofs.Plant.Activity

/-!
Commands and the graph. A command reaches comparisons and triggers by their names, and a comparison with a
name belongs to no trigger.
-/

set_option autoImplicit false

namespace Interlock.Plant

open Interlock.Calendar (Instant)
open Interlock.Graph
open Interlock.Schedule
open Interlock.Session

section

variable {plant next : Plant} {jobs : List Job}

theorem named_unowned (tuned : plant.Tuned) (c : ComparisonId)
    (named : c ∈ plant.desk.comparisons.ids) : plant.Unowned c :=
  fun t trigger there _ member => (tuned.own t trigger there c member).unnamed named

theorem calm_keep_channel (plant : Plant) (name : String) (channel : ChannelId) (ticket : Ticket) :
    Calm plant (plant.keepSubscription name ⟨.channel channel, ticket⟩) := by
  refine ⟨rfl, rfl, rfl, Nat.le_refl _, rfl, fun node held kept => ?_, fun _ member => member,
    fun _ led => led⟩
  rcases kept with ⟨other, member⟩ | later
  · rcases List.mem_cons.mp member with same | old
    · cases same
    · exact .inl ⟨other, List.filter_sublist.subset old⟩
  · exact .inr later

theorem VariableCall.consistent {command : VariableCommand} (call : plant.VariableCall command next)
    (consistent : plant.Consistent) : next.Consistent := by
  cases call with
  | idle => exact consistent
  | make name value verbose =>
      have added := coherent_add_variable consistent (.create name value verbose) rfl
      exact consistent_calm added (calm_same _ _ rfl)
  | set name value v var found =>
      exact consistent_assign consistent v var (lookup_there _ _ name v var found) value
  | follow id name channel v c ticket =>
      exact consistent_calm consistent ((calm_follow plant v c).trans (calm_keep_channel _ id c ticket))
  | refuse => exact consistent_calm consistent (calm_follow plant _ _)

theorem ComparisonCall.consistent {command : ComparisonCommand} (call : plant.ComparisonCall command next)
    (consistent : plant.Consistent) : next.Consistent := by
  cases call with
  | idle => exact consistent
  | make name expression c between made =>
      obtain ⟨coherent, widens, spare⟩ := made_comparison_spare consistent _ expression c made
      have named : (between.keep fun desk =>
          { desk with comparisons := desk.comparisons.insert name c }).Coherent plant.agenda :=
        ⟨linked_same coherent.linked (Nat.le_refl _) rfl rfl fun _ _ kept => kept,
          tuned_named coherent.tuned name c spare,
          fresh_same coherent.fresh rfl rfl rfl fun _ member => member⟩
      rw [← widens.agenda] at named
      exact named
  | activate name c =>
      obtain ⟨coherent, widens, _⟩ := coherent_activate_comparison consistent c
      rw [← widens.agenda] at coherent
      exact coherent
  | deactivate name c comparison found =>
      have unowned := named_unowned consistent.tuned c (found_known _ _ name c comparison found)
      have coherent := coherent_deactivate_comparison consistent c unowned
      rw [← (still_deactivate_comparison plant c).agenda] at coherent
      exact coherent
  | refresh name c comparison found =>
      have read : plant.readClock.2.Consistent := consistent_calm consistent (calm_same _ _ rfl)
      exact consistent_refresh read c comparison (found_there _ _ name c comparison found) _
        fun _ member => .inl member
  | drop name =>
      refine ⟨?_, ?_, ?_⟩
      · exact linked_same consistent.linked (Nat.le_refl _) rfl rfl fun _ _ kept => kept
      · exact tuned_same consistent.tuned (Nat.le_refl _) rfl rfl
          fun c member => Directory.removed_ids _ name c member
      · exact fresh_same consistent.fresh rfl rfl rfl fun _ member => member

theorem coherent_set_heard (coherent : plant.Coherent jobs) (t : TriggerId) (trigger : Trigger)
    (there : plant.triggers[t]? = some trigger) (verbose : Bool) :
    (plant.setTrigger t { trigger with verbose := verbose }).Coherent jobs where
  linked := linked_set_trigger coherent.linked t trigger _ there rfl fun _ _ member => .inl member
  tuned := tuned_set_heard coherent.tuned t trigger there verbose trigger.subscribers
  fresh := fresh_set_heard coherent.fresh t trigger there verbose trigger.subscribers

theorem coherent_desk (coherent : plant.Coherent jobs) (desk : Desk)
    (comparisons : desk.comparisons = plant.desk.comparisons)
    (subscriptions : desk.subscriptions = plant.desk.subscriptions) :
    Coherent { plant with desk := desk } jobs where
  linked := by
    refine linked_same coherent.linked (Nat.le_refl _) rfl rfl fun node ticket kept => ?_
    simpa only [Kept, subscriptions] using kept
  tuned := tuned_same coherent.tuned (Nat.le_refl _) rfl rfl fun _ member => comparisons ▸ member
  fresh := fresh_same coherent.fresh rfl rfl rfl fun _ member => member

theorem TriggerCall.consistent {command : TriggerCommand} (call : plant.TriggerCall command next)
    (consistent : plant.Consistent) (joined : ∀ t, plant.JoinedAt t) : next.Consistent := by
  cases call with
  | idle => exact consistent
  | make name expression times verbose t trigger between made there =>
      have kept := consistent_make_trigger consistent _ expression times t made
      exact coherent_desk (coherent_set_heard kept t trigger there verbose) _ rfl rfl
  | activate name t trigger _ found activated =>
      have there := found_there _ _ name t trigger found
      exact consistent_activate_trigger consistent t trigger there (joined t trigger there) activated
  | deactivate name t => exact consistent_deactivate_trigger consistent t fun _ member => .inl member
  | rearm name t => exact consistent_rearm_trigger consistent t
  | evaluate name t trigger found =>
      have there := found_there _ _ name t trigger found
      exact consistent_evaluate_now consistent t trigger there (joined t trigger there) fun _ member => .inl member
  | drop => exact coherent_desk consistent _ rfl rfl
  | receive => exact consistent_calm consistent (calm_same _ _ rfl)

theorem consistent_make_steps (consistent : plant.Consistent) (table : TableId)
    (parts : List Config.Step) (steps : List Step)
    (made : plant.makeSteps table parts = .ok (steps, next)) : next.Consistent :=
  steps_keep Consistent
    (fun _ table expression t _ consistent built => consistent_make_trigger consistent table expression 1 t built)
    table parts steps made consistent

theorem consistent_make_schedule (consistent : plant.Consistent) (table : TableId)
    (registry : RegistryId) (procedure : Config.Procedure) (pollInterval : Nat)
    (scheduled : Scheduled)
    (made : plant.makeSchedule table registry procedure pollInterval = .ok (scheduled, next)) :
    next.Consistent := by
  obtain ⟨part, steps, between, details, _, found, _, rfl⟩ := schedule_made made
  exact consistent_calm (consistent_make_steps consistent table part.steps steps found) (calm_same _ _ rfl)

theorem consistent_make_variables (consistent : plant.Consistent) (table : TableId)
    (registry : RegistryId) (verbose : Bool) (parts : List Config.Variable) :
    (plant.makeVariables table registry verbose parts).2.Consistent :=
  variables_keep Consistent table registry verbose
    (fun _ name value consistent => coherent_add_variable consistent (.create name value verbose) rfl)
    (fun next v c consistent => consistent_calm consistent (calm_follow next v c))
    (fun _ _ _ consistent => consistent_calm consistent (calm_same _ _ rfl)) parts plant consistent

theorem consistent_make_workspace (consistent : plant.Consistent) (config : Config) :
    (plant.makeWorkspace config).2.Consistent :=
  workspace_keep Consistent config
    (fun _ consistent => consistent_calm consistent (calm_same _ _ rfl))
    (fun next registry consistent => consistent_calm consistent (calm_make_devices next registry _ _))
    (fun next registry part consistent => consistent_calm consistent (calm_make_channel next registry _ part))
    (fun _ table registry consistent => consistent_make_variables consistent table registry _ _)
    (fun _ _ _ _ _ consistent => consistent_calm consistent (calm_same _ _ rfl)) plant consistent

theorem SequenceCall.consistent {command : SequenceCommand} (call : plant.SequenceCall command next)
    (consistent : plant.Consistent) : next.Consistent := by
  obtain calm | ⟨name, config, step, between, made, rfl⟩ := call.calm
  · exact consistent_calm consistent calm
  · have kept : between.Consistent := by
      obtain ⟨rfl, _⟩ | ⟨expression, t, built, _⟩ := step_made made
      · exact consistent
      · exact consistent_make_trigger consistent _ expression 1 t built
    exact coherent_desk kept _ rfl rfl

theorem WorkspaceCall.consistent {command : WorkspaceCommand} (call : plant.WorkspaceCall command next)
    (consistent : plant.Consistent) : next.Consistent := by
  cases call with
  | idle => exact consistent
  | fail document config => exact consistent_make_workspace consistent config
  | make document config =>
      exact consistent_calm (consistent_make_workspace consistent config) (calm_same _ _ rfl)
  | start devices _ started => exact consistent_calm consistent (calm_start_devices plant devices next started)
  | shutdown devices =>
      exact consistent_calm consistent (calm_foldl disposeDevice calm_dispose_device devices plant)
  | schedule name config pollInterval scheduled between made =>
      exact consistent_calm (consistent_make_schedule consistent _ _ config pollInterval scheduled made)
        (calm_same _ _ rfl)
  | startSchedule scheduled _ activated => exact consistent_calm consistent (calm_activate plant _ next activated)

theorem linked_keeps (linked : plant.Linked) (listeners : next.listeners = plant.listeners)
    (ties : next.tiesOf = plant.tiesOf) (tickets : next.tickets = plant.tickets)
    (kept : ∀ node ticket, next.Kept node ticket → plant.Kept node ticket ∨ plant.Foreign node ticket) :
    next.Linked := by
  refine ⟨?_, ?_, ?_, ?_, ?_⟩
  · rw [listeners, tickets]
    exact linked.issued
  · rw [listeners]
    exact linked.single
  · rw [listeners, ties]
    exact linked.tied
  · intro node ticket held
    have foreign : plant.Foreign node ticket := (kept node ticket held).elim (linked.kept node ticket) id
    refine ⟨tickets ▸ foreign.issued, ?_⟩
    rw [listeners]
    exact foreign.shared
  · rw [listeners]
    exact linked.layered

theorem observer_foreign (linked : plant.Linked) (node : Node) (ticket : Ticket) (observer : ObserverId)
    (member : ⟨ticket, .observer observer⟩ ∈ plant.listeners node) : plant.Foreign node ticket := by
  refine ⟨linked.issued node _ member, fun s other same => ?_⟩
  rw [linked.single node s other _ member same]
  rfl

theorem consistent_subscribe (consistent : plant.Consistent) (publisher : Publisher)
    (listener : Listener)
    (admitted : ∀ node, publisher = .node node → node.admits listener = true) :
    (plant.subscribe publisher listener).2.Consistent ∧
      ∀ node, publisher = .node node → Joins plant node listener (plant.subscribe publisher listener) := by
  have agreed : ∀ (node : Node) (result : Option Ticket × Plant),
      result.2.Coherent plant.agenda ∧ Joins plant node listener result →
        result.2.Consistent ∧
          ∀ other, Publisher.node node = .node other → Joins plant other listener result := by
    rintro node result ⟨coherent, joins⟩
    rw [← joins.agenda] at coherent
    refine ⟨coherent, fun other same => ?_⟩
    cases same
    exact joins
  cases publisher with
  | channel id =>
      exact ⟨consistent_calm consistent (calm_subscribe_channel plant id listener), nofun⟩
  | node node =>
      cases node with
      | var v => exact agreed _ _ (coherent_subscribe_variable consistent v listener (admitted _ rfl))
      | comparison c => exact agreed _ _ (coherent_subscribe_comparison consistent c listener (admitted _ rfl))
      | trigger t => exact agreed _ _ (coherent_subscribe_trigger consistent t listener (admitted _ rfl))

theorem calm_observer_for (plant : Plant) (publisher : Publisher) (id : String)
    (handler : Option String) (times : Nat) (script : List Command) (made : ObserverId)
    (found : plant.observerFor publisher id handler times script = some (made, next)) :
    Calm plant next := by
  obtain rfl | rfl := observer_made found
  · exact .refl _
  · cases publisher <;> exact calm_same _ _ rfl

theorem calm_send_again (plant : Plant) (publisher : Publisher) :
    Calm plant (plant.sendAgain publisher) := by
  cases publisher with
  | node node => exact .refl plant
  | channel id => exact calm_repeat_value plant id

theorem Joining.consistent {id : String} {handler : Option String} {times : Nat} {script : List Command}
    (call : plant.Joining id handler times script next) (consistent : plant.Consistent) : next.Consistent := by
  have joining (publisher : Publisher) (observer : ObserverId) (between : Plant)
      (made : plant.observerFor publisher id handler times script = some (observer, between)) :=
    consistent_subscribe (consistent_calm consistent
      (calm_observer_for plant publisher id handler times script observer made)) publisher
      (.observer observer) fun _ _ => rfl
  cases call with
  | idle => exact consistent
  | refuse publisher observer between made => exact (joining publisher observer between made).1
  | join publisher observer between ticket made joined =>
      obtain ⟨subscribed, joins⟩ := joining publisher observer between made
      refine ⟨?_, ?_, ?_⟩
      · refine linked_keeps subscribed.linked rfl rfl rfl fun node held kept => ?_
        rcases kept with known | ⟨job, member, same⟩
        · exact .inl (.inl known)
        · rcases List.mem_cons.mp member with rfl | old
          · cases same
            exact .inr (observer_foreign subscribed.linked node ticket observer ((joins node rfl).tells ticket joined))
          · exact .inl (.inr ⟨job, old, same⟩)
      · exact tuned_same subscribed.tuned (Nat.le_refl _) rfl rfl fun _ member => member
      · exact fresh_same subscribed.fresh rfl rfl rfl fun _ member => List.mem_cons_of_mem _ member

theorem SubscribeCall.consistent {id : String} {handler : Option String} {times : Nat} {script : List Command}
    (call : plant.SubscribeCall id handler times script next) (consistent : plant.Consistent) :
    next.Consistent := by
  cases call with
  | once _ first => exact first.consistent consistent
  | again publisher between first =>
      exact consistent_calm (first.consistent consistent) (calm_send_again between publisher)

theorem UnsubscribeCall.consistent {id : String} (call : plant.UnsubscribeCall id next)
    (consistent : plant.Consistent) : next.Consistent := by
  cases call with
  | idle => exact consistent
  | leave publisher ticket known =>
      cases publisher with
      | channel channel => exact consistent_calm consistent (calm_unsubscribe_channel plant channel ticket)
      | node node =>
          have loose : plant.Loose node ticket := kept_loose consistent.linked node ticket (.inl ⟨id, known⟩)
          cases node with
          | var v =>
              have coherent := coherent_unsubscribe_variable consistent v ticket loose
              rw [← (still_unsubscribe_variable plant v ticket).agenda] at coherent
              exact coherent
          | comparison c =>
              have coherent := coherent_unsubscribe_comparison consistent c ticket loose
              rw [← (still_unsubscribe_comparison plant c ticket).agenda] at coherent
              exact coherent
          | trigger t =>
              have coherent := coherent_unsubscribe_trigger consistent t ticket loose
              have agenda : (plant.unsubscribeTrigger t ticket).agenda = plant.agenda := by
                rw [unsubscribeTrigger]
                split <;> rfl
              rw [← agenda] at coherent
              exact coherent

theorem consistent_execute (consistent : plant.Consistent) (joined : ∀ t, plant.JoinedAt t)
    (command : Command) : (plant.execute command).2.Consistent := by
  cases command with
  | var command => exact (plant.variable_call command).consistent consistent
  | comparison command => exact (plant.comparison_call command).consistent consistent
  | trigger command => exact (plant.trigger_call command).consistent consistent joined
  | channel command => exact consistent_calm consistent (plant.channel_call command).calm
  | device command => exact consistent_calm consistent (plant.device_call command).calm
  | sequence command => exact (plant.sequence_call command).consistent consistent
  | workspace command => exact (plant.workspace_call command).consistent consistent
  | subscribe id source name handler sendNow times script =>
      exact (plant.subscribe_call id source name handler sendNow times script).consistent consistent
  | unsubscribe id => exact (plant.unsubscribe_call id).consistent consistent

end

end Interlock.Plant
