import Interlock.Proofs.Plant.Quiescence

/-!
What handlers hear of the graph. Comparisons and triggers that begin, end or go on with their work tell
handlers nothing themselves: they put deliveries on the agenda.
-/

set_option autoImplicit false

namespace Interlock

open Interlock.Calendar (Instant)
open Interlock.Graph
open Interlock.Schedule (Sequence)

def Entry.heard? (label : String) : Entry → Option Notification
  | .notified other notification => if other = label then some notification else none
  | _ => none

def Job.notice? (o : ObserverId) : Job → Option Notification
  | .deliver (.observer id) notification => if id = o then some notification else none
  | _ => none

namespace Plant

def heard (plant : Plant) (label : String) : List Notification :=
  plant.trace.reverse.filterMap (Entry.heard? label)

def notices (plant : Plant) (o : ObserverId) : List Notification :=
  plant.agenda.filterMap (Job.notice? o)

structure Hushed (plant next : Plant) : Prop where
  desk : next.desk = plant.desk
  sequences : next.sequences = plant.sequences
  observers : next.observers = plant.observers
  values : next.valueOf = plant.valueOf
  heard : next.heard = plant.heard
  own : ∀ t, next.listeners (.trigger t) = plant.listeners (.trigger t)
  listeners : ∀ node, ∀ s ∈ next.listeners node, s ∈ plant.listeners node ∨ s.listener.isShared = false

section

variable {plant next : Plant}

theorem heard_note (plant : Plant) (entry : Entry) (label : String) :
    (plant.note entry).heard label = plant.heard label ++ (entry.heard? label).toList := by
  rw [heard, heard, note, List.reverse_cons, List.filterMap_append]
  cases found : entry.heard? label <;> simp [found]

theorem notices_append (plant : Plant) (jobs : List Job) (o : ObserverId)
    (agenda : next.agenda = jobs ++ plant.agenda) :
    next.notices o = jobs.filterMap (Job.notice? o) ++ plant.notices o := by
  rw [notices, notices, agenda, List.filterMap_append]

def scene (plant : Plant) : Desk × List Sequence × List Observer × List Variable × List Comparison ×
    List Trigger × List Entry :=
  (plant.desk, plant.sequences, plant.observers, plant.vars, plant.comparisons, plant.triggers,
    plant.trace)

theorem hushed_same (plant next : Plant) (same : next.scene = plant.scene) : Hushed plant next := by
  simp only [scene, Prod.mk.injEq] at same
  obtain ⟨desk, sequences, observers, vars, comparisons, triggers, trace⟩ := same
  have listeners := listeners_same vars comparisons triggers
  refine ⟨desk, sequences, observers, ?_, ?_, fun t => by rw [listeners], fun node s member => ?_⟩
  · funext id
    rw [valueOf, valueOf, vars]
  · funext label
    rw [heard, heard, trace]
  · rw [listeners] at member
    exact .inl member

theorem Hushed.refl (plant : Plant) : Hushed plant plant := hushed_same plant plant rfl

theorem Hushed.trans {plant middle next : Plant} (first : Hushed plant middle)
    (second : Hushed middle next) : Hushed plant next where
  desk := second.desk.trans first.desk
  sequences := second.sequences.trans first.sequences
  observers := second.observers.trans first.observers
  values := second.values.trans first.values
  heard := second.heard.trans first.heard
  own t := (second.own t).trans (first.own t)
  listeners node s member := by
    rcases second.listeners node s member with old | inside
    · exact first.listeners node s old
    · exact .inr inside

theorem hushed_foldl {α : Type} (step : Plant → α → Plant)
    (each : ∀ plant item, Hushed plant (step plant item)) (items : List α) (plant : Plant) :
    Hushed plant (items.foldl step plant) :=
  foldl_keeps (Hushed plant) step (fun next item hushed => hushed.trans (each next item)) items plant
    (.refl plant)

theorem hushed_log (plant : Plant) (part : Log.Part) (level : Log.Level) (message : String)
    (details : List (String × Json.Tree)) : Hushed plant (plant.log part level message details) := by
  refine ⟨rfl, rfl, rfl, rfl, ?_, fun _ => rfl, fun _ _ member => .inl member⟩
  funext label
  rw [log, heard_note]
  exact List.append_nil _

theorem hushed_push (plant : Plant) (jobs : List Job) : Hushed plant (plant.push jobs) :=
  hushed_same plant _ rfl

theorem hushed_dispatch (plant : Plant) (change : Dispatcher → Dispatcher) :
    Hushed plant (plant.dispatch change) :=
  hushed_same plant _ rfl

theorem hushed_set_variable (v : VariableId) (var after : Variable) (there : plant.vars[v]? = some var)
    (value : after.value = var.value)
    (subscribers : ∀ s ∈ after.subscribers, s ∈ var.subscribers ∨ s.listener.isShared = false) :
    Hushed plant (plant.setVariable v after) := by
  refine ⟨rfl, rfl, rfl, values_set_variable v var after there value, rfl, fun _ => rfl, ?_⟩
  intro node s member
  rw [listeners_set_variable v var after there] at member
  by_cases own : node = .var v
  · subst own
    rw [Function.update_self] at member
    rw [listeners_var v var there]
    exact subscribers s member
  · rw [Function.update_of_ne own] at member
    exact .inl member

theorem hushed_set_comparison (c : ComparisonId) (comparison after : Comparison)
    (there : plant.comparisons[c]? = some comparison)
    (subscribers : ∀ s ∈ after.subscribers, s ∈ comparison.subscribers ∨ s.listener.isShared = false) :
    Hushed plant (plant.setComparison c after) := by
  refine ⟨rfl, rfl, rfl, rfl, rfl, fun _ => rfl, ?_⟩
  intro node s member
  rw [listeners_set_comparison c comparison after there] at member
  by_cases own : node = .comparison c
  · subst own
    rw [Function.update_self] at member
    rw [listeners_comparison c comparison there]
    exact subscribers s member
  · rw [Function.update_of_ne own] at member
    exact .inl member

theorem hushed_set_trigger (t : TriggerId) (trigger after : Trigger)
    (there : plant.triggers[t]? = some trigger) (subscribers : after.subscribers = trigger.subscribers) :
    Hushed plant (plant.setTrigger t after) := by
  have same : (plant.setTrigger t after).listeners = plant.listeners := by
    rw [listeners_set_trigger t trigger after there, subscribers, ← listeners_trigger t trigger there,
      Function.update_eq_self]
  refine ⟨rfl, rfl, rfl, rfl, rfl, fun _ => by rw [same], fun node s member => ?_⟩
  rw [same] at member
  exact .inl member

theorem remove_mem (subscribers : Subscribers) (ticket : Ticket) (s : Subscriber)
    (member : s ∈ subscribers.remove ticket) : s ∈ subscribers :=
  List.filter_sublist.subset member

theorem hushed_unsubscribe_variable (plant : Plant) (v : VariableId) (ticket : Ticket) :
    Hushed plant (plant.unsubscribeVariable v ticket) := by
  rw [unsubscribeVariable]
  split
  · exact .refl plant
  · next var there =>
      exact hushed_set_variable v var _ there rfl fun s member => .inl (remove_mem _ ticket s member)

theorem hushed_unsubscribe_comparison (plant : Plant) (c : ComparisonId) (ticket : Ticket) :
    Hushed plant (plant.unsubscribeComparison c ticket) := by
  rw [unsubscribeComparison]
  split
  · exact .refl plant
  · next comparison there =>
      exact hushed_set_comparison c comparison _ there fun s member => .inl (remove_mem _ ticket s member)

theorem hushed_deactivate_comparison (plant : Plant) (c : ComparisonId) :
    Hushed plant (plant.deactivateComparison c) := by
  rw [deactivateComparison]
  split
  · exact .refl plant
  · next comparison there =>
      have unlinked := hushed_foldl
        (fun plant (link : VariableId × Ticket) => plant.unsubscribeVariable link.1 link.2)
        (fun plant link => hushed_unsubscribe_variable plant link.1 link.2) comparison.links plant
      have comparisons := foldl_keeps (fun next => next.comparisons = plant.comparisons)
        (fun plant (link : VariableId × Ticket) => plant.unsubscribeVariable link.1 link.2)
        (fun next link same => (usage_unsubscribe_variable next link.1 link.2).2.trans same)
        comparison.links plant rfl
      refine unlinked.trans (hushed_set_comparison c comparison _ ?_ fun _ member => .inl member)
      rw [← there]
      exact congrArg (fun comparisons => comparisons[c]?) comparisons

theorem hushed_deactivate_trigger (plant : Plant) (t : TriggerId) :
    Hushed plant (plant.deactivateTrigger t) := by
  rw [deactivateTrigger]
  split
  · exact .refl plant
  · next trigger there =>
      split
      · have unlinked := fun plant : Plant => hushed_foldl
          (fun plant (link : ComparisonId × Ticket) => plant.unsubscribeComparison link.1 link.2)
          (fun plant link => hushed_unsubscribe_comparison plant link.1 link.2) trigger.links plant
        have stopped := fun plant : Plant => hushed_foldl deactivateComparison
          hushed_deactivate_comparison trigger.children plant
        have set := hushed_set_trigger t trigger trigger.halted there rfl
        exact set.trans ((unlinked _).trans ((stopped _).trans (hushed_log _ _ _ _ _)))
      · exact .refl plant

theorem hushed_deactivate_device (plant : Plant) (id : DeviceId) :
    Hushed plant (plant.deactivateDevice id) := by
  rw [deactivateDevice]
  split
  · exact .refl plant
  · split
    · refine Hushed.trans ?_ (hushed_log _ _ _ _ _)
      exact hushed_same plant _ rfl
    · exact .refl plant

theorem hushed_retire (plant : Plant) : Hushed plant plant.retire :=
  retire_keeps (Hushed plant)
    (fun next t hushed _ => hushed.trans (hushed_deactivate_trigger next t))
    (fun next c hushed => hushed.trans (hushed_deactivate_comparison next c))
    (fun next id hushed => hushed.trans (hushed_deactivate_device next id)) plant (.refl plant)

theorem add_mem (subscribers : Subscribers) (ticket : Ticket) (listener : Listener)
    (inside : listener.isShared = false) (s : Subscriber) (member : s ∈ subscribers.add ticket listener) :
    s ∈ subscribers ∨ s.listener.isShared = false := by
  rcases List.mem_append.mp member with old | new
  · exact .inl old
  · rw [List.mem_singleton.mp new]
    exact .inr inside

theorem hushed_subscribe_variable (plant : Plant) (v : VariableId) (c : ComparisonId) :
    Hushed plant (plant.subscribeVariable v (.comparison c)).2 := by
  rcases subscribe_variable_found plant v (.comparison c) with ⟨same, _⟩ | ⟨var, there, made⟩
  · rw [same]
    exact .refl plant
  · rw [made]
    have issued : Hushed plant plant.issueTicket.2 := hushed_same plant _ rfl
    exact issued.trans (hushed_set_variable v var _ there rfl (add_mem var.subscribers _ _ rfl))

theorem hushed_subscribe_comparison (plant : Plant) (c : ComparisonId) (t : TriggerId) :
    Hushed plant (plant.subscribeComparison c (.trigger t)).2 := by
  rcases subscribe_comparison_found plant c (.trigger t) with ⟨same, _⟩ | ⟨comparison, there, made⟩
  · rw [same]
    exact .refl plant
  · rw [made]
    have issued : Hushed plant plant.issueTicket.2 := hushed_same plant _ rfl
    exact issued.trans
      (hushed_set_comparison c comparison _ there (add_mem comparison.subscribers _ _ rfl))

theorem hushed_link_variables (plant : Plant) (c : ComparisonId) (vars : List VariableId) :
    Hushed plant (plant.linkVariables c vars).2 ∧
      (plant.linkVariables c vars).2.comparisons = plant.comparisons := by
  induction vars generalizing plant with
  | nil => exact ⟨.refl plant, rfl⟩
  | cons v rest ih =>
      have subscribed := hushed_subscribe_variable plant v c
      have comparisons :
          (plant.subscribeVariable v (.comparison c)).2.comparisons = plant.comparisons := by
        rcases subscribe_variable_found plant v (.comparison c) with ⟨same, _⟩ | ⟨var, _, made⟩
        · rw [same]
        · rw [made]
          rfl
      rw [linkVariables]
      split
      · next ticket between result =>
          rw [result] at subscribed comparisons
          obtain ⟨hushed, same⟩ := ih between
          exact ⟨subscribed.trans hushed, same.trans comparisons⟩
      · next between result =>
          rw [result] at subscribed comparisons
          obtain ⟨hushed, same⟩ := ih between
          exact ⟨subscribed.trans hushed, same.trans comparisons⟩

theorem hushed_activate_comparison (plant : Plant) (c : ComparisonId) :
    Hushed plant (plant.activateComparison c) := by
  rw [activateComparison]
  split
  · exact .refl plant
  · next comparison there =>
      split
      · exact .refl plant
      · obtain ⟨hushed, comparisons⟩ := hushed_link_variables plant c comparison.relation.vars
        refine hushed.trans (hushed_set_comparison c comparison _ ?_ fun _ member => .inl member)
        rw [comparisons]
        exact there

theorem hushed_link_children (plant : Plant) (t : TriggerId) (children : List ComparisonId) :
    Hushed plant (plant.linkChildren t children).2 :=
  link_children_keep (Hushed plant) t (fun next c hushed => hushed.trans (hushed_activate_comparison next c))
    (fun next c hushed => hushed.trans (hushed_subscribe_comparison next c t)) children plant (.refl plant)

theorem hushed_add_comparison (plant : Plant) (comparison : Comparison)
    (unheard : comparison.subscribers = []) : Hushed plant (plant.addComparison comparison).2 := by
  have same : (plant.addComparison comparison).2.listeners = plant.listeners :=
    listeners_add_comparison comparison unheard
  refine ⟨rfl, rfl, rfl, rfl, rfl, fun _ => rfl, fun node s member => ?_⟩
  rw [same] at member
  exact .inl member

theorem hushed_make_comparison (plant : Plant) (table : TableId) (text : String) (c : ComparisonId)
    (made : plant.makeComparison table text = .ok (c, next)) : Hushed plant next := by
  obtain ⟨_, _, _, rfl⟩ := comparison_made made
  have read : Hushed plant plant.readClock.2 := hushed_same plant _ rfl
  exact read.trans (hushed_add_comparison _ _ rfl)

theorem hushed_children_of (plant : Plant) (trigger : Trigger) (children : List ComparisonId)
    (made : plant.childrenOf trigger = .ok (children, next)) : Hushed plant next := by
  obtain ⟨_, built⟩ | ⟨_, _, rfl⟩ := children_made made
  · exact comparisons_keep (Hushed plant)
      (fun between table text c _ hushed one => hushed.trans (hushed_make_comparison between table text c one))
      _ _ children built (.refl plant)
  · exact .refl _

end

end Plant

end Interlock
