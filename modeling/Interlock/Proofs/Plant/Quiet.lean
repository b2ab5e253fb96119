import Interlock.Proofs.Plant.Inversion

/-!
What happens apart from the sequences. Graph, channels and devices put jobs in front of the agenda and
entries in front of the trace, but none that belong to a sequence, and they leave the sequences as they
are. Most of them leave the triggers as they are, too.
-/

set_option autoImplicit false

namespace Interlock

open Interlock.Graph
open Interlock.Schedule (SequenceId)

def Job.owner? : Job → Option SequenceId
  | .announce id _ | .begin id | .act id _ | .arm id | .wait id | .disarm id | .next id
  | .complete id => some id
  | _ => none

def Job.exhausted? : Job → Option TriggerId
  | .exhaust id => some id
  | _ => none

def Job.isPlain (job : Job) : Prop := job.owner? = none ∧ job.exhausted? = none

def Entry.teller? : Entry → Option SequenceId
  | .announced id _ => some id
  | _ => none

namespace Plant

def Adds (kind : Job → Prop) (plant next : Plant) : Prop :=
  ∃ jobs, next.agenda = jobs ++ plant.agenda ∧ ∀ job ∈ jobs, kind job

def Notes (plant next : Plant) : Prop :=
  ∃ entries, next.trace = entries ++ plant.trace ∧ ∀ entry ∈ entries, entry.teller? = none

def Bound (plant next : Plant) : Prop :=
  ∀ (id : ComparisonId) (comparison : Comparison), plant.comparisons[id]? = some comparison →
    ∃ after : Comparison, next.comparisons[id]? = some after ∧
      after.expression = comparison.expression ∧ after.relation = comparison.relation

structure Quiet (plant next : Plant) : Prop where
  sequences : next.sequences = plant.sequences
  agenda : Adds (fun job => job.owner? = none) plant next
  trace : Notes plant next
  comparisons : Bound plant next

structure Inert (plant next : Plant) : Prop where
  sequences : next.sequences = plant.sequences
  agenda : Adds Job.isPlain plant next
  trace : Notes plant next
  comparisons : Bound plant next
  triggers : next.triggers = plant.triggers

theorem adds_refl (kind : Job → Prop) (plant : Plant) : Adds kind plant plant :=
  ⟨[], rfl, by simp⟩

theorem adds_trans (kind : Job → Prop) (plant middle next : Plant) (first : Adds kind plant middle)
    (second : Adds kind middle next) : Adds kind plant next := by
  obtain ⟨jobs, grown, each⟩ := first
  obtain ⟨more, regrown, every⟩ := second
  refine ⟨more ++ jobs, by rw [regrown, grown, List.append_assoc], ?_⟩
  intro job member
  rcases List.mem_append.mp member with late | early
  · exact every job late
  · exact each job early

theorem adds_weaken (kind other : Job → Prop) (weaker : ∀ job, kind job → other job)
    (plant next : Plant) (added : Adds kind plant next) : Adds other plant next := by
  obtain ⟨jobs, grown, each⟩ := added
  exact ⟨jobs, grown, fun job member => weaker job (each job member)⟩

theorem notes_trans (plant middle next : Plant) (first : Notes plant middle)
    (second : Notes middle next) : Notes plant next := by
  obtain ⟨entries, grown, each⟩ := first
  obtain ⟨more, regrown, every⟩ := second
  refine ⟨more ++ entries, by rw [regrown, grown, List.append_assoc], ?_⟩
  intro entry member
  rcases List.mem_append.mp member with late | early
  · exact every entry late
  · exact each entry early

theorem bound_refl (plant next : Plant) (same : next.comparisons = plant.comparisons) :
    Bound plant next := fun id comparison found => ⟨comparison, by rw [same, found], rfl, rfl⟩

theorem bound_trans (plant middle next : Plant) (first : Bound plant middle)
    (second : Bound middle next) : Bound plant next := by
  intro id comparison found
  obtain ⟨between, there, expression, relation⟩ := first id comparison found
  obtain ⟨after, still, sameExpression, sameRelation⟩ := second id between there
  exact ⟨after, still, sameExpression.trans expression, sameRelation.trans relation⟩

theorem quiet_same (plant next : Plant) (sequences : next.sequences = plant.sequences)
    (agenda : next.agenda = plant.agenda) (trace : next.trace = plant.trace)
    (comparisons : next.comparisons = plant.comparisons) : Quiet plant next :=
  ⟨sequences, ⟨[], agenda, by simp⟩, ⟨[], trace, by simp⟩, bound_refl plant next comparisons⟩

theorem inert_same (plant next : Plant) (sequences : next.sequences = plant.sequences)
    (agenda : next.agenda = plant.agenda) (trace : next.trace = plant.trace)
    (comparisons : next.comparisons = plant.comparisons)
    (triggers : next.triggers = plant.triggers) : Inert plant next :=
  ⟨sequences, ⟨[], agenda, by simp⟩, ⟨[], trace, by simp⟩, bound_refl plant next comparisons, triggers⟩

theorem Quiet.refl (plant : Plant) : Quiet plant plant := quiet_same plant plant rfl rfl rfl rfl

theorem Inert.refl (plant : Plant) : Inert plant plant := inert_same plant plant rfl rfl rfl rfl rfl

theorem Quiet.trans {plant middle next : Plant} (first : Quiet plant middle)
    (second : Quiet middle next) : Quiet plant next :=
  ⟨second.sequences.trans first.sequences, adds_trans _ _ _ _ first.agenda second.agenda,
    notes_trans _ _ _ first.trace second.trace, bound_trans _ _ _ first.comparisons second.comparisons⟩

theorem Inert.trans {plant middle next : Plant} (first : Inert plant middle)
    (second : Inert middle next) : Inert plant next :=
  ⟨second.sequences.trans first.sequences, adds_trans _ _ _ _ first.agenda second.agenda,
    notes_trans _ _ _ first.trace second.trace, bound_trans _ _ _ first.comparisons second.comparisons,
    second.triggers.trans first.triggers⟩

theorem Inert.quiet {plant next : Plant} (inert : Inert plant next) : Quiet plant next :=
  ⟨inert.sequences, adds_weaken _ _ (fun _ plain => plain.1) _ _ inert.agenda, inert.trace,
    inert.comparisons⟩

theorem inert_foldl {α : Type} (step : Plant → α → Plant)
    (each : ∀ plant item, Inert plant (step plant item)) (items : List α) (plant : Plant) :
    Inert plant (items.foldl step plant) := by
  induction items generalizing plant with
  | nil => exact .refl plant
  | cons item rest ih => exact (each plant item).trans (ih _)

theorem quiet_foldl {α : Type} (step : Plant → α → Plant)
    (each : ∀ plant item, Quiet plant (step plant item)) (items : List α) (plant : Plant) :
    Quiet plant (items.foldl step plant) := by
  induction items generalizing plant with
  | nil => exact .refl plant
  | cons item rest ih => exact (each plant item).trans (ih _)

theorem inert_read_clock (plant : Plant) : Inert plant plant.readClock.2 :=
  inert_same _ _ rfl rfl rfl rfl rfl

theorem inert_issue_ticket (plant : Plant) : Inert plant plant.issueTicket.2 :=
  inert_same _ _ rfl rfl rfl rfl rfl

theorem inert_note (plant : Plant) (entry : Entry) (foreign : entry.teller? = none) :
    Inert plant (plant.note entry) :=
  ⟨rfl, ⟨[], rfl, by simp⟩, ⟨[entry], rfl, by simpa using foreign⟩, bound_refl _ _ rfl, rfl⟩

theorem inert_log (plant : Plant) (part : Log.Part) (level : Log.Level) (message : String)
    (details : List (String × Json.Tree)) : Inert plant (plant.log part level message details) :=
  inert_note plant _ rfl

theorem inert_push (plant : Plant) (jobs : List Job) (plain : ∀ job ∈ jobs, job.isPlain) :
    Inert plant (plant.push jobs) :=
  ⟨rfl, ⟨jobs, rfl, plain⟩, ⟨[], rfl, by simp⟩, bound_refl _ _ rfl, rfl⟩

theorem quiet_push (plant : Plant) (jobs : List Job) (foreign : ∀ job ∈ jobs, job.owner? = none) :
    Quiet plant (plant.push jobs) :=
  ⟨rfl, ⟨jobs, rfl, foreign⟩, ⟨[], rfl, by simp⟩, bound_refl _ _ rfl⟩

theorem inert_dispatch (plant : Plant) (change : Dispatcher → Dispatcher) :
    Inert plant (plant.dispatch change) := inert_same _ _ rfl rfl rfl rfl rfl

theorem inert_keep (plant : Plant) (change : Desk → Desk) : Inert plant (plant.keep change) :=
  inert_same _ _ rfl rfl rfl rfl rfl

theorem inert_set_variable (plant : Plant) (id : VariableId) (var : Variable) :
    Inert plant (plant.setVariable id var) := inert_same _ _ rfl rfl rfl rfl rfl

theorem inert_set_channel (plant : Plant) (id : ChannelId) (channel : Channel) :
    Inert plant (plant.setChannel id channel) := inert_same _ _ rfl rfl rfl rfl rfl

theorem inert_set_device (plant : Plant) (id : DeviceId) (device : Device) :
    Inert plant (plant.setDevice id device) := inert_same _ _ rfl rfl rfl rfl rfl

theorem inert_set_observer (plant : Plant) (id : ObserverId) (observer : Observer) :
    Inert plant (plant.setObserver id observer) := inert_same _ _ rfl rfl rfl rfl rfl

theorem inert_set_table (plant : Plant) (id : TableId) (table : Directory) :
    Inert plant (plant.setTable id table) := inert_same _ _ rfl rfl rfl rfl rfl

theorem inert_set_registry (plant : Plant) (id : Schedule.RegistryId) (registry : Directory) :
    Inert plant (plant.setRegistry id registry) := inert_same _ _ rfl rfl rfl rfl rfl

theorem inert_add_variable (plant : Plant) (var : Variable) : Inert plant (plant.addVariable var).2 :=
  inert_same _ _ rfl rfl rfl rfl rfl

theorem inert_add_channel (plant : Plant) (channel : Channel) :
    Inert plant (plant.addChannel channel).2 := inert_same _ _ rfl rfl rfl rfl rfl

theorem inert_add_device (plant : Plant) (device : Device) : Inert plant (plant.addDevice device).2 :=
  inert_same _ _ rfl rfl rfl rfl rfl

theorem inert_add_observer (plant : Plant) (observer : Observer) :
    Inert plant (plant.addObserver observer).2 := inert_same _ _ rfl rfl rfl rfl rfl

theorem quiet_set_trigger (plant : Plant) (id : TriggerId) (trigger : Trigger) :
    Quiet plant (plant.setTrigger id trigger) := quiet_same _ _ rfl rfl rfl rfl

theorem quiet_add_trigger (plant : Plant) (trigger : Trigger) :
    Quiet plant (plant.addTrigger trigger).2 := quiet_same _ _ rfl rfl rfl rfl

theorem inert_set_comparison (plant : Plant) (id : ComparisonId) (comparison after : Comparison)
    (found : plant.comparisons[id]? = some comparison)
    (expression : after.expression = comparison.expression)
    (relation : after.relation = comparison.relation) : Inert plant (plant.setComparison id after) := by
  refine ⟨rfl, ⟨[], rfl, by simp⟩, ⟨[], rfl, by simp⟩, ?_, rfl⟩
  intro other original there
  by_cases same : other = id
  · subst other
    rw [found] at there
    cases there
    have bound := (List.getElem?_eq_some_iff.mp found).1
    exact ⟨after, by simp [setComparison, bound], expression, relation⟩
  · exact ⟨original, by simpa [setComparison, List.getElem?_set, Ne.symm same] using there, rfl, rfl⟩

theorem inert_add_comparison (plant : Plant) (comparison : Comparison) :
    Inert plant (plant.addComparison comparison).2 := by
  refine ⟨rfl, ⟨[], rfl, by simp⟩, ⟨[], rfl, by simp⟩, ?_, rfl⟩
  intro id original there
  have bound := (List.getElem?_eq_some_iff.mp there).1
  exact ⟨original, by simpa [addComparison, List.getElem?_append_left bound] using there, rfl, rfl⟩

theorem deliveries_plain (subscribers : Subscribers) (notification : Notification) :
    ∀ job ∈ subscribers.map fun subscriber => Job.deliver subscriber.listener notification,
      job.isPlain := by
  intro job member
  obtain ⟨subscriber, _, rfl⟩ := List.mem_map.mp member
  exact ⟨rfl, rfl⟩

theorem inert_publish (plant : Plant) (subscribers : Subscribers) (notification : Notification)
    (after : List Job) (plain : ∀ job ∈ after, job.isPlain) :
    Inert plant (plant.publish subscribers notification after) := by
  refine inert_push plant _ fun job member => ?_
  rcases List.mem_append.mp member with delivery | behind
  · exact deliveries_plain subscribers notification job delivery
  · exact plain job behind

theorem leave_plain (node : Node) : ∀ job ∈ [Job.leave node], job.isPlain := by
  intro job member
  rw [List.mem_singleton.mp member]
  exact ⟨rfl, rfl⟩

theorem inert_assign (plant : Plant) (id : VariableId) (var : Variable) (value : Value) :
    Inert plant (plant.assign id var value).2 := by
  have read := inert_read_clock plant
  unfold assign
  dsimp only
  split
  · exact read
  · rename_i change next assigned
    exact read.trans ((inert_set_variable _ id next).trans ((inert_log _ _ _ _ _).trans
      (inert_publish _ _ _ _ (leave_plain _))))

theorem inert_subscribe_variable (plant : Plant) (id : VariableId) (listener : Listener) :
    Inert plant (plant.subscribeVariable id listener).2 := by
  unfold subscribeVariable
  split
  · exact .refl plant
  · split
    · exact .refl plant
    · exact (inert_issue_ticket plant).trans (inert_set_variable _ _ _)

theorem inert_unsubscribe_variable (plant : Plant) (id : VariableId) (ticket : Ticket) :
    Inert plant (plant.unsubscribeVariable id ticket) := by
  unfold unsubscribeVariable
  split
  · exact .refl plant
  · exact inert_set_variable _ _ _

theorem inert_refresh (plant : Plant) (id : ComparisonId) (comparison : Comparison)
    (stamp : Calendar.Instant) (found : plant.comparisons[id]? = some comparison) :
    Inert plant (plant.refresh id comparison stamp).2 := by
  have sampled := inert_set_comparison plant id comparison
    { comparison with latest := plant.sample comparison } found rfl rfl
  exact sampled.trans ((inert_log _ _ _ _ _).trans (inert_publish _ _ _ _ (leave_plain _)))

theorem inert_link_variables (plant : Plant) (id : ComparisonId) (vars : List VariableId) :
    Inert plant (plant.linkVariables id vars).2 :=
  link_variables_keep (Inert plant) id (fun next v inert => inert.trans (inert_subscribe_variable next v _))
    vars plant (.refl plant)

theorem inert_then_set_comparison (plant next : Plant) (inert : Inert plant next) (id : ComparisonId)
    (comparison after : Comparison) (found : plant.comparisons[id]? = some comparison)
    (expression : after.expression = comparison.expression)
    (relation : after.relation = comparison.relation) :
    Inert plant (next.setComparison id after) := by
  obtain ⟨between, there, sameExpression, sameRelation⟩ := inert.comparisons id comparison found
  exact inert.trans (inert_set_comparison next id between after there
    (expression.trans sameExpression.symm) (relation.trans sameRelation.symm))

theorem inert_activate_comparison (plant : Plant) (id : ComparisonId) :
    Inert plant (plant.activateComparison id) := by
  unfold activateComparison
  split
  · exact .refl plant
  · rename_i comparison found
    split
    · exact .refl plant
    · exact inert_then_set_comparison plant _ (inert_link_variables plant id _) id comparison _ found
        rfl rfl

theorem inert_deactivate_comparison (plant : Plant) (id : ComparisonId) :
    Inert plant (plant.deactivateComparison id) := by
  unfold deactivateComparison
  split
  · exact .refl plant
  · rename_i comparison found
    have unlinked := inert_foldl
      (fun plant (link : VariableId × Ticket) => plant.unsubscribeVariable link.1 link.2)
      (fun plant link => inert_unsubscribe_variable plant link.1 link.2) comparison.links plant
    exact inert_then_set_comparison plant _ unlinked id comparison _ found rfl rfl

theorem inert_subscribe_comparison (plant : Plant) (id : ComparisonId) (listener : Listener) :
    Inert plant (plant.subscribeComparison id listener).2 := by
  unfold subscribeComparison
  split
  · exact .refl plant
  · rename_i comparison found
    split
    · exact .refl plant
    · exact inert_then_set_comparison plant _ (inert_issue_ticket plant) id comparison _ found rfl rfl

theorem inert_unsubscribe_comparison (plant : Plant) (id : ComparisonId) (ticket : Ticket) :
    Inert plant (plant.unsubscribeComparison id ticket) := by
  unfold unsubscribeComparison
  split
  · exact .refl plant
  · rename_i comparison found
    exact inert_set_comparison plant id comparison _ found rfl rfl

theorem inert_make_comparison (plant : Plant) (table : TableId) (text : String) (id : ComparisonId)
    (next : Plant) (made : plant.makeComparison table text = .ok (id, next)) : Inert plant next := by
  obtain ⟨_, _, _, rfl⟩ := comparison_made made
  exact (inert_read_clock plant).trans (inert_add_comparison _ _)

theorem inert_make_comparisons (plant : Plant) (table : TableId) (atoms : List String)
    (ids : List ComparisonId) (next : Plant)
    (made : plant.makeComparisons table atoms = .ok (ids, next)) : Inert plant next :=
  comparisons_keep (Inert plant)
    (fun between table text c next inert built => inert.trans (inert_make_comparison between table text c next built))
    table atoms ids made (.refl plant)

theorem quiet_make_trigger (plant : Plant) (table : TableId) (expression : String) (times : Int)
    (id : TriggerId) (next : Plant)
    (made : plant.makeTrigger table expression times = .ok (id, next)) : Quiet plant next := by
  obtain ⟨_, children, after, _, found, _, rfl⟩ := trigger_made made
  exact (inert_make_comparisons plant table _ children after found).quiet.trans (quiet_add_trigger after _)

theorem inert_wake_waiting (plant : Plant) (id : TriggerId) : Inert plant (plant.wakeWaiting id) := by
  refine inert_foldl _ (fun plant item => ?_) _ plant
  obtain ⟨sequence, place⟩ := item
  dsimp only
  split
  · split
    · exact inert_dispatch _ _
    · exact .refl plant
  · exact .refl plant

theorem quiet_publish (plant : Plant) (subscribers : Subscribers) (notification : Notification)
    (after : List Job) (foreign : ∀ job ∈ after, job.owner? = none) :
    Quiet plant (plant.publish subscribers notification after) := by
  refine quiet_push plant _ fun job member => ?_
  rcases List.mem_append.mp member with delivery | behind
  · exact (deliveries_plain subscribers notification job delivery).1
  · exact foreign job behind

theorem quiet_evaluate (plant : Plant) (id : TriggerId) (trigger : Trigger)
    (stamp : Calendar.Instant) : Quiet plant (plant.evaluate id trigger stamp).2 := by
  unfold evaluate
  split
  · exact .refl plant
  · rename_i found evaluated
    have told : Quiet plant ((plant.setTrigger id found.trigger).wakeWaiting id) :=
      (quiet_set_trigger plant id found.trigger).trans (inert_wake_waiting _ id).quiet
    have foreign : ∀ job ∈ (if found.exhausted then [Job.exhaust id] else []) ++
        [Job.leave (.trigger id)], job.owner? = none := by
      intro job member
      rcases List.mem_append.mp member with last | behind
      · split at last
        · rw [List.mem_singleton.mp last]
          rfl
        · contradiction
      · rw [List.mem_singleton.mp behind]
        rfl
    dsimp only
    split
    · exact told.trans ((inert_log _ _ _ _ _).quiet.trans (quiet_publish _ _ _ _ foreign))
    · exact told.trans (quiet_publish _ _ _ _ foreign)

theorem quiet_evaluate_now (plant : Plant) (id : TriggerId) (trigger : Trigger) :
    Quiet plant (plant.evaluateNow id trigger).2 :=
  (inert_read_clock plant).quiet.trans (quiet_evaluate plant.readClock.2 id trigger plant.readClock.1)

theorem quiet_deactivate_trigger (plant : Plant) (id : TriggerId) :
    Quiet plant (plant.deactivateTrigger id) := by
  unfold deactivateTrigger
  split
  · exact .refl plant
  · rename_i trigger found
    split
    · have unlinked := fun plant : Plant => inert_foldl
        (fun plant (link : ComparisonId × Ticket) => plant.unsubscribeComparison link.1 link.2)
        (fun plant link => inert_unsubscribe_comparison plant link.1 link.2) trigger.links plant
      have stopped := fun plant : Plant => inert_foldl deactivateComparison
        inert_deactivate_comparison trigger.children plant
      exact (quiet_set_trigger plant id _).trans ((unlinked _).quiet.trans ((stopped _).quiet.trans
        (inert_log _ _ _ _ _).quiet))
    · exact .refl plant

theorem inert_link_children (plant : Plant) (id : TriggerId) (children : List ComparisonId) :
    Inert plant (plant.linkChildren id children).2 :=
  link_children_keep (Inert plant) id (fun next c inert => inert.trans (inert_activate_comparison next c))
    (fun next c inert => inert.trans (inert_subscribe_comparison next c _)) children plant (.refl plant)

theorem inert_children_of (plant : Plant) (trigger : Trigger) (children : List ComparisonId)
    (next : Plant) (made : plant.childrenOf trigger = .ok (children, next)) : Inert plant next := by
  obtain ⟨_, built⟩ | ⟨_, _, rfl⟩ := children_made made
  · exact inert_make_comparisons plant _ _ children next built
  · exact .refl _

theorem quiet_activate_trigger (plant : Plant) (id : TriggerId) (trigger : Trigger) (next : Plant)
    (activated : plant.activateTrigger id trigger = .ok next) : Quiet plant next := by
  cases activation activated with
  | spent => exact (inert_log _ _ _ _ _).quiet
  | active => exact .refl plant
  | begun _ _ children between _ made ran =>
      have linked := (inert_children_of plant trigger children between made).trans
        (inert_link_children between id children)
      have engaged : Quiet plant (between.engage id trigger children) :=
        linked.quiet.trans ((quiet_set_trigger _ id _).trans (inert_log _ _ _ _ _).quiet)
      have evaluated := engaged.trans (quiet_evaluate_now _ id
        (trigger.started children (between.childLinks id children)))
      obtain rfl | ⟨_, details, _, rfl⟩ := ran
      · exact evaluated
      · exact evaluated.trans (inert_log _ _ _ _ _).quiet

theorem quiet_rearm_trigger (plant : Plant) (id : TriggerId) : Quiet plant (plant.rearmTrigger id) := by
  unfold rearmTrigger
  split
  · exact .refl plant
  · split
    · exact .refl plant
    · exact (quiet_set_trigger plant id _).trans (inert_wake_waiting _ id).quiet

theorem quiet_subscribe_trigger (plant : Plant) (id : TriggerId) (listener : Listener) :
    Quiet plant (plant.subscribeTrigger id listener).2 := by
  unfold subscribeTrigger
  split
  · exact .refl plant
  · split
    · exact .refl plant
    · exact (inert_issue_ticket plant).quiet.trans (quiet_set_trigger _ _ _)

theorem quiet_unsubscribe_trigger (plant : Plant) (id : TriggerId) (ticket : Ticket) :
    Quiet plant (plant.unsubscribeTrigger id ticket) := by
  unfold unsubscribeTrigger
  split
  · exact .refl plant
  · exact quiet_set_trigger _ _ _

theorem quiet_hear (plant : Plant) (id : TriggerId) (stamp : Calendar.Instant) :
    Quiet plant (plant.hear id stamp) := by
  obtain same | ⟨trigger, _, _, _, same | ⟨details, same⟩⟩ := hear_cases plant id stamp
  · rw [same]
    exact .refl plant
  · rw [same]
    exact quiet_evaluate plant id trigger stamp
  · rw [same]
    exact (quiet_evaluate plant id trigger stamp).trans (inert_log _ _ _ _ _).quiet

theorem inert_hear_variable (plant : Plant) (id : ComparisonId) (stamp : Calendar.Instant) :
    Inert plant (plant.hearVariable id stamp) := by
  unfold hearVariable
  split
  · exact .refl plant
  · rename_i comparison found
    split
    · exact inert_refresh plant id comparison stamp found
    · exact .refl plant

theorem quiet_retire_nodes (plant : Plant) : Quiet plant plant.retireNodes := by
  refine Quiet.trans (quiet_foldl _ (fun plant item => ?_) _ plant)
    (quiet_foldl _ (fun plant item => ?_) _ _)
  · obtain ⟨trigger, id⟩ := item
    dsimp only
    split
    · exact quiet_deactivate_trigger plant id
    · exact .refl plant
  · obtain ⟨comparison, id⟩ := item
    dsimp only
    split
    · exact (inert_deactivate_comparison plant id).quiet
    · exact .refl plant

theorem tells_plain (subscribers : Subscribers) (event : Event) :
    ∀ job ∈ subscribers.map fun subscriber => Job.tell subscriber.listener event, job.isPlain := by
  intro job member
  obtain ⟨subscriber, _, rfl⟩ := List.mem_map.mp member
  exact ⟨rfl, rfl⟩

theorem inert_notify (plant : Plant) (id : ChannelId) (event : Event) :
    Inert plant (plant.notify id event).2 := by
  unfold notify
  split
  · exact .refl plant
  · rename_i channel found
    dsimp only
    split
    · have told := fun plant : Plant => inert_push plant _ (tells_plain channel.subscribers event)
      split
      · exact (inert_log _ _ _ _ _).trans (told _)
      · exact (inert_log _ _ _ _ _).trans (told _)
    · exact inert_log _ _ _ _ _

theorem inert_write (plant : Plant) (id : ChannelId) (value : Value) :
    Inert plant (plant.write id value) := by
  unfold write
  split
  · exact .refl plant
  · exact (inert_read_clock plant).trans ((inert_set_channel _ id _).trans (inert_notify _ id _))

theorem inert_unsubscribe_channel (plant : Plant) (id : ChannelId) (ticket : Ticket) :
    Inert plant (plant.unsubscribeChannel id ticket) := by
  unfold unsubscribeChannel
  split
  · exact .refl plant
  · exact inert_set_channel _ _ _

theorem inert_repeat_value (plant : Plant) (id : ChannelId) : Inert plant (plant.repeatValue id) := by
  unfold repeatValue
  split
  · exact .refl plant
  · split
    · exact .refl plant
    · exact (inert_read_clock plant).trans (inert_notify _ id _)

theorem inert_subscribe_channel (plant : Plant) (id : ChannelId) (listener : Listener) :
    Inert plant (plant.subscribeChannel id listener).2 := by
  unfold subscribeChannel
  split
  · exact .refl plant
  · split
    · exact .refl plant
    · exact (inert_issue_ticket plant).trans (inert_set_channel _ _ _)

theorem inert_follow (plant : Plant) (var : VariableId) (id : ChannelId) :
    Inert plant (plant.follow var id).2 := by
  unfold follow
  split
  · exact .refl plant
  · exact inert_subscribe_channel plant id _

theorem inert_take_over (plant : Plant) (id : VariableId) (source : String) (event : Event) :
    Inert plant (plant.takeOver id source event) := by
  obtain same | ⟨var, value, _, _, _, same | ⟨details, same⟩⟩ := plant.take_over_cases id source event <;> rw [same]
  · exact .refl plant
  · exact inert_assign plant id var value
  · exact (inert_assign plant id var value).trans (inert_log _ _ _ _ _)

theorem inert_set_active (plant : Plant) (id : ChannelId) (active : Bool) :
    Inert plant (plant.setActive id active) := by
  unfold setActive
  split
  · exact .refl plant
  · exact inert_set_channel _ _ _

theorem inert_clear_subscribers (plant : Plant) (id : ChannelId) :
    Inert plant (plant.clearSubscribers id) := by
  unfold clearSubscribers
  split
  · exact .refl plant
  · exact inert_set_channel _ _ _

theorem inert_register (plant : Plant) (registry : Schedule.RegistryId) (path : String)
    (id : ChannelId) : Inert plant (plant.register registry path id).2 :=
  (inert_log plant _ _ _ _).trans (inert_set_registry _ _ _)

theorem inert_attach (plant : Plant) (id : DeviceId) (channel : ChannelId) :
    Inert plant (plant.attach id channel).2 := by
  unfold attach
  split
  · dsimp only
    split
    · exact inert_log _ _ _ _ _
    · exact (inert_set_active plant channel true).trans ((inert_set_device _ _ _).trans
        (inert_log _ _ _ _ _))
  · exact .refl plant

theorem inert_detach (plant : Plant) (id : DeviceId) (logical : String) :
    Inert plant (plant.detach id logical).2 := by
  unfold detach
  split
  · exact .refl plant
  · split
    · exact .refl plant
    · exact (inert_set_device _ _ _).trans (inert_set_active _ _ _)

theorem inert_register_attached (plant : Plant) (id : DeviceId) (registry : Schedule.RegistryId) :
    Inert plant (plant.registerAttached id registry) := by
  unfold registerAttached
  split
  · exact .refl plant
  · refine inert_foldl _ (fun plant channel => ?_) _ plant
    split
    · exact .refl plant
    · exact inert_register plant registry _ channel

theorem writes_plain (channels : List ChannelId) (value : Value) :
    ∀ job ∈ channels.map fun channel => Job.write channel value, job.isPlain := by
  intro job member
  obtain ⟨channel, _, rfl⟩ := List.mem_map.mp member
  exact ⟨rfl, rfl⟩

theorem inert_poll (plant : Plant) (id : DeviceId) (next : Plant) (polled : plant.poll id = .ok next) :
    Inert plant next := by
  unfold poll at polled
  split at polled
  · cases polled
    exact .refl plant
  · split at polled
    · cases polled
      exact (inert_read_clock plant).trans (inert_push _ _ (writes_plain _ _))
    · contradiction
    · cases polled
      exact (inert_set_device plant id _).trans (inert_push _ _ (writes_plain _ _))

theorem inert_activate_device (plant : Plant) (id : DeviceId) (next : Plant)
    (activated : plant.activateDevice id = .ok next) : Inert plant next := by
  unfold activateDevice at activated
  split at activated
  · cases activated
    exact .refl plant
  · split at activated
    · contradiction
    · split at activated
      · cases activated
        exact .refl plant
      · cases activated
        exact (inert_set_device plant id _).trans ((inert_dispatch _ _).trans (inert_log _ _ _ _ _))

theorem inert_deactivate_device (plant : Plant) (id : DeviceId) :
    Inert plant (plant.deactivateDevice id) := by
  unfold deactivateDevice
  split
  · exact .refl plant
  · split
    · exact (inert_set_device plant id _).trans ((inert_dispatch _ _).trans (inert_log _ _ _ _ _))
    · exact .refl plant

theorem inert_retire_devices (plant : Plant) : Inert plant plant.retireDevices := by
  refine inert_foldl _ (fun plant item => ?_) _ plant
  obtain ⟨device, id⟩ := item
  dsimp only
  split
  · exact inert_deactivate_device plant id
  · exact .refl plant

theorem inert_dispose_device (plant : Plant) (id : DeviceId) : Inert plant (plant.disposeDevice id) := by
  have stopped := inert_deactivate_device plant id
  unfold disposeDevice
  dsimp only
  split
  · exact stopped
  · exact stopped.trans ((inert_set_device _ _ _).trans (inert_foldl _ (fun plant channel =>
      (inert_set_active plant channel false).trans (inert_clear_subscribers _ channel)) _ _))

theorem inert_turn_device (plant : Plant) (id : DeviceId) : Inert plant (plant.turnDevice id) := by
  unfold turnDevice
  split
  · exact .refl plant
  · have pushed : Inert plant (plant.push [.settleDown id]) := inert_push plant _ (by
      intro job member
      rw [List.mem_singleton.mp member]
      exact ⟨rfl, rfl⟩)
    dsimp only
    split
    · rename_i next polled
      exact pushed.trans (inert_poll _ id next polled)
    · exact pushed.trans (inert_log _ _ _ _ _)

theorem inert_settle_down (plant : Plant) (id : DeviceId) : Inert plant (plant.settleDown id) := by
  unfold settleDown
  split
  · exact .refl plant
  · split
    · exact inert_dispatch _ _
    · exact .refl plant

theorem quiet_retire (plant : Plant) : Quiet plant plant.retire :=
  (quiet_retire_nodes plant).trans (inert_retire_devices _).quiet

end Plant

end Interlock
