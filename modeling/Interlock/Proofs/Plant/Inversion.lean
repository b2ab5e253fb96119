import Interlock.Plant.Run

/-!
What the operations of a plant come down to. What makes an object goes through other plants on its way, and a
command does one thing to the objects that it finds, or nothing at all. Here each of them is taken apart once; a
property of all commands is then a matter of its cases.
-/

set_option autoImplicit false

namespace Interlock

open Interlock.Calendar (Instant)
open Interlock.Graph
open Interlock.Schedule (RegistryId Sequence SequenceId Step)
open Interlock.Session

-- A trigger that begins to listen to these children.
def Graph.Trigger.started (trigger : Trigger) (children : List ComparisonId)
    (links : List (ComparisonId × Ticket)) : Trigger :=
  { trigger with active := true, children := children, links := links }

namespace Plant

variable {plant next : Plant}

theorem found_there {α : Type} (directory : Directory) (items : List α) (name : String) (id : Nat)
    (item : α) (found : find? directory items name = some (id, item)) : items[id]? = some item := by
  unfold find? at found
  split at found
  · obtain ⟨other, there, same⟩ := Option.map_eq_some_iff.mp found
    cases same
    exact there
  · contradiction

theorem found_known {α : Type} (directory : Directory) (items : List α) (name : String) (id : Nat)
    (item : α) (found : find? directory items name = some (id, item)) : id ∈ directory.ids := by
  rw [find?] at found
  split at found
  · next other known =>
      obtain ⟨_, _, same⟩ := Option.map_eq_some_iff.mp found
      cases same
      obtain ⟨before, after, entries, _⟩ := List.lookup_eq_some_iff.mp known
      rw [Directory.ids, entries, List.map_append, List.map_cons]
      exact List.mem_append_right _ List.mem_cons_self
  · contradiction

theorem lookup_there (plant : Plant) (table : TableId) (name : String) (v : VariableId)
    (var : Variable) (found : plant.lookup table name = some (v, var)) : plant.vars[v]? = some var := by
  rw [lookup] at found
  split at found
  · obtain ⟨other, there, same⟩ := Option.map_eq_some_iff.mp found
    cases same
    exact there
  · contradiction

theorem channel_found (plant : Plant) (name : String) (id : ChannelId) (channel : Channel)
    (found : plant.channel? name = some (id, channel)) : plant.channels[id]? = some channel := by
  unfold channel? at found
  split at found
  · next own known =>
      cases found
      exact found_there _ _ name id channel known
  · split at found
    · next place known =>
        obtain ⟨there, reached, same⟩ := Option.map_eq_some_iff.mp found
        cases same
        exact reached
    · contradiction

theorem current_found (plant : Plant) (id : SequenceId) (s : Sequence) (step : Step)
    (found : plant.current? id = some (s, step)) :
    ∃ task, plant.sequences[id]? = some s ∧ s.task = some task ∧ task.step = step := by
  unfold current? at found
  split at found
  · contradiction
  · rename_i held
    obtain ⟨task, busy, same⟩ := Option.map_eq_some_iff.mp found
    cases same
    exact ⟨task, held, busy, rfl⟩

theorem current_trigger_found (plant : Plant) (id : SequenceId) (s : Sequence)
    (triggerId : TriggerId) (trigger : Trigger)
    (found : plant.currentTrigger? id = some (s, triggerId, trigger)) :
    ∃ task, plant.sequences[id]? = some s ∧ s.task = some task ∧
      task.step.trigger = some triggerId ∧ plant.triggers[triggerId]? = some trigger := by
  unfold currentTrigger? at found
  split at found
  · contradiction
  · rename_i step current
    obtain ⟨task, held, busy, rfl⟩ := current_found plant id _ step current
    split at found
    · contradiction
    · rename_i waited
      obtain ⟨found, there, same⟩ := Option.map_eq_some_iff.mp found
      cases same
      exact ⟨task, held, busy, waited, there⟩

theorem map_made {ε α β : Type} {made : Except ε α} {f : α → β} {result : β}
    (done : made.map f = .ok result) : ∃ found, made = .ok found ∧ f found = result := by
  cases made with
  | error error => contradiction
  | ok found => exact ⟨found, rfl, Except.ok.inj done⟩

theorem comparison_made {table : TableId} {text : String} {c : ComparisonId}
    (made : plant.makeComparison table text = .ok (c, next)) :
    ∃ relation, bind (plant.readClock.2.lookup table) plant.readClock.1 text = .ok relation ∧
      c = plant.comparisons.length ∧
      next = (plant.readClock.2.addComparison
        (.create text relation (relation.sample plant.readClock.2.valueOf))).2 := by
  unfold makeComparison at made
  dsimp only at made
  split at made
  · contradiction
  · next relation bound =>
      cases made
      exact ⟨relation, bound, rfl, rfl⟩

theorem comparisons_made {table : TableId} {atom : String} {rest : List String} {ids : List ComparisonId}
    (made : plant.makeComparisons table (atom :: rest) = .ok (ids, next)) :
    ∃ c between others, plant.makeComparison table atom = .ok (c, between) ∧
      between.makeComparisons table rest = .ok (others, next) ∧ ids = c :: others := by
  rw [makeComparisons] at made
  split at made
  · contradiction
  · next c between first =>
      obtain ⟨others, later, same⟩ := map_made made
      cases same
      exact ⟨c, between, others.1, first, later, rfl⟩

theorem trigger_made {table : TableId} {expression : String} {times : Int} {t : TriggerId}
    (made : plant.makeTrigger table expression times = .ok (t, next)) :
    ∃ condition children between, Trigger.compile expression = .ok condition ∧
      plant.makeComparisons table ((condition.map fun condition => condition.atoms).getD []) =
        .ok (children, between) ∧
      t = between.triggers.length ∧
      next = (between.addTrigger (.create expression table condition children times)).2 := by
  unfold makeTrigger at made
  split at made
  · contradiction
  · next condition compiled =>
      dsimp only at made
      split at made
      · contradiction
      · next children between found =>
          cases made
          exact ⟨condition, children, between, compiled, found, rfl, rfl⟩

theorem made_trigger_there {table : TableId} {expression : String} {times : Int} {t : TriggerId}
    (made : plant.makeTrigger table expression times = .ok (t, next)) :
    ∃ trigger, next.triggers[t]? = some trigger := by
  obtain ⟨_, _, _, _, _, rfl, rfl⟩ := trigger_made made
  exact ⟨_, List.getElem?_concat_length⟩

theorem children_made {trigger : Trigger} {children : List ComparisonId}
    (made : plant.childrenOf trigger = .ok (children, next)) :
    (trigger.children = [] ∧ plant.makeComparisons trigger.table trigger.atoms = .ok (children, next)) ∨
      (trigger.children ≠ [] ∧ children = trigger.children ∧ next = plant) := by
  unfold childrenOf at made
  split at made
  · next empty => exact .inl ⟨List.isEmpty_iff.mp empty, made⟩
  · next filled =>
      cases made
      exact .inr ⟨by simpa using filled, rfl, rfl⟩

def childLinks (plant : Plant) (t : TriggerId) (children : List ComparisonId) : List (ComparisonId × Ticket) :=
  (plant.linkChildren t children).1

def engage (plant : Plant) (t : TriggerId) (trigger : Trigger) (children : List ComparisonId) : Plant :=
  ((plant.linkChildren t children).2.setTrigger t
    (trigger.started children (plant.childLinks t children))).log .trigger .debug "Trigger activated"
      [("trigger", .text trigger.expression)]

inductive Activation (plant : Plant) (t : TriggerId) (trigger : Trigger) : Plant → Prop where
  | spent (used : trigger.remaining = 0) (details : List (String × Json.Tree)) :
      Activation plant t trigger
        (plant.log .trigger .warn "Repeat count exhausted, not activating" details)
  | active (left : trigger.remaining ≠ 0) (listens : trigger.active = true) :
      Activation plant t trigger plant
  | begun (left : trigger.remaining ≠ 0) (idle : trigger.active = false) (children : List ComparisonId)
      (between next : Plant) (made : plant.childrenOf trigger = .ok (children, between))
      (ran : next = ((between.engage t trigger children).evaluateNow t
          (trigger.started children (between.childLinks t children))).2 ∨
        ∃ error details, ((between.engage t trigger children).evaluateNow t
            (trigger.started children (between.childLinks t children))).1 = .error error ∧
          next = ((between.engage t trigger children).evaluateNow t
            (trigger.started children (between.childLinks t children))).2.log .trigger .warn
              "Evaluation on activation failed" details) :
      Activation plant t trigger next

theorem activation {t : TriggerId} {trigger : Trigger} (activated : plant.activateTrigger t trigger = .ok next) :
    plant.Activation t trigger next := by
  unfold activateTrigger at activated
  split at activated
  · next used =>
      cases activated
      exact .spent used _
  · next left =>
      split at activated
      · next listens =>
          cases activated
          exact .active left listens
      · next idle =>
          split at activated
          · contradiction
          · next children between made =>
              refine .begun left (by simpa using idle) children between next made ?_
              dsimp only at activated
              split at activated
              · next change later evaluated =>
                  cases activated
                  exact .inl (congrArg Prod.snd evaluated).symm
              · next error later evaluated =>
                  cases activated
                  rw [← show _ = later from congrArg Prod.snd evaluated]
                  exact .inr ⟨error, _, congrArg Prod.fst evaluated, rfl⟩

theorem hear_cases (plant : Plant) (t : TriggerId) (stamp : Instant) :
    plant.hear t stamp = plant ∨ ∃ trigger, plant.triggers[t]? = some trigger ∧ trigger.active = true ∧
      plant.triggerInUse t = true ∧
      (plant.hear t stamp = (plant.evaluate t trigger stamp).2 ∨
        ∃ details, plant.hear t stamp =
          (plant.evaluate t trigger stamp).2.log .trigger .warn "Evaluation failed" details) := by
  rw [hear]
  split
  · exact .inl rfl
  · next trigger there =>
      split
      · next listens =>
          obtain ⟨active, used⟩ := Bool.and_eq_true_iff.mp listens
          refine .inr ⟨trigger, there, active, used, ?_⟩
          split
          · next change later evaluated => exact .inl (by rw [evaluated])
          · next error later evaluated => exact .inr ⟨_, by rw [evaluated]⟩
      · exact .inl rfl

theorem take_over_cases (plant : Plant) (v : VariableId) (source : String) (event : Event) :
    plant.takeOver v source event = plant ∨ ∃ var value, plant.vars[v]? = some var ∧ event.value = some value ∧
      plant.variableInUse v = true ∧
      (plant.takeOver v source event = (plant.assign v var value).2 ∨
        ∃ details, plant.takeOver v source event =
          (plant.assign v var value).2.log .variable .warn "Ignoring channel value" details) := by
  rw [takeOver]
  split
  · next var value there told =>
      split
      · next used =>
          refine .inr ⟨var, value, there, told, used, ?_⟩
          split
          · next change later assigned => exact .inl (by rw [assigned])
          · next error later assigned => exact .inr ⟨_, by rw [assigned]⟩
      · exact .inl rfl
  · exact .inl rfl

theorem rearm_active {trigger : Trigger} (active : trigger.active = true) : trigger.rearm = trigger :=
  if_pos active

theorem rearmed_there (plant : Plant) (t : TriggerId) (trigger : Trigger)
    (there : plant.triggers[t]? = some trigger) : (plant.rearmTrigger t).triggers[t]? = some trigger.rearm := by
  have woken (plant : Plant) : (plant.wakeWaiting t).triggers = plant.triggers := by
    unfold wakeWaiting
    generalize plant.sequences.zipIdx = items
    induction items generalizing plant with
    | nil => rfl
    | cons item rest ih =>
        obtain ⟨sequence, place⟩ := item
        rw [List.foldl_cons, ih]
        dsimp only
        split
        · split <;> rfl
        · rfl
  rw [rearmTrigger, there]
  dsimp only
  split
  · next active => rw [rearm_active active, there]
  · rw [woken]
    exact List.getElem?_set_self (List.getElem?_eq_some_iff.mp there).1

inductive ArmCase (plant : Plant) (id : SequenceId) : Plant → Prop where
  | leave : ArmCase plant id (plant.leaveStep id)
  | refuse (s : Sequence) (t : TriggerId) (trigger : Trigger)
      (found : plant.currentTrigger? id = some (s, t, trigger)) (active : s.active = true)
      (message : String) (details : List (String × Json.Tree)) :
      ArmCase plant id
        ((((plant.rearmTrigger t).log .sequence .error message details).deactivateSequence id).leaveStep id)
  | engage (s : Sequence) (t : TriggerId) (trigger rearmed : Trigger) (next : Plant)
      (found : plant.currentTrigger? id = some (s, t, trigger)) (active : s.active = true)
      (there : (plant.rearmTrigger t).triggers[t]? = some rearmed) (left : rearmed.remaining ≠ 0)
      (activated : ((plant.rearmTrigger t).push [.wait id]).activateTrigger t rearmed = .ok next) :
      ArmCase plant id next

theorem arm_case (plant : Plant) (id : SequenceId) : plant.ArmCase id (plant.arm id) := by
  unfold arm
  split
  · exact .leave
  · next s t trigger found =>
      split
      · exact .leave
      · next active =>
          have running : s.active = true := by simpa using active
          obtain ⟨_, _, _, _, known⟩ := current_trigger_found plant id s t trigger found
          have there := rearmed_there plant t trigger known
          dsimp only
          rw [there]
          dsimp only
          split
          · exact .refuse s t trigger found running _ _
          · next left =>
              split
              · next next activated => exact .engage s t trigger _ next found running there left activated
              · exact .refuse s t trigger found running _ _

inductive DisarmCase (plant : Plant) (id : SequenceId) : Plant → Prop where
  | leave (missing : plant.currentTrigger? id = none) : DisarmCase plant id (plant.leaveStep id)
  | unmet (s : Sequence) (t : TriggerId) (trigger : Trigger)
      (found : plant.currentTrigger? id = some (s, t, trigger)) :
      DisarmCase plant id ((plant.deactivateTrigger t).leaveStep id)
  | satisfied (s : Sequence) (t : TriggerId) (trigger : Trigger)
      (found : plant.currentTrigger? id = some (s, t, trigger)) (details : List (String × Json.Tree)) :
      DisarmCase plant id
        ((((plant.deactivateTrigger t).log .sequence .debug "Trigger satisfied" details).announce id
          (.triggerSatisfied trigger.expression)).leaveStep id)

theorem disarm_case (plant : Plant) (id : SequenceId) : plant.DisarmCase id (plant.disarm id) := by
  unfold disarm
  split
  · next missing => exact .leave missing
  · next s t trigger found =>
      dsimp only
      split
      · exact .satisfied s t trigger found _
      · exact .unmet s t trigger found

theorem step_made {table : TableId} {part : Config.Step} {step : Step}
    (made : plant.makeStep table part = .ok (step, next)) :
    next = plant ∧ step.trigger = none ∨
      ∃ expression t, plant.makeTrigger table expression 1 = .ok (t, next) ∧ step.trigger = some t := by
  unfold makeStep at made
  dsimp only at made
  split at made
  · cases made
    exact .inl ⟨rfl, rfl⟩
  · next expression _ =>
      split at made
      · cases made
        exact .inl ⟨rfl, rfl⟩
      · obtain ⟨built, found, same⟩ := map_made made
        cases same
        exact .inr ⟨expression, built.1, found, rfl⟩

theorem steps_made {table : TableId} {part : Config.Step} {rest : List Config.Step} {steps : List Step}
    (made : plant.makeSteps table (part :: rest) = .ok (steps, next)) :
    ∃ step between others, plant.makeStep table part = .ok (step, between) ∧
      between.makeSteps table rest = .ok (others, next) ∧ steps = step :: others := by
  rw [makeSteps] at made
  split at made
  · contradiction
  · next step between first =>
      obtain ⟨others, later, same⟩ := map_made made
      cases same
      exact ⟨step, between, others.1, first, later, rfl⟩

def addFilled (plant : Plant) (name : String) (registry : RegistryId) (pollInterval : Nat)
    (queue : List Step) : Plant :=
  (plant.addSequence name registry pollInterval).2.setSequence plant.sequences.length
    { Sequence.create name registry plant.channels.length pollInterval with queue := queue }

theorem schedule_made {table : TableId} {registry : RegistryId} {procedure : Config.Procedure}
    {pollInterval : Nat} {scheduled : Scheduled}
    (made : plant.makeSchedule table registry procedure pollInterval = .ok (scheduled, next)) :
    ∃ part steps between details, procedure.activeSequence? = some part ∧
      plant.makeSteps table part.steps = .ok (steps, between) ∧
      scheduled.sequence = between.sequences.length ∧
      next = (between.addFilled part.name registry pollInterval steps).log .scheduler .info
        "Scheduler built" details := by
  unfold makeSchedule at made
  split at made
  · contradiction
  · next part chosen =>
      split at made
      · contradiction
      · next steps between found =>
          dsimp only at made
          have added : (between.addSequence part.name registry pollInterval).2.sequences[
              (between.addSequence part.name registry pollInterval).1]? =
            some (.create part.name registry between.channels.length pollInterval) :=
              List.getElem?_concat_length
          rw [added] at made
          cases made
          exact ⟨part, steps, between, _, chosen, found, rfl, rfl⟩

theorem schedule_there {table : TableId} {registry : RegistryId} {procedure : Config.Procedure}
    {pollInterval : Nat} {scheduled : Scheduled}
    (made : plant.makeSchedule table registry procedure pollInterval = .ok (scheduled, next)) :
    ∃ s, next.sequences[scheduled.sequence]? = some s := by
  obtain ⟨part, steps, between, details, _, _, same, rfl⟩ := schedule_made made
  rw [same]
  exact ⟨_, List.getElem?_set_self (by simp [addSequence, addChannel])⟩

section

variable (kept : Plant → Prop)

theorem link_variables_keep (c : ComparisonId)
    (subscribed : ∀ plant v, kept plant → kept (plant.subscribeVariable v (.comparison c)).2)
    (vars : List VariableId) (plant : Plant) (first : kept plant) : kept (plant.linkVariables c vars).2 := by
  induction vars generalizing plant with
  | nil => exact first
  | cons v rest ih =>
      have listening := subscribed plant v first
      rw [linkVariables]
      split
      · next ticket next found =>
          rw [found] at listening
          exact ih next listening
      · next next found =>
          rw [found] at listening
          exact ih next listening

theorem link_children_keep (t : TriggerId) (activated : ∀ plant c, kept plant → kept (plant.activateComparison c))
    (subscribed : ∀ plant c, kept plant → kept (plant.subscribeComparison c (.trigger t)).2)
    (children : List ComparisonId) (plant : Plant) (first : kept plant) :
    kept (plant.linkChildren t children).2 := by
  induction children generalizing plant with
  | nil => exact first
  | cons child rest ih =>
      have listening := subscribed _ child (activated plant child first)
      rw [linkChildren]
      split
      · next ticket next found =>
          rw [found] at listening
          exact ih next listening
      · next next found =>
          rw [found] at listening
          exact ih next listening

theorem comparisons_keep (comparison : ∀ plant table text c next, kept plant →
      plant.makeComparison table text = .ok (c, next) → kept next)
    (table : TableId) (texts : List String) (ids : List ComparisonId)
    (made : plant.makeComparisons table texts = .ok (ids, next)) (first : kept plant) : kept next := by
  induction texts generalizing plant ids with
  | nil =>
      cases made
      exact first
  | cons text rest ih =>
      obtain ⟨c, between, others, one, more, _⟩ := comparisons_made made
      exact ih others more (comparison plant table text c between first one)

theorem steps_keep (trigger : ∀ plant table expression t next, kept plant →
      plant.makeTrigger table expression 1 = .ok (t, next) → kept next)
    (table : TableId) (parts : List Config.Step) (steps : List Step)
    (made : plant.makeSteps table parts = .ok (steps, next)) (first : kept plant) : kept next := by
  induction parts generalizing plant steps with
  | nil =>
      cases made
      exact first
  | cons part rest ih =>
      obtain ⟨step, between, others, one, more, _⟩ := steps_made made
      refine ih others more ?_
      obtain ⟨rfl, _⟩ | ⟨expression, t, built, _⟩ := step_made one
      · exact first
      · exact trigger plant table expression t between first built

theorem devices_keep (registry : RegistryId) (verbose : Bool)
    (added : ∀ plant device, kept plant → kept (plant.addDevice device).2)
    (attached : ∀ plant d names, kept plant → kept (plant.attachAll d verbose names))
    (registered : ∀ plant d, kept plant → kept (plant.registerAttached d registry))
    (parts : List Config.Device) (plant : Plant) (first : kept plant) :
    kept (plant.makeDevices registry verbose parts).2 := by
  induction parts generalizing plant with
  | nil => exact first
  | cons part rest ih =>
      rw [makeDevices]
      split
      · exact first
      · next driver _ =>
          have made := ih _ (registered _ plant.devices.length (attached _ plant.devices.length part.channels
            (added plant (.create part.name driver part.interval) first)))
          dsimp only
          split
          · next ids later more =>
              rw [show later = _ from (congrArg Prod.snd more).symm]
              exact made
          · next failure later more =>
              rw [show later = _ from (congrArg Prod.snd more).symm]
              exact made

theorem variables_keep (table : TableId) (registry : RegistryId) (verbose : Bool)
    (added : ∀ plant name value, kept plant → kept (plant.addVariable (.create name value verbose)).2)
    (followed : ∀ plant v c, kept plant → kept (plant.follow v c).2)
    (inserted : ∀ plant name v, kept plant → kept (plant.insertVariable table name v))
    (parts : List Config.Variable) (plant : Plant) (first : kept plant) :
    kept (plant.makeVariables table registry verbose parts).2 := by
  induction parts generalizing plant with
  | nil => exact first
  | cons part rest ih =>
      have began := added plant part.name (.infer part.initial) first
      rw [makeVariables]
      dsimp only
      split
      · exact ih _ (inserted _ _ _ began)
      · split
        · exact began
        · exact ih _ (inserted _ _ _ (followed _ _ _ began))

theorem workspace_keep (config : Config)
    (opened : ∀ plant, kept plant → kept plant.addTable.2.addRegistry.2)
    (devices : ∀ plant registry, kept plant →
      kept (plant.makeDevices registry config.scheduler.verbose config.devices).2)
    (channel : ∀ plant registry part, kept plant →
      kept (plant.makeChannel registry config.scheduler.verbose part))
    (vars : ∀ plant table registry, kept plant →
      kept (plant.makeVariables table registry config.scheduler.verbose config.vars).2)
    (logged : ∀ plant part level message details, kept plant → kept (plant.log part level message details))
    (plant : Plant) (first : kept plant) : kept (plant.makeWorkspace config).2 := by
  have channels (registry : RegistryId) (parts : List Config.Channel) (plant : Plant) (first : kept plant) :
      kept (parts.foldl (fun plant part => plant.makeChannel registry config.scheduler.verbose part) plant) := by
    induction parts generalizing plant with
    | nil => exact first
    | cons part rest ih => exact ih _ (channel plant registry part first)
  rw [makeWorkspace]
  dsimp only
  generalize plant.addTable.2.addRegistry.1 = registry
  have equipped := devices _ registry (opened plant first)
  split
  · next failure later made =>
      rw [made] at equipped
      exact equipped
  · next ids later made =>
      rw [made] at equipped
      have filled := vars _ plant.addTable.1 registry (channels registry config.channels later equipped)
      split
      · next failure last made =>
          rw [made] at filled
          exact filled
      · next last made =>
          rw [made] at filled
          exact logged _ _ _ _ _ filled

theorem devices_start (activated : ∀ plant d next, kept plant → plant.activateDevice d = .ok next → kept next)
    (devices : List DeviceId) (plant : Plant) (started : plant.startDevices devices = .ok next)
    (first : kept plant) : kept next := by
  induction devices generalizing plant with
  | nil =>
      cases started
      exact first
  | cons d rest ih =>
      rw [startDevices] at started
      split at started
      · next between one => exact ih between started (activated plant d between first one)
      · contradiction

end

inductive VariableCall (plant : Plant) : VariableCommand → Plant → Prop where
  | idle (command : VariableCommand) : VariableCall plant command plant
  | make (name : String) (value : Value) (verbose : Bool) :
      VariableCall plant (.make name value verbose)
        ((plant.addVariable (.create name value verbose)).2.insertVariable plant.desk.table name
          plant.vars.length)
  | set (name : String) (value : Value) (v : VariableId) (var : Variable)
      (found : plant.namedVar? name = some (v, var)) :
      VariableCall plant (.set name value) (plant.assign v var value).2
  | follow (id name channel : String) (v : VariableId) (c : ChannelId) (ticket : Ticket) :
      VariableCall plant (.follow id name channel)
        ((plant.follow v c).2.keepSubscription id ⟨.channel c, ticket⟩)
  | refuse (id name channel : String) (v : VariableId) (c : ChannelId) :
      VariableCall plant (.follow id name channel) (plant.follow v c).2

theorem variable_call (plant : Plant) (command : VariableCommand) :
    plant.VariableCall command (plant.onVariable command).2 := by
  cases command with
  | make name value verbose => exact .make name value verbose
  | set name value =>
      rw [onVariable]
      split
      · exact .idle _
      · next v var found =>
          have set := VariableCall.set name value v var found
          split
          · next change later result =>
              rw [result] at set
              exact set
          · next error later result =>
              rw [result] at set
              exact set
  | get name =>
      rw [onVariable]
      split <;> exact .idle _
  | list name => exact .idle _
  | follow id name channel =>
      rw [onVariable]
      split
      · next v _ c _ _ _ =>
          split
          · next ticket later result =>
              have follow : plant.VariableCall (.follow id name channel)
                  ((plant.follow v c).2.keepSubscription id ⟨.channel c, ticket⟩) :=
                .follow id name channel v c ticket
              rw [result] at follow
              exact follow
          · next later result =>
              have refuse : plant.VariableCall (.follow id name channel) (plant.follow v c).2 :=
                .refuse id name channel v c
              rw [result] at refuse
              exact refuse
      · exact .idle _

inductive ComparisonCall (plant : Plant) : ComparisonCommand → Plant → Prop where
  | idle (command : ComparisonCommand) : ComparisonCall plant command plant
  | make (name expression : String) (c : ComparisonId) (next : Plant)
      (made : plant.makeComparison plant.desk.table expression = .ok (c, next)) :
      ComparisonCall plant (.make name expression)
        (next.keep fun desk => { desk with comparisons := desk.comparisons.insert name c })
  | activate (name : String) (c : ComparisonId) (comparison : Comparison)
      (found : plant.comparison? name = some (c, comparison)) :
      ComparisonCall plant (.activate name) (plant.activateComparison c)
  | deactivate (name : String) (c : ComparisonId) (comparison : Comparison)
      (found : plant.comparison? name = some (c, comparison)) :
      ComparisonCall plant (.deactivate name) (plant.deactivateComparison c)
  | refresh (name : String) (c : ComparisonId) (comparison : Comparison)
      (found : plant.comparison? name = some (c, comparison)) :
      ComparisonCall plant (.refresh name)
        (plant.readClock.2.refresh c comparison plant.readClock.1).2
  | drop (name : String) :
      ComparisonCall plant (.drop name)
        (plant.keep fun desk => { desk with comparisons := desk.comparisons.remove name })

theorem comparison_call (plant : Plant) (command : ComparisonCommand) :
    plant.ComparisonCall command (plant.onComparison command).2 := by
  cases command with
  | make name expression =>
      rw [onComparison]
      split
      · exact .idle _
      · next c next made => exact .make name expression c next made
  | activate name =>
      rw [onComparison]
      split
      · exact .idle _
      · next c comparison found => exact .activate name c comparison found
  | deactivate name =>
      rw [onComparison]
      split
      · exact .idle _
      · next c comparison found => exact .deactivate name c comparison found
  | refresh name =>
      rw [onComparison]
      split
      · exact .idle _
      · next c comparison found => exact .refresh name c comparison found
  | state name =>
      rw [onComparison]
      split <;> exact .idle _
  | drop name => exact .drop name

inductive TriggerCall (plant : Plant) : TriggerCommand → Plant → Prop where
  | idle (command : TriggerCommand) : TriggerCall plant command plant
  | make (name expression : String) (times : Int) (verbose : Bool) (t : TriggerId) (trigger : Trigger)
      (next : Plant) (made : plant.makeTrigger plant.desk.table expression times = .ok (t, next))
      (there : next.triggers[t]? = some trigger) :
      TriggerCall plant (.make name expression times verbose)
        ((next.setTrigger t { trigger with verbose := verbose }).keep fun desk =>
          { desk with triggers := desk.triggers.insert name t })
  | activate (name : String) (t : TriggerId) (trigger : Trigger) (next : Plant)
      (found : plant.trigger? name = some (t, trigger))
      (activated : plant.activateTrigger t trigger = .ok next) :
      TriggerCall plant (.activate name) next
  | deactivate (name : String) (t : TriggerId) (trigger : Trigger)
      (found : plant.trigger? name = some (t, trigger)) :
      TriggerCall plant (.deactivate name) (plant.deactivateTrigger t)
  | rearm (name : String) (t : TriggerId) (trigger : Trigger)
      (found : plant.trigger? name = some (t, trigger)) :
      TriggerCall plant (.rearm name) (plant.rearmTrigger t)
  | evaluate (name : String) (t : TriggerId) (trigger : Trigger)
      (found : plant.trigger? name = some (t, trigger)) :
      TriggerCall plant (.evaluate name) (plant.evaluateNow t trigger).2
  | drop (name : String) :
      TriggerCall plant (.drop name)
        (plant.keep fun desk => { desk with triggers := desk.triggers.remove name })
  -- receivers of the desk are no business of the graph
  | receive (command : TriggerCommand) (receivers : List (String × Receiver)) :
      TriggerCall plant command (plant.keep fun desk => { desk with receivers := receivers })

theorem trigger_call (plant : Plant) (command : TriggerCommand) :
    plant.TriggerCall command (plant.onTrigger command).2 := by
  cases command with
  | make name expression times verbose =>
      rw [onTrigger]
      split
      · exact .idle _
      · next t next made =>
          obtain ⟨trigger, there⟩ := made_trigger_there made
          rw [there]
          exact .make name expression times verbose t trigger next made there
  | activate name =>
      rw [onTrigger]
      split
      · exact .idle _
      · next t trigger found =>
          split
          · next next activated => exact .activate name t trigger next found activated
          · exact .idle _
  | deactivate name =>
      rw [onTrigger]
      split
      · exact .idle _
      · next t trigger found => exact .deactivate name t trigger found
  | rearm name =>
      rw [onTrigger]
      split
      · exact .idle _
      · next t trigger found => exact .rearm name t trigger found
  | evaluate name =>
      rw [onTrigger]
      split
      · exact .idle _
      · next t trigger found =>
          have evaluate := TriggerCall.evaluate name t trigger found
          split
          · next change later result =>
              rw [result] at evaluate
              exact evaluate
          · next error later result =>
              rw [result] at evaluate
              exact evaluate
  | state name =>
      rw [onTrigger]
      split <;> exact .idle _
  | drop name => exact .drop name
  | watch name =>
      rw [onTrigger]
      split
      · exact .idle _
      · exact .receive _ _
  | look name =>
      rw [onTrigger]
      split
      · exact .idle _
      · split
        · exact .idle _
        · exact .receive _ _

def withChannel (plant : Plant) (name : String) (active : Bool) (value : Option Value) (verbose : Bool) : Plant :=
  (plant.addChannel { Channel.create name with active := active, value := value, verbose := verbose }).2.keep
    fun desk => { desk with channels := desk.channels.insert name plant.channels.length }

inductive ChannelCall (plant : Plant) : ChannelCommand → Plant → Prop where
  | idle (command : ChannelCommand) : ChannelCall plant command plant
  | make (name : String) (active : Bool) (value : Option Value) (verbose : Bool) :
      ChannelCall plant (.make name active value none verbose) (plant.withChannel name active value verbose)
  | enrol (name : String) (active : Bool) (value : Option Value) (path : String) (verbose : Bool) :
      ChannelCall plant (.make name active value (some path) verbose)
        ((plant.withChannel name active value verbose).register plant.desk.registry path plant.channels.length).2
  | register (name path : String) (c : ChannelId) (channel : Channel)
      (found : plant.channel? name = some (c, channel)) :
      ChannelCall plant (.register name path) (plant.register plant.desk.registry path c).2
  | unregister (path : String) :
      ChannelCall plant (.unregister path)
        (plant.setRegistry plant.desk.registry (Registry.unregister (plant.registry plant.desk.registry) path))
  | write (name : String) (value : Value) (c : ChannelId) (channel : Channel)
      (found : plant.channel? name = some (c, channel)) :
      ChannelCall plant (.write name value) (plant.write c value)
  | setActive (name : String) (active : Bool) (c : ChannelId) (channel : Channel)
      (found : plant.channel? name = some (c, channel)) :
      ChannelCall plant (.setActive name active) (plant.setActive c active)
  | rename (name assigned : String) (c : ChannelId) (channel : Channel)
      (found : plant.channel? name = some (c, channel)) :
      ChannelCall plant (.rename name assigned) (plant.setChannel c { channel with assigned := assigned })
  | clear (name : String) (c : ChannelId) (channel : Channel)
      (found : plant.ownChannel? name = some (c, channel)) :
      ChannelCall plant (.clear name) (plant.clearSubscribers c)
  | notify (name source word : String) (value : Option Value) (description : String) (c : ChannelId)
      (channel : Channel) (found : plant.ownChannel? name = some (c, channel)) :
      ChannelCall plant (.notify name source word value description)
        (plant.readClock.2.notify c ⟨source, plant.readClock.1, word, value, description⟩).2

theorem channel_call (plant : Plant) (command : ChannelCommand) :
    plant.ChannelCall command (plant.onChannel command).2 := by
  cases command with
  | make name active value path verbose =>
      cases path with
      | none => exact .make name active value verbose
      | some path => exact .enrol name active value path verbose
  | register name path =>
      rw [onChannel]
      split
      · exact .idle _
      · next c channel found => exact .register name path c channel found
  | unregister path => exact .unregister path
  | resolve path =>
      rw [onChannel]
      split
      · exact .idle _
      · split <;> exact .idle _
  | read name | state name =>
      rw [onChannel]
      split <;> exact .idle _
  | list => exact .idle _
  | write name value =>
      rw [onChannel]
      split
      · exact .idle _
      · next c channel found => exact .write name value c channel found
  | setActive name active =>
      rw [onChannel]
      split
      · exact .idle _
      · next c channel found => exact .setActive name active c channel found
  | rename name assigned =>
      rw [onChannel]
      split
      · exact .idle _
      · next c channel found => exact .rename name assigned c channel found
  | clear name =>
      rw [onChannel]
      split
      · exact .idle _
      · next c channel found => exact .clear name c channel found
  | notify name source word value description =>
      rw [onChannel]
      split
      · exact .idle _
      · next c channel found => exact .notify name source word value description c channel found

inductive DeviceCall (plant : Plant) : DeviceCommand → Plant → Prop where
  | idle (command : DeviceCommand) : DeviceCall plant command plant
  | make (name driver : String) (values : List Value) (interval : Nat) (made : Driver) :
      DeviceCall plant (.make name driver values interval)
        ((plant.addDevice (.create name made interval)).2.keep fun desk =>
          { desk with devices := desk.devices.insert name plant.devices.length })
  | add (name channel : String) (d : DeviceId) (device : Device)
      (found : plant.device? name = some (d, device)) :
      DeviceCall plant (.add name channel)
        (((plant.channelOrNew channel).2.attach d (plant.channelOrNew channel).1).2.keep fun desk =>
          { desk with channels := desk.channels.insert channel (plant.channelOrNew channel).1 })
  | refuse (name channel : String) (d : DeviceId) (device : Device)
      (found : plant.device? name = some (d, device)) :
      DeviceCall plant (.add name channel)
        ((plant.channelOrNew channel).2.attach d (plant.channelOrNew channel).1).2
  | remove (name channel : String) (d : DeviceId) (device : Device)
      (found : plant.device? name = some (d, device)) :
      DeviceCall plant (.remove name channel) (plant.detach d channel).2
  | register (name : String) (d : DeviceId) (device : Device)
      (found : plant.device? name = some (d, device)) :
      DeviceCall plant (.register name) (plant.registerAttached d plant.desk.registry)
  | poll (name : String) (d : DeviceId) (device : Device) (next : Plant)
      (found : plant.device? name = some (d, device)) (polled : plant.enterRun.poll d = .ok next) :
      DeviceCall plant (.poll name) next
  | activate (name : String) (d : DeviceId) (device : Device) (next : Plant)
      (found : plant.device? name = some (d, device)) (activated : plant.activateDevice d = .ok next) :
      DeviceCall plant (.activate name) next
  | deactivate (name : String) (d : DeviceId) (device : Device)
      (found : plant.device? name = some (d, device)) :
      DeviceCall plant (.deactivate name) (plant.deactivateDevice d)
  | dispose (name : String) (d : DeviceId) (device : Device)
      (found : plant.device? name = some (d, device)) :
      DeviceCall plant (.dispose name) (plant.disposeDevice d)

theorem device_call (plant : Plant) (command : DeviceCommand) :
    plant.DeviceCall command (plant.onDevice command).2 := by
  cases command with
  | make name driver values interval =>
      rw [onDevice]
      split
      · exact .idle _
      · next made _ => exact .make name driver values interval made
  | add name channel =>
      rw [onDevice]
      split
      · exact .idle _
      · next d device found =>
          have add := DeviceCall.add name channel d device found
          have refuse := DeviceCall.refuse name channel d device found
          dsimp only
          split
          · next later result =>
              rw [result] at add
              exact add
          · next later result =>
              rw [result] at refuse
              exact refuse
  | remove name channel =>
      rw [onDevice]
      split
      · exact .idle _
      · next d device found => exact .remove name channel d device found
  | atIndex name index | byName name channel | state name =>
      rw [onDevice]
      split <;> exact .idle _
  | register name =>
      rw [onDevice]
      split
      · exact .idle _
      · next d device found => exact .register name d device found
  | poll name =>
      rw [onDevice]
      split
      · exact .idle _
      · next d device found =>
          split
          · next next polled => exact .poll name d device next found polled
          · exact .idle _
  | activate name =>
      rw [onDevice]
      split
      · exact .idle _
      · next d device found =>
          split
          · next next activated => exact .activate name d device next found activated
          · exact .idle _
  | deactivate name =>
      rw [onDevice]
      split
      · exact .idle _
      · next d device found => exact .deactivate name d device found
  | dispose name =>
      rw [onDevice]
      split
      · exact .idle _
      · next d device found => exact .dispose name d device found

inductive SequenceCall (plant : Plant) : SequenceCommand → Plant → Prop where
  | idle (command : SequenceCommand) : SequenceCall plant command plant
  | make (name : String) (pollInterval : Nat) :
      SequenceCall plant (.make name pollInterval)
        ((plant.addSequence name plant.desk.registry pollInterval).2.keep fun desk =>
          { desk with sequences := desk.sequences.insert name plant.sequences.length })
  | step (name action : String) (trigger : Option String) (description : String) (step : Step)
      (known : ∀ t, step.trigger = some t → t ∈ plant.desk.triggers.ids) :
      SequenceCall plant (.step name action trigger description) (plant.keepStep name step)
  | stepOf (name : String) (config : Config.Step) (step : Step) (next : Plant)
      (made : plant.makeStep plant.desk.table config = .ok (step, next)) :
      SequenceCall plant (.stepOf name config) (next.keepStep name step)
  | push (name step : String) (count : Nat) (id : SequenceId) (s : Sequence) (listed : Step)
      (found : plant.sequence? name = some (id, s)) :
      SequenceCall plant (.push name step count) (plant.pushSteps id listed count)
  | activate (name : String) (id : SequenceId) (s : Sequence) (next : Plant)
      (found : plant.sequence? name = some (id, s)) (activated : plant.activateSequence id = .ok next) :
      SequenceCall plant (.activate name) next
  | deactivate (name : String) (id : SequenceId) (s : Sequence)
      (found : plant.sequence? name = some (id, s)) :
      SequenceCall plant (.deactivate name) (plant.deactivateSequence id)
  | setPaused (name : String) (paused : Bool) (id : SequenceId) (s : Sequence)
      (found : plant.sequence? name = some (id, s)) :
      SequenceCall plant (.setPaused name paused) (plant.setPaused id paused)
  | dispose (name : String) (id : SequenceId) (s : Sequence)
      (found : plant.sequence? name = some (id, s)) :
      SequenceCall plant (.dispose name) (plant.disposeSequence id)

theorem sequence_call (plant : Plant) (command : SequenceCommand) :
    plant.SequenceCall command (plant.onSequence command).2 := by
  cases command with
  | make name pollInterval => exact .make name pollInterval
  | step name action trigger description =>
      cases trigger with
      | none => exact .step name action none description _ nofun
      | some trigger =>
          rw [onSequence]
          dsimp only
          split
          · exact .idle _
          · next t found reached =>
              refine .step name action (some trigger) description _ fun waited waits => ?_
              cases waits
              exact found_known _ _ trigger t found reached
  | stepOf name config =>
      rw [onSequence]
      split
      · exact .idle _
      · next step next made => exact .stepOf name config step next made
  | push name step count =>
      rw [onSequence]
      split
      · next id s listed found _ => exact .push name step count id s listed found
      · exact .idle _
      · exact .idle _
  | activate name =>
      rw [onSequence]
      split
      · exact .idle _
      · next id s found =>
          split
          · next next activated => exact .activate name id s next found activated
          · exact .idle _
  | deactivate name =>
      rw [onSequence]
      split
      · exact .idle _
      · next id s found => exact .deactivate name id s found
  | setPaused name paused =>
      rw [onSequence]
      split
      · exact .idle _
      · next id s found => exact .setPaused name paused id s found
  | dispose name =>
      rw [onSequence]
      split
      · exact .idle _
      · next id s found => exact .dispose name id s found
  | state name =>
      rw [onSequence]
      split <;> exact .idle _

inductive WorkspaceCall (plant : Plant) : WorkspaceCommand → Plant → Prop where
  | idle (command : WorkspaceCommand) : WorkspaceCall plant command plant
  | fail (document : String) (config : Config) :
      WorkspaceCall plant (.make document) (plant.makeWorkspace config).2
  | make (document : String) (config : Config) (workspace : Workspace) :
      WorkspaceCall plant (.make document) ((plant.makeWorkspace config).2.openWorkspace workspace)
  | start (devices : List DeviceId) (next : Plant) (started : plant.startDevices devices = .ok next) :
      WorkspaceCall plant .start next
  | shutdown (devices : List DeviceId) : WorkspaceCall plant .shutdown (plant.shutdown devices)
  | schedule (name : String) (config : Config.Procedure) (pollInterval : Nat) (scheduled : Scheduled)
      (next : Plant)
      (made : plant.makeSchedule plant.desk.table plant.desk.registry config pollInterval =
        .ok (scheduled, next)) :
      WorkspaceCall plant (.schedule name config pollInterval)
        (next.keep fun desk =>
          { desk with
            sequences := desk.sequences.insert name scheduled.sequence, schedule := some scheduled })
  | startSchedule (scheduled : Scheduled) (next : Plant)
      (activated : plant.activateSequence scheduled.sequence = .ok next) :
      WorkspaceCall plant .startSchedule next

theorem workspace_call (plant : Plant) (command : WorkspaceCommand) :
    plant.WorkspaceCall command (plant.onWorkspace command).2 := by
  cases command with
  | make document =>
      rw [onWorkspace]
      split
      · exact .idle _
      · next config _ =>
          split
          · next failure later result =>
              have fail : plant.WorkspaceCall (.make document) (plant.makeWorkspace config).2 := .fail document config
              rw [result] at fail
              exact fail
          · next workspace later result =>
              have make : plant.WorkspaceCall (.make document) ((plant.makeWorkspace config).2.openWorkspace workspace) :=
                .make document config workspace
              rw [result] at make
              exact make
  | start =>
      rw [onWorkspace]
      split
      · exact .idle _
      · next devices _ =>
          split
          · next next started => exact .start devices next started
          · exact .idle _
  | shutdown =>
      rw [onWorkspace]
      split
      · exact .idle _
      · next devices _ => exact .shutdown devices
  | schedule name config pollInterval =>
      rw [onWorkspace]
      split
      · exact .idle _
      · next scheduled next made =>
          obtain ⟨sequence, there⟩ := schedule_there made
          rw [there]
          exact .schedule name config pollInterval scheduled next made
  | startSchedule =>
      rw [onWorkspace]
      split
      · exact .idle _
      · next scheduled _ =>
          rw [startScheduled]
          cases scheduled.autoStart with
          | false => exact .idle _
          | true =>
              rw [if_pos rfl]
              cases activated : plant.activateSequence scheduled.sequence with
              | error failure => exact .idle _
              | ok next => exact .startSchedule scheduled next activated

theorem observer_made {publisher : Publisher} {id : String} {handler : Option String} {times : Nat}
    {script : List Command} {observer : ObserverId}
    (made : plant.observerFor publisher id handler times script = some (observer, next)) :
    next = plant ∨
      next = (plant.addObserver ⟨id, times, script⟩).2.keepHandler publisher id plant.observers.length := by
  unfold observerFor at made
  split at made
  · obtain ⟨_, _, same⟩ := Option.map_eq_some_iff.mp made
    cases same
    exact .inl rfl
  · cases made
    exact .inr rfl

inductive Joining (plant : Plant) (id : String) (handler : Option String) (times : Nat)
    (script : List Command) : Plant → Prop where
  | idle : Joining plant id handler times script plant
  | refuse (publisher : Publisher) (observer : ObserverId) (between : Plant)
      (made : plant.observerFor publisher id handler times script = some (observer, between)) :
      Joining plant id handler times script (between.subscribe publisher (.observer observer)).2
  | join (publisher : Publisher) (observer : ObserverId) (between : Plant) (ticket : Ticket)
      (made : plant.observerFor publisher id handler times script = some (observer, between))
      (joined : (between.subscribe publisher (.observer observer)).1 = some ticket) :
      Joining plant id handler times script
        ((between.subscribe publisher (.observer observer)).2.push [.keepSubscription id ⟨publisher, ticket⟩])

inductive SubscribeCall (plant : Plant) (id : String) (handler : Option String) (times : Nat)
    (script : List Command) : Plant → Prop where
  | once (next : Plant) (first : plant.Joining id handler times script next) :
      SubscribeCall plant id handler times script next
  | again (publisher : Publisher) (next : Plant) (first : plant.Joining id handler times script next) :
      SubscribeCall plant id handler times script (next.sendAgain publisher)

theorem subscribe_call (plant : Plant) (id : String) (source : Source) (name : String)
    (handler : Option String) (sendNow : Bool) (times : Nat) (script : List Command) :
    plant.SubscribeCall id handler times script
      (plant.onSubscribe id source name handler sendNow times script).2 := by
  unfold onSubscribe
  split
  · exact .once _ .idle
  · next publisher _ =>
      split
      · exact .once _ .idle
      · next observer between made =>
          split
          · next later result =>
              have refuse := Joining.refuse publisher observer between made
              rw [result] at refuse
              exact .once _ refuse
          · next ticket later result =>
              have join := Joining.join publisher observer between ticket made (by rw [result])
              rw [result] at join
              dsimp only
              split
              · exact .again publisher _ join
              · exact .once _ join

inductive UnsubscribeCall (plant : Plant) (id : String) : Plant → Prop where
  | idle : UnsubscribeCall plant id plant
  | leave (publisher : Publisher) (ticket : Ticket)
      (known : (id, Subscription.mk publisher ticket) ∈ plant.desk.subscriptions) :
      UnsubscribeCall plant id (plant.unsubscribe publisher ticket)

theorem unsubscribe_call (plant : Plant) (id : String) :
    plant.UnsubscribeCall id (plant.onUnsubscribe id).2 := by
  unfold onUnsubscribe
  split
  · exact .idle
  · next held found =>
      split
      · refine .leave held.publisher held.ticket ?_
        obtain ⟨before, after, entries, _⟩ := List.lookup_eq_some_iff.mp found
        rw [entries]
        exact List.mem_append_right _ List.mem_cons_self
      · exact .idle

end Plant

end Interlock
