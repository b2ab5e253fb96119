import Interlock.Proofs.Plant.Echo

/-!
One assignment and what a trigger makes of it. Before the assignment is over, a trigger that listens tells
its handlers once for each side of a child that reads the variable, at the truth after the assignment and
with its stamp; an assignment that is refused leads to nothing.
-/

set_option autoImplicit false

namespace Interlock.Plant

open Interlock.Calendar (Instant)
open Interlock.Graph
open Interlock.Session (Command)

-- On how many sides the children of a trigger read the variable.
def sidesReading (plant : Plant) (trigger : Trigger) (v : VariableId) : Nat :=
  (trigger.children.map fun child =>
    ((plant.comparisons[child]?).map fun comparison => comparison.relation.vars.count v).getD 0).sum

-- The deeds that assign the value to the variable: a call, a command of a handler, and a channel that the
-- variable follows. Behind what the assignment causes stands the rest.
inductive Assigning (plant : Plant) (v : VariableId) (var : Variable) (value : Value) :
    Deed → List Job → Prop where
  | called (name : String) (named : plant.namedVar? name = some (v, var)) :
      Assigning plant v var value (.call (.var (.set name value))) plant.agenda
  | ordered (label name : String) (rest : List Job)
      (agenda : plant.agenda = .command label (.var (.set name value)) :: rest)
      (named : plant.namedVar? name = some (v, var)) :
      Assigning plant v var value .job
        (.conclude label (execute { plant with agenda := rest } (.var (.set name value))).1 :: rest)
  | followed (source : String) (event : Event) (rest : List Job)
      (agenda : plant.agenda = .tell (.follower v source) event :: rest)
      (there : plant.vars[v]? = some var) (told : event.value = some value)
      (used : variableInUse { plant with agenda := rest } v = true) :
      Assigning plant v var value .job rest

section

variable {plant next : Plant} {t : TriggerId} {trigger : Trigger} {v : VariableId} {var : Variable}
  {value : Value} {deed : Deed} {base rest : List Job} {change : Change} {after : Variable}

theorem count_shares (children : List ComparisonId) (c : ComparisonId) :
    (children.map fun child => if (Listener.comparison c == .comparison child) = true then 1 else 0).sum =
      children.count c := by
  induction children with
  | nil => rfl
  | cons child rest ih =>
      rw [List.map_cons, List.sum_cons, List.count_cons, ih, Nat.add_comm]
      by_cases same : c = child
      · simp [same]
      · simp [same, Ne.symm same]

theorem prompts_variable (children : List ComparisonId) (distinct : children.Nodup)
    (subscribers : Subscribers)
    (admitted : ∀ s ∈ subscribers, Node.admits (.var v) s.listener = true) :
    ((subscribers.map Subscriber.listener).map (prompts t children)).sum =
      (children.map fun child => subscribers.countP fun s => s.listener == .comparison child).sum := by
  induction subscribers with
  | nil => simp
  | cons s rest ih =>
      have share : (children.map fun child => if (s.listener == .comparison child) = true then 1 else 0).sum =
          prompts t children s.listener := by
        have admits := admitted s List.mem_cons_self
        cases known : s.listener with
        | observer => simp [prompts]
        | comparison c =>
            rw [count_shares, prompts]
            split
            · next member => exact List.count_eq_one_of_mem distinct member
            · next outside => exact List.count_eq_zero_of_not_mem outside
        | trigger | follower =>
            rw [known] at admits
            contradiction
      simp only [List.map_cons, List.sum_cons, List.countP_cons, List.sum_map_add, share]
      rw [ih fun other member => admitted other (List.mem_cons_of_mem s member), Nat.add_comm]

theorem prompts_assigned (poised : plant.Poised) (matched : plant.Matched)
    (there : plant.triggers[t]? = some trigger) (active : trigger.active = true) (v : VariableId) :
    (((plant.listeners (.var v)).map Subscriber.listener).map (prompts t trigger.children)).sum =
      plant.sidesReading trigger v := by
  rw [prompts_variable trigger.children (matched.distinct t trigger there) _
    (poised.consistent.linked.layered (.var v)), sidesReading]
  refine congrArg List.sum (List.map_congr_left fun child member => ?_)
  obtain ⟨comparison, known, sides⟩ :=
    child_sides matched poised.consistent.tuned t trigger there child member
  rw [sides_subscribed matched child comparison known v, sides v, if_pos active, known]
  rfl

theorem assign_accepts (assigned : var.assign plant.readClock.1 value = .ok (change, after)) :
    ∃ level message details, (plant.assign v var value).2 =
      ((plant.readClock.2.setVariable v after).log .variable level message details).publish after.subscribers
        ⟨var.name, change, after.value, plant.readClock.1⟩ [.leave (.var v)] := by
  rw [assign]
  dsimp only
  rw [assigned]
  exact ⟨_, _, _, rfl⟩

theorem assign_refuses (plant : Plant) (v : VariableId) (error : AssignError)
    (refused : var.assign plant.readClock.1 value = .error error) :
    plant.assign v var value = (.error error, plant.readClock.2) := by
  rw [assign]
  dsimp only
  rw [refused]

theorem assigned_subscribers (stamp : Instant) (assigned : var.assign stamp value = .ok (change, after)) :
    after.subscribers = var.subscribers := by
  rw [Variable.assign] at assigned
  split at assigned
  · contradiction
  · cases assigned
    rfl

structure Announces (v : VariableId) (notification : Notification) (plant next : Plant) : Prop where
  agenda : next.agenda = ((plant.listeners (.var v)).map fun s => Job.deliver s.listener notification) ++
    (.leave (.var v) :: plant.agenda)
  listeners : next.listeners = plant.listeners
  values : next.valueOf = Function.update plant.valueOf v (some notification.value)
  heard : ∀ label, next.heard label = plant.heard label
  bound : Bound plant next
  triggers : next.triggers = plant.triggers
  observers : next.observers = plant.observers
  desk : next.desk = plant.desk
  sequences : next.sequences = plant.sequences

theorem assign_announces (plant : Plant) (there : plant.vars[v]? = some var)
    (assigned : var.assign plant.readClock.1 value = .ok (change, after)) :
    Announces v ⟨var.name, change, after.value, plant.readClock.1⟩ plant (plant.assign v var value).2 := by
  have subscribers := assigned_subscribers _ assigned
  have keeps := listeners_keep_variable v var after there subscribers
  obtain ⟨level, message, details, same⟩ := assign_accepts (v := v) assigned
  rw [same]
  refine ⟨?_, keeps, ?_, fun label => ?_, bound_refl _ _ rfl, rfl, rfl, rfl, rfl⟩
  · rw [publish_agenda, listeners_var v var there, subscribers]
    rfl
  · funext id
    by_cases own : id = v
    · subst own
      rw [Function.update_self]
      exact congrArg (Option.map _) (List.getElem?_set_self (List.getElem?_eq_some_iff.mp there).1)
    · rw [Function.update_of_ne own]
      exact congrArg (Option.map _) (List.getElem?_set_ne (Ne.symm own))
  · exact (congrFun (hushed_log (plant.readClock.2.setVariable v after) _ _ _ _).heard label)

theorem announces_relisted {notification : Notification}
    (announces : Announces v notification { plant with agenda := rest } next) :
    Announces v notification { plant with agenda := base } { next with
      agenda := ((plant.listeners (.var v)).map fun s => Job.deliver s.listener notification) ++
        (.leave (.var v) :: base) } :=
  ⟨rfl, announces.listeners, announces.values, announces.heard, announces.bound, announces.triggers,
    announces.observers, announces.desk, announces.sequences⟩

theorem assigning_there (assigning : Assigning plant v var value deed base) :
    plant.vars[v]? = some var := by
  cases assigning with
  | called name named => exact lookup_there plant plant.desk.table name v var named
  | ordered label name rest _ named => exact lookup_there plant plant.desk.table name v var named
  | followed source event _ _ there => exact there

theorem ordered_runs (plant : Plant) (label name : String) (named : plant.namedVar? name = some (v, var))
    (caused : List Job) (agenda : (plant.assign v var value).2.agenda = caused ++ plant.agenda) :
    plant.runCommand label (.var (.set name value)) = { (plant.assign v var value).2 with
      agenda := caused ++
        (.conclude label (plant.execute (.var (.set name value))).1 :: plant.agenda) } := by
  obtain ⟨jobs, grown, _, same⟩ := run_command_next plant label (.var (.set name value))
  rw [same]
  have executed := set_executes plant name v var named value
  rw [executed] at grown ⊢
  rw [agenda] at grown
  rw [List.append_cancel_right grown]

theorem takes_over (plant : Plant) (source : String) (event : Event) (there : plant.vars[v]? = some var)
    (told : event.value = some value) (used : plant.variableInUse v = true)
    (assigned : var.assign plant.readClock.1 value = .ok (change, after)) :
    plant.takeOver v source event = (plant.assign v var value).2 := by
  have accepted : (plant.assign v var value).1 = .ok change := by
    rw [assign]
    dsimp only
    rw [assigned]
  rw [takeOver, there, told]
  dsimp only
  rw [if_pos used]
  split
  · next result => rw [result]
  · next result =>
      rw [result] at accepted
      contradiction

theorem ignores_refused (plant : Plant) (source : String) (event : Event) (there : plant.vars[v]? = some var)
    (told : event.value = some value) (used : plant.variableInUse v = true) (error : AssignError)
    (refused : var.assign plant.readClock.1 value = .error error) :
    ∃ details, plant.takeOver v source event =
      plant.readClock.2.log .variable .warn "Ignoring channel value" details := by
  rw [takeOver, there, told]
  dsimp only
  rw [if_pos used, assign_refuses _ _ error refused]
  exact ⟨_, rfl⟩

theorem assigning_starts (assigning : Assigning plant v var value deed base) (start : Plant)
    (move : Move plant deed start)
    (assigned : var.assign plant.readClock.1 value = .ok (change, after)) :
    ∃ done, start = done.retire ∧
      Announces v ⟨var.name, change, after.value, plant.readClock.1⟩ { plant with agenda := base } done := by
  have there := assigning_there assigning
  have announced := fun jobs => assign_announces { plant with agenda := jobs } there assigned
  cases assigning with
  | called name named =>
      cases move with
      | call =>
          refine ⟨_, rfl, ?_⟩
          rw [set_executes plant name v var named value]
          exact announced plant.agenda
  | ordered label name rest agenda named =>
      cases move with
      | job start stepped =>
          rw [stepJob?, agenda] at stepped
          cases stepped
          refine ⟨_, rfl, ?_⟩
          have runs := ordered_runs { plant with agenda := rest } label name named
            (((plant.listeners (.var v)).map fun s =>
              Job.deliver s.listener ⟨var.name, change, after.value, plant.readClock.1⟩) ++
                [.leave (.var v)]) (by rw [(announced rest).agenda, List.append_assoc]; rfl)
          rw [perform, runs, List.append_assoc]
          exact announces_relisted (announced rest)
  | followed source event _ agenda _ told used =>
      cases move with
      | job start stepped =>
          rw [stepJob?, agenda] at stepped
          cases stepped
          refine ⟨_, rfl, ?_⟩
          rw [perform, tell, takes_over { plant with agenda := base } source event there told used
            assigned]
          exact announced base

theorem assigning_refused (assigning : Assigning plant v var value deed base) (start : Plant)
    (move : Move plant deed start) (error : AssignError)
    (refused : var.assign plant.readClock.1 value = .error error) :
    ∃ done, start = done.retire ∧ done.agenda = base ∧ done.triggers = plant.triggers ∧
      Hushed plant done := by
  have read := fun jobs => assign_refuses { plant with agenda := jobs } v error refused
  have same : ∀ jobs, Hushed plant (readClock { plant with agenda := jobs }).2 := fun jobs =>
    hushed_same _ _ rfl
  cases assigning with
  | called name named =>
      cases move with
      | call =>
          refine ⟨_, rfl, ?_⟩
          rw [set_executes plant name v var named value, read plant.agenda]
          exact ⟨rfl, rfl, same plant.agenda⟩
  | ordered label name rest agenda named =>
      cases move with
      | job start stepped =>
          rw [stepJob?, agenda] at stepped
          cases stepped
          refine ⟨_, rfl, ?_⟩
          have runs := ordered_runs { plant with agenda := rest } label name named
            [] (by rw [read rest]; rfl)
          rw [perform, runs, read rest]
          exact ⟨rfl, rfl, hushed_same _ _ rfl⟩
  | followed source event _ agenda there told used =>
      cases move with
      | job start stepped =>
          rw [stepJob?, agenda] at stepped
          cases stepped
          refine ⟨_, rfl, ?_⟩
          obtain ⟨details, ignored⟩ := ignores_refused { plant with agenda := base } source event
            there told used error refused
          rw [perform, tell, ignored]
          exact ⟨rfl, rfl, (same base).trans (hushed_log _ _ _ _ _)⟩

theorem lasts_popped {job : Job} (agenda : plant.agenda = job :: rest) (stays : ∀ node, job ≠ .leave node)
    (used : plant.triggerInUse t = true) : Lasts t rest plant := by
  have entered : isEntered { plant with agenda := rest } = plant.isEntered := by
    funext node
    cases job with
    | leave other => exact absurd rfl (stays other)
    | _ => simp [isEntered, agenda]
  rw [Lasts, triggerInUse, entered]
  exact used

theorem assigning_lasts (assigning : Assigning plant v var value deed base)
    (used : plant.triggerInUse t = true) : Lasts t base plant := by
  cases assigning with
  | called => exact used
  | ordered label name rest agenda =>
      exact lasts_more [.conclude _ _] (lasts_popped agenda (by simp) used)
  | followed source event _ agenda => exact lasts_popped agenda (by simp) used

theorem attends_same {o : ObserverId} {label : String} (attends : plant.Attends o label t)
    (listeners : next.listeners = plant.listeners) (observers : next.observers = plant.observers) :
    next.Attends o label t := by
  refine ⟨?_, ?_, ?_, ?_⟩
  · rw [observers]
    exact attends.there
  · rw [observers]
    exact attends.named
  · rw [listeners]
    exact attends.once
  · rw [listeners]
    exact attends.only

theorem discreet_same (node : Node) (discreet : plant.Discreet node)
    (listeners : next.listeners = plant.listeners) (observers : next.observers = plant.observers) :
    next.Discreet node := by
  have tells : next.Tells = plant.Tells := by
    funext first second
    rw [Tells, Tells, listeners]
  rw [Discreet, tells, listeners, observers]
  exact discreet

-- After so many jobs the rest is left to do. Meanwhile the trigger has sent the news, its handlers have
-- heard them, and all that was to be delivered had the stamp.
structure Propagates (plant start : Plant) (base : List Job) (t : TriggerId) (trigger : Trigger)
    (news : List Notification) (stamp : Instant) (count : Nat) : Prop where
  agenda : (settle count start).agenda = base
  sends : ∃ last, (settle count start).triggers[t]? = some last ∧
    last.sends = trigger.sends + news.length
  heard : ∀ o label, plant.Attends o label t →
    (settle count start).heard label = plant.heard label ++ news
  stamped : ∀ fuel < count, ∃ front, front ≠ [] ∧ (settle fuel start).agenda = front ++ base ∧
    Stamped stamp front

section

variable {notification : Notification} {start : Plant}

theorem announced_attends (announces : Announces v notification { plant with agenda := base } next)
    (o : ObserverId) (label : String) (attends : plant.Attends o label t) :
    next.retire.Attends o label t ∧ next.retire.heard label = plant.heard label := by
  have hushed := hushed_retire next
  refine ⟨attends_hushed (attends_same attends announces.listeners announces.observers) hushed, ?_⟩
  rw [hushed.heard, announces.heard]
  rfl

theorem announced_there (announces : Announces v notification { plant with agenda := base } next)
    (lasts : Lasts t base plant) :
    next.retire.triggers[t]? = plant.triggers[t]? ∧ Lasts t base next.retire := by
  have same : usage { next with agenda := base } = usage { plant with agenda := base } := by
    rw [usage, usage, announces.desk, announces.sequences]
  have lasting : Lasts t base next := by
    rw [Lasts, trigger_use_same same]
    exact lasts
  refine ⟨?_, lasts_eases lasting (eases_retire next)⟩
  rw [retire_keeps_used (lasts_in_use (_ ++ [.leave (.var v)]) lasting (by
    rw [announces.agenda, List.append_assoc]
    rfl)), announces.triggers]

theorem announced_propagates (reached : plant.Reached)
    (announces : Announces v notification { plant with agenda := base } next) (poised : next.retire.Poised)
    (matched : next.retire.Matched) (lasts : Lasts t base plant)
    (there : plant.triggers[t]? = some trigger) (active : trigger.active = true)
    (discreet : plant.Discreet (.var v)) :
    ∃ truth count, next.retire.Shows trigger truth ∧ Propagates plant next.retire base t trigger
      (trigger.echoes truth notification.stamp (plant.sidesReading trigger v)) notification.stamp count := by
  obtain ⟨kept, lasting⟩ := announced_there announces lasts
  have found := kept.trans there
  have joined := poised.joined t trigger found
  obtain ⟨evaluation, evaluated⟩ :=
    evaluate_total trigger joined.compiled (next.retire.truths trigger.children)
  have shows := shows_evaluated joined.compiled (joined.wired (.inl active)) evaluation evaluated
  generalize evaluation.trigger.latest = truth at shows
  have listened := (reached_poised reached).consistent.linked.layered (.var v)
  have handled : ∀ listener ∈ (plant.listeners (.var v)).map Subscriber.listener,
      Handled t trigger.children truth notification.stamp listener := by
    intro listener member
    obtain ⟨s, listens, rfl⟩ := List.mem_map.mp member
    have admitted := listened s listens
    cases known : s.listener with
    | observer o => exact handled_observer o
    | comparison c => exact handled_comparison c
    | trigger | follower =>
        rw [known] at admitted
        contradiction
  have innocent := discreet_listeners (eases_retire next) (.var v)
    (discreet_same (.var v) discreet announces.listeners announces.observers)
  rw [announces.listeners] at innocent
  have agenda : next.retire.agenda =
      (((plant.listeners (.var v)).map Subscriber.listener).map fun listener =>
        Job.deliver listener notification) ++ (.leave (.var v) :: base) := by
    rw [(still_retire next).agenda, announces.agenda, List.map_map]
    rfl
  obtain ⟨told, after, heard, news, passes, left, still, answers, same⟩ := replies_told _ notification rfl
    handled agenda innocent ⟨poised, matched, found, lasts_more [.leave (.var v)] lasting,
      fun _ => ⟨rfl, shows⟩⟩
  rw [prompts_assigned (reached_poised reached) (reached_matched reached) there active v] at answers
  obtain ⟨rfl, sends⟩ := answers_echoes answers active
  obtain ⟨final, ends, done, always⟩ := passes_leave passes.poised
    passes.matched (.var v) left (lasts_eases lasting passes.eases)
  have whole := (passes_behind passes (stamped_silent (by simp))).trans ends
  obtain ⟨count, rfl, along⟩ := whole.settled
  refine ⟨truth, count, shows, done, ⟨after, always.trans still.there, sends⟩,
    fun o label attends => ?_, along⟩
  obtain ⟨attending, before⟩ := announced_attends announces o label attends
  have apart := attends_apart attends (.var v) (by simp)
  rw [(whole.heard o label attending).2, before, same o label attending apart, List.append_nil]

end

theorem assignment_propagates {start : Plant} (reached : plant.Reached)
    (assigning : Assigning plant v var value deed base) (move : Move plant deed start)
    (there : plant.triggers[t]? = some trigger) (active : trigger.active = true)
    (discreet : plant.Discreet (.var v)) :
    (∀ change after, var.assign plant.readClock.1 value = .ok (change, after) →
      ∃ truth count, start.valueOf = Function.update plant.valueOf v (some after.value) ∧
        start.Shows trigger truth ∧ Propagates plant start base t trigger
          (trigger.echoes truth plant.readClock.1 (plant.sidesReading trigger v)) plant.readClock.1 count) ∧
    (∀ error, var.assign plant.readClock.1 value = .error error →
      start.agenda = base ∧ start.triggers[t]? = some trigger ∧
        ∀ label, start.heard label = plant.heard label) := by
  have poised := reached_poised reached
  have lasts := assigning_lasts assigning (poised.used.triggers t trigger there active)
  constructor
  · intro change after assigned
    have ready := poised_move deed move poised
    have matched := (matched_move deed move poised (reached_matched reached)).1
    obtain ⟨done, rfl, announces⟩ := assigning_starts assigning start move assigned
    obtain ⟨truth, count, shows, propagates⟩ :=
      announced_propagates reached announces ready matched lasts there active discreet
    exact ⟨truth, count, (eases_retire done).values.trans announces.values, shows, propagates⟩
  · intro error refused
    obtain ⟨done, rfl, agenda, triggers, hushed⟩ :=
      assigning_refused assigning start move error refused
    have retired := hushed_retire done
    have used : done.triggerInUse t = true := by
      have same : done.usage = usage { plant with agenda := base } := by
        rw [usage, usage, hushed.desk, hushed.sequences, agenda]
      rw [trigger_use_same same]
      exact lasts
    refine ⟨(still_retire done).agenda.trans agenda, ?_, fun label => ?_⟩
    · rw [retire_keeps_used used, triggers, there]
    · rw [retired.heard, hushed.heard]

end

-- Both children of an active trigger read a variable, and its handler only observes.
def doubled : Plant :=
  (blank ⟨0, 0⟩ true).runAll
    [.var (.make "x" (.bool false) false), .var (.make "y" (.bool false) false),
      .trigger (.make "t" "x==true && x!=y" 2 false), .trigger (.activate "t"),
      .subscribe "h" .trigger "t" none false 0 []]

theorem doubled_propagates :
    ∃ count, ((settle count (doubled.execute (.var (.set "x" (.bool true)))).2.retire).heard "h").map
      (fun told => (told.change, told.value, told.stamp)) =
        [(.changed, .bool true, doubled.readClock.1), (.updated, .bool true, doubled.readClock.1)] := by
  have reached : doubled.Reached :=
    ⟨⟨0, 0⟩, true, run_all_runs (fun _ _ _ => true) (fun _ _ _ done _ => done.move) _ _
      (by decide +kernel)⟩
  have attends : doubled.Attends 0 "h" 0 := attends_found doubled 0 "h" 0 (by decide +kernel)
    (by decide +kernel) (by decide +kernel) (by decide +kernel) (by decide +kernel) (by decide +kernel)
  have spent : ∀ observer ∈ doubled.observers, observer.remaining = 0 := by decide +kernel
  have ready : ∃ found ∈ doubled.trigger? "t", found.1 = 0 ∧ found.2.active = true ∧
      found.2.latest = false ∧ found.2.remaining = 2 ∧ doubled.sidesReading found.2 0 = 2 ∧
      (doubled.execute (.var (.set "x" (.bool true)))).2.retire.Finds found.2 true := by
    decide +kernel
  have named : ∃ found ∈ doubled.namedVar? "x", found.1 = 0 ∧
      (found.2.assign doubled.readClock.1 (.bool true)).toOption.isSome = true := by
    decide +kernel
  obtain ⟨⟨t, trigger⟩, found, rfl, active, low, full, sides, finds⟩ := ready
  obtain ⟨⟨v, var⟩, known, rfl, accepted⟩ := named
  dsimp only at low full sides finds accepted
  have there : doubled.triggers[0]? = some trigger := found_there _ _ "t" 0 trigger found
  obtain ⟨told, _⟩ := assignment_propagates reached (.called "x" known) (.call _) there active
    (discreet_passive (fun observer member => .inl (spent observer member)) (.var 0))
  cases assigned : var.assign doubled.readClock.1 (.bool true) with
  | error error =>
      rw [assigned] at accepted
      contradiction
  | ok result =>
      obtain ⟨truth, count, _, shows, propagates⟩ := told result.1 result.2 assigned
      have compiled := ((reached_poised reached).joined 0 trigger there).compiled
      have high := shows_unique _ trigger trigger true truth rfl rfl (finds_shows compiled true finds) shows
      have silent : (doubled.heard "h").isEmpty = true := by decide +kernel
      refine ⟨count, ?_⟩
      rw [propagates.heard 0 "h" attends, List.isEmpty_iff.mp silent, sides, high]
      simp [Trigger.echoes, low, full]

end Interlock.Plant
