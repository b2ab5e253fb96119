import Interlock.Proofs.Plant.Fate
import Interlock.Proofs.Plant.Upkeep

/-!
The graph at rest. Every job that is worked off leaves the rest of the agenda enough to put right what is
not yet true, so once nothing is left to do, what is active shows the truth of the moment.
-/

set_option autoImplicit false

namespace Interlock.Plant

open Interlock.Calendar (Instant)
open Interlock.Graph
open Interlock.Schedule
open Interlock.Session

section

variable {plant next : Plant} {job : Job} {rest : List Job}

theorem joined_deactivate (joined : ∀ t, plant.JoinedAt t) (id t : TriggerId) :
    (plant.deactivateTrigger id).JoinedAt t := by
  by_cases own : id = t
  · subst own
    cases there : plant.triggers[id]? with
    | none =>
        rw [deactivateTrigger, there]
        exact joined id
    | some trigger =>
        rcases deactivate_trigger_own plant id trigger there with ⟨_, same⟩ | sets
        · rw [same]
          exact joined id
        · exact joined_halts id plant _ trigger (joined id) there sets
  · exact joined_spares t plant _ (joined t) (spares_deactivate_trigger t plant id own)

theorem joined_rearm_own {t : TriggerId} (joined : plant.JoinedAt t) (trigger : Trigger)
    (there : plant.triggers[t]? = some trigger) : (plant.rearmTrigger t).JoinedAt t := by
  rcases rearm_trigger_own plant t trigger there with ⟨_, same⟩ | ⟨idle, sets⟩
  · rw [same]
    exact joined
  · exact joined_rearms t plant _ trigger joined there idle sets

theorem joined_rearm (joined : ∀ t, plant.JoinedAt t) (id t : TriggerId) :
    (plant.rearmTrigger id).JoinedAt t := by
  by_cases own : id = t
  · subst own
    cases there : plant.triggers[id]? with
    | none =>
        rw [rearmTrigger, there]
        exact joined id
    | some trigger => exact joined_rearm_own (joined id) trigger there
  · exact joined_spares t plant _ (joined t) (spares_rearm_trigger t plant id own)

theorem joined_evaluate_now (joined : ∀ t, plant.JoinedAt t) (id t : TriggerId) (trigger : Trigger)
    (there : plant.triggers[id]? = some trigger) : (plant.evaluateNow id trigger).2.JoinedAt t := by
  by_cases own : id = t
  · subst own
    rcases evaluated_now plant id trigger there with inert | ⟨found, evaluated⟩
    · exact joined_spares id plant _ (joined id) (inert.spares id)
    · exact joined_evaluated id plant _ trigger found (joined id) there evaluated
  · exact joined_spares t plant _ (joined t) (spares_evaluate_now t plant id own trigger)

theorem joined_execute (joined : ∀ t, plant.JoinedAt t) (command : Command) (t : TriggerId) :
    (plant.execute command).2.JoinedAt t := by
  by_cases spoiled : plant.Spoils t command
  · cases command with
    | trigger command =>
        cases command with
        | deactivate name =>
            obtain ⟨trigger, reached⟩ := spoiled
            rw [execute, onTrigger, reached]
            exact joined_deactivate joined t t
        | rearm name =>
            obtain ⟨trigger, reached⟩ := spoiled
            rw [execute, onTrigger, reached]
            exact joined_rearm joined t t
        | evaluate name =>
            obtain ⟨trigger, reached⟩ := spoiled
            have ran := joined_evaluate_now joined t t trigger (found_there _ _ name t trigger reached)
            rw [execute, onTrigger, reached]
            dsimp only
            split
            · next change later result =>
                rw [result] at ran
                exact ran
            · next error later result =>
                rw [result] at ran
                exact ran
        | make | activate | state | drop | watch | look => exact spoiled.elim
    | var | comparison | channel | device | sequence | workspace | subscribe | unsubscribe =>
        exact spoiled.elim
  · exact execute_keeps (joined_kept t) plant command (joined t) spoiled

theorem joined_every_move (deed : Deed) (move : Move plant deed next) (joined : ∀ t, plant.JoinedAt t)
    (t : TriggerId) : next.JoinedAt t := by
  by_cases unspoiled : ∀ command ∈ plant.order? deed, ¬ plant.Spoils t command
  · exact joined_move t plant next deed move (joined t) unspoiled
  · cases move with
    | job next stepped =>
        obtain ⟨job, rest, agenda, rfl⟩ := worked_off stepped
        have popped : ∀ t, JoinedAt { plant with agenda := rest } t := fun t trigger there =>
          joined_agenda plant rest trigger (joined t trigger there)
        apply retire_keeps_trigger (joined_kept t)
        cases job with
        | command label command =>
            obtain ⟨jobs, _, _, same⟩ := run_command_next { plant with agenda := rest } label command
            rw [perform, same]
            exact fun trigger there =>
              joined_agenda _ _ trigger (joined_execute popped command t trigger there)
        | deliver | tell | leave | exhaust | conclude | write | settleDown | keepSubscription
        | closeRun | announce | begin | act | arm | wait | disarm | next | complete =>
            simp [order?, agenda] at unspoiled
    | call command => exact retire_keeps_trigger (joined_kept t) _ (joined_execute joined command t)
    | turn | dispatch => simp [order?] at unspoiled

theorem coherent_popped (consistent : plant.Consistent) (agenda : plant.agenda = job :: rest) :
    Coherent { plant with agenda := rest } (job :: rest) := by
  have fewer : ∀ other ∈ rest, other ∈ plant.agenda := by
    rw [agenda]
    exact fun _ member => List.mem_cons_of_mem job member
  refine ⟨?_, ?_, ?_⟩
  · refine linked_same consistent.linked (Nat.le_refl _) rfl rfl fun node ticket kept => ?_
    exact kept.imp_right fun ⟨other, member, same⟩ => ⟨other, fewer other member, same⟩
  · exact tuned_same consistent.tuned (Nat.le_refl _) rfl rfl fun _ member => member
  · rw [← agenda]
    exact fresh_same consistent.fresh rfl rfl rfl fun _ member => member

theorem consistent_idle (coherent : plant.Coherent (job :: plant.agenda)) (idle : plant.Idle job) :
    plant.Consistent := by
  apply coherent_drops coherent
  intro other member
  rcases List.mem_cons.mp member with rfl | old
  · exact .inr idle
  · exact .inl old

theorem still_due (other : Job) (member : other ∈ job :: plant.agenda) :
    other ∈ plant.agenda ∨ other = job := (List.mem_cons.mp member).symm

theorem consistent_hear_variable (c : ComparisonId) (notification : Notification)
    (coherent : plant.Coherent (.deliver (.comparison c) notification :: plant.agenda))
    (used : plant.Used) : (plant.hearVariable c notification.stamp).Consistent := by
  rw [hearVariable]
  cases there : plant.comparisons[c]? with
  | none =>
      refine consistent_idle coherent ⟨fun comparison found => ?_, fun t trigger found _ member => ?_⟩
      · rw [there] at found
        contradiction
      · have inside := (coherent.tuned.own t trigger found c member).inside
        exact Nat.not_lt.mpr (List.getElem?_eq_none_iff.mp there) inside
  | some comparison =>
      dsimp only
      by_cases needed : plant.comparisonInUse c = true
      · rw [if_pos needed]
        exact consistent_refresh coherent c comparison there _ fun other member =>
          (still_due other member).imp_right fun same => ⟨notification, same⟩
      · rw [if_neg needed]
        refine consistent_idle coherent ⟨fun found known => ?_, ?_⟩
        · cases there.symm.trans known
          exact Bool.eq_false_iff.mpr fun active => needed (used.comparisons c comparison there active)
        · exact unused_unowned used.triggers c (Bool.eq_false_iff.mpr needed)

theorem consistent_hear (t : TriggerId) (notification : Notification)
    (coherent : plant.Coherent (.deliver (.trigger t) notification :: plant.agenda)) (used : plant.Used)
    (joined : plant.JoinedAt t) : (plant.hear t notification.stamp).Consistent := by
  rw [hear]
  cases there : plant.triggers[t]? with
  | none =>
      refine consistent_idle coherent fun trigger found => ?_
      rw [there] at found
      contradiction
  | some trigger =>
      dsimp only
      by_cases listens : (trigger.active && plant.triggerInUse t) = true
      · rw [if_pos listens]
        have ran := consistent_evaluate coherent t trigger there (joined trigger there)
          notification.stamp fun other member =>
            (still_due other member).imp_right fun same => ⟨notification, same⟩
        split
        · next change later result =>
            rw [result] at ran
            exact ran
        · next error later result =>
            rw [result] at ran
            exact consistent_calm ran (calm_same _ _ rfl)
      · rw [if_neg listens]
        refine consistent_idle coherent fun found known => ?_
        cases there.symm.trans known
        refine Bool.eq_false_iff.mpr fun active => listens ?_
        rw [active, used.triggers t trigger there active]
        rfl

theorem consistent_take_over (consistent : plant.Consistent) (v : VariableId) (source : String)
    (event : Event) : (plant.takeOver v source event).Consistent := by
  obtain same | ⟨var, value, there, _, _, same | ⟨details, same⟩⟩ := plant.take_over_cases v source event <;> rw [same]
  · exact consistent
  · exact consistent_assign consistent v var there value
  · exact consistent_calm (consistent_assign consistent v var there value) (calm_same _ _ rfl)

theorem consistent_exhaust (t : TriggerId) (coherent : plant.Coherent (.exhaust t :: plant.agenda)) :
    (plant.exhaust t).Consistent := by
  rw [exhaust]
  cases there : plant.triggers[t]? with
  | none =>
      refine consistent_idle coherent fun trigger found => ?_
      rw [there] at found
      contradiction
  | some trigger =>
      dsimp only
      generalize logged : plant.log .trigger .debug "Repeat count reached zero"
        [("trigger", .text trigger.expression)] = between
      have ready : between.Coherent (.exhaust t :: plant.agenda) := by
        subst logged
        exact coherent_calm coherent (calm_same _ _ rfl) fun _ member => member
      have agenda : between.agenda = plant.agenda := by rw [← logged]; rfl
      rw [← agenda] at ready
      exact consistent_deactivate_trigger ready t still_due

theorem consistent_run_command (consistent : plant.Consistent) (joined : ∀ t, plant.JoinedAt t)
    (label : String) (command : Command) : (plant.runCommand label command).Consistent := by
  have executed := consistent_execute consistent joined command
  obtain ⟨jobs, grown, _, same⟩ := run_command_next plant label command
  rw [same]
  have agenda : ∀ other, other ∈ jobs ++ .conclude label (plant.execute command).1 :: plant.agenda ↔
      other ∈ (plant.execute command).2.agenda ∨ other = .conclude label (plant.execute command).1 := by
    intro other
    rw [grown]
    simp only [List.mem_append, List.mem_cons]
    tauto
  refine coherent_calm executed ⟨rfl, rfl, rfl, Nat.le_refl _, rfl, fun node ticket kept => ?_, ?_,
    fun _ led => led⟩ ?_
  · refine kept.imp_right fun ⟨other, member, known⟩ => ⟨other, ?_, known⟩
    refine ((agenda other).mp member).resolve_right ?_
    rintro rfl
    contradiction
  · exact fun other member => (agenda other).mpr (.inl member)
  · exact fun other member => (agenda other).mpr (.inl member)

theorem consistent_keep_subscription (consistent : plant.Consistent) (name : String)
    (subscription : Subscription)
    (foreign : ∀ node, subscription.publisher = .node node → plant.Foreign node subscription.ticket) :
    (plant.keepSubscription name subscription).Consistent := by
  refine ⟨?_, ?_, ?_⟩
  · refine linked_keeps consistent.linked rfl rfl rfl fun node ticket kept => ?_
    rcases kept with ⟨other, member⟩ | later
    · rcases List.mem_cons.mp member with same | old
      · cases same
        exact .inr (foreign node rfl)
      · exact .inl (.inl ⟨other, List.filter_sublist.subset old⟩)
    · exact .inl (.inr later)
  · exact tuned_same consistent.tuned (Nat.le_refl _) rfl rfl fun _ member => member
  · exact fresh_same consistent.fresh rfl rfl rfl fun _ member => member

theorem consistent_arm (consistent : plant.Consistent) (joined : ∀ t, plant.JoinedAt t)
    (id : SequenceId) : (plant.arm id).Consistent := by
  have coherent (t : TriggerId) := consistent_rearm_trigger consistent t
  have taken := plant.arm_case id
  generalize plant.arm id = next at taken ⊢
  cases taken with
  | leave => exact consistent_calm consistent (calm_leave_step plant id)
  | refuse s t => exact consistent_calm (coherent t) ((calm_cancel _ id).behind rfl)
  | engage s t trigger started _ _ _ there _ activated =>
      have pushed := consistent_calm (coherent t)
        (calm_push (plant.rearmTrigger t) [.wait id] (by simp [Job.kept?]))
      exact consistent_activate_trigger pushed t started there
        (joined_agenda _ _ started (joined_rearm joined t t started there)) activated

theorem consistent_disarm (consistent : plant.Consistent) (id : SequenceId) :
    (plant.disarm id).Consistent := by
  have ended (t : TriggerId) := consistent_deactivate_trigger consistent t fun _ member => .inl member
  have taken := plant.disarm_case id
  generalize plant.disarm id = next at taken ⊢
  cases taken with
  | leave => exact consistent_calm consistent (calm_leave_step plant id)
  | unmet s t => exact consistent_calm (ended t) (calm_leave_step _ id)
  | satisfied s t => exact consistent_calm (ended t) ((calm_leave_step _ id).behind rfl)

theorem consistent_perform (coherent : plant.Coherent (job :: plant.agenda))
    (joined : ∀ t, plant.JoinedAt t)
    (used : ∀ listener notification, job = .deliver listener notification → plant.Used)
    (foreign : ∀ name subscription node, job = .keepSubscription name subscription →
      subscription.publisher = .node node → plant.Foreign node subscription.ticket) :
    (plant.perform job).Consistent := by
  cases job with
  | deliver listener notification =>
      cases listener with
      | comparison c => exact consistent_hear_variable c notification coherent (used _ _ rfl)
      | trigger t => exact consistent_hear t notification coherent (used _ _ rfl) (joined t)
      | observer id =>
          have idle := consistent_idle coherent trivial
          rw [perform, deliver]
          split
          · exact idle
          · exact consistent_calm idle ((calm_script_of _ id _).behind rfl)
      | follower v source => exact consistent_idle coherent trivial
  | tell listener event =>
      have idle := consistent_idle coherent trivial
      cases listener with
      | observer id =>
          rw [perform, tell]
          split
          · exact idle
          · exact consistent_calm idle ((calm_script_of _ id _).behind rfl)
      | follower v source => exact consistent_take_over idle v source event
      | comparison | trigger => exact idle
  | exhaust t => exact consistent_exhaust t coherent
  | command label command =>
      exact consistent_run_command (consistent_idle coherent trivial) joined label command
  | keepSubscription name subscription =>
      exact consistent_keep_subscription (consistent_idle coherent trivial) name subscription
        fun node => foreign name subscription node rfl
  | arm id => exact consistent_arm (consistent_idle coherent trivial) joined id
  | disarm id => exact consistent_disarm (consistent_idle coherent trivial) id
  | leave node => exact consistent_idle coherent trivial
  | conclude | closeRun | announce =>
      exact consistent_calm (consistent_idle coherent trivial) (calm_same _ _ rfl)
  | write id value => exact consistent_calm (consistent_idle coherent trivial) (calm_write plant id value)
  | settleDown id => exact consistent_calm (consistent_idle coherent trivial) (calm_settle_down plant id)
  | begin id => exact consistent_calm (consistent_idle coherent trivial) (calm_begin plant id)
  | act id actions => exact consistent_calm (consistent_idle coherent trivial) (calm_act plant id actions)
  | wait id => exact consistent_calm (consistent_idle coherent trivial) (calm_wait plant id)
  | next id => exact consistent_calm (consistent_idle coherent trivial) (calm_next plant id)
  | complete id => exact consistent_calm (consistent_idle coherent trivial) (calm_complete plant id)

theorem used_popped (used : plant.Used) (listener : Listener) (notification : Notification)
    (agenda : plant.agenda = .deliver listener notification :: rest) :
    Used { plant with agenda := rest } := by
  have entered : isEntered { plant with agenda := rest } = plant.isEntered := by
    funext node
    simp [isEntered, agenda]
  have triggers : triggerInUse { plant with agenda := rest } = plant.triggerInUse := by
    funext t
    simp only [triggerInUse, entered]
    rfl
  have comparisons : comparisonInUse { plant with agenda := rest } = plant.comparisonInUse := by
    funext c
    simp only [comparisonInUse, entered, triggers]
  refine ⟨?_, ?_⟩
  · rw [triggers]
    exact used.triggers
  · rw [comparisons]
    exact used.comparisons

structure Poised (plant : Plant) : Prop where
  consistent : plant.Consistent
  joined : ∀ t, plant.JoinedAt t
  used : plant.Used

theorem poised_blank (start : Instant) (hasRuntime : Bool) : (blank start hasRuntime).Poised where
  consistent := coherent_blank start hasRuntime _
  joined t trigger there := by simp [blank] at there
  used := ⟨fun _ _ there => by simp [blank] at there, fun _ _ there => by simp [blank] at there⟩

theorem poised_retire (consistent : plant.Consistent) (joined : ∀ t, plant.retire.JoinedAt t) :
    plant.retire.Poised := by
  obtain ⟨kept, used⟩ := retire_used consistent
  rw [← (still_retire plant).agenda] at kept
  exact ⟨kept, joined, used⟩

theorem poised_move (deed : Deed) (move : Move plant deed next) (poised : plant.Poised) : next.Poised := by
  have joined := joined_every_move deed move poised.joined
  cases move with
  | job next stepped =>
      obtain ⟨job, rest, agenda, rfl⟩ := worked_off stepped
      refine poised_retire (consistent_perform (coherent_popped poised.consistent agenda) ?_ ?_ ?_) joined
      · exact fun t trigger there => joined_agenda plant rest trigger (poised.joined t trigger there)
      · rintro listener notification rfl
        exact used_popped poised.used listener notification agenda
      · rintro name ⟨publisher, ticket⟩ node rfl rfl
        have kept : plant.Kept node ticket :=
          .inr ⟨_, by rw [agenda]; exact List.mem_cons_self, rfl⟩
        obtain ⟨issued, shared⟩ := poised.consistent.linked.kept node ticket kept
        exact ⟨issued, shared⟩
  | call command => exact poised_retire (consistent_execute poised.consistent poised.joined command) joined
  | turn runner => exact poised_retire (consistent_calm poised.consistent (calm_turn plant runner)) joined
  | dispatch change =>
      exact ⟨consistent_calm poised.consistent (calm_same _ _ rfl), joined,
        poised.used.triggers, poised.used.comparisons⟩

theorem reached_poised (reached : plant.Reached) : plant.Poised := by
  obtain ⟨start, hasRuntime, moves⟩ := reached
  exact runs_invariant Poised (fun _ deed _ poised move => poised_move deed move poised) _ plant
    (poised_blank start hasRuntime) moves

theorem operand_valued (tuned : plant.Tuned) (c : ComparisonId) (comparison : Comparison)
    (there : plant.comparisons[c]? = some comparison) (operand : Operand)
    (side : operand = comparison.relation.left ∨ operand = comparison.relation.right) :
    ∃ value, operand.value? plant.valueOf = some value := by
  cases operand with
  | constant value => exact ⟨value, rfl⟩
  | var id =>
      have read : id ∈ comparison.relation.vars := by
        rcases side with same | same <;> simp [Relation.vars, ← same, Operand.var?]
      have inside := tuned.bound c comparison there id read
      exact ⟨plant.vars[id].value, by simp [Operand.value?, valueOf, inside]⟩

theorem graph_settled (reached : plant.Reached) (rest : plant.agenda = []) :
    (∀ (c : ComparisonId) (comparison : Comparison), plant.comparisons[c]? = some comparison →
      comparison.isActive = true → ∃ left right,
        comparison.relation.left.value? plant.valueOf = some left ∧
        comparison.relation.right.value? plant.valueOf = some right ∧
        comparison.latest = comparison.relation.comparator.test (left.compare? right)) ∧
    (∀ (t : TriggerId) (trigger : Trigger), plant.triggers[t]? = some trigger →
      trigger.active = true → plant.Shows trigger trigger.latest ∧ trigger.signal = trigger.latest ∧
        0 < trigger.remaining) := by
  have poised := reached_poised reached
  have fresh := poised.consistent.fresh
  rw [rest] at fresh
  have done : ∀ listener, ¬ Awaits [] listener := by
    rintro listener ⟨notification, member⟩
    contradiction
  constructor
  · intro c comparison there active
    obtain ⟨left, first⟩ := operand_valued poised.consistent.tuned c comparison there _ (.inl rfl)
    obtain ⟨right, second⟩ := operand_valued poised.consistent.tuned c comparison there _ (.inr rfl)
    have truth := (fresh.comparisons c comparison there active).resolve_right (done _)
    refine ⟨left, right, first, second, ?_⟩
    rw [truth, sample, Relation.sample, first, second]
  · intro t trigger there active
    have truthful : plant.Truthful trigger := by
      rcases fresh.triggers t trigger there active with now | awaits | ⟨child, _, awaits⟩
      · exact now
      · exact absurd awaits (done _)
      · exact absurd awaits (done _)
    have left := (fresh.supplied t trigger there active).resolve_right (by simp)
    exact ⟨truthful.shows, truthful.signal, Nat.pos_of_ne_zero left⟩

end

-- A handler of the first variable assigns the second one, while a comparison and a trigger read both.
def cascaded : Plant :=
  (blank ⟨0, 0⟩ true).runAll
    [.var (.make "x" (.bool false) false), .var (.make "y" (.bool false) false),
      .trigger (.make "t" "x==true && y==true" 4 false), .trigger (.activate "t"),
      .comparison (.make "c" "x==y"), .comparison (.activate "c"),
      .subscribe "h" .var "x" none false 1 [.var (.set "y" (.bool true))],
      .var (.set "x" (.bool true))]

theorem cascaded_settled :
    (∃ comparison ∈ cascaded.comparisons[2]?, comparison.latest = true ∧ ∃ left right,
      comparison.relation.left.value? cascaded.valueOf = some left ∧
      comparison.relation.right.value? cascaded.valueOf = some right ∧
      comparison.relation.comparator.test (left.compare? right) = true) ∧
    ∃ trigger ∈ cascaded.triggers[0]?, cascaded.Shows trigger true ∧ trigger.signal = true ∧
      0 < trigger.remaining := by
  have reached : cascaded.Reached :=
    ⟨⟨0, 0⟩, true, run_all_runs (fun _ _ _ => true) (fun _ _ _ done _ => done.move) _ _
      (by decide +kernel)⟩
  obtain ⟨comparisons, triggers⟩ := graph_settled reached (List.isEmpty_iff.mp (by decide +kernel))
  have compared : ∃ comparison ∈ cascaded.comparisons[2]?,
      comparison.isActive = true ∧ comparison.latest = true := by
    decide +kernel
  have lit : ∃ trigger ∈ cascaded.triggers[0]?, trigger.active = true ∧ trigger.latest = true := by
    decide +kernel
  obtain ⟨comparison, there, active, latest⟩ := compared
  obtain ⟨trigger, found, listens, high⟩ := lit
  obtain ⟨left, right, first, second, truth⟩ := comparisons 2 comparison there active
  obtain ⟨shows, signal, remaining⟩ := triggers 0 trigger found listens
  rw [high] at shows signal
  exact ⟨⟨comparison, there, latest, left, right, first, second, truth ▸ latest⟩, trigger, found, shows,
    signal, remaining⟩

end Interlock.Plant
