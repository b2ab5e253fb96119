import Mathlib.Algebra.BigOperators.Fin
import Mathlib.Algebra.Order.BigOperators.Group.Multiset
import Interlock.Proofs.Plant.Tidying

/-!
The balance of subscriptions. The subscribers of a variable are the handlers that were subscribed to it
and the sides of active comparisons that read it.
-/

set_option autoImplicit false

namespace Interlock

open Interlock.Graph
open Interlock.Session

def Graph.Comparison.sides (comparison : Comparison) (v : VariableId) : Nat :=
  if comparison.isActive then comparison.relation.vars.count v else 0

namespace Plant

def outsiders (plant : Plant) (v : VariableId) : Subscribers :=
  (plant.listeners (.var v)).filter fun s => s.listener.isShared

-- The graph and what is still to be done are the same.
structure Unmoved (plant next : Plant) : Prop where
  vars : next.vars = plant.vars
  comparisons : next.comparisons = plant.comparisons
  triggers : next.triggers = plant.triggers
  agenda : next.agenda = plant.agenda

-- Commands that begin or end the activity of a comparison or a trigger.
def Switches : Command → Prop
  | .comparison (.activate _) | .comparison (.deactivate _)
  | .trigger (.activate _) | .trigger (.deactivate _) => True
  | _ => False

section

variable {plant next : Plant} {jobs : List Job}

theorem sides_subscribed (matched : plant.Matched) (c : ComparisonId) (comparison : Comparison)
    (there : plant.comparisons[c]? = some comparison) (v : VariableId) :
    (plant.listeners (.var v)).countP (fun s => s.listener == .comparison c) = comparison.sides v := by
  have injective : Node.var.Injective := fun _ _ same => Node.var.inj same
  rw [← count_tickets_of, matched.ticketed.entries (.var v) (.comparison c) rfl, dues,
    ties_comparison c comparison there, Comparison.ties, count_tickets_for Node.var injective,
    Comparison.sides]
  by_cases active : comparison.isActive = true
  · rw [if_pos active]
    rcases matched.sides c comparison there with none | all
    · simp [Comparison.isActive, none] at active
    · rw [all]
  · have none : comparison.links = [] := by simpa [Comparison.isActive] using active
    rw [if_neg active, none]
    rfl

theorem inside_comparison (matched : plant.Matched) (linked : plant.Linked) (v : VariableId)
    (s : Subscriber) (member : s ∈ plant.listeners (.var v)) (inside : s.listener.isShared = false) :
    ∃ c < plant.comparisons.length, s.listener = .comparison c := by
  obtain ⟨ticket, listener⟩ := s
  have admitted := linked.layered (.var v) _ member
  cases listener with
  | observer | trigger | follower => contradiction
  | comparison c =>
      refine ⟨c, ?_, rfl⟩
      have held := (ticketed_mem matched.ticketed (.var v) rfl ticket).mp member
      by_contra outside
      have missing := List.getElem?_eq_none_iff.mpr (Nat.not_lt.mp outside)
      simp [dues, tiesOf, missing] at held

theorem count_by_key {α : Type} (key : α → Listener) (items : List α) (n : Nat)
    (cover : ∀ item ∈ items, ∃ c < n, key item = .comparison c) :
    items.length = ∑ c : Fin n, items.countP fun item => key item == .comparison c := by
  induction items with
  | nil => simp
  | cons item rest ih =>
      obtain ⟨c, inside, known⟩ := cover item List.mem_cons_self
      have own : (∑ other : Fin n, if (key item == .comparison other) = true then 1 else 0) = 1 := by
        rw [Finset.sum_eq_single ⟨c, inside⟩]
        · simp [known]
        · intro other _ apart
          rw [known, if_neg]
          simpa using fun same => apart (Fin.ext same.symm)
        · simp
      simp only [List.countP_cons, Finset.sum_add_distrib, List.length_cons, own]
      rw [← ih fun other member => cover other (List.mem_cons_of_mem item member)]

theorem subscribers_add_up (matched : plant.Matched) (linked : plant.Linked) (v : VariableId) :
    (plant.listeners (.var v)).length =
      (plant.outsiders v).length + (plant.comparisons.map fun comparison => comparison.sides v).sum := by
  have inner := count_by_key Subscriber.listener
    ((plant.listeners (.var v)).filter fun s => !s.listener.isShared) plant.comparisons.length
    fun s member => by
      obtain ⟨listens, inside⟩ := List.mem_filter.mp member
      exact inside_comparison matched linked v s listens (by simpa using inside)
  have each : ∀ c : Fin plant.comparisons.length,
      ((plant.listeners (.var v)).filter fun s => !s.listener.isShared).countP
        (fun s => s.listener == .comparison c) = plant.comparisons[c.val].sides v := by
    intro c
    rw [← sides_subscribed matched c _ (List.getElem?_eq_getElem c.isLt) v, List.countP_filter]
    refine List.countP_congr fun s _ => ?_
    cases s with
    | mk ticket listener => cases listener <;> simp [Listener.isShared]
  rw [List.length_eq_length_filter_add fun s => s.listener.isShared, inner]
  simp only [each, outsiders]
  rw [Fin.sum_univ_fun_getElem plant.comparisons fun comparison => comparison.sides v]

theorem outsiders_same (matched : plant.Matched) (after : next.Matched) (outside : Outside plant next)
    (v : VariableId) : (next.outsiders v).Perm (plant.outsiders v) := by
  refine (List.perm_ext_iff_of_nodup ?_ ?_).mpr fun s => ?_
  · exact (List.Nodup.of_map _ (after.ticketed.single (.var v))).filter _
  · exact (List.Nodup.of_map _ (matched.ticketed.single (.var v))).filter _
  · obtain ⟨ticket, listener⟩ := s
    cases listener with
    | observer o =>
        have same := outside (.var v) o
        simp only [outsiders, List.mem_filter, Listener.isShared, and_true]
        rw [← mem_tickets_of, ← mem_tickets_of, same]
    | comparison | trigger | follower => simp [outsiders, Listener.isShared]

theorem Unmoved.refl (plant : Plant) : Unmoved plant plant := ⟨rfl, rfl, rfl, rfl⟩

theorem evaluate_now_listens (plant : Plant) (t : TriggerId) (trigger : Trigger)
    (there : plant.triggers[t]? = some trigger) :
    (plant.evaluateNow t trigger).2.desk = plant.desk ∧ ∃ after,
      (plant.evaluateNow t trigger).2.triggers[t]? = some after ∧ after.active = trigger.active := by
  have same : plant.evaluateNow t trigger = plant.readClock.2.evaluate t trigger plant.readClock.1 := rfl
  rw [same, evaluate]
  split
  · exact ⟨rfl, trigger, there, rfl⟩
  · next found value =>
      obtain ⟨change, woken⟩ := wake_waiting_dispatch (plant.readClock.2.setTrigger t found.trigger) t
      have set := set_trigger_there plant.readClock.2 t trigger found.trigger there
      have active := (evaluate_keeps trigger _ found value).2.2.2.2
      dsimp only
      rw [woken]
      split
      · exact ⟨rfl, found.trigger, set, active⟩
      · exact ⟨rfl, found.trigger, set, active⟩

theorem activated_listens (coherent : plant.Coherent jobs) (t : TriggerId) (trigger : Trigger)
    (there : plant.triggers[t]? = some trigger) (activated : plant.activateTrigger t trigger = .ok next) :
    next.desk = plant.desk ∧ ∃ after, next.triggers[t]? = some after ∧
      (after.active = true ∨ after.remaining = 0) := by
  cases activation activated with
  | spent used => exact ⟨rfl, trigger, there, .inr used⟩
  | active _ listens => exact ⟨rfl, trigger, there, .inl listens⟩
  | begun _ _ children between _ made ran =>
      obtain ⟨kept, widens, spare⟩ := children_of_spare coherent t trigger there children made
      have linked := (children_linked kept t children fun child member => (spare child member).inside).widens
      have begun := set_trigger_there _ t trigger (trigger.started children (between.childLinks t children))
        (by rw [linked.triggers, widens.triggers, there])
      obtain ⟨same, later, found, listens⟩ := evaluate_now_listens (between.engage t trigger children) t _ begun
      have desk := same.trans (linked.desk.trans widens.desk)
      obtain rfl | ⟨_, details, _, rfl⟩ := ran
      · exact ⟨desk, later, found, .inl listens⟩
      · exact ⟨desk, later, found, .inl listens⟩

theorem activate_listening (t : TriggerId) (trigger : Trigger)
    (listens : trigger.active = true ∨ trigger.remaining = 0) :
    ∃ next, plant.activateTrigger t trigger = .ok next ∧ Unmoved plant next := by
  rw [activateTrigger]
  split
  · exact ⟨_, rfl, rfl, rfl, rfl, rfl⟩
  · next left => 
      rw [if_pos (listens.resolve_right left)]
      exact ⟨plant, rfl, .refl plant⟩

theorem deactivate_idle (t : TriggerId) (trigger : Trigger) (there : plant.triggers[t]? = some trigger)
    (idle : trigger.active = false) : plant.deactivateTrigger t = plant := by
  rw [deactivateTrigger, there]
  exact if_neg (by simp [idle])

theorem comparison_listening (c : ComparisonId) (comparison : Comparison)
    (there : plant.comparisons[c]? = some comparison) (active : comparison.isActive = true) :
    plant.activateComparison c = plant := by
  rw [activateComparison, there]
  exact if_pos active

theorem comparison_idle (c : ComparisonId) (comparison : Comparison)
    (there : plant.comparisons[c]? = some comparison) (idle : comparison.isActive = false) :
    plant.deactivateComparison c = plant := by
  have none : comparison.links = [] := by simpa [Comparison.isActive] using idle
  obtain ⟨inside, same⟩ := List.getElem?_eq_some_iff.mp there
  rw [deactivateComparison, there]
  simp only [none, List.foldl_nil, setComparison]
  rw [show ({ comparison with links := [] } : Comparison) = plant.comparisons[c] by rw [same, ← none],
    List.set_getElem_self inside]

theorem activate_comparison_twice (consistent : plant.Consistent) (c : ComparisonId) :
    (plant.activateComparison c).activateComparison c = plant.activateComparison c := by
  cases there : plant.comparisons[c]? with
  | none =>
      have same : plant.activateComparison c = plant := by rw [activateComparison, there]
      rw [same, same]
  | some comparison =>
      by_cases active : comparison.isActive = true
      · have same := comparison_listening c comparison there active
        rw [same, same]
      · have linked := variables_linked consistent c comparison.relation.vars
          (consistent.tuned.bound c comparison there)
        have begun : plant.activateComparison c =
            (plant.linkVariables c comparison.relation.vars).2.setComparison c { comparison with
              latest := plant.sample comparison
              links := (plant.linkVariables c comparison.relation.vars).1 } := by
          rw [activateComparison, there]
          exact if_neg active
        cases read : comparison.relation.vars with
        | nil =>
            -- it has nothing to listen to, and its truth is the same
            rw [read] at begun
            rw [begun]
            have found := set_comparison_there plant c comparison
              { comparison with latest := plant.sample comparison, links := [] } there
            rw [linkVariables, activateComparison, found]
            dsimp only
            rw [read, linkVariables]
            rw [if_neg (by simp [Comparison.isActive])]
            simp only [setComparison, List.set_set]
            rfl
        | cons v rest =>
            obtain ⟨ticket, link⟩ := linked.complete v (by rw [read]; exact List.mem_cons_self)
            have found := set_comparison_there _ c comparison { comparison with
              latest := plant.sample comparison
              links := (plant.linkVariables c comparison.relation.vars).1 }
              (by rw [linked.comparisons, there])
            rw [← begun] at found
            refine comparison_listening c _ found ?_
            simpa [Comparison.isActive] using List.ne_nil_of_mem link

theorem deactivate_comparison_twice (c : ComparisonId) :
    (plant.deactivateComparison c).deactivateComparison c = plant.deactivateComparison c := by
  cases there : plant.comparisons[c]? with
  | none =>
      have same : plant.deactivateComparison c = plant := by rw [deactivateComparison, there]
      rw [same, same]
  | some comparison =>
      cases found : (plant.deactivateComparison c).comparisons[c]? with
      | none => rw [deactivateComparison, found]
      | some after =>
          refine comparison_idle c after found (Bool.eq_false_iff.mpr fun active => ?_)
          exact ((deactivated_comparison plant c).2 c after found active).1 rfl

theorem deactivate_trigger_twice (t : TriggerId) :
    (plant.deactivateTrigger t).deactivateTrigger t = plant.deactivateTrigger t := by
  cases found : (plant.deactivateTrigger t).triggers[t]? with
  | none => rw [deactivateTrigger, found]
  | some after =>
      refine deactivate_idle t after found (Bool.eq_false_iff.mpr fun active => ?_)
      exact ((deactivated_trigger plant t).2 t after found active).1 rfl

theorem found_id {α : Type} (directory : Directory) (items : List α) (name : String) (id : Nat)
    (item : α) (found : find? directory items name = some (id, item)) : directory.find? name = some id := by
  rw [find?] at found
  split at found
  · next other known =>
      obtain ⟨_, _, same⟩ := Option.map_eq_some_iff.mp found
      cases same
      exact known
  · contradiction

theorem found_again {α : Type} {directory later : Directory} {items others : List α} {name : String}
    {id again : Nat} {item other : α} (same : later = directory)
    (found : find? directory items name = some (id, item))
    (reached : find? later others name = some (again, other)) : again = id := by
  have first := found_id directory items name id item found
  have second := found_id later others name again other reached
  rw [same, first] at second
  exact (Option.some.inj second).symm

theorem named_twice {α : Type} (items : Plant → List α) (names : Desk → Directory) (name : String)
    (run : Plant → Plant) {switch : Plant → Nat → Plant}
    (unknown : ∀ plant, find? (names plant.desk) (items plant) name = none → run plant = plant)
    (known : ∀ plant id item, find? (names plant.desk) (items plant) name = some (id, item) →
      run plant = switch plant id)
    (desk : ∀ id, (switch plant id).desk = plant.desk)
    (twice : ∀ id, switch (switch plant id) id = switch plant id) : run (run plant) = run plant := by
  cases found : find? (names plant.desk) (items plant) name with
  | none => rw [unknown plant found, unknown plant found]
  | some reached =>
      have first := known plant _ _ found
      rw [first]
      cases again : find? (names (switch plant reached.1).desk) (items (switch plant reached.1)) name with
      | none => exact unknown _ again
      | some later =>
          have same := found_again (by rw [desk]) found again
          rw [known _ _ _ again, same, twice]

theorem activate_trigger_twice (coherent : plant.Coherent jobs) (name : String) :
    Unmoved (plant.onTrigger (.activate name)).2
      ((plant.onTrigger (.activate name)).2.onTrigger (.activate name)).2 := by
  have refused : ∀ plant : Plant, (∀ t trigger next, plant.trigger? name = some (t, trigger) →
      plant.activateTrigger t trigger ≠ .ok next) → (plant.onTrigger (.activate name)).2 = plant := by
    intro plant none
    rw [onTrigger]
    split
    · rfl
    · next t trigger found =>
        split
        · next next activated => exact absurd activated (none t trigger next found)
        · rfl
  by_cases works : ∃ t trigger next, plant.trigger? name = some (t, trigger) ∧
      plant.activateTrigger t trigger = .ok next
  · obtain ⟨t, trigger, next, found, activated⟩ := works
    have first : (plant.onTrigger (.activate name)).2 = next := by
      rw [onTrigger, found]
      dsimp only
      rw [activated]
    obtain ⟨desk, after, there, listens⟩ :=
      activated_listens coherent t trigger (found_there _ _ name t trigger found) activated
    rw [first, onTrigger]
    cases again : next.trigger? name with
    | none => exact .refl next
    | some later =>
        obtain ⟨id, reached⟩ := later
        have same := found_again (by rw [desk]) found again
        subst same
        cases there.symm.trans (found_there _ _ name id reached again)
        obtain ⟨last, result, unmoved⟩ := activate_listening id after listens
        dsimp only
        rw [result]
        exact unmoved
  · have same := refused plant fun t trigger next found activated =>
      works ⟨t, trigger, next, found, activated⟩
    rw [same, same]
    exact .refl plant

theorem desk_activate_comparison (consistent : plant.Consistent) (c : ComparisonId) :
    (plant.activateComparison c).desk = plant.desk :=
  (coherent_activate_comparison consistent c).2.1.desk

theorem switched_twice (consistent : plant.Consistent) (command : Command) (switches : Switches command) :
    Unmoved (plant.execute command).2 ((plant.execute command).2.execute command).2 := by
  have agreed : ∀ {first second : Plant}, second = first → Unmoved first second := by
    rintro first second rfl
    exact .refl second
  have desk : ∀ {first second : Plant}, second.usage = first.usage → second.desk = first.desk :=
    congrArg Prod.fst
  cases command with
  | comparison command =>
      cases command with
      | activate name =>
          refine agreed (named_twice Plant.comparisons Desk.comparisons name
            (fun plant => (plant.onComparison (.activate name)).2)
            ?_ ?_ (desk_activate_comparison consistent)
            (activate_comparison_twice consistent))
          · intro plant missing
            rw [onComparison, comparison?, missing]
          · intro plant c comparison found
            rw [onComparison, comparison?, found]
      | deactivate name =>
          refine agreed (named_twice Plant.comparisons Desk.comparisons name
            (fun plant => (plant.onComparison (.deactivate name)).2)
            ?_ ?_ (fun c => desk (deactivated_comparison plant c).1)
            deactivate_comparison_twice)
          · intro plant missing
            rw [onComparison, comparison?, missing]
          · intro plant c comparison found
            rw [onComparison, comparison?, found]
      | make | refresh | state | drop => exact switches.elim
  | trigger command =>
      cases command with
      | activate name => exact activate_trigger_twice consistent name
      | deactivate name =>
          refine agreed (named_twice Plant.triggers Desk.triggers name
            (fun plant => (plant.onTrigger (.deactivate name)).2)
            ?_ ?_ (fun t => desk (deactivated_trigger plant t).1)
            deactivate_trigger_twice)
          · intro plant missing
            rw [onTrigger, trigger?, missing]
          · intro plant t trigger found
            rw [onTrigger, trigger?, found]
      | make | rearm | evaluate | state | drop | watch | look => exact switches.elim
  | var | channel | device | sequence | workspace | subscribe | unsubscribe => exact switches.elim

theorem refused_activation (name : String) (t : TriggerId) (trigger : Trigger) (error : BindingError)
    (found : plant.trigger? name = some (t, trigger))
    (refused : plant.activateTrigger t trigger = .error error) :
    trigger.active = false ∧ plant.execute (.trigger (.activate name)) = (.unbound error, plant) := by
  refine ⟨Bool.eq_false_iff.mpr fun active => ?_, ?_⟩
  · obtain ⟨_, activated, _⟩ := activate_listening t trigger (.inl active)
    rw [refused] at activated
    contradiction
  · rw [execute, onTrigger, found]
    dsimp only
    rw [refused]

theorem child_sides (matched : plant.Matched) (tuned : plant.Tuned) (t : TriggerId) (trigger : Trigger)
    (there : plant.triggers[t]? = some trigger) (child : ComparisonId) (member : child ∈ trigger.children) :
    ∃ comparison : Comparison, plant.comparisons[child]? = some comparison ∧ ∀ v, comparison.sides v =
      if trigger.active then comparison.relation.vars.count v else 0 := by
  have inside := (tuned.own t trigger there child member).inside
  refine ⟨plant.comparisons[child], List.getElem?_eq_getElem inside, fun v => ?_⟩
  have known := List.getElem?_eq_getElem inside
  generalize plant.comparisons[child] = comparison at known ⊢
  rw [Comparison.sides]
  by_cases active : trigger.active = true
  · obtain ⟨_, found, same, hears⟩ := tuned.follows t trigger there active child member
    cases known.symm.trans same
    rw [if_pos active]
    by_cases reads : v ∈ comparison.relation.vars
    · obtain ⟨ticket, link⟩ := hears v reads
      exact if_pos (by simpa [Comparison.isActive] using List.ne_nil_of_mem link)
    · rw [List.count_eq_zero_of_not_mem reads, ite_self]
  · have idle := Bool.eq_false_iff.mpr active
    have empty := matched.asleep t trigger there (by simp) idle child member comparison known
    rw [if_neg active, if_neg (by simp [Comparison.isActive, empty])]

theorem active_owned (reached : plant.Reached) (matched : plant.Matched) (rest : plant.agenda = [])
    (c : ComparisonId) (comparison : Comparison) (there : plant.comparisons[c]? = some comparison)
    (active : comparison.isActive = true) :
    c ∈ plant.desk.comparisons.ids ∨ ∃ (t : TriggerId) (trigger : Trigger),
      plant.triggers[t]? = some trigger ∧ trigger.active = true ∧ c ∈ trigger.children := by
  have used := (reached_poised reached).used.comparisons c comparison there active
  have entered : plant.isEntered (.comparison c) = false := by rw [isEntered, rest]; rfl
  simp only [comparisonInUse, entered, Bool.or_false, Bool.or_eq_true, List.contains_iff_mem,
    List.any_eq_true, Prod.exists, Bool.and_eq_true] at used
  rcases used with named | ⟨trigger, t, listed, member, _⟩
  · exact .inl named
  · have found := List.mem_zipIdx_iff_getElem?.mp listed
    refine .inr ⟨t, trigger, found, ?_, member⟩
    by_contra idle
    have empty := matched.asleep t trigger found (by simp) (Bool.eq_false_iff.mpr idle) c member comparison
      there
    simp [Comparison.isActive, empty] at active

theorem reached_matched (reached : plant.Reached) : plant.Matched := by
  obtain ⟨start, hasRuntime, moves⟩ := reached
  refine (runs_invariant (fun plant => plant.Poised ∧ plant.Matched) ?_ _ plant
    ⟨poised_blank start hasRuntime, matched_blank start hasRuntime⟩ moves).2
  exact fun _ deed _ ⟨poised, matched⟩ move =>
    ⟨poised_move deed move poised, (matched_move deed move poised matched).1⟩

theorem subscriptions_balance (reached : plant.Reached) :
    (∀ (v : VariableId) (var : Variable), plant.vars[v]? = some var →
      var.subscribers.length = (plant.outsiders v).length +
        (plant.comparisons.map fun comparison => comparison.sides v).sum) ∧
    (∀ (t : TriggerId) (trigger : Trigger), plant.triggers[t]? = some trigger →
      ∀ child ∈ trigger.children, ∃ comparison : Comparison, plant.comparisons[child]? = some comparison ∧
        ∀ v, comparison.sides v = if trigger.active then comparison.relation.vars.count v else 0) ∧
    (∀ deed next, Move plant deed next → (∀ command ∈ plant.order? deed, ¬ Resubscribes command) →
      ∀ v, (next.outsiders v).Perm (plant.outsiders v)) ∧
    (∀ command, Switches command →
      Unmoved (plant.execute command).2 ((plant.execute command).2.execute command).2) ∧
    (∀ name t trigger error, plant.trigger? name = some (t, trigger) →
      plant.activateTrigger t trigger = .error error →
        trigger.active = false ∧ plant.execute (.trigger (.activate name)) = (.unbound error, plant)) ∧
    (plant.agenda = [] →
      (∀ (c : ComparisonId) (comparison : Comparison), plant.comparisons[c]? = some comparison →
        comparison.isActive = true → c ∈ plant.desk.comparisons.ids ∨
          ∃ (t : TriggerId) (trigger : Trigger), plant.triggers[t]? = some trigger ∧
            trigger.active = true ∧ c ∈ trigger.children) ∧
      ∀ (t : TriggerId) (trigger : Trigger), plant.triggers[t]? = some trigger →
        trigger.remaining = 0 → trigger.active = false) := by
  have poised := reached_poised reached
  have matched := reached_matched reached
  refine ⟨fun v var there => ?_, child_sides matched poised.consistent.tuned,
    fun deed next move kept v => ?_, switched_twice poised.consistent, refused_activation,
    fun rest => ⟨active_owned reached matched rest, fun t trigger there spent => ?_⟩⟩
  · rw [← listeners_var v var there]
    exact subscribers_add_up matched poised.consistent.linked v
  · obtain ⟨after, outside⟩ := matched_move deed move poised matched
    exact outsiders_same matched after (outside kept) v
  · refine Bool.eq_false_iff.mpr fun active => ?_
    rcases poised.consistent.fresh.supplied t trigger there active with left | due
    · exact left spent
    · rw [rest] at due
      contradiction

end

-- A handler, both sides of a comparison and the children of a trigger read one variable, while another
-- trigger was used up.
def weighed : Plant :=
  (blank ⟨0, 0⟩ true).runAll
    [.var (.make "x" (.number 0) false), .subscribe "h" .var "x" none false 1 [],
      .comparison (.make "c" "x==x"), .comparison (.activate "c"),
      .trigger (.make "t" "x>2 || x<1" 4 false), .trigger (.activate "t"),
      .trigger (.make "u" "x<3" 1 false), .trigger (.activate "u"), .trigger (.activate "t")]

theorem weighed_balance : (∃ var ∈ weighed.vars[0]?, var.subscribers.length = 5) ∧
    (∃ trigger ∈ weighed.triggers[1]?, trigger.remaining = 0 ∧ trigger.active = false) ∧
    Unmoved (weighed.execute (.trigger (.deactivate "t"))).2
      ((weighed.execute (.trigger (.deactivate "t"))).2.execute (.trigger (.deactivate "t"))).2 := by
  have reached : weighed.Reached :=
    ⟨⟨0, 0⟩, true, run_all_runs (fun _ _ _ => true) (fun _ _ _ done _ => done.move) _ _
      (by decide +kernel)⟩
  obtain ⟨counts, _, _, twice, _, rested⟩ := subscriptions_balance reached
  obtain ⟨_, spent⟩ := rested (List.isEmpty_iff.mp (by decide +kernel))
  have read : ∃ var ∈ weighed.vars[0]?, (weighed.outsiders 0).length +
      (weighed.comparisons.map fun comparison => comparison.sides 0).sum = 5 := by
    decide +kernel
  have used : ∃ trigger ∈ weighed.triggers[1]?, trigger.remaining = 0 := by
    decide +kernel
  obtain ⟨var, there, sum⟩ := read
  obtain ⟨trigger, found, none⟩ := used
  exact ⟨⟨var, there, (counts 0 var there).trans sum⟩, ⟨trigger, found, none, spent 1 trigger found none⟩,
    twice _ trivial⟩

end Plant

end Interlock
