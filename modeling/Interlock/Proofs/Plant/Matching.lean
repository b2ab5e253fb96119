import Interlock.Proofs.Plant.Ticketing

/-!
Subscriptions and what is active. An active comparison holds one ticket for each of its sides that reads a
variable, an active trigger one for each of its children, and what is not active holds none.
-/

set_option autoImplicit false

namespace Interlock.Plant

open Interlock.Calendar (Instant)
open Interlock.Graph

def dues (plant : Plant) : Option (TriggerId × List (Node × Ticket)) → Listener → List (Node × Ticket)
  | none => plant.tiesOf
  | some (t, pending) => Function.update plant.tiesOf (.trigger t) pending

structure Matching (plant : Plant) (begun : Option (TriggerId × List (Node × Ticket))) : Prop where
  ticketed : plant.Ticketed (plant.dues begun)
  sides : ∀ (c : ComparisonId) (comparison : Comparison), plant.comparisons[c]? = some comparison →
    comparison.links = [] ∨ comparison.links.map Prod.fst = comparison.relation.vars
  brood : ∀ (t : TriggerId) (trigger : Trigger), plant.triggers[t]? = some trigger →
    trigger.links.map Prod.fst = if trigger.active then trigger.children else []
  distinct : ∀ (t : TriggerId) (trigger : Trigger), plant.triggers[t]? = some trigger →
    trigger.children.Nodup
  asleep : ∀ (t : TriggerId) (trigger : Trigger), plant.triggers[t]? = some trigger →
    begun.map Prod.fst ≠ some t → trigger.active = false → ∀ child ∈ trigger.children,
      ∀ comparison : Comparison, plant.comparisons[child]? = some comparison → comparison.links = []

abbrev Matched (plant : Plant) : Prop := plant.Matching none

structure Retains (plant next : Plant) : Prop where
  comparisons : ∀ (c : ComparisonId) (after : Comparison), next.comparisons[c]? = some after →
    ∃ comparison : Comparison, plant.comparisons[c]? = some comparison ∧
      after.relation = comparison.relation ∧ after.links = comparison.links
  triggers : ∀ (t : TriggerId) (after : Trigger), next.triggers[t]? = some after →
    ∃ trigger : Trigger, plant.triggers[t]? = some trigger ∧ after.links = trigger.links ∧
      after.children = trigger.children ∧ after.active = trigger.active

-- The subscriptions match, and handlers have theirs.
structure Tidies (plant next : Plant) : Prop where
  matched : next.Matched
  outside : Outside plant next

section

variable {plant middle next : Plant} {jobs : List Job}
  {begun : Option (TriggerId × List (Node × Ticket))}

theorem matched_blank (start : Instant) (hasRuntime : Bool) : (blank start hasRuntime).Matched := by
  have silent : ∀ node, (blank start hasRuntime).listeners node = [] := by
    intro node
    cases node <;> rfl
  have untied : ∀ listener, (blank start hasRuntime).tiesOf listener = [] := by
    intro listener
    cases listener <;> rfl
  refine ⟨⟨fun node => ?_, fun node listener _ => ?_⟩, ?_, ?_, ?_, ?_⟩
  · simp [silent]
  · rw [silent, dues, untied]
    rfl
  all_goals simp [blank]

theorem Tidies.trans (first : Tidies plant middle) (second : Tidies middle next) : Tidies plant next :=
  ⟨second.matched, first.outside.trans second.outside⟩

theorem Retains.refl (plant : Plant) : Retains plant plant :=
  ⟨fun _ comparison there => ⟨comparison, there, rfl, rfl⟩,
    fun _ trigger there => ⟨trigger, there, rfl, rfl, rfl⟩⟩

theorem retains_same (comparisons : next.comparisons = plant.comparisons)
    (triggers : next.triggers = plant.triggers) : Retains plant next := by
  refine ⟨?_, ?_⟩
  · rw [comparisons]
    exact (Retains.refl plant).comparisons
  · rw [triggers]
    exact (Retains.refl plant).triggers

theorem Retains.trans (first : Retains plant middle) (second : Retains middle next) :
    Retains plant next where
  comparisons c after there := by
    obtain ⟨between, found, relation, links⟩ := second.comparisons c after there
    obtain ⟨comparison, origin, same, held⟩ := first.comparisons c between found
    exact ⟨comparison, origin, relation.trans same, links.trans held⟩
  triggers t after there := by
    obtain ⟨between, found, links, children, active⟩ := second.triggers t after there
    obtain ⟨trigger, origin, held, same, was⟩ := first.triggers t between found
    exact ⟨trigger, origin, links.trans held, children.trans same, active.trans was⟩

theorem retains_set_comparison (c : ComparisonId) (comparison after : Comparison)
    (there : plant.comparisons[c]? = some comparison) (relation : after.relation = comparison.relation)
    (links : after.links = comparison.links) : Retains plant (plant.setComparison c after) := by
  refine ⟨fun other found known => ?_, (Retains.refl plant).triggers⟩
  by_cases same : other = c
  · subst same
    cases (set_comparison_there plant other comparison after there).symm.trans known
    exact ⟨comparison, there, relation, links⟩
  · exact ⟨found, (set_comparison_other plant c other after same).symm.trans known, rfl, rfl⟩

theorem retains_set_trigger (t : TriggerId) (trigger after : Trigger)
    (there : plant.triggers[t]? = some trigger) (links : after.links = trigger.links)
    (children : after.children = trigger.children) (active : after.active = trigger.active) :
    Retains plant (plant.setTrigger t after) := by
  refine ⟨(Retains.refl plant).comparisons, fun other found known => ?_⟩
  by_cases same : other = t
  · subst same
    cases (set_trigger_there plant other trigger after there).symm.trans known
    exact ⟨trigger, there, links, children, active⟩
  · exact ⟨found, (set_trigger_other plant t other after same).symm.trans known, rfl, rfl, rfl⟩

theorem matching_retains {later : Option (TriggerId × List (Node × Ticket))}
    (matching : plant.Matching begun) (same : later.map Prod.fst = begun.map Prod.fst)
    (retains : Retains plant next) (ticketed : next.Ticketed (next.dues later)) :
    next.Matching later where
  ticketed := ticketed
  sides c after there := by
    obtain ⟨comparison, origin, relation, links⟩ := retains.comparisons c after there
    rw [relation, links]
    exact matching.sides c comparison origin
  brood t after there := by
    obtain ⟨trigger, origin, links, children, active⟩ := retains.triggers t after there
    rw [links, children, active]
    exact matching.brood t trigger origin
  distinct t after there := by
    obtain ⟨trigger, origin, _, children, _⟩ := retains.triggers t after there
    rw [children]
    exact matching.distinct t trigger origin
  asleep t after there apart idle child member comparison known := by
    obtain ⟨trigger, origin, _, children, active⟩ := retains.triggers t after there
    obtain ⟨before, found, _, links⟩ := retains.comparisons child comparison known
    rw [links]
    exact matching.asleep t trigger origin (same ▸ apart) (active.symm.trans idle) child (children ▸ member)
      before found

theorem matched_same (matched : plant.Matched) (comparisons : next.comparisons = plant.comparisons)
    (triggers : next.triggers = plant.triggers) (listeners : next.listeners = plant.listeners) :
    Tidies plant next := by
  refine ⟨matching_retains matched rfl (retains_same comparisons triggers) ?_, outside_same listeners⟩
  rw [show next.dues none = plant.dues none from ties_same comparisons triggers]
  exact ticketed_same matched.ticketed listeners

theorem matched_calm (matched : plant.Matched) (calm : Calm plant next) : Tidies plant next :=
  matched_same matched calm.comparisons calm.triggers
    (listeners_same calm.vars calm.comparisons calm.triggers)

theorem listeners_keep_variable (v : VariableId) (var after : Variable) (there : plant.vars[v]? = some var)
    (subscribers : after.subscribers = var.subscribers) :
    (plant.setVariable v after).listeners = plant.listeners := by
  rw [listeners_set_variable v var after there, subscribers, ← listeners_var v var there,
    Function.update_eq_self]

theorem listeners_keep_comparison (c : ComparisonId) (comparison after : Comparison)
    (there : plant.comparisons[c]? = some comparison)
    (subscribers : after.subscribers = comparison.subscribers) :
    (plant.setComparison c after).listeners = plant.listeners := by
  rw [listeners_set_comparison c comparison after there, subscribers,
    ← listeners_comparison c comparison there, Function.update_eq_self]

theorem listeners_keep_trigger (t : TriggerId) (trigger after : Trigger)
    (there : plant.triggers[t]? = some trigger) (subscribers : after.subscribers = trigger.subscribers) :
    (plant.setTrigger t after).listeners = plant.listeners := by
  rw [listeners_set_trigger t trigger after there, subscribers, ← listeners_trigger t trigger there,
    Function.update_eq_self]

theorem matched_set_variable (matched : plant.Matched) (v : VariableId) (var after : Variable)
    (there : plant.vars[v]? = some var) (subscribers : after.subscribers = var.subscribers) :
    Tidies plant (plant.setVariable v after) :=
  matched_same matched rfl rfl (listeners_keep_variable v var after there subscribers)

theorem matched_assign (matched : plant.Matched) (v : VariableId) (var : Variable)
    (there : plant.vars[v]? = some var) (value : Value) : Tidies plant (plant.assign v var value).2 := by
  rw [assign]
  dsimp only
  split
  · exact matched_same matched rfl rfl rfl
  · next change after assigned =>
      have subscribers : after.subscribers = var.subscribers := by
        rw [Variable.assign] at assigned
        split at assigned
        · contradiction
        · cases assigned
          rfl
      have set := matched_set_variable matched v var after there subscribers
      exact set.trans (matched_same set.matched rfl rfl rfl)

theorem matched_set_comparison (matched : plant.Matched) (c : ComparisonId) (comparison after : Comparison)
    (there : plant.comparisons[c]? = some comparison) (relation : after.relation = comparison.relation)
    (links : after.links = comparison.links) (subscribers : after.subscribers = comparison.subscribers) :
    Tidies plant (plant.setComparison c after) := by
  have listeners := listeners_keep_comparison c comparison after there subscribers
  have ties : (plant.setComparison c after).tiesOf = plant.tiesOf := by
    rw [ties_set_comparison c comparison after there]
    refine Function.update_eq_self_iff.mpr ?_
    rw [ties_comparison c comparison there, Comparison.ties, Comparison.ties, links]
  refine ⟨matching_retains matched rfl (retains_set_comparison c comparison after there relation links) ?_,
    outside_same listeners⟩
  rw [dues, ties]
  exact ticketed_same matched.ticketed listeners

theorem matched_set_trigger (matched : plant.Matched) (t : TriggerId) (trigger after : Trigger)
    (there : plant.triggers[t]? = some trigger) (links : after.links = trigger.links)
    (children : after.children = trigger.children) (active : after.active = trigger.active)
    (subscribers : after.subscribers = trigger.subscribers) :
    Tidies plant (plant.setTrigger t after) := by
  have listeners := listeners_keep_trigger t trigger after there subscribers
  have ties : (plant.setTrigger t after).tiesOf = plant.tiesOf := by
    rw [ties_set_trigger t trigger after there]
    refine Function.update_eq_self_iff.mpr ?_
    rw [ties_trigger t trigger there, Trigger.ties, Trigger.ties, links]
  refine ⟨matching_retains matched rfl
    (retains_set_trigger t trigger after there links children active) ?_, outside_same listeners⟩
  rw [dues, ties]
  exact ticketed_same matched.ticketed listeners

theorem matched_refresh (matched : plant.Matched) (c : ComparisonId) (comparison : Comparison)
    (there : plant.comparisons[c]? = some comparison) (stamp : Instant) :
    Tidies plant (plant.refresh c comparison stamp).2 := by
  have set := matched_set_comparison matched c comparison
    { comparison with latest := plant.sample comparison } there rfl rfl rfl
  exact set.trans (matched_same set.matched rfl rfl rfl)

theorem matched_evaluate (matched : plant.Matched) (t : TriggerId) (trigger : Trigger)
    (there : plant.triggers[t]? = some trigger) (stamp : Instant) :
    Tidies plant (plant.evaluate t trigger stamp).2 := by
  rw [evaluate]
  split
  · exact ⟨matched, .refl plant⟩
  · next found evaluated =>
      obtain ⟨_, _, children, _, active⟩ := evaluate_keeps trigger _ found evaluated
      obtain ⟨links, subscribers⟩ := evaluate_links trigger _ found evaluated
      have set := matched_set_trigger matched t trigger found.trigger there links children active
        subscribers
      obtain ⟨change, woken⟩ := wake_waiting_dispatch (plant.setTrigger t found.trigger) t
      dsimp only
      rw [woken]
      split
      · exact set.trans (matched_same set.matched rfl rfl rfl)
      · exact set.trans (matched_same set.matched rfl rfl rfl)

theorem matched_evaluate_now (matched : plant.Matched) (t : TriggerId) (trigger : Trigger)
    (there : plant.triggers[t]? = some trigger) : Tidies plant (plant.evaluateNow t trigger).2 := by
  have read : Tidies plant plant.readClock.2 := matched_same matched rfl rfl rfl
  exact read.trans (matched_evaluate read.matched t trigger there _)

theorem matched_rearm_trigger (matched : plant.Matched) (t : TriggerId) :
    Tidies plant (plant.rearmTrigger t) := by
  rw [rearmTrigger]
  split
  · exact ⟨matched, .refl plant⟩
  · next trigger there =>
      by_cases active : trigger.active = true
      · rw [if_pos active]
        exact ⟨matched, .refl plant⟩
      · rw [if_neg active]
        have set : Tidies plant (plant.setTrigger t trigger.rearm) := by
          rw [Trigger.rearm, if_neg active]
          exact matched_set_trigger matched t trigger _ there rfl rfl rfl rfl
        obtain ⟨change, woken⟩ := wake_waiting_dispatch (plant.setTrigger t trigger.rearm) t
        rw [woken]
        exact set.trans (matched_same set.matched rfl rfl rfl)

theorem dues_same (ties : next.tiesOf = plant.tiesOf) : next.dues begun = plant.dues begun := by
  cases begun with
  | none => exact ties
  | some found => rw [dues, dues, ties]

theorem dues_comparison (c : ComparisonId) :
    plant.dues begun (.comparison c) = plant.tiesOf (.comparison c) := by
  cases begun with
  | none => rfl
  | some found =>
      have apart : Listener.comparison c ≠ .trigger found.1 := by simp
      exact Function.update_of_ne apart _ _

theorem dues_set_comparison (c : ComparisonId) (comparison after : Comparison)
    (there : plant.comparisons[c]? = some comparison) :
    (plant.setComparison c after).dues begun =
      Function.update (plant.dues begun) (.comparison c) after.ties := by
  cases begun with
  | none => exact ties_set_comparison c comparison after there
  | some found =>
      have apart : Listener.trigger found.1 ≠ .comparison c := by simp
      rw [dues, dues, ties_set_comparison c comparison after there, Function.update_comm apart]

theorem matching_relinked (matching : plant.Matching begun) (retains : Retains plant middle)
    (c : ComparisonId) (comparison after : Comparison) (there : middle.comparisons[c]? = some comparison)
    (sides : after.links = [] ∨ after.links.map Prod.fst = after.relation.vars)
    (free : after.links ≠ [] → ∀ (t : TriggerId) (trigger : Trigger), plant.triggers[t]? = some trigger →
      c ∈ trigger.children → trigger.active = false → begun.map Prod.fst = some t)
    (ticketed : (middle.setComparison c after).Ticketed ((middle.setComparison c after).dues begun)) :
    (middle.setComparison c after).Matching begun := by
  have own := set_comparison_there middle c comparison after there
  have others := fun other => set_comparison_other middle c other after
  refine ⟨ticketed, ?_, ?_, ?_, ?_⟩
  · intro other found known
    by_cases same : other = c
    · subst same
      cases own.symm.trans known
      exact sides
    · obtain ⟨before, origin, kept, links⟩ :=
        retains.comparisons other found ((others other same).symm.trans known)
      rw [kept, links]
      exact matching.sides other before origin
  · intro t trigger known
    obtain ⟨before, origin, links, children, active⟩ := retains.triggers t trigger known
    rw [links, children, active]
    exact matching.brood t before origin
  · intro t trigger known
    obtain ⟨before, origin, _, children, _⟩ := retains.triggers t trigger known
    rw [children]
    exact matching.distinct t before origin
  · intro t trigger known apart idle child member found reached
    obtain ⟨before, origin, _, children, active⟩ := retains.triggers t trigger known
    rw [children] at member
    by_cases same : child = c
    · subst same
      cases own.symm.trans reached
      by_contra filled
      exact apart (free filled t before origin member (active.symm.trans idle))
    · obtain ⟨origin_found, here, _, links⟩ :=
        retains.comparisons child found ((others child same).symm.trans reached)
      rw [links]
      exact matching.asleep t before origin apart (active.symm.trans idle) child member origin_found here

theorem variables_ticketed {ties : Listener → List (Node × Ticket)} (ticketed : plant.Ticketed ties)
    (coherent : plant.Coherent jobs) (c : ComparisonId) (vars : List VariableId)
    (inside : ∀ v ∈ vars, v < plant.vars.length) :
    (plant.linkVariables c vars).1.map Prod.fst = vars ∧
      (plant.linkVariables c vars).2.Ticketed (Function.update ties (.comparison c)
        (ties (.comparison c) ++
          (plant.linkVariables c vars).1.map fun (v, ticket) => (.var v, ticket))) ∧
      Outside plant (plant.linkVariables c vars).2 := by
  induction vars generalizing plant ties with
  | nil =>
      refine ⟨rfl, ?_, .refl plant⟩
      rw [linkVariables, List.map_nil, List.append_nil, Function.update_eq_self]
      exact ticketed
  | cons v rest ih =>
      obtain ⟨kept, joins⟩ := coherent_subscribe_variable coherent v (.comparison c) rfl
      obtain ⟨widens, _⟩ := widens_subscribe_variable plant v (.comparison c) joins
      rcases subscribe_variable_found plant v (.comparison c) with ⟨_, missing⟩ | ⟨var, there, made⟩
      · have outside := List.getElem?_eq_none_iff.mp (missing rfl)
        exact absurd (inside v List.mem_cons_self) (Nat.not_lt.mpr outside)
      · rw [made] at kept widens
        have listeners : (plant.issueTicket.2.setVariable v
            { var with subscribers := var.subscribers.add plant.tickets (.comparison c) }).listeners =
            Function.update plant.listeners (.var v)
              ((plant.listeners (.var v)).add plant.tickets (.comparison c)) := by
          rw [listeners_var v var there]
          exact listeners_set_variable v var _ there
        obtain ⟨joined, outside⟩ := ticketed_inner ticketed coherent.linked.issued (.var v)
          (.comparison c) rfl listeners
        obtain ⟨firsts, linked, still⟩ := ih joined kept fun other member => by
          rw [widens.length]
          exact inside other (List.mem_cons_of_mem v member)
        rw [linkVariables, made]
        dsimp only
        rw [Function.update_self, Function.update_idem, List.append_assoc] at linked
        refine ⟨by rw [List.map_cons, firsts], ?_, outside.trans still⟩
        rw [List.map_cons]
        exact linked

theorem matching_activate_comparison (matching : plant.Matching begun) (coherent : plant.Coherent jobs)
    (c : ComparisonId) (free : ∀ (t : TriggerId) (trigger : Trigger), plant.triggers[t]? = some trigger →
      c ∈ trigger.children → trigger.active = false → begun.map Prod.fst = some t) :
    (plant.activateComparison c).Matching begun ∧ Outside plant (plant.activateComparison c) := by
  rw [activateComparison]
  cases there : plant.comparisons[c]? with
  | none => exact ⟨matching, .refl plant⟩
  | some comparison =>
      dsimp only
      by_cases active : comparison.isActive = true
      · rw [if_pos active]
        exact ⟨matching, .refl plant⟩
      · rw [if_neg active]
        have inside := coherent.tuned.bound c comparison there
        have linked := variables_linked coherent c comparison.relation.vars inside
        obtain ⟨firsts, ticketed, outside⟩ :=
          variables_ticketed matching.ticketed coherent c comparison.relation.vars inside
        generalize plant.linkVariables c comparison.relation.vars = result at *
        obtain ⟨links, between⟩ := result
        have found : between.comparisons[c]? = some comparison := by rw [linked.comparisons, there]
        have empty : comparison.links = [] := by simpa [Comparison.isActive] using active
        let after := { comparison with latest := plant.sample comparison, links := links }
        have listeners := listeners_keep_comparison c comparison after found rfl
        have untied : plant.dues begun (.comparison c) = [] := by
          rw [dues_comparison, ties_comparison c comparison there, Comparison.ties, empty]
          rfl
        have ties : between.tiesOf = plant.tiesOf :=
          ties_same linked.comparisons linked.widens.triggers
        refine ⟨matching_relinked matching (retains_same linked.comparisons linked.widens.triggers) c
          comparison after found (.inr firsts) (fun _ => free) ?_, ?_⟩
        · rw [dues_set_comparison c comparison after found, dues_same ties]
          rw [untied, List.nil_append] at ticketed
          exact ticketed_same ticketed listeners
        · exact outside.trans (outside_same listeners)

theorem retains_unsubscribe_variables (links : List (VariableId × Ticket)) (plant : Plant) :
    (links.foldl (fun plant (v, ticket) => plant.unsubscribeVariable v ticket) plant).comparisons =
        plant.comparisons ∧
      (links.foldl (fun plant (v, ticket) => plant.unsubscribeVariable v ticket) plant).triggers =
        plant.triggers := by
  refine foldl_keeps (fun next => next.comparisons = plant.comparisons ∧ next.triggers = plant.triggers)
    _ (fun next link kept => ?_) links plant ⟨rfl, rfl⟩
  dsimp only
  rw [unsubscribeVariable]
  split <;> exact kept

theorem matched_deactivate_comparison (matched : plant.Matched) (c : ComparisonId) :
    Tidies plant (plant.deactivateComparison c) := by
  rw [deactivateComparison]
  cases there : plant.comparisons[c]? with
  | none => exact ⟨matched, .refl plant⟩
  | some comparison =>
      dsimp only
      have parts := parts_foldl .var unsubscribeVariable parts_unsubscribe_variable comparison.links plant
      obtain ⟨comparisons, triggers⟩ := retains_unsubscribe_variables comparison.links plant
      generalize comparison.links.foldl
        (fun plant (v, ticket) => plant.unsubscribeVariable v ticket) plant = between at *
      rw [show (comparison.links.map fun (v, ticket) => (Node.var v, ticket)) =
        plant.dues none (.comparison c) from (ties_comparison c comparison there).symm] at parts
      obtain ⟨ticketed, outside⟩ := ticketed_parts matched.ticketed rfl parts
      have found : between.comparisons[c]? = some comparison := by rw [comparisons, there]
      have listeners := listeners_keep_comparison c comparison { comparison with links := [] } found rfl
      refine ⟨matching_relinked matched (retains_same comparisons triggers) c comparison _ found
        (.inl rfl) (fun filled => absurd rfl filled) ?_, outside.trans (outside_same listeners)⟩
      rw [dues_set_comparison c comparison _ found, dues_same (ties_same comparisons triggers)]
      exact ticketed_same ticketed listeners

theorem matched_deactivate_comparisons (matched : plant.Matched) (children : List ComparisonId) :
    Tidies plant (children.foldl deactivateComparison plant) :=
  foldl_keeps (Tidies plant) deactivateComparison
    (fun _ child tidies => tidies.trans (matched_deactivate_comparison tidies.matched child)) children
    plant ⟨matched, .refl plant⟩

end

end Interlock.Plant
