import Interlock.Proofs.Plant.Matching

/-!
The children of triggers and their subscriptions. New comparisons hold nothing; a trigger that begins
takes one ticket at each of its children, and one that ends leaves nothing behind.
-/

set_option autoImplicit false

namespace Interlock.Plant

open Interlock.Graph

section

variable {plant next : Plant} {jobs : List Job}

theorem matched_add_comparison (matched : plant.Matched) (comparison : Comparison)
    (idle : comparison.links = []) (unheard : comparison.subscribers = []) :
    Tidies plant (plant.addComparison comparison).2 := by
  have listeners : (plant.addComparison comparison).2.listeners = plant.listeners :=
    listeners_add_comparison comparison unheard
  have ties : (plant.addComparison comparison).2.tiesOf = plant.tiesOf :=
    ties_add_comparison comparison (by rw [Comparison.ties, idle]; rfl)
  have grown : ∀ (c : ComparisonId) (found : Comparison),
      (plant.addComparison comparison).2.comparisons[c]? = some found →
        plant.comparisons[c]? = some found ∨ found = comparison := by
    intro c found there
    simp only [addComparison, List.getElem?_append] at there
    split at there
    · exact .inl there
    · exact .inr (List.mem_singleton.mp (List.mem_of_getElem? there))
  refine ⟨⟨?_, ?_, matched.brood, matched.distinct, ?_⟩, outside_same listeners⟩
  · rw [dues, ties]
    exact ticketed_same matched.ticketed listeners
  · intro c found there
    rcases grown c found there with old | rfl
    · exact matched.sides c found old
    · exact .inl idle
  · intro t trigger there apart asleep child member found known
    rcases grown child found known with old | rfl
    · exact matched.asleep t trigger there apart asleep child member found old
    · exact idle

theorem made_comparison_matched (matched : plant.Matched) (table : TableId) (text : String)
    (id : ComparisonId) (made : plant.makeComparison table text = .ok (id, next)) :
    Tidies plant next ∧ id = plant.comparisons.length ∧
      ∃ comparison : Comparison, next.comparisons = plant.comparisons ++ [comparison] ∧
        comparison.links = [] := by
  obtain ⟨_, _, rfl, rfl⟩ := comparison_made made
  have read : Tidies plant plant.readClock.2 := matched_same matched rfl rfl rfl
  exact ⟨read.trans (matched_add_comparison read.matched _ rfl rfl), rfl, _, rfl, rfl⟩

theorem made_comparisons_matched (matched : plant.Matched) (table : TableId) (atoms : List String)
    (ids : List ComparisonId) (made : plant.makeComparisons table atoms = .ok (ids, next)) :
    Tidies plant next ∧ ∃ new : List Comparison, next.comparisons = plant.comparisons ++ new ∧
      (∀ comparison ∈ new, comparison.links = []) ∧
        ids = List.range' plant.comparisons.length new.length := by
  induction atoms generalizing plant ids with
  | nil =>
      cases made
      exact ⟨⟨matched, .refl _⟩, [], by simp, by simp, rfl⟩
  | cons atom rest ih =>
      obtain ⟨id, between, others, first, later, rfl⟩ := comparisons_made made
      obtain ⟨tidies, rfl, comparison, grown, idle⟩ := made_comparison_matched matched table atom id first
      obtain ⟨more, new, added, each, listed⟩ := ih tidies.matched others later
      refine ⟨tidies.trans more, comparison :: new, ?_, ?_, ?_⟩
      · rw [added, grown, List.append_assoc, List.singleton_append]
      · exact List.forall_mem_cons.mpr ⟨idle, each⟩
      · rw [List.length_cons, List.range'_succ, listed, grown, List.length_append, List.length_singleton]

theorem appended_idle {new : List Comparison} (grown : next.comparisons = plant.comparisons ++ new)
    (idle : ∀ comparison ∈ new, comparison.links = []) (child : ComparisonId)
    (member : child ∈ List.range' plant.comparisons.length new.length) (comparison : Comparison)
    (there : next.comparisons[child]? = some comparison) : comparison.links = [] := by
  obtain ⟨behind, _⟩ := List.mem_range'_1.mp member
  rw [grown, List.getElem?_append_right behind] at there
  exact idle comparison (List.mem_of_getElem? there)

theorem matched_add_trigger (matched : plant.Matched) (trigger : Trigger) (inactive : trigger.active = false)
    (links : trigger.links = []) (unheard : trigger.subscribers = []) (distinct : trigger.children.Nodup)
    (idle : ∀ child ∈ trigger.children, ∀ comparison : Comparison,
      plant.comparisons[child]? = some comparison → comparison.links = []) :
    Tidies plant (plant.addTrigger trigger).2 := by
  have listeners : (plant.addTrigger trigger).2.listeners = plant.listeners :=
    listeners_add_trigger trigger unheard
  have ties : (plant.addTrigger trigger).2.tiesOf = plant.tiesOf :=
    ties_add_trigger trigger (by rw [Trigger.ties, links]; rfl)
  have added : ∀ (t : TriggerId) (found : Trigger),
      (plant.addTrigger trigger).2.triggers[t]? = some found →
        plant.triggers[t]? = some found ∨ found = trigger := by
    intro t found there
    simp only [addTrigger, List.getElem?_append] at there
    split at there
    · exact .inl there
    · exact .inr (List.mem_singleton.mp (List.mem_of_getElem? there))
  refine ⟨⟨?_, matched.sides, ?_, ?_, ?_⟩, outside_same listeners⟩
  · rw [dues, ties]
    exact ticketed_same matched.ticketed listeners
  · intro t found there
    rcases added t found there with old | rfl
    · exact matched.brood t found old
    · rw [links, inactive]
      rfl
  · intro t found there
    rcases added t found there with old | rfl
    · exact matched.distinct t found old
    · exact distinct
  · intro t found there apart asleep child member comparison known
    rcases added t found there with old | rfl
    · exact matched.asleep t found old apart asleep child member comparison known
    · exact idle child member comparison known

theorem matched_make_trigger (matched : plant.Matched) (table : TableId) (expression : String)
    (times : Int) (id : TriggerId) (made : plant.makeTrigger table expression times = .ok (id, next)) :
    Tidies plant next := by
  obtain ⟨condition, children, between, _, found, _, rfl⟩ := trigger_made made
  obtain ⟨tidies, new, grown, idle, rfl⟩ := made_comparisons_matched matched table _ children found
  exact tidies.trans (matched_add_trigger tidies.matched _ rfl rfl rfl List.nodup_range' (appended_idle grown idle))

theorem children_of_matched (matched : plant.Matched) (t : TriggerId) (trigger : Trigger)
    (there : plant.triggers[t]? = some trigger) (children : List ComparisonId)
    (made : plant.childrenOf trigger = .ok (children, next)) : Tidies plant next ∧ children.Nodup := by
  obtain ⟨_, built⟩ | ⟨_, rfl, rfl⟩ := children_made made
  · obtain ⟨tidies, new, _, _, listed⟩ := made_comparisons_matched matched trigger.table _ children built
    rw [listed]
    exact ⟨tidies, List.nodup_range'⟩
  · exact ⟨⟨matched, .refl _⟩, matched.distinct t trigger there⟩

theorem matching_begins (matched : plant.Matched) (t : TriggerId) (trigger : Trigger)
    (there : plant.triggers[t]? = some trigger) (idle : trigger.active = false) :
    plant.Matching (some (t, [])) := by
  have links : trigger.links = [] := by
    have none := matched.brood t trigger there
    rw [idle] at none
    exact List.map_eq_nil_iff.mp none
  have untied : plant.tiesOf (.trigger t) = [] := by
    rw [ties_trigger t trigger there, Trigger.ties, links]
    rfl
  refine ⟨?_, matched.sides, matched.brood, matched.distinct, fun other found known _ =>
    matched.asleep other found known (by simp)⟩
  rw [dues, ← untied, Function.update_eq_self]
  exact matched.ticketed

theorem matching_subscribe_comparison {t : TriggerId} {pending : List (Node × Ticket)}
    (matching : plant.Matching (some (t, pending))) (coherent : plant.Coherent jobs) (c : ComparisonId)
    (comparison : Comparison) (there : plant.comparisons[c]? = some comparison) (next : Plant)
    (made : plant.issueTicket.2.setComparison c
      { comparison with subscribers := comparison.subscribers.add plant.tickets (.trigger t) } = next) :
    next.Matching (some (t, pending ++ [(.comparison c, plant.tickets)])) ∧ Outside plant next := by
  have listeners : next.listeners = Function.update plant.listeners (.comparison c)
      ((plant.listeners (.comparison c)).add plant.tickets (.trigger t)) := by
    rw [← made, listeners_comparison c comparison there]
    exact listeners_set_comparison c comparison _ there
  have ties : next.tiesOf = plant.tiesOf := by
    rw [← made]
    exact ties_set_subscribers c comparison there _
  obtain ⟨ticketed, outside⟩ :=
    ticketed_inner matching.ticketed coherent.linked.issued (.comparison c) (.trigger t) rfl listeners
  have retains : Retains plant next := by
    rw [← made]
    have issued : Retains plant plant.issueTicket.2 := retains_same rfl rfl
    exact issued.trans (retains_set_comparison c comparison _ there rfl rfl)
  refine ⟨matching_retains matching rfl retains ?_, outside⟩
  rw [dues, ties]
  rw [dues, Function.update_self, Function.update_idem] at ticketed
  exact ticketed

theorem children_matching {t : TriggerId} {pending : List (Node × Ticket)}
    (matching : plant.Matching (some (t, pending))) (coherent : plant.Coherent jobs)
    (children : List ComparisonId) (spare : ∀ child ∈ children, plant.Spare (some t) child) :
    (plant.linkChildren t children).1.map Prod.fst = children ∧
      (plant.linkChildren t children).2.Matching (some (t, pending ++
        (plant.linkChildren t children).1.map fun (child, ticket) => (.comparison child, ticket))) ∧
      Outside plant (plant.linkChildren t children).2 := by
  induction children generalizing plant pending with
  | nil =>
      refine ⟨rfl, ?_, .refl plant⟩
      rw [linkChildren, List.map_nil, List.append_nil]
      exact matching
  | cons child rest ih =>
      have own := spare child List.mem_cons_self
      obtain ⟨started, activated, _⟩ := coherent_activate_comparison coherent child
      obtain ⟨matched, outside⟩ := matching_activate_comparison matching coherent child
        fun other trigger there member _ => (own.apart other trigger there member).symm
      obtain ⟨comparison, there⟩ : ∃ comparison, plant.comparisons[child]? = some comparison :=
        ⟨_, List.getElem?_eq_getElem own.inside⟩
      obtain ⟨active, found, _⟩ := activated.comparisons child comparison there
      rw [linkChildren]
      generalize plant.activateComparison child = between at *
      obtain ⟨kept, _⟩ := coherent_subscribe_comparison started child (.trigger t) rfl
      have widens := activated.trans (widens_subscribe_comparison between child (.trigger t))
      rcases subscribe_comparison_found between child (.trigger t) with ⟨_, missing⟩ | ⟨_, here, made⟩
      · rw [missing rfl] at found
        contradiction
      · rw [made] at kept widens ⊢
        obtain ⟨joined, still⟩ := matching_subscribe_comparison matched started child _ here _ rfl
        obtain ⟨firsts, linked, later⟩ := ih joined kept fun other member =>
          widens_spare widens (some t) other (spare other (List.mem_cons_of_mem child member))
        dsimp only
        refine ⟨by rw [List.map_cons, firsts], ?_, outside.trans (still.trans later)⟩
        rw [List.append_assoc] at linked
        rw [List.map_cons]
        exact linked

theorem matching_set_trigger {begun : Option (TriggerId × List (Node × Ticket))} {t : TriggerId}
    {trigger after : Trigger} (matching : plant.Matching begun)
    (alone : ∀ other, other ≠ t → begun.map Prod.fst ≠ some other)
    (there : plant.triggers[t]? = some trigger)
    (brood : after.links.map Prod.fst = if after.active then after.children else [])
    (distinct : after.children.Nodup) (empty : after.active = false → after.children = [])
    (retains : Retains (plant.setTrigger t after) next) (ticketed : next.Ticketed next.tiesOf) :
    next.Matched := by
  have own := set_trigger_there plant t trigger after there
  have others := fun other => set_trigger_other plant t other after
  refine ⟨ticketed, ?_, ?_, ?_, ?_⟩
  · intro c found known
    obtain ⟨comparison, origin, relation, links⟩ := retains.comparisons c found known
    rw [relation, links]
    exact matching.sides c comparison origin
  · intro other found known
    obtain ⟨before, origin, links, children, active⟩ := retains.triggers other found known
    rw [links, children, active]
    by_cases same : other = t
    · subst same
      cases own.symm.trans origin
      exact brood
    · exact matching.brood other before ((others other same).symm.trans origin)
  · intro other found known
    obtain ⟨before, origin, _, children, _⟩ := retains.triggers other found known
    rw [children]
    by_cases same : other = t
    · subst same
      cases own.symm.trans origin
      exact distinct
    · exact matching.distinct other before ((others other same).symm.trans origin)
  · intro other found known _ idle child member comparison reached
    obtain ⟨before, origin, _, children, active⟩ := retains.triggers other found known
    rw [children] at member
    have asleep := active.symm.trans idle
    by_cases same : other = t
    · subst same
      cases own.symm.trans origin
      rw [empty asleep] at member
      contradiction
    · obtain ⟨first, here, _, links⟩ := retains.comparisons child comparison reached
      rw [links]
      exact matching.asleep other before ((others other same).symm.trans origin) (alone other same)
        asleep child member first here

theorem matching_starts {t : TriggerId} {trigger : Trigger} {children : List ComparisonId}
    {links : List (ComparisonId × Ticket)}
    (matching : plant.Matching (some (t, links.map fun (child, ticket) => (.comparison child, ticket))))
    (there : plant.triggers[t]? = some trigger) (firsts : links.map Prod.fst = children)
    (distinct : children.Nodup) : Tidies plant (plant.setTrigger t (trigger.started children links)) := by
  have listeners := listeners_keep_trigger t trigger (trigger.started children links) there rfl
  refine ⟨matching_set_trigger matching (fun other apart => ?_) there firsts distinct
    (fun idle => absurd idle (by simp [Trigger.started])) (.refl _) ?_,
    outside_same listeners⟩
  · simpa using Ne.symm apart
  · rw [ties_set_trigger t trigger _ there]
    exact ticketed_same matching.ticketed listeners

theorem matched_activate_trigger (matched : plant.Matched) (coherent : plant.Coherent jobs)
    (t : TriggerId) (trigger : Trigger) (there : plant.triggers[t]? = some trigger)
    (activated : plant.activateTrigger t trigger = .ok next) : Tidies plant next := by
  cases activation activated with
  | spent => exact matched_same matched rfl rfl rfl
  | active => exact ⟨matched, .refl plant⟩
  | begun _ idle children between _ made ran =>
      obtain ⟨kept, widens, spare⟩ := children_of_spare coherent t trigger there children made
      obtain ⟨tidies, distinct⟩ := children_of_matched matched t trigger there children made
      have waits : between.triggers[t]? = some trigger := by rw [widens.triggers, there]
      have begins := matching_begins tidies.matched t trigger waits idle
      obtain ⟨firsts, linked, outside⟩ := children_matching begins kept children spare
      have triggers := (children_linked kept t children fun child member => (spare child member).inside).widens.triggers
      have listed : (between.linkChildren t children).2.triggers[t]? = some trigger := by rw [triggers, waits]
      have started := matching_starts linked listed firsts distinct
      have engaged : Tidies _ (between.engage t trigger children) := matched_same started.matched rfl rfl rfl
      have evaluated := matched_evaluate_now engaged.matched t
        (trigger.started children (between.childLinks t children)) (set_trigger_there _ t trigger _ listed)
      have whole : Tidies plant _ :=
        ⟨evaluated.matched, tidies.outside.trans (outside.trans (started.outside.trans
          (engaged.outside.trans evaluated.outside)))⟩
      obtain rfl | ⟨_, details, _, rfl⟩ := ran
      · exact whole
      · exact whole.trans (matched_same whole.matched rfl rfl rfl)

theorem retains_unsubscribe_comparisons (links : List (ComparisonId × Ticket)) (plant : Plant) :
    Retains plant (links.foldl (fun plant (c, ticket) => plant.unsubscribeComparison c ticket) plant) ∧
      (links.foldl (fun plant (c, ticket) => plant.unsubscribeComparison c ticket) plant).tiesOf =
        plant.tiesOf := by
  refine foldl_keeps (fun next => Retains plant next ∧ next.tiesOf = plant.tiesOf) _
    (fun next link kept => ?_) links plant ⟨.refl plant, rfl⟩
  obtain ⟨retains, ties⟩ := kept
  dsimp only
  rw [unsubscribeComparison]
  split
  · exact ⟨retains, ties⟩
  · next comparison there =>
      exact ⟨retains.trans (retains_set_comparison link.1 comparison _ there rfl rfl),
        (ties_set_subscribers link.1 comparison there _).trans ties⟩

theorem matched_deactivate_trigger (matched : plant.Matched) (t : TriggerId) :
    Tidies plant (plant.deactivateTrigger t) := by
  rw [deactivateTrigger]
  cases there : plant.triggers[t]? with
  | none => exact ⟨matched, .refl plant⟩
  | some trigger =>
      dsimp only
      by_cases active : trigger.active = true
      · rw [if_pos active]
        have listeners := listeners_keep_trigger t trigger trigger.halted there rfl
        -- the trigger holds no ticket any more, but it is still subscribed with its old ones
        have ticketed : (plant.setTrigger t trigger.halted).Ticketed plant.tiesOf :=
          ticketed_same matched.ticketed listeners
        have parts := parts_foldl .comparison unsubscribeComparison parts_unsubscribe_comparison
          trigger.links (plant.setTrigger t trigger.halted)
        rw [show (trigger.links.map fun (c, ticket) => (Node.comparison c, ticket)) =
          plant.tiesOf (.trigger t) from (ties_trigger t trigger there).symm] at parts
        obtain ⟨unlinked, outside⟩ := ticketed_parts ticketed rfl parts
        obtain ⟨retains, ties⟩ :=
          retains_unsubscribe_comparisons trigger.links (plant.setTrigger t trigger.halted)
        have halted := matching_set_trigger matched (by simp) there rfl List.nodup_nil (fun _ => rfl)
          retains (by
            rw [ties, ties_set_trigger t trigger trigger.halted there]
            exact unlinked)
        have stopped := matched_deactivate_comparisons halted trigger.children
        have logged : Tidies _ ((trigger.children.foldl deactivateComparison _).log .trigger
            .debug "Trigger deactivated" [("trigger", .text trigger.expression)]) :=
          matched_same stopped.matched rfl rfl rfl
        exact ⟨logged.matched, (outside_same listeners).trans (outside.trans
          (stopped.outside.trans logged.outside))⟩
      · rw [if_neg active]
        exact ⟨matched, .refl plant⟩

end

end Interlock.Plant
