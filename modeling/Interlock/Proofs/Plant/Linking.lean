import Interlock.Proofs.Plant.Coherence

/-!
How comparisons and triggers begin to listen. A comparison subscribes to the variables that it reads, a
trigger to its comparisons, and the subscriptions that are there already stay.
-/

set_option autoImplicit false

namespace Interlock.Plant

open Interlock.Calendar (Instant)
open Interlock.Graph

structure Widens (plant next : Plant) : Prop where
  length : next.vars.length = plant.vars.length
  values : next.valueOf = plant.valueOf
  triggers : next.triggers = plant.triggers
  desk : next.desk = plant.desk
  agenda : next.agenda = plant.agenda
  listeners : ∀ node s, s ∈ plant.listeners node → s ∈ next.listeners node
  comparisons : ∀ (c : ComparisonId) (comparison : Comparison), plant.comparisons[c]? = some comparison →
    ∃ after : Comparison, next.comparisons[c]? = some after ∧ (comparison.Hears → after.Hears)

section

variable {plant next : Plant} {jobs : List Job}

theorem Widens.refl (plant : Plant) : Widens plant plant :=
  ⟨rfl, rfl, rfl, rfl, rfl, fun _ _ member => member, fun _ comparison there => ⟨comparison, there, id⟩⟩

theorem Widens.trans {plant middle next : Plant} (first : Widens plant middle)
    (second : Widens middle next) : Widens plant next where
  length := second.length.trans first.length
  values := second.values.trans first.values
  triggers := second.triggers.trans first.triggers
  desk := second.desk.trans first.desk
  agenda := second.agenda.trans first.agenda
  listeners node s member := second.listeners node s (first.listeners node s member)
  comparisons c comparison there := by
    obtain ⟨between, found, hears⟩ := first.comparisons c comparison there
    obtain ⟨after, still, hears_still⟩ := second.comparisons c between found
    exact ⟨after, still, fun heard => hears_still (hears heard)⟩

theorem widens_spare (widens : Widens plant next) (t : Option TriggerId) (child : ComparisonId)
    (spare : plant.Spare t child) : next.Spare t child where
  inside := by
    obtain ⟨comparison, there⟩ : ∃ comparison, plant.comparisons[child]? = some comparison :=
      ⟨_, List.getElem?_eq_getElem spare.inside⟩
    obtain ⟨after, found, _⟩ := widens.comparisons child comparison there
    exact (List.getElem?_eq_some_iff.mp found).1
  unnamed := by
    rw [widens.desk]
    exact spare.unnamed
  apart other trigger := by
    rw [widens.triggers]
    exact spare.apart other trigger

theorem widens_set_comparison (c : ComparisonId) (comparison after : Comparison)
    (there : plant.comparisons[c]? = some comparison)
    (subscribers : ∀ s ∈ comparison.subscribers, s ∈ after.subscribers)
    (hears : comparison.Hears → after.Hears) : Widens plant (plant.setComparison c after) := by
  refine ⟨rfl, rfl, rfl, rfl, rfl, fun node s member => ?_, fun other found known => ?_⟩
  · rw [listeners_set_comparison c comparison after there]
    by_cases own : node = .comparison c
    · subst own
      rw [listeners_comparison c comparison there] at member
      rw [Function.update_self]
      exact subscribers s member
    · rw [Function.update_of_ne own]
      exact member
  · by_cases same : other = c
    · subst same
      cases there.symm.trans known
      exact ⟨after, set_comparison_there plant other comparison after there, hears⟩
    · exact ⟨found, (set_comparison_other plant c other after same).trans known, id⟩

theorem widens_subscribe_variable (plant : Plant) (v : VariableId) (listener : Listener)
    (joins : Joins plant (.var v) listener (plant.subscribeVariable v listener)) :
    Widens plant (plant.subscribeVariable v listener).2 ∧
      (plant.subscribeVariable v listener).2.comparisons = plant.comparisons := by
  have listeners := joins.listeners
  rcases subscribe_variable_found plant v listener with ⟨same, _⟩ | ⟨var, there, made⟩
  · rw [same]
    exact ⟨.refl plant, rfl⟩
  · rw [made] at listeners ⊢
    generalize joined : { var with subscribers := var.subscribers.add plant.tickets listener } = after at *
    have values := values_set_variable v var after there (by rw [← joined])
    exact ⟨⟨List.length_set, values, rfl, rfl, rfl, listeners,
      fun _ comparison found => ⟨comparison, found, id⟩⟩, rfl⟩

structure VariablesLinked (plant : Plant) (c : ComparisonId) (vars : List VariableId) (jobs : List Job)
    (links : List (VariableId × Ticket)) (next : Plant) : Prop where
  coherent : next.Coherent jobs
  widens : Widens plant next
  comparisons : next.comparisons = plant.comparisons
  complete : ∀ v ∈ vars, ∃ ticket, (v, ticket) ∈ links
  listens : ∀ v ticket, (v, ticket) ∈ links → ⟨ticket, .comparison c⟩ ∈ next.listeners (.var v)

theorem variables_linked (coherent : plant.Coherent jobs) (c : ComparisonId) (vars : List VariableId)
    (inside : ∀ v ∈ vars, v < plant.vars.length) :
    VariablesLinked plant c vars jobs (plant.linkVariables c vars).1 (plant.linkVariables c vars).2 := by
  induction vars generalizing plant with
  | nil => exact ⟨coherent, .refl plant, rfl, by simp, by simp [linkVariables]⟩
  | cons v rest ih =>
      obtain ⟨kept, joins⟩ := coherent_subscribe_variable coherent v (.comparison c) rfl
      obtain ⟨widens, comparisons⟩ := widens_subscribe_variable plant v (.comparison c) joins
      rcases subscribe_variable_found plant v (.comparison c) with ⟨_, missing⟩ | ⟨var, there, made⟩
      · have outside := List.getElem?_eq_none_iff.mp (missing rfl)
        exact absurd (inside v List.mem_cons_self) (Nat.not_lt.mpr outside)
      · rw [made] at kept joins widens comparisons
        obtain ⟨coherent, widened, same, complete, listens⟩ := ih kept fun other member => by
          rw [widens.length]
          exact inside other (List.mem_cons_of_mem v member)
        rw [linkVariables, made]
        refine ⟨coherent, widens.trans widened, same.trans comparisons, ?_, ?_⟩
        · intro other member
          rcases List.mem_cons.mp member with rfl | later
          · exact ⟨_, List.mem_cons_self⟩
          · obtain ⟨ticket, link⟩ := complete other later
            exact ⟨ticket, List.mem_cons_of_mem _ link⟩
        · intro other ticket member
          rcases List.mem_cons.mp member with first | later
          · cases first
            exact widened.listeners _ _ (joins.tells _ rfl)
          · exact listens other ticket later

theorem coherent_activate_comparison (coherent : plant.Coherent jobs) (c : ComparisonId) :
    (plant.activateComparison c).Coherent jobs ∧ Widens plant (plant.activateComparison c) ∧
      ∀ after, (plant.activateComparison c).comparisons[c]? = some after → after.Hears := by
  rw [activateComparison]
  cases there : plant.comparisons[c]? with
  | none =>
      refine ⟨coherent, .refl plant, fun after found => ?_⟩
      rw [there] at found
      contradiction
  | some comparison =>
      dsimp only
      by_cases active : comparison.isActive = true
      · rw [if_pos active]
        refine ⟨coherent, .refl plant, fun after found => ?_⟩
        cases there.symm.trans found
        exact coherent.tuned.hears c comparison there active
      · rw [if_neg active]
        have linked := variables_linked coherent c comparison.relation.vars
          (coherent.tuned.bound c comparison there)
        generalize plant.linkVariables c comparison.relation.vars = result at linked ⊢
        obtain ⟨links, next⟩ := result
        let after := { comparison with latest := plant.sample comparison, links := links }
        have found : next.comparisons[c]? = some comparison := by rw [linked.comparisons, there]
        have hears : after.Hears := linked.complete
        refine ⟨⟨?_, ?_, ?_⟩, ?_, ?_⟩
        · refine linked_set_comparison linked.coherent.linked c comparison after found rfl ?_
          intro node ticket member
          obtain ⟨⟨v, _⟩, link, same⟩ := List.mem_map.mp member
          cases same
          exact .inr (linked.listens v ticket link)
        · exact tuned_set_comparison linked.coherent.tuned c comparison after found rfl
            (fun _ => hears) fun _ _ _ _ _ _ => hears
        · refine fresh_set_comparison linked.coherent.fresh c comparison after found rfl rfl ?_ ?_ ?_
          · intro _
            have same : next.sample comparison = plant.sample comparison := by
              rw [sample, sample, linked.widens.values]
            exact .inl same.symm
          · exact fun _ _ _ _ _ awaits => .inl awaits
          · exact fun _ member => .inl member
        · exact linked.widens.trans
            (widens_set_comparison c comparison after found (fun _ member => member) fun _ => hears)
        · intro last still
          cases (set_comparison_there next c comparison after found).symm.trans still
          exact hears

theorem widens_subscribe_comparison (plant : Plant) (c : ComparisonId) (listener : Listener) :
    Widens plant (plant.subscribeComparison c listener).2 := by
  rcases subscribe_comparison_found plant c listener with ⟨same, _⟩ | ⟨comparison, there, made⟩
  · rw [same]
    exact .refl plant
  · rw [made]
    have issued : Widens plant plant.issueTicket.2 :=
      ⟨rfl, rfl, rfl, rfl, rfl, fun _ _ member => member, fun _ found known => ⟨found, known, id⟩⟩
    exact issued.trans (widens_set_comparison c comparison _ there
      (fun _ member => List.mem_append_left _ member) id)

structure ChildrenLinked (plant : Plant) (t : TriggerId) (children : List ComparisonId)
    (jobs : List Job) (links : List (ComparisonId × Ticket)) (next : Plant) : Prop where
  coherent : next.Coherent jobs
  widens : Widens plant next
  complete : ∀ child ∈ children, (∃ ticket, (child, ticket) ∈ links) ∧
    ∃ comparison, next.comparisons[child]? = some comparison ∧ comparison.Hears
  listens : ∀ child ticket, (child, ticket) ∈ links →
    ⟨ticket, .trigger t⟩ ∈ next.listeners (.comparison child)

theorem children_linked (coherent : plant.Coherent jobs) (t : TriggerId) (children : List ComparisonId)
    (inside : ∀ child ∈ children, child < plant.comparisons.length) :
    ChildrenLinked plant t children jobs (plant.linkChildren t children).1
      (plant.linkChildren t children).2 := by
  induction children generalizing plant with
  | nil => exact ⟨coherent, .refl plant, by simp, by simp [linkChildren]⟩
  | cons child rest ih =>
      obtain ⟨started, activated, hears⟩ := coherent_activate_comparison coherent child
      obtain ⟨comparison, there⟩ : ∃ comparison, plant.comparisons[child]? = some comparison :=
        ⟨_, List.getElem?_eq_getElem (inside child List.mem_cons_self)⟩
      obtain ⟨active, found, _⟩ := activated.comparisons child comparison there
      rw [linkChildren]
      generalize plant.activateComparison child = between at *
      obtain ⟨kept, joins⟩ := coherent_subscribe_comparison started child (.trigger t) rfl
      have widens := activated.trans (widens_subscribe_comparison between child (.trigger t))
      obtain ⟨listening, still, heard⟩ :=
        (widens_subscribe_comparison between child (.trigger t)).comparisons child active found
      rcases subscribe_comparison_found between child (.trigger t) with ⟨_, missing⟩ | ⟨_, _, made⟩
      · rw [missing rfl] at found
        contradiction
      · rw [made] at kept joins widens still
        obtain ⟨coherent, widened, complete, listens⟩ := ih kept fun other member => by
          obtain ⟨before, known⟩ : ∃ before, plant.comparisons[other]? = some before :=
            ⟨_, List.getElem?_eq_getElem (inside other (List.mem_cons_of_mem child member))⟩
          obtain ⟨_, there, _⟩ := widens.comparisons other before known
          exact (List.getElem?_eq_some_iff.mp there).1
        rw [made]
        refine ⟨coherent, widens.trans widened, ?_, ?_⟩
        · intro other member
          rcases List.mem_cons.mp member with rfl | later
          · obtain ⟨last, reached, hearing⟩ := widened.comparisons other listening still
            exact ⟨⟨_, List.mem_cons_self⟩, last, reached, hearing (heard (hears active found))⟩
          · obtain ⟨⟨ticket, link⟩, last⟩ := complete other later
            exact ⟨⟨ticket, List.mem_cons_of_mem _ link⟩, last⟩
        · intro other ticket member
          rcases List.mem_cons.mp member with first | later
          · cases first
            exact widened.listeners _ _ (joins.tells _ rfl)
          · exact listens other ticket later

end

end Interlock.Plant
