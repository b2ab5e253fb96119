import Interlock.Proofs.Channel.Enrolment
import Interlock.Proofs.Plant.Listening

/-!
What comparisons and triggers listen to. An active comparison listens to every variable that it
compares, and an active trigger to all of its children, which belong to it alone.
-/

set_option autoImplicit false

namespace Interlock

open Interlock.Graph

def Graph.Comparison.Hears (comparison : Comparison) : Prop :=
  ∀ var ∈ comparison.relation.vars, ∃ ticket, (var, ticket) ∈ comparison.links

namespace Plant

def Follows (plant : Plant) (trigger : Trigger) : Prop :=
  ∀ child ∈ trigger.children, (∃ ticket, (child, ticket) ∈ trigger.links) ∧
    ∃ comparison, plant.comparisons[child]? = some comparison ∧ comparison.Hears

structure Spare (plant : Plant) (t : Option TriggerId) (child : ComparisonId) : Prop where
  inside : child < plant.comparisons.length
  unnamed : child ∉ plant.desk.comparisons.ids
  apart : ∀ (other : TriggerId) (trigger : Trigger), plant.triggers[other]? = some trigger →
    child ∈ trigger.children → some other = t

structure Tuned (plant : Plant) : Prop where
  bound : ∀ (c : ComparisonId) (comparison : Comparison), plant.comparisons[c]? = some comparison →
    ∀ var ∈ comparison.relation.vars, var < plant.vars.length
  hears : ∀ (c : ComparisonId) (comparison : Comparison), plant.comparisons[c]? = some comparison →
    comparison.isActive = true → comparison.Hears
  follows : ∀ (t : TriggerId) (trigger : Trigger), plant.triggers[t]? = some trigger →
    trigger.active = true → plant.Follows trigger
  own : ∀ (t : TriggerId) (trigger : Trigger), plant.triggers[t]? = some trigger → ∀ child ∈ trigger.children,
    plant.Spare (some t) child
  known : ∀ c ∈ plant.desk.comparisons.ids, c < plant.comparisons.length

section

variable {plant next : Plant}

theorem tuned_blank (start : Calendar.Instant) (hasRuntime : Bool) :
    (Plant.blank start hasRuntime).Tuned := by
  refine ⟨?_, ?_, ?_, ?_, ?_⟩ <;> simp [Plant.blank, Desk.blank, Directory.ids]

theorem tuned_kept (tuned : plant.Tuned) (vars : plant.vars.length ≤ next.vars.length)
    (comparisons : next.comparisons = plant.comparisons)
    (triggers : ∀ (t : TriggerId) (after : Trigger), next.triggers[t]? = some after →
      ∃ trigger : Trigger, plant.triggers[t]? = some trigger ∧
        (∀ child ∈ after.children, child ∈ trigger.children) ∧
        (after.active = true → trigger.active = true ∧ after.links = trigger.links))
    (named : ∀ c ∈ next.desk.comparisons.ids, c ∈ plant.desk.comparisons.ids) : next.Tuned where
  bound c comparison there var member := by
    rw [comparisons] at there
    exact Nat.lt_of_lt_of_le (tuned.bound c comparison there var member) vars
  hears c comparison := by
    rw [comparisons]
    exact tuned.hears c comparison
  follows t after there active child member := by
    obtain ⟨trigger, before, children, listens⟩ := triggers t after there
    obtain ⟨was, links⟩ := listens active
    rw [links, comparisons]
    exact tuned.follows t trigger before was child (children child member)
  own t after there child member := by
    obtain ⟨trigger, before, children, _⟩ := triggers t after there
    obtain ⟨inside, unnamed, apart⟩ := tuned.own t trigger before child (children child member)
    refine ⟨comparisons ▸ inside, fun again => unnamed (named child again), ?_⟩
    intro other another found shared
    obtain ⟨origin, was, kept, _⟩ := triggers other another found
    exact apart other origin was (kept child shared)
  known c member := comparisons ▸ tuned.known c (named c member)

theorem tuned_same (tuned : plant.Tuned) (vars : plant.vars.length ≤ next.vars.length)
    (comparisons : next.comparisons = plant.comparisons) (triggers : next.triggers = plant.triggers)
    (named : ∀ c ∈ next.desk.comparisons.ids, c ∈ plant.desk.comparisons.ids) : next.Tuned :=
  tuned_kept tuned vars comparisons
    (fun _ after there => ⟨after, triggers ▸ there, fun _ member => member, fun active => ⟨active, rfl⟩⟩)
    named

theorem tuned_set_comparison (tuned : plant.Tuned) (c : ComparisonId) (comparison after : Comparison)
    (there : plant.comparisons[c]? = some comparison) (relation : after.relation = comparison.relation)
    (hears : after.isActive = true → after.Hears)
    (keeps : ∀ (t : TriggerId) (trigger : Trigger), plant.triggers[t]? = some trigger →
      trigger.active = true → c ∈ trigger.children → comparison.Hears → after.Hears) :
    (plant.setComparison c after).Tuned := by
  have own := set_comparison_there plant c comparison after there
  have others := fun other => set_comparison_other plant c other after
  have length : (plant.setComparison c after).comparisons.length = plant.comparisons.length :=
    List.length_set
  refine ⟨?_, ?_, ?_, ?_, ?_⟩
  · intro other found member
    by_cases same : other = c
    · subst same
      cases own.symm.trans member
      rw [relation]
      exact tuned.bound other comparison there
    · rw [others other same] at member
      exact tuned.bound other found member
  · intro other found member active
    by_cases same : other = c
    · subst same
      cases own.symm.trans member
      exact hears active
    · rw [others other same] at member
      exact tuned.hears other found member active
  · intro t trigger found active child member
    obtain ⟨tied, origin, before, heard⟩ := tuned.follows t trigger found active child member
    refine ⟨tied, ?_⟩
    by_cases same : child = c
    · subst same
      cases there.symm.trans before
      exact ⟨after, own, keeps t trigger found active member heard⟩
    · exact ⟨origin, (others child same).trans before, heard⟩
  · intro t trigger found child member
    obtain ⟨within, unnamed, apart⟩ := tuned.own t trigger found child member
    exact ⟨length ▸ within, unnamed, apart⟩
  · intro other member
    exact length ▸ tuned.known other member

theorem tuned_add_comparison (tuned : plant.Tuned) (comparison : Comparison)
    (bound : ∀ var ∈ comparison.relation.vars, var < plant.vars.length)
    (idle : comparison.isActive = false) : (plant.addComparison comparison).2.Tuned := by
  have grown : ∀ (c : ComparisonId) (found : Comparison),
      (plant.addComparison comparison).2.comparisons[c]? = some found →
        plant.comparisons[c]? = some found ∨ found = comparison := by
    intro c found there
    simp only [addComparison, List.getElem?_append] at there
    split at there
    · exact .inl there
    · exact .inr (List.mem_singleton.mp (List.mem_of_getElem? there))
  have length : plant.comparisons.length ≤ (plant.addComparison comparison).2.comparisons.length := by
    simp [addComparison]
  refine ⟨?_, ?_, ?_, ?_, ?_⟩
  · intro c found there
    rcases grown c found there with old | rfl
    · exact tuned.bound c found old
    · exact bound
  · intro c found there active
    rcases grown c found there with old | rfl
    · exact tuned.hears c found old active
    · rw [idle] at active
      contradiction
  · intro t trigger found active child member
    obtain ⟨tied, origin, before, heard⟩ := tuned.follows t trigger found active child member
    have within := (List.getElem?_eq_some_iff.mp before).1
    exact ⟨tied, origin, (List.getElem?_append_left within).trans before, heard⟩
  · intro t trigger found child member
    obtain ⟨within, unnamed, apart⟩ := tuned.own t trigger found child member
    exact ⟨Nat.lt_of_lt_of_le within length, unnamed, apart⟩
  · exact fun c member => Nat.lt_of_lt_of_le (tuned.known c member) length

theorem tuned_set_trigger (tuned : plant.Tuned) (t : TriggerId) (trigger after : Trigger)
    (there : plant.triggers[t]? = some trigger)
    (follows : after.active = true → plant.Follows after)
    (spare : ∀ child ∈ after.children, plant.Spare (some t) child) :
    (plant.setTrigger t after).Tuned := by
  have found_after : ∀ (other : TriggerId) (another : Trigger),
      (plant.setTrigger t after).triggers[other]? = some another →
        other = t ∧ another = after ∨ other ≠ t ∧ plant.triggers[other]? = some another := by
    intro other another found
    by_cases same : other = t
    · subst same
      cases (set_trigger_there plant other trigger after there).symm.trans found
      exact .inl ⟨rfl, rfl⟩
    · exact .inr ⟨same, (set_trigger_other plant t other after same).symm.trans found⟩
  refine ⟨tuned.bound, tuned.hears, ?_, ?_, tuned.known⟩
  · intro other another found active
    rcases found_after other another found with ⟨rfl, rfl⟩ | ⟨_, old⟩
    · exact follows active
    · exact tuned.follows other another old active
  · intro other another found child member
    have before : plant.Spare (some other) child := by
      rcases found_after other another found with ⟨rfl, rfl⟩ | ⟨_, old⟩
      · exact spare child member
      · exact tuned.own other another old child member
    refine ⟨before.inside, before.unnamed, fun third found_third again shared => ?_⟩
    rcases found_after third found_third again with ⟨rfl, rfl⟩ | ⟨_, old⟩
    · rcases found_after other another found with ⟨rfl, _⟩ | ⟨_, own⟩
      · rfl
      · exact ((spare child shared).apart other another own member).symm
    · exact before.apart third found_third old shared

theorem tuned_add_trigger (tuned : plant.Tuned) (trigger : Trigger) (idle : trigger.active = false)
    (spare : ∀ child ∈ trigger.children, plant.Spare none child) :
    (plant.addTrigger trigger).2.Tuned := by
  have grown : ∀ (t : TriggerId) (found : Trigger),
      (plant.addTrigger trigger).2.triggers[t]? = some found →
        plant.triggers[t]? = some found ∨ t = plant.triggers.length ∧ found = trigger := by
    intro t found there
    have within : t < (plant.triggers ++ [trigger]).length := (List.getElem?_eq_some_iff.mp there).1
    rw [List.length_append, List.length_singleton] at within
    rcases Nat.lt_or_eq_of_le (Nat.le_of_lt_succ within) with old | rfl
    · exact .inl ((List.getElem?_append_left old).symm.trans there)
    · have last : (plant.triggers ++ [trigger])[plant.triggers.length]? = some trigger :=
        List.getElem?_concat_length
      exact .inr ⟨rfl, Option.some.inj (there.symm.trans last)⟩
  refine ⟨tuned.bound, tuned.hears, ?_, ?_, tuned.known⟩
  · intro t found there active
    rcases grown t found there with old | ⟨_, rfl⟩
    · exact tuned.follows t found old active
    · rw [idle] at active
      contradiction
  · intro t found there child member
    rcases grown t found there with old | ⟨rfl, rfl⟩
    · obtain ⟨inside, unnamed, apart⟩ := tuned.own t found old child member
      refine ⟨inside, unnamed, fun other another again shared => ?_⟩
      rcases grown other another again with before | ⟨rfl, rfl⟩
      · exact apart other another before shared
      · exact absurd ((spare child shared).apart t found old member) (by simp)
    · obtain ⟨inside, unnamed, apart⟩ := spare child member
      refine ⟨inside, unnamed, fun other another again shared => ?_⟩
      rcases grown other another again with before | ⟨rfl, _⟩
      · exact absurd (apart other another before shared) (by simp)
      · rfl

theorem tuned_named (tuned : plant.Tuned) (name : String) (c : ComparisonId)
    (spare : plant.Spare none c) :
    (plant.keep fun desk => { desk with comparisons := desk.comparisons.insert name c }).Tuned := by
  refine ⟨tuned.bound, tuned.hears, tuned.follows, ?_, ?_⟩
  · intro t trigger found child member
    obtain ⟨inside, unnamed, apart⟩ := tuned.own t trigger found child member
    refine ⟨inside, fun again => ?_, apart⟩
    rcases Directory.inserted_ids _ _ _ _ again with rfl | old
    · exact absurd (spare.apart t trigger found member) (by simp)
    · exact unnamed old
  · intro other member
    rcases Directory.inserted_ids _ _ _ _ member with rfl | old
    · exact spare.inside
    · exact tuned.known other old

end

end Plant

end Interlock
