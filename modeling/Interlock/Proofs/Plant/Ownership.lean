import Interlock.Proofs.Plant.Tidying

/-!
Who owns a comparison, and what leads to a trigger. A name or a trigger that a comparison has after a move
it had before, unless it is new, and a comparison that has neither of them stays idle.
-/

set_option autoImplicit false

namespace Interlock.Plant

open Interlock.Calendar (Instant)
open Interlock.Graph
open Interlock.Schedule
open Interlock.Session

def Owned (plant : Plant) (c : ComparisonId) : Prop :=
  ∃ (t : TriggerId) (trigger : Trigger), plant.triggers[t]? = some trigger ∧ c ∈ trigger.children

structure Reflects (plant next : Plant) : Prop where
  comparisons : plant.comparisons.length ≤ next.comparisons.length
  triggers : plant.triggers.length ≤ next.triggers.length
  named : ∀ c < plant.comparisons.length, c ∈ next.desk.comparisons.ids → c ∈ plant.desk.comparisons.ids
  led : ∀ t, next.desk.Leads t →
    plant.desk.Leads t ∨ plant.triggers.length ≤ t ∧ t < next.triggers.length
  children : ∀ (t : TriggerId) (after : Trigger), next.triggers[t]? = some after →
    ∀ c ∈ after.children, c < plant.comparisons.length →
      ∃ trigger : Trigger, plant.triggers[t]? = some trigger ∧ c ∈ trigger.children
  active : ∀ (c : ComparisonId) (after : Comparison), next.comparisons[c]? = some after →
    after.isActive = true → c < plant.comparisons.length →
      next.Owned c ∨ c ∈ plant.desk.comparisons.ids ∨ ¬ plant.Owned c ∧
        ∃ comparison : Comparison, plant.comparisons[c]? = some comparison ∧ comparison.isActive = true

section

variable {plant middle next : Plant}

theorem Reflects.refl (plant : Plant) : Reflects plant plant where
  comparisons := Nat.le_refl _
  triggers := Nat.le_refl _
  named _ _ member := member
  led _ led := .inl led
  children _ after there _ member _ := ⟨after, there, member⟩
  active c after there active _ := by
    by_cases owned : plant.Owned c
    · exact .inl owned
    · exact .inr (.inr ⟨owned, after, there, active⟩)

theorem Reflects.trans (first : Reflects plant middle) (second : Reflects middle next) :
    Reflects plant next where
  comparisons := Nat.le_trans first.comparisons second.comparisons
  triggers := Nat.le_trans first.triggers second.triggers
  named c old member :=
    first.named c old (second.named c (Nat.lt_of_lt_of_le old first.comparisons) member)
  led t led := by
    rcases second.led t led with before | ⟨new, inside⟩
    · exact (first.led t before).imp_right fun ⟨new, inside⟩ =>
        ⟨new, Nat.lt_of_lt_of_le inside second.triggers⟩
    · exact .inr ⟨Nat.le_trans first.triggers new, inside⟩
  children t after there c member old := by
    obtain ⟨between, found, held⟩ :=
      second.children t after there c member (Nat.lt_of_lt_of_le old first.comparisons)
    exact first.children t between found c held old
  active c after there active old := by
    rcases second.active c after there active (Nat.lt_of_lt_of_le old first.comparisons) with
      owned | named | ⟨unowned, between, found, was⟩
    · exact .inl owned
    · exact .inr (.inl (first.named c old named))
    · exact .inr ((first.active c between found was old).resolve_left unowned)

theorem reflects_kept (grown : plant.comparisons.length ≤ next.comparisons.length)
    (count : next.triggers.length = plant.triggers.length)
    (named : ∀ c ∈ next.desk.comparisons.ids, c ∈ plant.desk.comparisons.ids)
    (led : ∀ t, next.desk.Leads t → plant.desk.Leads t)
    (comparisons : ∀ (c : ComparisonId) (after : Comparison), next.comparisons[c]? = some after →
      after.isActive = true →
        ∃ comparison : Comparison, plant.comparisons[c]? = some comparison ∧ comparison.isActive = true)
    (triggers : ∀ (t : TriggerId) (after : Trigger), next.triggers[t]? = some after →
      ∃ trigger : Trigger, plant.triggers[t]? = some trigger ∧ after.children = trigger.children) :
    Reflects plant next where
  comparisons := grown
  triggers := Nat.le_of_eq count.symm
  named c _ member := named c member
  led t leads := .inl (led t leads)
  children t after there c member _ := by
    obtain ⟨trigger, found, same⟩ := triggers t after there
    exact ⟨trigger, found, same ▸ member⟩
  active c after there active _ := by
    by_cases owned : plant.Owned c
    · obtain ⟨t, trigger, found, member⟩ := owned
      have inside : t < next.triggers.length := count ▸ (List.getElem?_eq_some_iff.mp found).1
      have known := List.getElem?_eq_getElem inside
      obtain ⟨before, again, same⟩ := triggers t _ known
      cases found.symm.trans again
      exact .inl ⟨t, _, known, same ▸ member⟩
    · exact .inr (.inr ⟨owned, comparisons c after there active⟩)

theorem reflects_same (comparisons : next.comparisons = plant.comparisons)
    (triggers : next.triggers = plant.triggers) (desk : next.desk = plant.desk) : Reflects plant next := by
  refine reflects_kept (Nat.le_of_eq (congrArg List.length comparisons.symm))
    (congrArg List.length triggers) ?_ ?_ ?_ ?_
  · exact fun _ member => desk ▸ member
  · exact fun _ led => desk ▸ led
  · exact fun _ after there active => ⟨after, comparisons ▸ there, active⟩
  · exact fun _ after there => ⟨after, triggers ▸ there, rfl⟩

theorem reflects_calm (calm : Calm plant next) : Reflects plant next := by
  refine reflects_kept (Nat.le_of_eq (congrArg List.length calm.comparisons.symm))
    (congrArg List.length calm.triggers) ?_ calm.led ?_ ?_
  · exact fun _ member => calm.named ▸ member
  · exact fun _ after there active => ⟨after, calm.comparisons ▸ there, active⟩
  · exact fun _ after there => ⟨after, calm.triggers ▸ there, rfl⟩

theorem Reflects.calm (reflects : Reflects plant middle) (calm : Calm middle next) :
    Reflects plant next := reflects.trans (reflects_calm calm)

theorem Reflects.renamed (reflects : Reflects plant middle) (desk : Desk)
    (named : ∀ c ∈ desk.comparisons.ids, c ∈ middle.desk.comparisons.ids ∨ plant.comparisons.length ≤ c)
    (led : ∀ t, desk.Leads t →
      middle.desk.Leads t ∨ plant.triggers.length ≤ t ∧ t < middle.triggers.length) :
    Reflects plant { middle with desk := desk } where
  comparisons := reflects.comparisons
  triggers := reflects.triggers
  named c old member :=
    reflects.named c old ((named c member).resolve_right (Nat.not_le.mpr old))
  led t leads := (led t leads).elim (reflects.led t) .inr
  children := reflects.children
  active := reflects.active

theorem reflects_set_comparison (c : ComparisonId) (comparison after : Comparison)
    (there : plant.comparisons[c]? = some comparison)
    (active : after.isActive = true → comparison.isActive = true) :
    Reflects plant (plant.setComparison c after) := by
  refine reflects_kept (Nat.le_of_eq List.length_set.symm) rfl (fun _ member => member)
    (fun _ led => led) (fun other found known listens => ?_) fun _ trigger found => ⟨trigger, found, rfl⟩
  by_cases same : other = c
  · subst same
    cases (set_comparison_there plant other comparison after there).symm.trans known
    exact ⟨comparison, there, active listens⟩
  · exact ⟨found, (set_comparison_other plant c other after same).symm.trans known, listens⟩

theorem reflects_set_trigger (t : TriggerId) (trigger after : Trigger)
    (there : plant.triggers[t]? = some trigger) (children : after.children = trigger.children) :
    Reflects plant (plant.setTrigger t after) := by
  refine reflects_kept (Nat.le_refl _) List.length_set (fun _ member => member)
    (fun _ led => led) (fun _ comparison found active => ⟨comparison, found, active⟩)
    fun other found known => ?_
  by_cases same : other = t
  · subst same
    cases (set_trigger_there plant other trigger after there).symm.trans known
    exact ⟨trigger, there, children⟩
  · exact ⟨found, (set_trigger_other plant t other after same).symm.trans known, rfl⟩

theorem reflects_assign (plant : Plant) (v : VariableId) (var : Variable) (value : Value) :
    Reflects plant (plant.assign v var value).2 := by
  rw [assign]
  dsimp only
  split <;> exact reflects_same rfl rfl rfl

theorem reflects_refresh (c : ComparisonId) (comparison : Comparison)
    (there : plant.comparisons[c]? = some comparison) (stamp : Instant) :
    Reflects plant (plant.refresh c comparison stamp).2 :=
  (reflects_set_comparison c comparison { comparison with latest := plant.sample comparison } there
    id).trans (reflects_same rfl rfl rfl)

theorem reflects_evaluate (t : TriggerId) (trigger : Trigger)
    (there : plant.triggers[t]? = some trigger) (stamp : Instant) :
    Reflects plant (plant.evaluate t trigger stamp).2 := by
  rw [evaluate]
  split
  · exact .refl plant
  · next found evaluated =>
      obtain ⟨_, _, children, _⟩ := evaluate_keeps trigger _ found evaluated
      have set := reflects_set_trigger t trigger found.trigger there children
      obtain ⟨change, woken⟩ := wake_waiting_dispatch (plant.setTrigger t found.trigger) t
      dsimp only
      rw [woken]
      split <;> exact set.trans (reflects_same rfl rfl rfl)

theorem reflects_evaluate_now (t : TriggerId) (trigger : Trigger)
    (there : plant.triggers[t]? = some trigger) : Reflects plant (plant.evaluateNow t trigger).2 := by
  have read : Reflects plant plant.readClock.2 := reflects_same rfl rfl rfl
  have found : plant.readClock.2.triggers[t]? = some trigger := there
  exact read.trans (reflects_evaluate t trigger found _)

theorem reflects_rearm_trigger (plant : Plant) (t : TriggerId) :
    Reflects plant (plant.rearmTrigger t) := by
  rw [rearmTrigger]
  split
  · exact .refl plant
  · next trigger there =>
      split
      · exact .refl plant
      · obtain ⟨change, woken⟩ := wake_waiting_dispatch (plant.setTrigger t trigger.rearm) t
        rw [woken]
        exact (reflects_set_trigger t trigger trigger.rearm there (rearm_children trigger)).trans
          (reflects_same rfl rfl rfl)

theorem reflects_add_comparison (comparison : Comparison) (idle : comparison.isActive = false) :
    Reflects plant (plant.addComparison comparison).2 := by
  refine reflects_kept (by simp [addComparison]) rfl (fun _ member => member) (fun _ led => led)
    (fun c after there active => ?_) fun _ trigger found => ⟨trigger, found, rfl⟩
  simp only [addComparison, List.getElem?_append] at there
  split at there
  · exact ⟨after, there, active⟩
  · rw [List.mem_singleton.mp (List.mem_of_getElem? there), idle] at active
    contradiction

theorem made_comparison_reflects (table : TableId) (text : String) (id : ComparisonId)
    (made : plant.makeComparison table text = .ok (id, next)) :
    Reflects plant next ∧ next.desk = plant.desk ∧ id = plant.comparisons.length := by
  obtain ⟨relation, _, rfl, rfl⟩ := comparison_made made
  have read : Reflects plant plant.readClock.2 := reflects_same rfl rfl rfl
  exact ⟨read.trans (reflects_add_comparison (.create text relation _) rfl), rfl, rfl⟩

theorem made_comparisons_reflect (table : TableId) (atoms : List String) (ids : List ComparisonId)
    (made : plant.makeComparisons table atoms = .ok (ids, next)) :
    Reflects plant next ∧ next.desk = plant.desk ∧ next.triggers = plant.triggers ∧
      ∀ id ∈ ids, plant.comparisons.length ≤ id := by
  induction atoms generalizing plant ids with
  | nil =>
      cases made
      exact ⟨.refl _, rfl, rfl, by simp⟩
  | cons atom rest ih =>
      obtain ⟨id, between, others, first, later, rfl⟩ := comparisons_made made
      obtain ⟨reflects, desk, rfl⟩ := made_comparison_reflects table atom id first
      obtain ⟨more, kept, same, new⟩ := ih others later
      refine ⟨reflects.trans more, kept.trans desk,
        same.trans (inert_make_comparison plant table atom _ between first).triggers, ?_⟩
      intro other member
      rcases List.mem_cons.mp member with rfl | behind
      · exact Nat.le_refl _
      · exact Nat.le_trans reflects.comparisons (new other behind)

theorem reflects_add_trigger (reflects : Reflects plant middle) (trigger : Trigger)
    (new : ∀ c ∈ trigger.children, plant.comparisons.length ≤ c) :
    Reflects plant (middle.addTrigger trigger).2 where
  comparisons := reflects.comparisons
  triggers := Nat.le_trans reflects.triggers (by simp [addTrigger])
  named := reflects.named
  led t led := (reflects.led t led).imp_right (And.imp_right fun inside =>
    Nat.lt_of_lt_of_le inside (by simp [addTrigger]))
  children t after there c member old := by
    simp only [addTrigger, List.getElem?_append] at there
    split at there
    · exact reflects.children t after there c member old
    · rw [List.mem_singleton.mp (List.mem_of_getElem? there)] at member
      exact absurd old (Nat.not_lt.mpr (new c member))
  active c after there active old := by
    refine (reflects.active c after there active old).imp_left fun owned => ?_
    obtain ⟨t, owner, found, member⟩ := owned
    have inside := (List.getElem?_eq_some_iff.mp found).1
    exact ⟨t, owner, (List.getElem?_append_left inside).trans found, member⟩

theorem make_trigger_reflects (table : TableId) (expression : String) (times : Int) (id : TriggerId)
    (made : plant.makeTrigger table expression times = .ok (id, next)) :
    Reflects plant next ∧ next.desk = plant.desk ∧ id = plant.triggers.length ∧
      id < next.triggers.length := by
  obtain ⟨condition, children, between, _, found, rfl, rfl⟩ := trigger_made made
  obtain ⟨reflects, desk, same, new⟩ := made_comparisons_reflect table _ children found
  exact ⟨reflects_add_trigger reflects _ new, desk, congrArg List.length same, by simp [addTrigger]⟩

theorem subscribed_variables (c : ComparisonId) (vars : List VariableId) (plant : Plant) :
    (plant.linkVariables c vars).2.comparisons = plant.comparisons ∧
      (plant.linkVariables c vars).2.triggers = plant.triggers ∧
      (plant.linkVariables c vars).2.desk = plant.desk := by
  induction vars generalizing plant with
  | nil => exact ⟨rfl, rfl, rfl⟩
  | cons v rest ih =>
      have own : (plant.subscribeVariable v (.comparison c)).2.comparisons = plant.comparisons ∧
          (plant.subscribeVariable v (.comparison c)).2.triggers = plant.triggers ∧
          (plant.subscribeVariable v (.comparison c)).2.desk = plant.desk := by
        rw [subscribeVariable]
        split
        · exact ⟨rfl, rfl, rfl⟩
        · split <;> exact ⟨rfl, rfl, rfl⟩
      have later := ih (plant.subscribeVariable v (.comparison c)).2
      rw [linkVariables]
      generalize plant.subscribeVariable v (.comparison c) = result at own later ⊢
      obtain ⟨ticket?, between⟩ := result
      have both := And.intro (later.1.trans own.1)
        (And.intro (later.2.1.trans own.2.1) (later.2.2.trans own.2.2))
      cases ticket? <;> exact both

structure BeginsOnly (children : List ComparisonId) (plant next : Plant) : Prop where
  length : next.comparisons.length = plant.comparisons.length
  triggers : next.triggers = plant.triggers
  desk : next.desk = plant.desk
  active : ∀ (c : ComparisonId) (after : Comparison), next.comparisons[c]? = some after →
    after.isActive = true → c ∈ children ∨
      ∃ comparison : Comparison, plant.comparisons[c]? = some comparison ∧ comparison.isActive = true

theorem BeginsOnly.refl (children : List ComparisonId) (plant : Plant) : BeginsOnly children plant plant :=
  ⟨rfl, rfl, rfl, fun _ after there active => .inr ⟨after, there, active⟩⟩

theorem BeginsOnly.trans {children : List ComparisonId} (first : BeginsOnly children plant middle)
    (second : BeginsOnly children middle next) : BeginsOnly children plant next where
  length := second.length.trans first.length
  triggers := second.triggers.trans first.triggers
  desk := second.desk.trans first.desk
  active c after there active := by
    rcases second.active c after there active with new | ⟨between, found, was⟩
    · exact .inl new
    · exact first.active c between found was

theorem begins_only_set_comparison (children : List ComparisonId) (c : ComparisonId)
    (comparison after : Comparison) (there : plant.comparisons[c]? = some comparison)
    (begins : after.isActive = true → c ∈ children ∨ comparison.isActive = true) :
    BeginsOnly children plant (plant.setComparison c after) := by
  refine ⟨List.length_set, rfl, rfl, fun other found known listens => ?_⟩
  by_cases same : other = c
  · subst same
    cases (set_comparison_there plant other comparison after there).symm.trans known
    exact (begins listens).imp_right fun active => ⟨comparison, there, active⟩
  · exact .inr ⟨found, (set_comparison_other plant c other after same).symm.trans known, listens⟩

theorem begins_only_activate_comparison (children : List ComparisonId) (c : ComparisonId)
    (member : c ∈ children) : BeginsOnly children plant (plant.activateComparison c) := by
  rw [activateComparison]
  cases there : plant.comparisons[c]? with
  | none => exact .refl children plant
  | some comparison =>
      dsimp only
      split
      · exact .refl children plant
      · obtain ⟨comparisons, triggers, desk⟩ := subscribed_variables c comparison.relation.vars plant
        generalize plant.linkVariables c comparison.relation.vars = result at comparisons triggers desk ⊢
        obtain ⟨links, between⟩ := result
        have linked : BeginsOnly children plant between :=
          ⟨congrArg List.length comparisons, triggers, desk, fun _ after found active =>
            .inr ⟨after, comparisons ▸ found, active⟩⟩
        exact linked.trans (begins_only_set_comparison children c comparison _ (by rw [comparisons, there])
          fun _ => .inl member)

theorem begins_only_subscribe_comparison (plant : Plant) (children : List ComparisonId) (c : ComparisonId)
    (listener : Listener) : BeginsOnly children plant (plant.subscribeComparison c listener).2 := by
  rw [subscribeComparison]
  cases there : plant.comparisons[c]? with
  | none => exact .refl children plant
  | some comparison =>
      dsimp only
      split
      · exact .refl children plant
      · have issued : BeginsOnly children plant plant.issueTicket.2 :=
          ⟨rfl, rfl, rfl, (BeginsOnly.refl children plant).active⟩
        exact issued.trans (begins_only_set_comparison children c comparison
          { comparison with subscribers := comparison.subscribers.add plant.tickets listener } there .inr)

theorem begins_only_link_children (all : List ComparisonId) (t : TriggerId) (children : List ComparisonId)
    (among : ∀ child ∈ children, child ∈ all) (plant : Plant) :
    BeginsOnly all plant (plant.linkChildren t children).2 := by
  induction children generalizing plant with
  | nil => exact .refl all plant
  | cons child rest ih =>
      have own := (begins_only_activate_comparison all child (among child List.mem_cons_self)).trans
        (begins_only_subscribe_comparison (plant.activateComparison child) all child (.trigger t))
      rw [linkChildren]
      generalize (plant.activateComparison child).subscribeComparison child (.trigger t) = result at own ⊢
      obtain ⟨ticket?, between⟩ := result
      have both := own.trans (ih (fun other member => among other (List.mem_cons_of_mem child member))
        between)
      cases ticket? <;> exact both

theorem reflects_begins_only {children : List ComparisonId} (begins : BeginsOnly children plant next)
    (known : ∀ c ∈ children, c ∈ plant.desk.comparisons.ids) : Reflects plant next where
  comparisons := Nat.le_of_eq begins.length.symm
  triggers := Nat.le_of_eq (congrArg List.length begins.triggers.symm)
  named c _ member := begins.desk ▸ member
  led _ led := .inl (begins.desk ▸ led)
  children _ after there _ member _ := ⟨after, begins.triggers ▸ there, member⟩
  active c after there active _ := by
    rcases begins.active c after there active with new | was
    · exact .inr (.inl (known c new))
    · by_cases owned : plant.Owned c
      · obtain ⟨t, trigger, found, member⟩ := owned
        exact .inl ⟨t, trigger, begins.triggers ▸ found, member⟩
      · exact .inr (.inr ⟨owned, was⟩)

theorem reflects_started {children : List ComparisonId} (reflects : Reflects plant middle)
    (begins : BeginsOnly children middle next) (triggers : middle.triggers = plant.triggers)
    (t : TriggerId) (trigger : Trigger) (there : plant.triggers[t]? = some trigger)
    (links : List (ComparisonId × Ticket)) (kept : ∀ c ∈ trigger.children, c ∈ children)
    (new : ∀ c ∈ children, c ∈ trigger.children ∨ plant.comparisons.length ≤ c) :
    Reflects plant (next.setTrigger t (trigger.started children links)) := by
  have same : next.triggers = plant.triggers := begins.triggers.trans triggers
  have own := set_trigger_there next t trigger (trigger.started children links) (by rw [same, there])
  have others := fun other => set_trigger_other next t other (trigger.started children links)
  refine ⟨?_, ?_, ?_, ?_, ?_, ?_⟩
  · exact Nat.le_trans reflects.comparisons (Nat.le_of_eq begins.length.symm)
  · exact Nat.le_of_eq ((List.length_set).trans (congrArg List.length same)).symm
  · exact fun c old member => reflects.named c old (begins.desk ▸ member)
  · intro t led
    have before : middle.desk.Leads t := begins.desk ▸ led
    refine (reflects.led t before).imp_right fun ⟨new, inside⟩ => ⟨new, ?_⟩
    exact Nat.lt_of_lt_of_le inside
      (Nat.le_of_eq ((List.length_set).trans (congrArg List.length begins.triggers)).symm)
  · intro other after found c member old
    by_cases mine : other = t
    · subst mine
      cases own.symm.trans found
      exact ⟨trigger, there, (new c member).resolve_right (Nat.not_le.mpr old)⟩
    · exact ⟨after, by rw [← same, ← others other mine, found], member⟩
  · intro c after found active old
    by_cases child : c ∈ children
    · exact .inl ⟨t, _, own, child⟩
    · obtain ⟨comparison, known, was⟩ := (begins.active c after found active).resolve_left child
      rcases reflects.active c comparison known was old with ⟨other, owner, held, member⟩ | rest
      · rw [triggers] at held
        by_cases mine : other = t
        · subst mine
          cases there.symm.trans held
          exact absurd (kept c member) child
        · exact .inl ⟨other, owner, by rw [others other mine, same, held], member⟩
      · exact .inr rest

theorem children_of_reflects (trigger : Trigger) (children : List ComparisonId)
    (made : plant.childrenOf trigger = .ok (children, next)) :
    Reflects plant next ∧ next.triggers = plant.triggers ∧ (∀ c ∈ trigger.children, c ∈ children) ∧
      ∀ c ∈ children, c ∈ trigger.children ∨ plant.comparisons.length ≤ c := by
  obtain ⟨empty, built⟩ | ⟨_, rfl, rfl⟩ := children_made made
  · obtain ⟨reflects, _, same, new⟩ := made_comparisons_reflect trigger.table _ children built
    refine ⟨reflects, same, fun c member => ?_, fun c member => .inr (new c member)⟩
    rw [empty] at member
    contradiction
  · exact ⟨.refl _, rfl, fun _ member => member, fun _ member => .inl member⟩

theorem activate_trigger_reflects (t : TriggerId) (trigger : Trigger)
    (there : plant.triggers[t]? = some trigger) (activated : plant.activateTrigger t trigger = .ok next) :
    Reflects plant next := by
  cases activation activated with
  | spent => exact reflects_same rfl rfl rfl
  | active => exact .refl _
  | begun _ _ children between _ made ran =>
      obtain ⟨reflects, same, kept, new⟩ := children_of_reflects trigger children made
      have begins := begins_only_link_children children t children (fun _ member => member) between
      have started := reflects_started reflects begins same t trigger there (between.childLinks t children) kept new
      have begun := set_trigger_there _ t trigger (trigger.started children (between.childLinks t children))
        (by rw [begins.triggers, same, there])
      have engaged : Reflects plant (between.engage t trigger children) := started.calm (calm_same _ _ rfl)
      have evaluated := engaged.trans (reflects_evaluate_now t _ begun)
      obtain rfl | ⟨_, details, _, rfl⟩ := ran
      · exact evaluated
      · exact evaluated.calm (calm_same _ _ rfl)

structure StopsListening (children : List ComparisonId) (plant next : Plant) : Prop where
  length : plant.comparisons.length ≤ next.comparisons.length
  triggers : next.triggers = plant.triggers
  desk : next.desk = plant.desk
  active : ∀ (c : ComparisonId) (after : Comparison), next.comparisons[c]? = some after →
    after.isActive = true → c ∉ children ∧
      ∃ comparison : Comparison, plant.comparisons[c]? = some comparison ∧ comparison.isActive = true

theorem StopsListening.trans {first second : List ComparisonId} (before : StopsListening first plant middle)
    (after : StopsListening second middle next) : StopsListening (first ++ second) plant next where
  length := Nat.le_trans before.length after.length
  triggers := after.triggers.trans before.triggers
  desk := after.desk.trans before.desk
  active c found there active := by
    obtain ⟨apart, between, known, was⟩ := after.active c found there active
    obtain ⟨other, origin⟩ := before.active c between known was
    exact ⟨fun member => (List.mem_append.mp member).elim other apart, origin⟩

theorem stops_listening_deactivate_comparison (plant : Plant) (c : ComparisonId) :
    StopsListening [c] plant (plant.deactivateComparison c) := by
  obtain ⟨usage, others⟩ := deactivated_comparison plant c
  have inert := inert_deactivate_comparison plant c
  refine ⟨?_, inert.triggers, congrArg Prod.fst usage, fun other after there active => ?_⟩
  · by_contra fewer
    obtain ⟨_, found, _⟩ := inert.comparisons _ _ (List.getElem?_eq_getElem (Nat.not_le.mp fewer))
    exact absurd (List.getElem?_eq_some_iff.mp found).1 (Nat.lt_irrefl _)
  · obtain ⟨apart, same⟩ := others other after there active
    exact ⟨by simpa using apart, after, same, active⟩

theorem stops_listening_deactivate_comparisons (children : List ComparisonId) (plant : Plant) :
    StopsListening children plant (children.foldl deactivateComparison plant) := by
  induction children generalizing plant with
  | nil => exact ⟨Nat.le_refl _, rfl, rfl, fun c after there active => ⟨by simp, after, there, active⟩⟩
  | cons child rest ih =>
      exact (stops_listening_deactivate_comparison plant child).trans (ih (plant.deactivateComparison child))

theorem reflects_stops_listening {children : List ComparisonId} (stops : StopsListening children plant next) :
    Reflects plant next := by
  refine reflects_kept stops.length (congrArg List.length stops.triggers)
    (fun _ member => stops.desk ▸ member) (fun _ led => stops.desk ▸ led)
    (fun c after there active => (stops.active c after there active).2)
    fun _ after there => ⟨after, stops.triggers ▸ there, rfl⟩

theorem reflects_deactivate_comparison (plant : Plant) (c : ComparisonId) :
    Reflects plant (plant.deactivateComparison c) := reflects_stops_listening (stops_listening_deactivate_comparison plant c)

theorem stops_listening_unsubscribe_comparisons (links : List (ComparisonId × Ticket)) (plant : Plant) :
    StopsListening [] plant
      (links.foldl (fun plant (c, ticket) => plant.unsubscribeComparison c ticket) plant) := by
  have start : ∀ plant : Plant, StopsListening [] plant plant := fun plant =>
    ⟨Nat.le_refl _, rfl, rfl, fun _ after there active => ⟨by simp, after, there, active⟩⟩
  refine foldl_keeps (StopsListening [] plant) _ (fun next link kept => kept.trans ?_) links plant (start plant)
  dsimp only
  rw [unsubscribeComparison]
  split
  · exact start next
  · next comparison there =>
      refine ⟨Nat.le_of_eq List.length_set.symm, rfl, rfl, fun other found known active => ⟨by simp, ?_⟩⟩
      by_cases same : other = link.1
      · subst same
        cases (set_comparison_there next link.1 comparison _ there).symm.trans known
        exact ⟨comparison, there, active⟩
      · exact ⟨found, (set_comparison_other next link.1 other _ same).symm.trans known, active⟩

theorem reflects_halted (t : TriggerId) (trigger : Trigger) (there : plant.triggers[t]? = some trigger)
    (stops : StopsListening trigger.children (plant.setTrigger t trigger.halted) next) : Reflects plant next := by
  have own := set_trigger_there plant t trigger trigger.halted there
  have others := fun other => set_trigger_other plant t other trigger.halted
  refine ⟨stops.length, ?_, fun c _ member => stops.desk ▸ member, fun _ led => .inl (stops.desk ▸ led),
    ?_, ?_⟩
  · rw [stops.triggers]
    exact Nat.le_of_eq List.length_set.symm
  · intro other after found c member _
    rw [stops.triggers] at found
    by_cases mine : other = t
    · subst mine
      cases own.symm.trans found
      contradiction
    · exact ⟨after, (others other mine).symm.trans found, member⟩
  · intro c after found active _
    obtain ⟨apart, was⟩ := stops.active c after found active
    by_cases owned : plant.Owned c
    · obtain ⟨other, owner, held, member⟩ := owned
      by_cases mine : other = t
      · subst mine
        cases there.symm.trans held
        exact absurd member apart
      · exact .inl ⟨other, owner, by rw [stops.triggers, others other mine, held], member⟩
    · exact .inr (.inr ⟨owned, was⟩)

theorem reflects_deactivate_trigger (plant : Plant) (t : TriggerId) :
    Reflects plant (plant.deactivateTrigger t) := by
  rw [deactivateTrigger]
  cases there : plant.triggers[t]? with
  | none => exact .refl plant
  | some trigger =>
      dsimp only
      split
      · have stops := (stops_listening_unsubscribe_comparisons trigger.links (plant.setTrigger t trigger.halted)).trans
          (stops_listening_deactivate_comparisons trigger.children _)
        exact (reflects_halted t trigger there stops).calm (calm_same _ _ rfl)
      · exact .refl plant

end

end Interlock.Plant
