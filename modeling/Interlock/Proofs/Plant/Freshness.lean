import Interlock.Proofs.Formula.Truth
import Interlock.Proofs.Plant.Tuning

/-!
Whether what a comparison or a trigger shows is the truth of the moment. If it is not, a notification
that will put it right is on the agenda.
-/

set_option autoImplicit false

namespace Interlock

open Interlock.Formula (Condition)
open Interlock.Graph

namespace Plant

-- The expression of a trigger has this value on the values that its variables have now.
def Shows (plant : Plant) (trigger : Trigger) (value : Bool) : Prop :=
  ∃ compiled, Trigger.compile trigger.expression = .ok compiled ∧ plant.Wired trigger ∧
    match compiled with
    | none => value = true
    | some condition =>
        condition.evaluateWith (fun atom => (plant.truths trigger.children).lookup atom) = .ok value

structure Truthful (plant : Plant) (trigger : Trigger) : Prop where
  shows : plant.Shows trigger trigger.latest
  signal : trigger.signal = trigger.latest

section

variable {plant next : Plant}

theorem evaluate_shows (trigger : Trigger) (found : Trigger.Evaluation) (compiled : trigger.Compiled)
    (wired : plant.Wired trigger) (evaluated : trigger.evaluate (plant.truths trigger.children) = .ok found) :
    plant.Shows found.trigger found.trigger.latest := by
  obtain ⟨truth, condition, children, _, _⟩ := evaluate_keeps trigger _ found evaluated
  obtain ⟨origin, before, made, bound⟩ := compiled
  have rewired : plant.Wired found.trigger := by
    refine wired_same plant trigger found.trigger children ?_ wired
    have kept := bind_children_atoms trigger (plant.truths trigger.children)
    rw [Trigger.atoms] at kept ⊢
    rw [condition]
    exact kept
  refine ⟨origin, by rw [evaluate_expression trigger _ found evaluated, made], rewired, ?_⟩
  cases origin with
  | none =>
      simp only [Option.map_none] at bound
      have blank : (trigger.bindChildren (plant.truths trigger.children)).truth = .ok true := by
        simp [Trigger.truth, Trigger.bindChildren, bound]
      exact (Except.ok.inj (blank.symm.trans truth)).symm
  | some stated =>
      have there : trigger.condition = some (stated.bindList before) := bound
      have each : (plant.truths trigger.children).map Prod.fst = (stated.bindList before).atoms := by
        rw [wired_truths plant trigger wired, Trigger.atoms, there]
      have bound_truth : (trigger.bindChildren (plant.truths trigger.children)).truth =
          ((stated.bindList before).bindList (plant.truths trigger.children)).evaluate := by
        simp [Trigger.truth, Trigger.bindChildren, there, Condition.bindList]
      dsimp only
      rw [children, ← Condition.evaluate_with_bind_list stated before, Condition.evaluateWith,
        ← Condition.bind_list_all _ _ each, ← bound_truth, truth]

theorem evaluate_signal (trigger : Trigger) (truths : List (String × Bool))
    (found : Trigger.Evaluation) (evaluated : trigger.evaluate truths = .ok found) :
    found.trigger.signal = found.trigger.latest := by
  obtain ⟨value, _, ⟨same, rfl⟩ | ⟨_, rfl⟩⟩ := evaluate_found trigger truths found evaluated
  · exact same
  · rfl

theorem evaluate_total (trigger : Trigger) (compiled : trigger.Compiled) (truths : List (String × Bool)) :
    ∃ found, trigger.evaluate truths = .ok found := by
  have truth : ∃ value, (trigger.bindChildren truths).truth = .ok value := by
    obtain ⟨origin, before, made, bound⟩ := compiled
    cases origin with
    | none => exact ⟨true, by simp [Trigger.truth, Trigger.bindChildren, bound]⟩
    | some stated =>
        have source : Condition.compile trigger.expression = .ok stated := by
          rw [Trigger.compile] at made
          split at made
          · cases made
          · split at made
            · cases made
              assumption
            · contradiction
        obtain ⟨value, evaluates⟩ :=
          Formula.compiled_evaluates trigger.expression stated source (before ++ truths)
        refine ⟨value, ?_⟩
        rw [Condition.bindList, List.foldl_append] at evaluates
        simpa [Trigger.truth, Trigger.bindChildren, bound, Condition.bindList] using evaluates
  obtain ⟨value, found⟩ := truth
  rw [Trigger.evaluate]
  dsimp only
  rw [found]
  dsimp only
  split
  · exact ⟨_, rfl⟩
  · exact ⟨_, rfl⟩

theorem evaluate_exhausts (trigger : Trigger) (truths : List (String × Bool))
    (found : Trigger.Evaluation) (evaluated : trigger.evaluate truths = .ok found)
    (active : found.trigger.active = true) (spent : found.trigger.remaining = 0) :
    trigger.remaining = 0 ∨ found.exhausted = true := by
  obtain ⟨_, _, _, _, same⟩ := evaluate_keeps trigger truths found evaluated
  rw [same] at active
  obtain ⟨_, _, ⟨_, rfl⟩ | ⟨_, rfl⟩⟩ := evaluate_found trigger truths found evaluated
  · exact .inl spent
  · rw [active, if_pos rfl]
    simp only [Trigger.send, active, if_pos] at spent
    exact .inr (by simp [spent])

theorem shows_kept (trigger : Trigger) (value : Bool)
    (samples : ∀ child ∈ trigger.children, ∀ comparison, plant.comparisons[child]? = some comparison →
      ∃ later, next.comparisons[child]? = some later ∧ later.expression = comparison.expression ∧
        next.sample later = plant.sample comparison)
    (shows : plant.Shows trigger value) : next.Shows trigger value := by
  obtain ⟨compiled, made, wired, shown⟩ := shows
  have there : ∀ child ∈ trigger.children, ∃ comparison, plant.comparisons[child]? = some comparison := by
    intro child member
    have listed := List.mem_map_of_mem (f := plant.expressionOf) member
    rw [wired] at listed
    obtain ⟨atom, _, same⟩ := List.mem_map.mp listed
    obtain ⟨comparison, found, _⟩ := Option.map_eq_some_iff.mp same.symm
    exact ⟨comparison, found⟩
  have truths : next.truths trigger.children = plant.truths trigger.children := by
    rw [truths, truths]
    refine List.filterMap_congr fun child member => ?_
    obtain ⟨comparison, found⟩ := there child member
    obtain ⟨later, still, expression, sample⟩ := samples child member comparison found
    rw [found, still, Option.map_some, Option.map_some, expression, sample]
  have expressions : trigger.children.map next.expressionOf = trigger.children.map plant.expressionOf := by
    refine List.map_congr_left fun child member => ?_
    obtain ⟨comparison, found⟩ := there child member
    obtain ⟨later, still, expression, _⟩ := samples child member comparison found
    rw [expressionOf, expressionOf, found, still, Option.map_some, Option.map_some, expression]
  refine ⟨compiled, made, expressions.trans wired, ?_⟩
  rw [truths]
  exact shown

theorem truthful_kept (trigger : Trigger)
    (samples : ∀ child ∈ trigger.children, ∀ comparison, plant.comparisons[child]? = some comparison →
      ∃ later, next.comparisons[child]? = some later ∧ later.expression = comparison.expression ∧
        next.sample later = plant.sample comparison)
    (truthful : plant.Truthful trigger) : next.Truthful trigger :=
  ⟨shows_kept trigger trigger.latest samples truthful.shows, truthful.signal⟩

theorem sample_congr (relation : Relation) (values others : VariableId → Option Value)
    (same : ∀ var ∈ relation.vars, values var = others var) :
    relation.sample values = relation.sample others := by
  have side : ∀ operand ∈ [relation.left, relation.right],
      operand.value? values = operand.value? others := by
    intro operand member
    cases operand with
    | constant value => rfl
    | var id => exact same id (List.mem_filterMap.mpr ⟨_, member, rfl⟩)
  rw [Relation.sample, Relation.sample, side relation.left (by simp), side relation.right (by simp)]

end

def Awaits (jobs : List Job) (listener : Listener) : Prop :=
  ∃ notification, .deliver listener notification ∈ jobs

theorem awaits_mono {jobs more : List Job} (grows : ∀ job ∈ jobs, job ∈ more) (listener : Listener)
    (awaits : Awaits jobs listener) : Awaits more listener := by
  obtain ⟨notification, member⟩ := awaits
  exact ⟨notification, grows _ member⟩

def Unowned (plant : Plant) (c : ComparisonId) : Prop :=
  ∀ (t : TriggerId) (trigger : Trigger), plant.triggers[t]? = some trigger → trigger.active = true →
    c ∉ trigger.children

def Idle (plant : Plant) : Job → Prop
  | .deliver (.comparison c) _ =>
      (∀ comparison, plant.comparisons[c]? = some comparison → comparison.isActive = false) ∧
        plant.Unowned c
  | .deliver (.trigger t) _ | .exhaust t =>
      ∀ trigger, plant.triggers[t]? = some trigger → trigger.active = false
  | _ => True

structure Fresh (plant : Plant) (jobs : List Job) : Prop where
  comparisons : ∀ (c : ComparisonId) (comparison : Comparison), plant.comparisons[c]? = some comparison →
    comparison.isActive = true →
      comparison.latest = plant.sample comparison ∨ Awaits jobs (.comparison c)
  triggers : ∀ (t : TriggerId) (trigger : Trigger), plant.triggers[t]? = some trigger →
    trigger.active = true → plant.Truthful trigger ∨ Awaits jobs (.trigger t) ∨
      ∃ child ∈ trigger.children, Awaits jobs (.comparison child)
  supplied : ∀ (t : TriggerId) (trigger : Trigger), plant.triggers[t]? = some trigger →
    trigger.active = true → trigger.remaining ≠ 0 ∨ .exhaust t ∈ jobs

section

variable {plant next : Plant} {jobs more : List Job}

theorem fresh_blank (start : Calendar.Instant) (hasRuntime : Bool) (jobs : List Job) :
    (Plant.blank start hasRuntime).Fresh jobs := by
  refine ⟨?_, ?_, ?_⟩ <;> simp [Plant.blank]

theorem fresh_same (fresh : plant.Fresh jobs) (vars : next.vars = plant.vars)
    (comparisons : next.comparisons = plant.comparisons) (triggers : next.triggers = plant.triggers)
    (grows : ∀ job ∈ jobs, job ∈ more) : next.Fresh more := by
  have values : next.valueOf = plant.valueOf := by
    funext id
    rw [valueOf, valueOf, vars]
  have samples : next.sample = plant.sample := by
    funext comparison
    rw [sample, sample, values]
  refine ⟨?_, ?_, ?_⟩
  · intro c comparison there active
    rw [comparisons] at there
    rw [samples]
    exact (fresh.comparisons c comparison there active).imp_right (awaits_mono grows _)
  · intro t trigger there active
    rw [triggers] at there
    refine (fresh.triggers t trigger there active).imp (truthful_kept trigger ?_) ?_
    · intro child _ comparison found
      exact ⟨comparison, comparisons ▸ found, rfl, by rw [samples]⟩
    · refine Or.imp (awaits_mono grows _) ?_
      rintro ⟨child, member, awaits⟩
      exact ⟨child, member, awaits_mono grows _ awaits⟩
  · intro t trigger there active
    rw [triggers] at there
    exact (fresh.supplied t trigger there active).imp_right (grows _)

theorem fresh_drops (fresh : plant.Fresh jobs) (drops : ∀ job ∈ jobs, job ∈ more ∨ plant.Idle job) :
    plant.Fresh more := by
  refine ⟨?_, ?_, ?_⟩
  · intro c comparison there active
    refine (fresh.comparisons c comparison there active).imp_right ?_
    rintro ⟨notification, member⟩
    refine ⟨notification, (drops _ member).resolve_right fun idle => ?_⟩
    rw [idle.1 comparison there] at active
    contradiction
  · intro t trigger there active
    rcases fresh.triggers t trigger there active with truthful | ⟨notification, member⟩ |
      ⟨child, own, notification, member⟩
    · exact .inl truthful
    · refine .inr (.inl ⟨notification, (drops _ member).resolve_right fun idle => ?_⟩)
      rw [idle trigger there] at active
      contradiction
    · refine .inr (.inr ⟨child, own, notification, (drops _ member).resolve_right fun idle => ?_⟩)
      exact idle.2 t trigger there active own
  · intro t trigger there active
    refine (fresh.supplied t trigger there active).imp_right fun due => ?_
    refine (drops _ due).resolve_right fun idle => ?_
    rw [idle trigger there] at active
    contradiction

theorem fresh_calm (fresh : plant.Fresh jobs) (calm : Calm plant next)
    (grows : ∀ job ∈ jobs, job ∈ more) : next.Fresh more :=
  fresh_same fresh calm.vars calm.comparisons calm.triggers grows

theorem values_set_variable (v : VariableId) (var after : Variable) (there : plant.vars[v]? = some var)
    (same : after.value = var.value) : (plant.setVariable v after).valueOf = plant.valueOf := by
  obtain ⟨inside, _⟩ := List.getElem?_eq_some_iff.mp there
  funext id
  by_cases own : id = v
  · subst own
    rw [valueOf, valueOf, there, setVariable, List.getElem?_set_self inside, Option.map_some,
      Option.map_some, same]
  · rw [valueOf, valueOf, setVariable, List.getElem?_set_ne (Ne.symm own)]

theorem fresh_set_variable (fresh : plant.Fresh jobs) (linked : plant.Linked) (tuned : plant.Tuned)
    (v : VariableId) (var after : Variable) (there : plant.vars[v]? = some var)
    (told : after.value = var.value ∨
      ∀ c, (∃ ticket, ⟨ticket, .comparison c⟩ ∈ plant.listeners (.var v)) → Awaits more (.comparison c))
    (grows : ∀ job ∈ jobs, job ∈ more) : (plant.setVariable v after).Fresh more := by
  have others : ∀ id, id ≠ v → (plant.setVariable v after).valueOf id = plant.valueOf id := by
    intro id apart
    simp [valueOf, setVariable, Ne.symm apart]
  -- a comparison that listens to what it reads finds the same or is told
  have heard : ∀ (c : ComparisonId) (comparison : Comparison), plant.comparisons[c]? = some comparison →
      comparison.Hears → (plant.setVariable v after).sample comparison = plant.sample comparison ∨
        Awaits more (.comparison c) := by
    intro c comparison found hears
    rcases told with same | told
    · rw [sample, sample, values_set_variable v var after there same]
      exact .inl rfl
    · by_cases reads : v ∈ comparison.relation.vars
      · obtain ⟨ticket, link⟩ := hears v reads
        have tied : (Node.var v, ticket) ∈ plant.tiesOf (.comparison c) := by
          simp only [tiesOf, found, Option.map_some, Option.getD_some, Comparison.ties]
          exact List.mem_map.mpr ⟨_, link, rfl⟩
        exact .inr (told c ⟨ticket, linked.tied _ _ _ tied⟩)
      · refine .inl (sample_congr _ _ _ fun id member => others id ?_)
        rintro rfl
        exact reads member
  refine ⟨?_, ?_, ?_⟩
  · intro c comparison found active
    rcases heard c comparison found (tuned.hears c comparison found active) with same | awaits
    · rw [same]
      exact (fresh.comparisons c comparison found active).imp_right (awaits_mono grows _)
    · exact .inr awaits
  · intro t trigger found active
    rcases fresh.triggers t trigger found active with truthful | awaits | ⟨child, member, awaits⟩
    · by_cases moved : ∃ child ∈ trigger.children, Awaits more (.comparison child)
      · exact .inr (.inr moved)
      · refine .inl (truthful_kept trigger (fun child member comparison known => ?_) truthful)
        obtain ⟨_, comparison', again, hears⟩ := tuned.follows t trigger found active child member
        cases known.symm.trans again
        refine ⟨comparison, known, rfl, ?_⟩
        exact (heard child comparison known hears).resolve_right fun awaits =>
          moved ⟨child, member, awaits⟩
    · exact .inr (.inl (awaits_mono grows _ awaits))
    · exact .inr (.inr ⟨child, member, awaits_mono grows _ awaits⟩)
  · intro t trigger found active
    exact (fresh.supplied t trigger found active).imp_right (grows _)

theorem fresh_add_variable (fresh : plant.Fresh jobs) (tuned : plant.Tuned) (var : Variable)
    (grows : ∀ job ∈ jobs, job ∈ more) : (plant.addVariable var).2.Fresh more := by
  have samples : ∀ (c : ComparisonId) (comparison : Comparison), plant.comparisons[c]? = some comparison →
      (plant.addVariable var).2.sample comparison = plant.sample comparison := by
    intro c comparison found
    refine sample_congr _ _ _ fun id member => ?_
    have inside := tuned.bound c comparison found id member
    simp [valueOf, addVariable, List.getElem?_append_left inside]
  refine ⟨?_, ?_, ?_⟩
  · intro c comparison found active
    rw [samples c comparison found]
    exact (fresh.comparisons c comparison found active).imp_right (awaits_mono grows _)
  · intro t trigger found active
    refine (fresh.triggers t trigger found active).imp (truthful_kept trigger ?_) ?_
    · intro child _ comparison known
      exact ⟨comparison, known, rfl, samples child comparison known⟩
    · refine Or.imp (awaits_mono grows _) ?_
      rintro ⟨child, member, awaits⟩
      exact ⟨child, member, awaits_mono grows _ awaits⟩
  · intro t trigger found active
    exact (fresh.supplied t trigger found active).imp_right (grows _)

theorem fresh_set_comparison (fresh : plant.Fresh jobs) (c : ComparisonId)
    (comparison after : Comparison) (there : plant.comparisons[c]? = some comparison)
    (expression : after.expression = comparison.expression)
    (relation : after.relation = comparison.relation)
    (shown : after.isActive = true → after.latest = plant.sample comparison ∨
      comparison.isActive = true ∧ after.latest = comparison.latest ∧ Awaits more (.comparison c))
    (told : ∀ (t : TriggerId) (trigger : Trigger), plant.triggers[t]? = some trigger →
      trigger.active = true → c ∈ trigger.children → Awaits jobs (.comparison c) →
        Awaits more (.comparison c) ∨ Awaits more (.trigger t))
    (grows : ∀ job ∈ jobs, job ∈ more ∨ ∃ notification, job = .deliver (.comparison c) notification) :
    (plant.setComparison c after).Fresh more := by
  have own := set_comparison_there plant c comparison after there
  have others := fun other => set_comparison_other plant c other after
  have sample_own : plant.sample after = plant.sample comparison := by rw [sample, sample, relation]
  have still : ∀ listener, listener ≠ .comparison c → Awaits jobs listener → Awaits more listener := by
    rintro listener apart ⟨notification, member⟩
    rcases grows _ member with kept | ⟨_, same⟩
    · exact ⟨notification, kept⟩
    · cases same
      exact absurd rfl apart
  refine ⟨?_, ?_, ?_⟩
  · intro other found known active
    by_cases same : other = c
    · subst same
      cases own.symm.trans known
      rcases shown active with true_now | ⟨_, _, awaits⟩
      · exact .inl (true_now.trans sample_own.symm)
      · exact .inr awaits
    · rw [others other same] at known
      exact (fresh.comparisons other found known active).imp_right (still _ (by simpa using same))
  · intro t trigger found active
    rcases fresh.triggers t trigger found active with truthful | awaits | ⟨child, member, awaits⟩
    · refine .inl (truthful_kept trigger (fun child _ known before => ?_) truthful)
      by_cases same : child = c
      · subst same
        cases there.symm.trans before
        exact ⟨after, own, expression, sample_own⟩
      · exact ⟨known, (others child same).trans before, rfl, rfl⟩
    · exact .inr (.inl (still _ (by simp) awaits))
    · by_cases same : child = c
      · subst same
        rcases told t trigger found active member awaits with later | passed
        · exact .inr (.inr ⟨child, member, later⟩)
        · exact .inr (.inl passed)
      · exact .inr (.inr ⟨child, member, still _ (by simpa using same) awaits⟩)
  · intro t trigger found active
    refine (fresh.supplied t trigger found active).imp_right fun due => ?_
    rcases grows _ due with kept | ⟨_, same⟩
    · exact kept
    · contradiction

theorem fresh_add_comparison (fresh : plant.Fresh jobs) (comparison : Comparison)
    (idle : comparison.isActive = false) (grows : ∀ job ∈ jobs, job ∈ more) :
    (plant.addComparison comparison).2.Fresh more := by
  refine ⟨?_, ?_, ?_⟩
  · intro c found there active
    simp only [addComparison, List.getElem?_append] at there
    split at there
    · exact (fresh.comparisons c found there active).imp_right (awaits_mono grows _)
    · rw [List.mem_singleton.mp (List.mem_of_getElem? there), idle] at active
      contradiction
  · intro t trigger found active
    refine (fresh.triggers t trigger found active).imp (truthful_kept trigger ?_) ?_
    · intro child _ known before
      have inside := (List.getElem?_eq_some_iff.mp before).1
      exact ⟨known, (List.getElem?_append_left inside).trans before, rfl, rfl⟩
    · refine Or.imp (awaits_mono grows _) ?_
      rintro ⟨child, member, awaits⟩
      exact ⟨child, member, awaits_mono grows _ awaits⟩
  · intro t trigger found active
    exact (fresh.supplied t trigger found active).imp_right (grows _)

theorem fresh_set_trigger (fresh : plant.Fresh jobs) (t : TriggerId) (trigger after : Trigger)
    (there : plant.triggers[t]? = some trigger)
    (truthful : after.active = true → plant.Truthful after ∨ Awaits more (.trigger t) ∨
      ∃ child ∈ after.children, Awaits more (.comparison child))
    (supplied : after.active = true → after.remaining ≠ 0 ∨ .exhaust t ∈ more)
    (grows : ∀ job ∈ jobs, job ∈ more ∨ (∃ notification, job = .deliver (.trigger t) notification) ∨
      job = .exhaust t) :
    (plant.setTrigger t after).Fresh more := by
  have own := set_trigger_there plant t trigger after there
  have others := fun other => set_trigger_other plant t other after
  have still : ∀ listener, listener ≠ .trigger t → Awaits jobs listener → Awaits more listener := by
    rintro listener apart ⟨notification, member⟩
    rcases grows _ member with kept | ⟨_, same⟩ | same
    · exact ⟨notification, kept⟩
    · cases same
      exact absurd rfl apart
    · contradiction
  refine ⟨?_, ?_, ?_⟩
  · intro c comparison found active
    exact (fresh.comparisons c comparison found active).imp_right (still _ (by simp))
  · intro other found known active
    by_cases same : other = t
    · subst same
      cases own.symm.trans known
      exact (truthful active).imp_left fun now => ⟨now.shows, now.signal⟩
    · rw [others other same] at known
      rcases fresh.triggers other found known active with now | awaits | ⟨child, member, awaits⟩
      · exact .inl ⟨now.shows, now.signal⟩
      · exact .inr (.inl (still _ (by simpa using same) awaits))
      · exact .inr (.inr ⟨child, member, still _ (by simp) awaits⟩)
  · intro other found known active
    by_cases same : other = t
    · subst same
      cases own.symm.trans known
      exact supplied active
    · rw [others other same] at known
      refine (fresh.supplied other found known active).imp_right fun due => ?_
      rcases grows _ due with kept | ⟨_, job⟩ | job
      · exact kept
      · contradiction
      · cases job
        exact absurd rfl same

theorem fresh_add_trigger (fresh : plant.Fresh jobs) (trigger : Trigger) (idle : trigger.active = false)
    (grows : ∀ job ∈ jobs, job ∈ more) : (plant.addTrigger trigger).2.Fresh more := by
  have old : ∀ (t : TriggerId) (found : Trigger), (plant.addTrigger trigger).2.triggers[t]? = some found →
      found.active = true → plant.triggers[t]? = some found := by
    intro t found there active
    simp only [addTrigger, List.getElem?_append] at there
    split at there
    · exact there
    · rw [List.mem_singleton.mp (List.mem_of_getElem? there), idle] at active
      contradiction
  refine ⟨?_, ?_, ?_⟩
  · intro c comparison found active
    exact (fresh.comparisons c comparison found active).imp_right (awaits_mono grows _)
  · intro t found there active
    refine (fresh.triggers t found (old t found there active) active).imp
      (fun now => ⟨now.shows, now.signal⟩) (Or.imp (awaits_mono grows _) ?_)
    rintro ⟨child, member, awaits⟩
    exact ⟨child, member, awaits_mono grows _ awaits⟩
  · intro t found there active
    exact (fresh.supplied t found (old t found there active) active).imp_right (grows _)

end

end Plant

end Interlock
