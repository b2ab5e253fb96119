import Mathlib.Data.List.Basic
import Interlock.Proofs.Formula.Binding
import Interlock.Proofs.Plant.Conduct

/-!
How a trigger hangs together with its children. They compare one for one what its condition names, so
an evaluation finds the truth of the expression on the values of the moment.
-/

set_option autoImplicit false

namespace Interlock

open Interlock.Formula (Condition EvaluationError)
open Interlock.Graph

def Graph.Trigger.core (trigger : Trigger) : Trigger :=
  { trigger with links := [], signal := false, sends := 0, verbose := false, subscribers := [] }

structure Graph.Trigger.Alike (after trigger : Trigger) : Prop where
  expression : after.expression = trigger.expression
  condition : after.condition = trigger.condition
  children : after.children = trigger.children
  latest : after.latest = trigger.latest
  remaining : after.remaining = trigger.remaining
  limit : after.limit = trigger.limit
  active : after.active = trigger.active

theorem core_alike {after trigger : Trigger} (same : after.core = trigger.core) :
    after.Alike trigger := by
  simp only [Trigger.core, Trigger.mk.injEq] at same
  obtain ⟨expression, _, condition, children, _, latest, _, _, remaining, limit, active, _⟩ := same
  exact ⟨expression, condition, children, latest, remaining, limit, active⟩

-- The condition is that of the expression, whatever its comparisons are bound to.
def Graph.Trigger.Compiled (trigger : Trigger) : Prop :=
  ∃ condition truths, Trigger.compile trigger.expression = .ok condition ∧
    trigger.condition = condition.map fun condition => condition.bindList truths

theorem compiled_created (expression : String) (condition : Option Condition)
    (compiled : Trigger.compile expression = .ok condition) (table : TableId)
    (children : List ComparisonId) (times : Int) :
    (Trigger.create expression table condition children times).Compiled := by
  refine ⟨condition, [], compiled, ?_⟩
  cases condition with
  | none => rfl
  | some condition => rfl

theorem compiled_same (trigger after : Trigger) (expression : after.expression = trigger.expression)
    (condition : after.condition = trigger.condition) (compiled : trigger.Compiled) :
    after.Compiled := by
  rw [Trigger.Compiled, expression, condition]
  exact compiled

theorem compiled_clear (trigger : Trigger) (compiled : trigger.Compiled) (condition : Condition)
    (there : trigger.condition = some condition) (atom : String) (member : atom ∈ condition.atoms) :
    Text.stripBlanks atom.toList = atom.toList := by
  obtain ⟨origin, truths, made, bound⟩ := compiled
  rw [bound] at there
  obtain ⟨found, rfl, rfl⟩ := Option.map_eq_some_iff.mp there
  rw [Condition.bind_list_atoms] at member
  unfold Trigger.compile at made
  split at made
  · cases made
  · split at made
    · rename_i first made_first
      cases made
      exact Formula.compiled_atoms_clear trigger.expression found made_first atom member
    · contradiction

theorem bind_children_atoms (trigger : Trigger) (truths : List (String × Bool)) :
    (trigger.bindChildren truths).atoms = trigger.atoms := by
  unfold Trigger.atoms Trigger.bindChildren
  cases trigger.condition with
  | none => rfl
  | some condition => exact Condition.bind_list_atoms condition truths

theorem bind_children_compiled (trigger : Trigger) (truths : List (String × Bool))
    (compiled : trigger.Compiled) : (trigger.bindChildren truths).Compiled := by
  obtain ⟨origin, before, made, bound⟩ := compiled
  refine ⟨origin, before ++ truths, made, ?_⟩
  cases origin with
  | none => simp [Trigger.bindChildren, bound]
  | some condition => simp [Trigger.bindChildren, bound, Condition.bindList]

theorem evaluate_found (trigger : Trigger) (truths : List (String × Bool))
    (found : Trigger.Evaluation) (evaluated : trigger.evaluate truths = .ok found) :
    ∃ value, (trigger.bindChildren truths).truth = .ok value ∧
      ((value = trigger.latest ∧
          found = ⟨(trigger.bindChildren truths).send value, .updated, false⟩) ∨
        (value ≠ trigger.latest ∧
          found =
            ⟨{ trigger.bindChildren truths with
                latest := value,
                remaining :=
                  if trigger.active then trigger.remaining - 1 else trigger.remaining }.send value,
              .changed,
              trigger.active &&
                (if trigger.active then trigger.remaining - 1 else trigger.remaining) == 0⟩)) := by
  unfold Trigger.evaluate at evaluated
  dsimp only at evaluated
  cases truth : (trigger.bindChildren truths).truth with
  | error error =>
      rw [truth] at evaluated
      contradiction
  | ok value =>
      rw [truth] at evaluated
      refine ⟨value, rfl, ?_⟩
      dsimp only at evaluated
      split at evaluated
      · rename_i same
        cases evaluated
        exact .inl ⟨same, rfl⟩
      · rename_i moved
        cases evaluated
        exact .inr ⟨moved, rfl⟩

theorem evaluate_keeps (trigger : Trigger) (truths : List (String × Bool))
    (found : Trigger.Evaluation) (evaluated : trigger.evaluate truths = .ok found) :
    (trigger.bindChildren truths).truth = .ok found.trigger.latest ∧
      found.trigger.condition = (trigger.bindChildren truths).condition ∧
      found.trigger.children = trigger.children ∧ found.trigger.limit = trigger.limit ∧
      found.trigger.active = trigger.active := by
  obtain ⟨value, truth, ⟨same, rfl⟩ | ⟨moved, rfl⟩⟩ := evaluate_found trigger truths found evaluated
  · exact ⟨same ▸ truth, rfl, rfl, rfl, rfl⟩
  · exact ⟨truth, rfl, rfl, rfl, rfl⟩

theorem evaluate_expression (trigger : Trigger) (truths : List (String × Bool))
    (found : Trigger.Evaluation) (evaluated : trigger.evaluate truths = .ok found) :
    found.trigger.expression = trigger.expression := by
  obtain ⟨_, _, ⟨_, rfl⟩ | ⟨_, rfl⟩⟩ := evaluate_found trigger truths found evaluated
  · rfl
  · rfl

namespace Plant

def expressionOf (plant : Plant) (child : ComparisonId) : Option String :=
  (plant.comparisons[child]?).map fun comparison => comparison.expression

-- The children compare what the condition names, in its order.
def Wired (plant : Plant) (trigger : Trigger) : Prop :=
  trigger.children.map plant.expressionOf = trigger.atoms.map some

theorem wired_truths (plant : Plant) (trigger : Trigger) (wired : plant.Wired trigger) :
    (plant.truths trigger.children).map Prod.fst = trigger.atoms := by
  have listed : ∀ (children : List ComparisonId) (atoms : List String),
      children.map plant.expressionOf = atoms.map some →
        (plant.truths children).map Prod.fst = atoms := by
    intro children
    induction children with
    | nil =>
        intro atoms same
        cases atoms with
        | nil => rfl
        | cons => contradiction
    | cons child rest ih =>
        intro atoms same
        cases atoms with
        | nil => contradiction
        | cons atom more =>
            obtain ⟨first, others⟩ := List.cons.inj same
            obtain ⟨comparison, there, rfl⟩ := Option.map_eq_some_iff.mp first
            have later := ih more others
            unfold truths at later ⊢
            rw [List.filterMap_cons, there]
            simp [later]
  exact listed trigger.children trigger.atoms wired

theorem bound_expression (plant next : Plant) (bound : Bound plant next) (child : ComparisonId)
    (expression : String) (there : plant.expressionOf child = some expression) :
    next.expressionOf child = some expression := by
  obtain ⟨comparison, found, rfl⟩ := Option.map_eq_some_iff.mp there
  obtain ⟨after, still, same, _⟩ := bound child comparison found
  simp [expressionOf, still, same]

theorem bound_expressions (plant next : Plant) (bound : Bound plant next)
    (children : List ComparisonId) (atoms : List String)
    (there : children.map plant.expressionOf = atoms.map some) :
    children.map next.expressionOf = atoms.map some := by
  induction children generalizing atoms with
  | nil => exact there
  | cons child rest ih =>
      cases atoms with
      | nil => contradiction
      | cons atom more =>
          obtain ⟨first, others⟩ := List.cons.inj there
          rw [List.map_cons, List.map_cons, ih more others,
            bound_expression plant next bound child atom first]

theorem wired_bound (plant next : Plant) (bound : Bound plant next) (trigger : Trigger)
    (wired : plant.Wired trigger) : next.Wired trigger :=
  bound_expressions plant next bound trigger.children trigger.atoms wired

theorem wired_same (plant : Plant) (trigger after : Trigger) (children : after.children = trigger.children)
    (atoms : after.atoms = trigger.atoms) (wired : plant.Wired trigger) : plant.Wired after := by
  rw [Wired, children, atoms]
  exact wired

theorem made_comparison_expression (plant : Plant) (table : TableId) (atom : String)
    (id : ComparisonId) (next : Plant) (made : plant.makeComparison table atom = .ok (id, next)) :
    next.expressionOf id = some (String.ofList (Text.stripBlanks atom.toList)) := by
  obtain ⟨_, _, rfl, rfl⟩ := comparison_made made
  simp [expressionOf, addComparison, readClock, Comparison.create, strip]

theorem made_comparisons_expressions (plant : Plant) (table : TableId) (atoms : List String)
    (ids : List ComparisonId) (next : Plant)
    (made : plant.makeComparisons table atoms = .ok (ids, next))
    (clear : ∀ atom ∈ atoms, Text.stripBlanks atom.toList = atom.toList) :
    ids.map next.expressionOf = atoms.map some := by
  induction atoms generalizing plant ids with
  | nil =>
      cases made
      rfl
  | cons atom rest ih =>
      obtain ⟨id, after, others, first, later, rfl⟩ := comparisons_made made
      have bound := (inert_make_comparisons after table rest others _ later).comparisons
      have named := made_comparison_expression plant table atom id after first
      rw [clear atom (by simp), String.ofList_toList] at named
      rw [List.map_cons, List.map_cons, bound_expression after _ bound id atom named]
      rw [ih after others later fun other member => clear other (by simp [member])]

theorem children_of_wired (plant : Plant) (trigger : Trigger) (children : List ComparisonId)
    (next : Plant) (made : plant.childrenOf trigger = .ok (children, next)) (compiled : trigger.Compiled)
    (wired : trigger.children ≠ [] → plant.Wired trigger) :
    next.Wired { trigger with children := children } := by
  obtain ⟨_, built⟩ | ⟨filled, rfl, rfl⟩ := children_made made
  · refine made_comparisons_expressions plant trigger.table trigger.atoms children next built ?_
    intro atom member
    unfold Trigger.atoms at member
    split at member
    · rename_i condition there
      exact compiled_clear trigger compiled condition there atom member
    · contradiction
  · exact wired filled

-- The expression of a trigger is true on the values that its variables have now. A blank one is true.
def Fulfils (plant : Plant) (trigger : Trigger) : Prop :=
  ∃ compiled, Trigger.compile trigger.expression = .ok compiled ∧
    ∀ condition ∈ compiled, plant.Wired trigger ∧
      condition.evaluateWith (fun atom => (plant.truths trigger.children).lookup atom) = .ok true

theorem evaluate_fulfils (plant : Plant) (trigger : Trigger) (found : Trigger.Evaluation)
    (compiled : trigger.Compiled) (wired : plant.Wired trigger)
    (evaluated : trigger.evaluate (plant.truths trigger.children) = .ok found)
    (true_found : found.trigger.latest = true) : plant.Fulfils found.trigger := by
  obtain ⟨truth, condition, children, _, _⟩ := evaluate_keeps trigger _ found evaluated
  obtain ⟨origin, before, made, bound⟩ := compiled
  refine ⟨origin, by rw [evaluate_expression trigger _ found evaluated, made], ?_⟩
  intro stated member
  have there : trigger.condition = some (stated.bindList before) := by
    rw [bound, Option.mem_def.mp member]
    rfl
  have atoms : trigger.atoms = (stated.bindList before).atoms := by
    unfold Trigger.atoms
    rw [there]
  have each := (wired_truths plant trigger wired).trans atoms
  refine ⟨?_, ?_⟩
  · refine wired_same plant trigger found.trigger children ?_ wired
    have kept := bind_children_atoms trigger (plant.truths trigger.children)
    unfold Trigger.atoms at kept ⊢
    rw [condition]
    exact kept
  · rw [children, ← Condition.evaluate_with_bind_list stated before, Condition.evaluateWith,
      ← Condition.bind_list_all _ _ each, ← true_found]
    have bound_truth : (trigger.bindChildren (plant.truths trigger.children)).truth =
        ((stated.bindList before).bindList (plant.truths trigger.children)).evaluate := by
      simp [Trigger.truth, Trigger.bindChildren, there, Condition.bindList]
    rw [← bound_truth, truth]

theorem fulfils_same (plant next : Plant) (trigger after : Trigger) (same : after.core = trigger.core)
    (values : next.valueOf = plant.valueOf) (bound : Bound plant next)
    (fulfils : plant.Fulfils trigger) : next.Fulfils after := by
  have conditions := (core_alike same).condition
  have children := (core_alike same).children
  obtain ⟨compiled, made, fulfils⟩ := fulfils
  refine ⟨compiled, by rw [(core_alike same).expression, made], ?_⟩
  intro condition member
  obtain ⟨wired, holds⟩ := fulfils condition member
  have truths : next.truths trigger.children = plant.truths trigger.children := by
    have listed : ∀ child ∈ trigger.children, (plant.expressionOf child).isSome = true := by
      intro child inside
      have mapped := List.mem_map_of_mem (f := plant.expressionOf) inside
      rw [wired] at mapped
      obtain ⟨atom, _, found⟩ := List.mem_map.mp mapped
      rw [← found]
      rfl
    unfold Plant.truths
    refine List.filterMap_congr fun child inside => ?_
    have known := listed child inside
    rw [expressionOf, Option.isSome_map] at known
    obtain ⟨comparison, found⟩ := Option.isSome_iff_exists.mp known
    obtain ⟨later, still, expression, relation⟩ := bound child comparison found
    simp [found, still, expression, sample, relation, values]
  refine ⟨wired_same next trigger after children ?_ (wired_bound plant next bound trigger wired), ?_⟩
  · unfold Trigger.atoms
    rw [conditions]
  · rw [children, truths]
    exact holds

end Plant

end Interlock
