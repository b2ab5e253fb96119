import Mathlib.Logic.Function.Basic
import Interlock.Proofs.Plant.Calm

/-!
Who listens to whom. A ticket belongs to one subscription of a node; comparisons and triggers stay
subscribed as long as they hold their tickets, and no ticket that is kept under a name is one of these.
-/

set_option autoImplicit false

namespace Interlock

open Interlock.Graph

def Graph.Comparison.ties (comparison : Comparison) : List (Node × Ticket) :=
  comparison.links.map fun (var, ticket) => (.var var, ticket)

def Graph.Trigger.ties (trigger : Trigger) : List (Node × Ticket) :=
  trigger.links.map fun (child, ticket) => (.comparison child, ticket)

-- Comparisons listen to variables, triggers to comparisons, and handlers to any of them.
def Node.admits : Node → Listener → Bool
  | _, .observer _ => true
  | .var _, .comparison _ => true
  | .comparison _, .trigger _ => true
  | _, _ => false

namespace Plant

def listeners (plant : Plant) (node : Node) : Subscribers := plant.subscribersOf (.node node)

def tiesOf (plant : Plant) : Listener → List (Node × Ticket)
  | .comparison id => ((plant.comparisons[id]?).map Comparison.ties).getD []
  | .trigger id => ((plant.triggers[id]?).map Trigger.ties).getD []
  | .observer _ | .follower _ _ => []

structure Foreign (plant : Plant) (node : Node) (ticket : Ticket) : Prop where
  issued : ticket < plant.tickets
  shared : ∀ s ∈ plant.listeners node, s.ticket = ticket → s.listener.isShared = true

structure Linked (plant : Plant) : Prop where
  issued : ∀ node, ∀ s ∈ plant.listeners node, s.ticket < plant.tickets
  single : ∀ node, ∀ s ∈ plant.listeners node, ∀ r ∈ plant.listeners node, s.ticket = r.ticket → s = r
  tied : ∀ listener node ticket, (node, ticket) ∈ plant.tiesOf listener →
    ⟨ticket, listener⟩ ∈ plant.listeners node
  kept : ∀ node ticket, plant.Kept node ticket → plant.Foreign node ticket
  layered : ∀ node, ∀ s ∈ plant.listeners node, node.admits s.listener = true

section

variable {plant next : Plant}

theorem linked_blank (start : Calendar.Instant) (hasRuntime : Bool) :
    (Plant.blank start hasRuntime).Linked := by
  have silent : ∀ node, (Plant.blank start hasRuntime).listeners node = [] := by
    intro node
    cases node <;> rfl
  have untied : ∀ listener, (Plant.blank start hasRuntime).tiesOf listener = [] := by
    intro listener
    cases listener <;> rfl
  refine ⟨?_, ?_, ?_, ?_, ?_⟩
  · simp [silent]
  · simp [silent]
  · simp [untied]
  · rintro node ticket (⟨name, member⟩ | ⟨job, member, _⟩)
    · simp [Plant.blank, Desk.blank] at member
    · simp [Plant.blank] at member
  · simp [silent]

theorem linked_ties (linked : plant.Linked) (tickets : plant.tickets ≤ next.tickets)
    (listeners : next.listeners = plant.listeners)
    (ties : ∀ listener node ticket, (node, ticket) ∈ next.tiesOf listener →
      (node, ticket) ∈ plant.tiesOf listener ∨ ⟨ticket, listener⟩ ∈ plant.listeners node)
    (kept : ∀ node ticket, next.Kept node ticket → plant.Kept node ticket) : next.Linked where
  issued node s member := by
    rw [listeners] at member
    exact Nat.lt_of_lt_of_le (linked.issued node s member) tickets
  single node := by
    rw [listeners]
    exact linked.single node
  tied listener node ticket member := by
    rw [listeners]
    rcases ties listener node ticket member with old | new
    · exact linked.tied listener node ticket old
    · exact new
  kept node ticket held := by
    obtain ⟨old, foreign⟩ := linked.kept node ticket (kept node ticket held)
    refine ⟨Nat.lt_of_lt_of_le old tickets, ?_⟩
    rw [listeners]
    exact foreign
  layered node := by
    rw [listeners]
    exact linked.layered node

theorem joined_listener (node : Node) (listener : Listener)
    (listeners : next.listeners = Function.update plant.listeners node
      ((plant.listeners node).add plant.tickets listener)) :
    ⟨plant.tickets, listener⟩ ∈ next.listeners node ∧
      ∀ other s, s ∈ plant.listeners other → s ∈ next.listeners other := by
  rw [listeners]
  refine ⟨?_, fun other s member => ?_⟩
  · rw [Function.update_self]
    exact List.mem_append_right _ (List.mem_singleton.mpr rfl)
  · by_cases same : other = node
    · subst same
      rw [Function.update_self]
      exact List.mem_append_left _ member
    · rw [Function.update_of_ne same]
      exact member

theorem linked_joins (linked : plant.Linked) (node : Node) (listener : Listener)
    (admitted : node.admits listener = true)
    (tickets : next.tickets = plant.tickets + 1)
    (listeners : next.listeners = Function.update plant.listeners node
      ((plant.listeners node).add plant.tickets listener))
    (ties : next.tiesOf = plant.tiesOf)
    (kept : ∀ node ticket, next.Kept node ticket → plant.Kept node ticket) : next.Linked := by
  have joined : ∀ other s, s ∈ next.listeners other →
      s ∈ plant.listeners other ∨ other = node ∧ s = ⟨plant.tickets, listener⟩ := by
    intro other s member
    rw [listeners] at member
    by_cases same : other = node
    · subst same
      rw [Function.update_self, Subscribers.add, List.mem_append, List.mem_singleton] at member
      exact member.imp_right fun new => ⟨rfl, new⟩
    · rw [Function.update_of_ne same] at member
      exact .inl member
  obtain ⟨_, stays⟩ := joined_listener node listener listeners
  refine ⟨?_, ?_, ?_, ?_, ?_⟩
  · intro other s member
    rw [tickets]
    rcases joined other s member with old | ⟨_, rfl⟩
    · exact Nat.lt_succ_of_lt (linked.issued other s old)
    · exact Nat.lt_succ_self _
  · intro other s first r second same
    rcases joined other s first with old | ⟨_, rfl⟩
    · rcases joined other r second with older | ⟨_, rfl⟩
      · exact linked.single other s old r older same
      · exact absurd same (Nat.ne_of_lt (linked.issued other s old))
    · rcases joined other r second with older | ⟨_, rfl⟩
      · exact absurd same.symm (Nat.ne_of_lt (linked.issued other r older))
      · rfl
  · intro other node ticket member
    rw [ties] at member
    exact stays node _ (linked.tied other node ticket member)
  · intro other ticket held
    obtain ⟨old, foreign⟩ := linked.kept other ticket (kept other ticket held)
    refine ⟨tickets ▸ Nat.lt_succ_of_lt old, fun s member same => ?_⟩
    rcases joined other s member with there | ⟨_, rfl⟩
    · exact foreign s there same
    · exact absurd same.symm (Nat.ne_of_lt old)
  · intro other s member
    rcases joined other s member with old | ⟨rfl, rfl⟩
    · exact linked.layered other s old
    · exact admitted

theorem linked_parts (linked : plant.Linked) (node : Node) (ticket : Ticket)
    (tickets : next.tickets = plant.tickets)
    (listeners : next.listeners = Function.update plant.listeners node
      ((plant.listeners node).remove ticket))
    (ties : next.tiesOf = plant.tiesOf) (loose : ∀ listener, (node, ticket) ∉ plant.tiesOf listener)
    (kept : ∀ node ticket, next.Kept node ticket → plant.Kept node ticket) : next.Linked := by
  have before : ∀ other s, s ∈ next.listeners other → s ∈ plant.listeners other := by
    intro other s member
    rw [listeners] at member
    by_cases same : other = node
    · subst same
      rw [Function.update_self] at member
      exact (List.filter_sublist).subset member
    · rw [Function.update_of_ne same] at member
      exact member
  refine ⟨?_, ?_, ?_, ?_, ?_⟩
  · intro other s member
    rw [tickets]
    exact linked.issued other s (before other s member)
  · intro other s first r second
    exact linked.single other s (before other s first) r (before other r second)
  · intro listener other tied member
    rw [ties] at member
    have there := linked.tied listener other tied member
    rw [listeners]
    by_cases same : other = node
    · subst same
      rw [Function.update_self, Subscribers.remove, List.mem_filter]
      refine ⟨there, ?_⟩
      rw [bne_iff_ne]
      rintro rfl
      exact loose listener member
    · rw [Function.update_of_ne same]
      exact there
  · intro other kept_ticket held
    obtain ⟨old, foreign⟩ := linked.kept other kept_ticket (kept other kept_ticket held)
    exact ⟨tickets ▸ old, fun s member => foreign s (before other s member)⟩
  · exact fun other s member => linked.layered other s (before other s member)

theorem kept_loose (linked : plant.Linked) (node : Node) (ticket : Ticket)
    (kept : plant.Kept node ticket) (listener : Listener) : (node, ticket) ∉ plant.tiesOf listener := by
  intro member
  have shared := (linked.kept node ticket kept).shared _ (linked.tied listener node ticket member) rfl
  cases listener with
  | observer | follower => simp [tiesOf] at member
  | comparison | trigger => simp [Listener.isShared] at shared

theorem tied_alone (linked : plant.Linked) (node : Node) (ticket : Ticket) (listener other : Listener)
    (own : (node, ticket) ∈ plant.tiesOf listener) (held : (node, ticket) ∈ plant.tiesOf other) :
    other = listener := by
  have same := linked.single node _ (linked.tied other node ticket held) _
    (linked.tied listener node ticket own) rfl
  exact congrArg Subscriber.listener same

theorem listeners_same (vars : next.vars = plant.vars) (comparisons : next.comparisons = plant.comparisons)
    (triggers : next.triggers = plant.triggers) : next.listeners = plant.listeners := by
  funext node
  cases node <;> simp only [listeners, subscribersOf, vars, comparisons, triggers]

theorem ties_same (comparisons : next.comparisons = plant.comparisons)
    (triggers : next.triggers = plant.triggers) : next.tiesOf = plant.tiesOf := by
  funext listener
  cases listener <;> simp only [tiesOf, comparisons, triggers]

theorem set_comparison_there (plant : Plant) (c : ComparisonId) (comparison after : Comparison)
    (there : plant.comparisons[c]? = some comparison) :
    (plant.setComparison c after).comparisons[c]? = some after :=
  List.getElem?_set_self (List.getElem?_eq_some_iff.mp there).1

theorem set_comparison_other (plant : Plant) (c other : ComparisonId) (after : Comparison)
    (apart : other ≠ c) : (plant.setComparison c after).comparisons[other]? = plant.comparisons[other]? :=
  List.getElem?_set_ne (Ne.symm apart)

theorem listeners_set_variable (v : VariableId) (var after : Variable)
    (there : plant.vars[v]? = some var) :
    (plant.setVariable v after).listeners =
      Function.update plant.listeners (.var v) after.subscribers := by
  obtain ⟨inside, _⟩ := List.getElem?_eq_some_iff.mp there
  funext node
  cases node with
  | var id =>
      by_cases same : id = v
      · subst same
        simp [listeners, subscribersOf, setVariable, inside]
      · have apart : v ≠ id := fun own => same own.symm
        simp [listeners, subscribersOf, setVariable, same, apart]
  | comparison | trigger => rfl

theorem listeners_set_comparison (c : ComparisonId) (comparison after : Comparison)
    (there : plant.comparisons[c]? = some comparison) :
    (plant.setComparison c after).listeners =
      Function.update plant.listeners (.comparison c) after.subscribers := by
  obtain ⟨inside, _⟩ := List.getElem?_eq_some_iff.mp there
  funext node
  cases node with
  | comparison id =>
      by_cases same : id = c
      · subst same
        simp [listeners, subscribersOf, setComparison, inside]
      · have apart : c ≠ id := fun own => same own.symm
        simp [listeners, subscribersOf, setComparison, same, apart]
  | var | trigger => rfl

theorem listeners_set_trigger (t : TriggerId) (trigger after : Trigger)
    (there : plant.triggers[t]? = some trigger) :
    (plant.setTrigger t after).listeners =
      Function.update plant.listeners (.trigger t) after.subscribers := by
  obtain ⟨inside, _⟩ := List.getElem?_eq_some_iff.mp there
  funext node
  cases node with
  | trigger id =>
      by_cases same : id = t
      · subst same
        simp [listeners, subscribersOf, setTrigger, inside]
      · have apart : t ≠ id := fun own => same own.symm
        simp [listeners, subscribersOf, setTrigger, same, apart]
  | var | comparison => rfl

theorem ties_set_comparison (c : ComparisonId) (comparison after : Comparison)
    (there : plant.comparisons[c]? = some comparison) :
    (plant.setComparison c after).tiesOf =
      Function.update plant.tiesOf (.comparison c) after.ties := by
  obtain ⟨inside, _⟩ := List.getElem?_eq_some_iff.mp there
  funext listener
  cases listener with
  | comparison id =>
      by_cases same : id = c
      · subst same
        simp [tiesOf, setComparison, inside]
      · have apart : c ≠ id := fun own => same own.symm
        simp [tiesOf, setComparison, same, apart]
  | observer | trigger | follower => rfl

theorem ties_set_trigger (t : TriggerId) (trigger after : Trigger)
    (there : plant.triggers[t]? = some trigger) :
    (plant.setTrigger t after).tiesOf = Function.update plant.tiesOf (.trigger t) after.ties := by
  obtain ⟨inside, _⟩ := List.getElem?_eq_some_iff.mp there
  funext listener
  cases listener with
  | trigger id =>
      by_cases same : id = t
      · subst same
        simp [tiesOf, setTrigger, inside]
      · have apart : t ≠ id := fun own => same own.symm
        simp [tiesOf, setTrigger, same, apart]
  | observer | comparison | follower => rfl

theorem listeners_var (v : VariableId) (var : Variable) (there : plant.vars[v]? = some var) :
    plant.listeners (.var v) = var.subscribers := by
  simp [listeners, subscribersOf, there]

theorem listeners_comparison (c : ComparisonId) (comparison : Comparison)
    (there : plant.comparisons[c]? = some comparison) :
    plant.listeners (.comparison c) = comparison.subscribers := by
  simp [listeners, subscribersOf, there]

theorem listeners_trigger (t : TriggerId) (trigger : Trigger)
    (there : plant.triggers[t]? = some trigger) :
    plant.listeners (.trigger t) = trigger.subscribers := by
  simp [listeners, subscribersOf, there]

theorem ties_comparison (c : ComparisonId) (comparison : Comparison)
    (there : plant.comparisons[c]? = some comparison) :
    plant.tiesOf (.comparison c) = comparison.ties := by
  simp [tiesOf, there]

theorem ties_trigger (t : TriggerId) (trigger : Trigger) (there : plant.triggers[t]? = some trigger) :
    plant.tiesOf (.trigger t) = trigger.ties := by
  simp [tiesOf, there]

end

end Plant

end Interlock
