import Mathlib.Data.List.Nodup
import Interlock.Proofs.Plant.Quiescence

/-!
Tickets and subscriptions. Comparisons and triggers are subscribed with exactly the tickets that they
hold, and whoever lets go of its tickets leaves all other subscriptions as they are.
-/

set_option autoImplicit false

namespace Interlock

open Interlock.Graph

def Graph.Subscribers.ticketsOf (subscribers : Subscribers) (listener : Listener) : List Ticket :=
  subscribers.filterMap fun s => if s.listener = listener then some s.ticket else none

def ticketsFor (node : Node) (ties : List (Node × Ticket)) : List Ticket :=
  ties.filterMap fun tie => if tie.1 = node then some tie.2 else none

section

variable (subscribers : Subscribers) (ticket : Ticket) (listener : Listener)

theorem mem_tickets_of : ticket ∈ subscribers.ticketsOf listener ↔ ⟨ticket, listener⟩ ∈ subscribers := by
  simp only [Subscribers.ticketsOf, List.mem_filterMap, Option.ite_none_right_eq_some,
    Option.some.injEq]
  constructor
  · rintro ⟨s, member, rfl, rfl⟩
    exact member
  · exact fun member => ⟨_, member, rfl, rfl⟩

theorem tickets_of_add (other : Listener) : (subscribers.add ticket other).ticketsOf listener =
    subscribers.ticketsOf listener ++ if other = listener then [ticket] else [] := by
  rw [Subscribers.add, Subscribers.ticketsOf, List.filterMap_append]
  by_cases same : other = listener
  · simp [Subscribers.ticketsOf, same]
  · simp [Subscribers.ticketsOf, same]

theorem tickets_of_filter (stays : Subscriber → Bool)
    (each : ∀ s ∈ subscribers, s.listener = listener → stays s = true) :
    Subscribers.ticketsOf (subscribers.filter stays) listener = subscribers.ticketsOf listener := by
  rw [Subscribers.ticketsOf, Subscribers.ticketsOf, List.filterMap_filter]
  refine List.filterMap_congr fun s member => ?_
  by_cases own : s.listener = listener
  · rw [if_pos (each s member own)]
  · simp [own]

theorem tickets_of_none (stays : Subscriber → Bool)
    (each : ∀ s ∈ subscribers, s.listener = listener → stays s = false) :
    Subscribers.ticketsOf (subscribers.filter stays) listener = [] := by
  refine List.filterMap_eq_nil_iff.mpr fun s member => ?_
  obtain ⟨there, stays_there⟩ := List.mem_filter.mp member
  refine if_neg fun own => ?_
  rw [each s there own] at stays_there
  contradiction

theorem count_tickets_of : (subscribers.ticketsOf listener).length =
    subscribers.countP (fun s => s.listener == listener) := by
  induction subscribers with
  | nil => rfl
  | cons s rest ih =>
      rw [Subscribers.ticketsOf, List.filterMap_cons, List.countP_cons, ← ih]
      by_cases same : s.listener = listener
      · simp [same, Subscribers.ticketsOf]
      · simp [same, Subscribers.ticketsOf]

end

theorem mem_tickets_for (node : Node) (ties : List (Node × Ticket)) (ticket : Ticket) :
    ticket ∈ ticketsFor node ties ↔ (node, ticket) ∈ ties := by
  simp only [ticketsFor, List.mem_filterMap, Option.ite_none_right_eq_some, Option.some.injEq]
  constructor
  · rintro ⟨⟨_, _⟩, member, rfl, rfl⟩
    exact member
  · exact fun member => ⟨_, member, rfl, rfl⟩

theorem tickets_for_append (node : Node) (first second : List (Node × Ticket)) :
    ticketsFor node (first ++ second) = ticketsFor node first ++ ticketsFor node second :=
  List.filterMap_append

theorem count_tickets_for {Id : Type} [DecidableEq Id] (node : Id → Node) (injective : node.Injective)
    (id : Id) (links : List (Id × Ticket)) :
    (ticketsFor (node id) (links.map fun (other, ticket) => (node other, ticket))).length =
      (links.map Prod.fst).count id := by
  induction links with
  | nil => rfl
  | cons link rest ih =>
      rw [List.map_cons, List.map_cons, List.count_cons, ticketsFor, List.filterMap_cons, ← ih]
      by_cases same : link.1 = id
      · simp [same, ticketsFor]
      · have apart : node link.1 ≠ node id := fun also => same (injective also)
        simp [same, apart, ticketsFor]

namespace Plant

structure Ticketed (plant : Plant) (ties : Listener → List (Node × Ticket)) : Prop where
  single : ∀ node, ((plant.listeners node).map Subscriber.ticket).Nodup
  entries : ∀ node listener, listener.isShared = false →
    (plant.listeners node).ticketsOf listener = ticketsFor node (ties listener)

def Outside (plant next : Plant) : Prop :=
  ∀ node (o : ObserverId), (next.listeners node).ticketsOf (.observer o) =
    (plant.listeners node).ticketsOf (.observer o)

def Parts (gone : List (Node × Ticket)) (plant next : Plant) : Prop :=
  ∀ node, next.listeners node = (plant.listeners node).filter fun s => !gone.contains (node, s.ticket)

section

variable {plant middle next : Plant} {ties : Listener → List (Node × Ticket)} {listener : Listener}

theorem outside_same (listeners : next.listeners = plant.listeners) : Outside plant next := by
  intro node o
  rw [listeners]

theorem Outside.refl (plant : Plant) : Outside plant plant := fun _ _ => rfl

theorem Outside.trans (first : Outside plant middle) (second : Outside middle next) :
    Outside plant next := fun node o => (second node o).trans (first node o)

theorem ticketed_same (ticketed : plant.Ticketed ties) (listeners : next.listeners = plant.listeners) :
    next.Ticketed ties := by
  refine ⟨?_, ?_⟩
  · rw [listeners]
    exact ticketed.single
  · rw [listeners]
    exact ticketed.entries

theorem ticketed_mem (ticketed : plant.Ticketed ties) (node : Node) (inside : listener.isShared = false)
    (ticket : Ticket) : ⟨ticket, listener⟩ ∈ plant.listeners node ↔ (node, ticket) ∈ ties listener := by
  rw [← mem_tickets_of, ticketed.entries node listener inside, mem_tickets_for]

theorem ticketed_joins (ticketed : plant.Ticketed ties)
    (issued : ∀ node, ∀ s ∈ plant.listeners node, s.ticket < plant.tickets) (node : Node)
    (listener : Listener)
    (listeners : next.listeners = Function.update plant.listeners node
      ((plant.listeners node).add plant.tickets listener)) :
    (∀ other, ((next.listeners other).map Subscriber.ticket).Nodup) ∧
      ∀ other another, (next.listeners other).ticketsOf another =
        (plant.listeners other).ticketsOf another ++
          if other = node ∧ listener = another then [plant.tickets] else [] := by
  rw [listeners]
  refine ⟨fun other => ?_, fun other another => ?_⟩
  · by_cases same : other = node
    · subst same
      rw [Function.update_self, Subscribers.add, List.map_append]
      refine List.Nodup.append (ticketed.single other) (List.nodup_singleton _) ?_
      rw [List.map_singleton, List.disjoint_singleton]
      intro member
      obtain ⟨s, listens, old⟩ := List.mem_map.mp member
      exact absurd (issued other s listens) (Nat.not_lt.mpr (Nat.le_of_eq old.symm))
    · rw [Function.update_of_ne same]
      exact ticketed.single other
  · by_cases same : other = node
    · subst same
      rw [Function.update_self, tickets_of_add]
      simp only [true_and]
    · rw [Function.update_of_ne same]
      simp [same]

theorem ticketed_observer (ticketed : plant.Ticketed ties)
    (issued : ∀ node, ∀ s ∈ plant.listeners node, s.ticket < plant.tickets) (node : Node) (o : ObserverId)
    (listeners : next.listeners = Function.update plant.listeners node
      ((plant.listeners node).add plant.tickets (.observer o))) : next.Ticketed ties := by
  obtain ⟨single, added⟩ := ticketed_joins ticketed issued node (.observer o) listeners
  refine ⟨single, fun other another inside => ?_⟩
  have apart : Listener.observer o ≠ another := by
    rintro rfl
    contradiction
  rw [added, if_neg (fun both => apart both.2), List.append_nil]
  exact ticketed.entries other another inside

theorem ticketed_inner (ticketed : plant.Ticketed ties)
    (issued : ∀ node, ∀ s ∈ plant.listeners node, s.ticket < plant.tickets) (node : Node)
    (listener : Listener) (inside : listener.isShared = false)
    (listeners : next.listeners = Function.update plant.listeners node
      ((plant.listeners node).add plant.tickets listener)) :
    next.Ticketed (Function.update ties listener (ties listener ++ [(node, plant.tickets)])) ∧
      Outside plant next := by
  obtain ⟨single, added⟩ := ticketed_joins ticketed issued node listener listeners
  refine ⟨⟨single, fun other another alone => ?_⟩, fun other o => ?_⟩
  · rw [added, ticketed.entries other another alone]
    by_cases own : another = listener
    · subst own
      rw [Function.update_self, tickets_for_append]
      by_cases same : node = other
      · simp [ticketsFor, same]
      · simp [ticketsFor, same, Ne.symm same]
    · rw [Function.update_of_ne own, if_neg (fun both => own both.2.symm), List.append_nil]
  · have apart : listener ≠ .observer o := by
      rintro rfl
      contradiction
    rw [added, if_neg (fun both => apart both.2), List.append_nil]

theorem Parts.refl (plant : Plant) : Parts [] plant plant := by
  intro node
  simp

theorem Parts.trans {first second : List (Node × Ticket)} (parts : Parts first plant middle)
    (more : Parts second middle next) : Parts (first ++ second) plant next := by
  intro node
  rw [more, parts, List.filter_filter]
  refine List.filter_congr fun s _ => ?_
  simp [Bool.and_comm]

theorem parts_unsubscribe (node : Node) (ticket : Ticket)
    (listeners : next.listeners = Function.update plant.listeners node
      ((plant.listeners node).remove ticket)) : Parts [(node, ticket)] plant next := by
  intro other
  rw [listeners]
  by_cases same : other = node
  · subst same
    rw [Function.update_self, Subscribers.remove]
    refine List.filter_congr fun s _ => ?_
    simp [bne, beq_eq_decide]
  · rw [Function.update_of_ne same]
    simp [same]

theorem parts_unsubscribe_variable (plant : Plant) (v : VariableId) (ticket : Ticket) :
    Parts [(.var v, ticket)] plant (plant.unsubscribeVariable v ticket) := by
  apply parts_unsubscribe
  rw [unsubscribeVariable]
  split
  · next missing =>
      have silent : plant.listeners (.var v) = [] := by simp [listeners, subscribersOf, missing]
      rw [Function.eq_update_self_iff, silent]
      rfl
  · next var there =>
      rw [listeners_var v var there]
      exact listeners_set_variable v var _ there

theorem parts_unsubscribe_comparison (plant : Plant) (c : ComparisonId) (ticket : Ticket) :
    Parts [(.comparison c, ticket)] plant (plant.unsubscribeComparison c ticket) := by
  apply parts_unsubscribe
  rw [unsubscribeComparison]
  split
  · next missing =>
      have silent : plant.listeners (.comparison c) = [] := by simp [listeners, subscribersOf, missing]
      rw [Function.eq_update_self_iff, silent]
      rfl
  · next comparison there =>
      rw [listeners_comparison c comparison there]
      exact listeners_set_comparison c comparison _ there

theorem parts_foldl {Id : Type} (node : Id → Node) (leave : Plant → Id → Ticket → Plant)
    (each : ∀ plant id ticket, Parts [(node id, ticket)] plant (leave plant id ticket))
    (links : List (Id × Ticket)) (plant : Plant) :
    Parts (links.map fun (id, ticket) => (node id, ticket)) plant
      (links.foldl (fun plant (id, ticket) => leave plant id ticket) plant) := by
  induction links generalizing plant with
  | nil => exact .refl plant
  | cons link rest ih => exact (each plant link.1 link.2).trans (ih _)

theorem parts_others (ticketed : plant.Ticketed ties) (inside : listener.isShared = false)
    (parts : Parts (ties listener) plant next) (other : Listener) (apart : other ≠ listener) (node : Node) :
    (next.listeners node).ticketsOf other = (plant.listeners node).ticketsOf other := by
  rw [parts]
  refine tickets_of_filter _ _ _ fun s listens own => ?_
  simp only [Bool.not_eq_true', List.contains_eq_mem, decide_eq_false_iff_not]
  intro held
  have also := (ticketed_mem ticketed node inside s.ticket).mpr held
  have same := List.inj_on_of_nodup_map (ticketed.single node) listens also rfl
  rw [same] at own
  exact apart own.symm

theorem ticketed_parts (ticketed : plant.Ticketed ties) (inside : listener.isShared = false)
    (parts : Parts (ties listener) plant next) :
    next.Ticketed (Function.update ties listener []) ∧ Outside plant next := by
  have others := parts_others ticketed inside parts
  refine ⟨⟨fun node => ?_, fun node other alone => ?_⟩, fun node o => ?_⟩
  · rw [parts]
    exact (ticketed.single node).sublist (List.filter_sublist.map Subscriber.ticket)
  · by_cases own : other = listener
    · subst own
      rw [Function.update_self, parts]
      refine tickets_of_none _ _ _ fun s listens same => ?_
      have held := (ticketed_mem ticketed node inside s.ticket).mp (by rw [← same]; exact listens)
      simpa using held
    · rw [Function.update_of_ne own, others other own]
      exact ticketed.entries node other alone
  · refine others (.observer o) ?_ node
    rintro rfl
    contradiction

theorem ticketed_loose (ticketed : plant.Ticketed plant.tiesOf) (node : Node) (ticket : Ticket)
    (loose : plant.Loose node ticket) (parts : Parts [(node, ticket)] plant next) :
    next.Ticketed plant.tiesOf := by
  refine ⟨fun other => ?_, fun other another alone => ?_⟩
  · rw [parts]
    exact (ticketed.single other).sublist (List.filter_sublist.map Subscriber.ticket)
  · rw [← ticketed.entries other another alone, parts]
    refine tickets_of_filter _ _ _ fun s listens own => ?_
    simp only [Bool.not_eq_true', List.contains_eq_mem, List.mem_singleton, Prod.mk.injEq,
      decide_eq_false_iff_not]
    rintro ⟨rfl, rfl⟩
    have held := (ticketed_mem ticketed other alone s.ticket).mp (by rw [← own]; exact listens)
    exact loose another held

end

end Plant

end Interlock
