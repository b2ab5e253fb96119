import Interlock.Proofs.Plant.Balance
import Interlock.Proofs.Plant.Ripple

/-!
Handlers that only observe. Who hears of an event is told by who listens to whom; as long as all handlers
among them only observe, what the event causes changes no value and makes no one listen anew.
-/

set_option autoImplicit false

namespace Interlock

open Interlock.Calendar (Instant)
open Interlock.Graph
open Interlock.Schedule (Sequence)

def Graph.Listener.node? : Listener → Option Node
  | .comparison c => some (.comparison c)
  | .trigger t => some (.trigger t)
  | .observer _ | .follower _ _ => none

namespace Plant

def Tells (plant : Plant) (first second : Node) : Prop :=
  ∃ s ∈ plant.listeners first, s.listener.node? = some second

-- All handlers that hear of the node, directly or through others, only observe.
def Discreet (plant : Plant) (node : Node) : Prop :=
  ∀ reached, Relation.ReflTransGen plant.Tells node reached → ∀ s ∈ plant.listeners reached,
    ∀ o, s.listener = .observer o → ∀ observer ∈ plant.observers[o]?, observer.Passive

def Innocent (plant : Plant) : Listener → Prop
  | .observer o => ∀ observer ∈ plant.observers[o]?, observer.Passive
  | .comparison c => plant.Discreet (.comparison c)
  | .trigger t => plant.Discreet (.trigger t)
  | .follower _ _ => True

def Narrows (plant next : Plant) : Prop := ∀ node, ∀ s ∈ next.listeners node, s ∈ plant.listeners node

structure Eases (plant next : Plant) : Prop where
  desk : next.desk = plant.desk
  sequences : next.sequences = plant.sequences
  values : next.valueOf = plant.valueOf
  bound : Bound plant next
  observers : ∀ (o : ObserverId) (after : Observer), next.observers[o]? = some after →
    ∃ observer : Observer, plant.observers[o]? = some observer ∧ (observer.Passive → after.Passive)
  listeners : Narrows plant next

section

variable {plant middle next : Plant}

theorem discreet_innocent (node : Node) (discreet : plant.Discreet node) (s : Subscriber)
    (member : s ∈ plant.listeners node) : plant.Innocent s.listener := by
  have told : ∀ second, s.listener.node? = some second → plant.Discreet second :=
    fun second same reached path => discreet reached (.head ⟨s, member, same⟩ path)
  cases known : s.listener with
  | observer o => exact discreet node .refl s member o known
  | comparison c => exact told (.comparison c) (by rw [known]; rfl)
  | trigger t => exact told (.trigger t) (by rw [known]; rfl)
  | follower => trivial

theorem discreet_passive (passive : ∀ observer ∈ plant.observers, observer.Passive) (node : Node) :
    plant.Discreet node :=
  fun _ _ _ _ _ _ observer there => passive observer (List.mem_of_getElem? there)

theorem discreet_eases (eases : Eases plant next) (node : Node) (discreet : plant.Discreet node) :
    next.Discreet node := by
  intro reached path s member o same after there
  have fewer : ∀ first second, next.Tells first second → plant.Tells first second :=
    fun first second ⟨s, listens, leads⟩ => ⟨s, eases.listeners first s listens, leads⟩
  obtain ⟨observer, found, passive⟩ := eases.observers o after there
  exact passive (discreet reached (Relation.ReflTransGen.mono fewer _ _ path) s (eases.listeners reached s member) o same observer
    found)

theorem innocent_eases (eases : Eases plant next) (listener : Listener)
    (innocent : plant.Innocent listener) : next.Innocent listener := by
  cases listener with
  | observer o =>
      intro after there
      obtain ⟨observer, found, passive⟩ := eases.observers o after there
      exact passive (innocent observer found)
  | comparison c => exact discreet_eases eases _ innocent
  | trigger t => exact discreet_eases eases _ innocent
  | follower => trivial

theorem discreet_listeners (eases : Eases plant next) (node : Node) (discreet : plant.Discreet node) :
    ∀ listener ∈ (plant.listeners node).map Subscriber.listener, next.Innocent listener := by
  refine List.forall_mem_map.mpr fun s listens => ?_
  exact innocent_eases eases s.listener (discreet_innocent node discreet s listens)

theorem narrows_same (listeners : next.listeners = plant.listeners) : Narrows plant next := by
  intro node s member
  rw [listeners] at member
  exact member

theorem Narrows.refl (plant : Plant) : Narrows plant plant := narrows_same rfl

theorem Narrows.trans (first : Narrows plant middle) (second : Narrows middle next) :
    Narrows plant next := fun node s member => first node s (second node s member)

theorem narrows_parts {gone : List (Node × Ticket)} (parts : Parts gone plant next) :
    Narrows plant next := by
  intro node s member
  rw [parts] at member
  exact List.mem_of_mem_filter member

theorem narrows_foldl {α : Type} (step : Plant → α → Plant)
    (each : ∀ plant item, Narrows plant (step plant item)) (items : List α) (plant : Plant) :
    Narrows plant (items.foldl step plant) :=
  foldl_keeps (Narrows plant) step (fun next item narrows => narrows.trans (each next item)) items plant
    (.refl plant)

theorem narrows_deactivate_comparison (plant : Plant) (c : ComparisonId) :
    Narrows plant (plant.deactivateComparison c) := by
  rw [deactivateComparison]
  split
  · exact .refl plant
  · next comparison there =>
      have parts := parts_foldl .var unsubscribeVariable parts_unsubscribe_variable comparison.links plant
      obtain ⟨comparisons, _⟩ := retains_unsubscribe_variables comparison.links plant
      refine (narrows_parts parts).trans (narrows_same ?_)
      exact listeners_keep_comparison c comparison _ (by rw [comparisons, there]) rfl

theorem narrows_deactivate_trigger (plant : Plant) (t : TriggerId) :
    Narrows plant (plant.deactivateTrigger t) := by
  rw [deactivateTrigger]
  split
  · exact .refl plant
  · next trigger there =>
      split
      · have set := narrows_same (listeners_keep_trigger t trigger trigger.halted there rfl)
        have parts := parts_foldl .comparison unsubscribeComparison parts_unsubscribe_comparison
          trigger.links (plant.setTrigger t trigger.halted)
        have stopped := fun plant : Plant => narrows_foldl deactivateComparison
          narrows_deactivate_comparison trigger.children plant
        exact set.trans ((narrows_parts parts).trans ((stopped _).trans (narrows_same rfl)))
      · exact .refl plant

theorem eases_hushed (hushed : Hushed plant next) (bound : Bound plant next)
    (listeners : Narrows plant next) : Eases plant next :=
  ⟨hushed.desk, hushed.sequences, hushed.values, bound,
    fun _ after there => ⟨after, hushed.observers ▸ there, id⟩, listeners⟩

theorem eases_same (same : next.scene = plant.scene) : Eases plant next := by
  have hushed := hushed_same plant next same
  simp only [scene, Prod.mk.injEq] at same
  obtain ⟨_, _, _, vars, comparisons, triggers, _⟩ := same
  exact eases_hushed hushed (bound_refl _ _ comparisons)
    (narrows_same (listeners_same vars comparisons triggers))

theorem Eases.refl (plant : Plant) : Eases plant plant := eases_same rfl

theorem eases_log (plant : Plant) (part : Log.Part) (level : Log.Level) (message : String)
    (details : List (String × Json.Tree)) : Eases plant (plant.log part level message details) :=
  eases_hushed (hushed_log plant part level message details) (bound_refl _ _ rfl) (narrows_same rfl)

theorem Eases.trans (first : Eases plant middle) (second : Eases middle next) : Eases plant next where
  desk := second.desk.trans first.desk
  sequences := second.sequences.trans first.sequences
  values := second.values.trans first.values
  bound := bound_trans _ _ _ first.bound second.bound
  observers o after there := by
    obtain ⟨between, found, passive⟩ := second.observers o after there
    obtain ⟨observer, origin, before⟩ := first.observers o between found
    exact ⟨observer, origin, passive ∘ before⟩
  listeners := first.listeners.trans second.listeners

theorem eases_deactivate_trigger (plant : Plant) (t : TriggerId) :
    Eases plant (plant.deactivateTrigger t) := by
  have bound : Bound plant (plant.deactivateTrigger t) := by
    cases there : plant.triggers[t]? with
    | none =>
        rw [deactivateTrigger, there]
        exact bound_refl _ _ rfl
    | some trigger =>
        rcases deactivate_trigger_own plant t trigger there with ⟨_, same⟩ | sets
        · rw [same]
          exact bound_refl _ _ rfl
        · exact sets.comparisons
  exact eases_hushed (hushed_deactivate_trigger plant t) bound (narrows_deactivate_trigger plant t)

theorem eases_retire (plant : Plant) : Eases plant plant.retire := by
  refine retire_keeps (Eases plant) ?_ ?_ ?_ plant (.refl plant)
  · exact fun next t eases _ => eases.trans (eases_deactivate_trigger next t)
  · exact fun next c eases => eases.trans (eases_hushed (hushed_deactivate_comparison next c)
      (inert_deactivate_comparison next c).comparisons (narrows_deactivate_comparison next c))
  · intro next id eases
    refine eases.trans (eases_hushed (hushed_deactivate_device next id)
      (inert_deactivate_device next id).comparisons (narrows_same ?_))
    rw [deactivateDevice]
    split
    · rfl
    · split <;> rfl

theorem eases_exhaust (plant : Plant) (t : TriggerId) : Eases plant (plant.exhaust t) := by
  rw [exhaust]
  split
  · exact .refl plant
  · exact (eases_log _ _ _ _ _).trans (eases_deactivate_trigger _ t)

theorem eases_refresh (plant : Plant) (c : ComparisonId) (comparison : Comparison)
    (there : plant.comparisons[c]? = some comparison) (stamp : Instant) :
    Eases plant (plant.refresh c comparison stamp).2 :=
  eases_hushed (refresh_publishes plant c comparison there stamp).1
    (inert_refresh plant c comparison stamp there).comparisons
    (narrows_same (listeners_keep_comparison c comparison _ there rfl))

theorem eases_evaluate (plant : Plant) (t : TriggerId) (trigger : Trigger) (there : plant.triggers[t]? = some trigger)
    (compiled : trigger.Compiled) (stamp : Instant) : Eases plant (plant.evaluate t trigger stamp).2 := by
  obtain ⟨found, evaluated, published⟩ := evaluate_publishes plant t trigger there compiled stamp
  refine eases_hushed published.hushed published.bound ?_
  have subscribers := (evaluate_links trigger _ found evaluated).2
  obtain ⟨change, woken⟩ := wake_waiting_dispatch (plant.setTrigger t found.trigger) t
  have set := narrows_same (listeners_keep_trigger t trigger found.trigger there subscribers)
  rw [evaluate, evaluated]
  dsimp only
  rw [woken]
  split
  · exact set
  · exact set

theorem innocent_delivers (id : ObserverId) (observer : Observer) (notification : Notification)
    (there : plant.observers[id]? = some observer) (passive : observer.Passive) :
    ∃ after : Observer, after.label = observer.label ∧ after.Passive ∧
      plant.deliver (.observer id) notification =
        (plant.note (.notified observer.label notification)).setObserver id after := by
  rw [deliver, there]
  dsimp only
  rw [scriptOf]
  split
  · refine ⟨observer, rfl, passive, ?_⟩
    obtain ⟨inside, same⟩ := List.getElem?_eq_some_iff.mp there
    have kept : (plant.note (.notified observer.label notification)).observers.set id observer =
        plant.observers := by
      rw [← same]
      exact List.set_getElem_self inside
    rw [setObserver, kept]
    rfl
  · next remaining left =>
      have empty : observer.script = [] := passive.resolve_left (by simp [left])
      exact ⟨{ observer with remaining := remaining }, rfl, .inr empty, by rw [empty]; rfl⟩

theorem eases_observe (id : ObserverId) (notification : Notification)
    (innocent : plant.Innocent (.observer id)) :
    Eases plant (plant.deliver (.observer id) notification) := by
  cases there : plant.observers[id]? with
  | none =>
      rw [deliver, there]
      exact .refl plant
  | some observer =>
      obtain ⟨after, _, idle, delivered⟩ :=
        innocent_delivers id observer notification there (innocent observer there)
      rw [delivered]
      refine ⟨rfl, rfl, rfl, bound_refl _ _ rfl, fun o found known => ?_, narrows_same rfl⟩
      by_cases own : o = id
      · subst own
        have same := List.getElem?_set_self (a := after) (List.getElem?_eq_some_iff.mp there).1
        cases same.symm.trans known
        exact ⟨observer, there, fun _ => idle⟩
      · exact ⟨found, (List.getElem?_set_ne (Ne.symm own)).symm.trans known, fun same => same⟩

end

end Plant

end Interlock
