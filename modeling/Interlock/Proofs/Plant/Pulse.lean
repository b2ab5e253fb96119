import Interlock.Proofs.Plant.Sparing

/-!
What moves a trigger: evaluations, rearming, and the beginning and end of its activity.
-/

set_option autoImplicit false

namespace Interlock

open Interlock.Calendar (Instant)
open Interlock.Formula (EvaluationError)
open Interlock.Graph
open Interlock.Schedule (Sequence SequenceId)

def Graph.Trigger.halted (trigger : Trigger) : Trigger :=
  { trigger with active := false, links := [], children := [] }

namespace Plant

def Sets (t : TriggerId) (plant : Plant) (trigger : Trigger) (next : Plant) : Prop :=
  Inert (plant.setTrigger t trigger) next

theorem set_trigger_there (plant : Plant) (t : TriggerId) (trigger after : Trigger)
    (there : plant.triggers[t]? = some trigger) :
    (plant.setTrigger t after).triggers[t]? = some after := by
  have inside := (List.getElem?_eq_some_iff.mp there).1
  simp [setTrigger, inside]

theorem set_trigger_other (plant : Plant) (t other : TriggerId) (after : Trigger) (apart : other ≠ t) :
    (plant.setTrigger t after).triggers[other]? = plant.triggers[other]? :=
  List.getElem?_set_ne (Ne.symm apart)

theorem sets_there (plant next : Plant) (t : TriggerId) (trigger after : Trigger)
    (there : plant.triggers[t]? = some trigger) (sets : Sets t plant after next) :
    next.triggers[t]? = some after := by
  rw [sets.triggers]
  exact set_trigger_there plant t trigger after there

theorem foldl_keeps {α : Type} (kept : Plant → Prop) (step : Plant → α → Plant)
    (each : ∀ plant item, kept plant → kept (step plant item)) (items : List α) (plant : Plant)
    (start : kept plant) : kept (items.foldl step plant) := by
  induction items generalizing plant with
  | nil => exact start
  | cons item rest ih => exact ih _ (each plant item start)

theorem wake_waiting_dispatch (plant : Plant) (t : TriggerId) :
    ∃ change, plant.wakeWaiting t = plant.dispatch change := by
  rw [wakeWaiting]
  refine foldl_keeps (fun next => ∃ change, next = plant.dispatch change) _ ?_ _ plant ⟨id, rfl⟩
  rintro next ⟨sequence, place⟩ ⟨change, rfl⟩
  dsimp only
  split
  · split
    · exact ⟨fun dispatcher => (change dispatcher).enqueue (.sequence place), rfl⟩
    · exact ⟨change, rfl⟩
  · exact ⟨change, rfl⟩

structure Evaluated (t : TriggerId) (plant next : Plant) (trigger : Trigger)
    (found : Trigger.Evaluation) : Prop where
  evaluated : trigger.evaluate (plant.truths trigger.children) = .ok found
  after : next.triggers[t]? = some found.trigger
  agenda : Adds (fun job => job.exhausted? = some t → found.exhausted = true) plant next
  last : found.exhausted = true → ∃ job ∈ next.agenda, job.exhausted? = some t
  vars : next.vars = plant.vars
  comparisons : next.comparisons = plant.comparisons

theorem evaluate_own (plant : Plant) (t : TriggerId) (trigger : Trigger) (stamp : Instant)
    (there : plant.triggers[t]? = some trigger) :
    (plant.evaluate t trigger stamp).2 = plant ∨
      ∃ found, Evaluated t plant (plant.evaluate t trigger stamp).2 trigger found := by
  unfold evaluate
  split
  · exact .inl rfl
  · rename_i found evaluated
    right
    refine ⟨found, ?_⟩
    have set := set_trigger_there plant t trigger found.trigger there
    obtain ⟨change, woken⟩ := wake_waiting_dispatch (plant.setTrigger t found.trigger) t
    have published : ∀ (between : Plant) (notification : Notification),
        between.triggers = (plant.setTrigger t found.trigger).triggers →
        between.agenda = plant.agenda → between.vars = plant.vars →
        between.comparisons = plant.comparisons →
        Evaluated t plant
          (between.publish trigger.subscribers notification
            ((if found.exhausted then [.exhaust t] else []) ++ [.leave (.trigger t)])) trigger
          found := by
      intro between notification triggers agenda vars comparisons
      refine ⟨evaluated, by rw [← set, ← triggers]; rfl, ⟨_, by rw [← agenda]; rfl, ?_⟩, ?_, vars,
        comparisons⟩
      · intro job member exhausted
        rcases List.mem_append.mp member with delivery | behind
        · rw [(deliveries_plain trigger.subscribers notification job delivery).2] at exhausted
          contradiction
        · rcases List.mem_append.mp behind with last | left
          · split at last
            · assumption
            · contradiction
          · rw [List.mem_singleton.mp left] at exhausted
            contradiction
      · intro last
        exact ⟨.exhaust t, by simp [publish, push, last], rfl⟩
    rw [woken]
    dsimp only
    split
    · exact published _ _ rfl rfl rfl rfl
    · exact published _ _ rfl rfl rfl rfl

theorem evaluated_now (plant : Plant) (t : TriggerId) (trigger : Trigger)
    (there : plant.triggers[t]? = some trigger) :
    Inert plant (plant.evaluateNow t trigger).2 ∨
      ∃ found, Evaluated t plant (plant.evaluateNow t trigger).2 trigger found := by
  rw [evaluateNow]
  rcases evaluate_own plant.readClock.2 t trigger plant.readClock.1 there with failed | ⟨found, ran⟩
  · left
    rw [failed]
    exact inert_read_clock plant
  · exact .inr ⟨found, ran.evaluated, ran.after, ran.agenda, ran.last, ran.vars, ran.comparisons⟩

theorem evaluated_logged {plant next : Plant} {t : TriggerId} {trigger : Trigger} (part : Log.Part)
    (level : Log.Level) (message : String) (details : List (String × Json.Tree))
    (ran : Inert plant next ∨ ∃ found, Evaluated t plant next trigger found) :
    Inert plant (next.log part level message details) ∨
      ∃ found, Evaluated t plant (next.log part level message details) trigger found := by
  rcases ran with inert | ⟨found, done⟩
  · exact .inl (inert.trans (inert_log _ _ _ _ _))
  · exact .inr ⟨found, done.evaluated, done.after, done.agenda, done.last, done.vars, done.comparisons⟩

theorem hear_own (plant : Plant) (t : TriggerId) (trigger : Trigger) (stamp : Instant)
    (there : plant.triggers[t]? = some trigger) :
    Inert plant (plant.hear t stamp) ∨
      trigger.active = true ∧ ∃ found, Evaluated t plant (plant.hear t stamp) trigger found := by
  obtain same | ⟨other, known, active, _, heard⟩ := hear_cases plant t stamp
  · rw [same]
    exact .inl (.refl plant)
  · cases there.symm.trans known
    have ran : Inert plant (plant.evaluate t trigger stamp).2 ∨
        ∃ found, Evaluated t plant (plant.evaluate t trigger stamp).2 trigger found :=
      (evaluate_own plant t trigger stamp there).imp_left fun same => by
        rw [same]
        exact .refl plant
    obtain same | ⟨details, same⟩ := heard
    · rw [same]
      exact ran.imp_right fun done => ⟨active, done⟩
    · rw [same]
      exact (evaluated_logged _ _ _ _ ran).imp_right fun done => ⟨active, done⟩

theorem deactivate_trigger_own (plant : Plant) (t : TriggerId) (trigger : Trigger)
    (there : plant.triggers[t]? = some trigger) :
    (trigger.active = false ∧ plant.deactivateTrigger t = plant) ∨
      Sets t plant (trigger.halted) (plant.deactivateTrigger t) := by
  unfold deactivateTrigger
  rw [there]
  dsimp only
  split
  · right
    have unlinked := fun plant : Plant => inert_foldl
      (fun plant (link : ComparisonId × Ticket) => plant.unsubscribeComparison link.1 link.2)
      (fun plant link => inert_unsubscribe_comparison plant link.1 link.2) trigger.links plant
    have stopped := fun plant : Plant => inert_foldl deactivateComparison
      inert_deactivate_comparison trigger.children plant
    exact (unlinked _).trans ((stopped _).trans (inert_log _ _ _ _ _))
  · rename_i inactive
    exact .inl ⟨by simpa using inactive, rfl⟩

theorem rearm_trigger_own (plant : Plant) (t : TriggerId) (trigger : Trigger)
    (there : plant.triggers[t]? = some trigger) :
    (trigger.active = true ∧ plant.rearmTrigger t = plant) ∨
      (trigger.active = false ∧ Sets t plant trigger.rearm (plant.rearmTrigger t)) := by
  unfold rearmTrigger
  rw [there]
  dsimp only
  split
  · rename_i active
    exact .inl ⟨active, rfl⟩
  · rename_i inactive
    exact .inr ⟨by simpa using inactive, inert_wake_waiting _ t⟩

theorem activate_trigger_own (plant : Plant) (t : TriggerId) (trigger : Trigger) (next : Plant)
    (there : plant.triggers[t]? = some trigger) (compiled : trigger.Compiled)
    (wired : trigger.children ≠ [] → plant.Wired trigger)
    (activated : plant.activateTrigger t trigger = .ok next) :
    (trigger.remaining = 0 ∧ Inert plant next) ∨ (trigger.active = true ∧ next = plant) ∨
      (trigger.remaining ≠ 0 ∧ trigger.active = false ∧ ∃ children links linked between,
        Inert plant linked ∧ linked.Wired (trigger.started children links) ∧
        Sets t linked (trigger.started children links) between ∧
        (Inert between next ∨
          ∃ found, Evaluated t between next (trigger.started children links) found)) := by
  cases activation activated with
  | spent used => exact .inl ⟨used, inert_log _ _ _ _ _⟩
  | active _ listens => exact .inr (.inl ⟨listens, rfl⟩)
  | begun left idle children between _ made ran =>
      have joined := children_of_wired plant trigger children between made compiled wired
      have ready := inert_children_of plant trigger children between made
      have linking := inert_link_children between t children
      have listed : (between.linkChildren t children).2.triggers[t]? = some trigger := by
        rw [linking.triggers, ready.triggers, there]
      have set : Sets t (between.linkChildren t children).2 (trigger.started children (between.childLinks t children))
          (between.engage t trigger children) := inert_log _ _ _ _ _
      refine .inr (.inr ⟨left, idle, children, between.childLinks t children, _, _, ready.trans linking,
        wired_same _ _ _ rfl rfl (wired_bound between _ linking.comparisons _ joined), set, ?_⟩)
      have evaluated := evaluated_now _ t _ (sets_there _ _ t trigger _ listed set)
      obtain rfl | ⟨_, details, _, rfl⟩ := ran
      · exact evaluated
      · exact evaluated_logged _ _ _ _ evaluated

end Plant

end Interlock
