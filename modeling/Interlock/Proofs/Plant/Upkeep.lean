import Interlock.Proofs.Plant.Orders

/-!
What is active is in use once a move is over. What nothing holds is retired: triggers first, so that the
comparisons that are left without a use belong to no active trigger.
-/

set_option autoImplicit false

namespace Interlock.Plant

open Interlock.Graph
open Interlock.Schedule (Sequence)

structure Used (plant : Plant) : Prop where
  triggers : ∀ (t : TriggerId) (trigger : Trigger), plant.triggers[t]? = some trigger →
    trigger.active = true → plant.triggerInUse t = true
  comparisons : ∀ (c : ComparisonId) (comparison : Comparison), plant.comparisons[c]? = some comparison →
    comparison.isActive = true → plant.comparisonInUse c = true

section

variable {plant next : Plant} {jobs : List Job}

def usage (plant : Plant) : Desk × List Sequence × List Job :=
  (plant.desk, plant.sequences, plant.agenda)

theorem trigger_use_same (same : next.usage = plant.usage) : next.triggerInUse = plant.triggerInUse := by
  simp only [usage, Prod.mk.injEq] at same
  obtain ⟨desk, sequences, agenda⟩ := same
  funext t
  simp only [triggerInUse, isEntered, sequenceInUse, desk, sequences, agenda]

theorem comparison_use_same (same : next.usage = plant.usage) (triggers : next.triggers = plant.triggers) :
    next.comparisonInUse = plant.comparisonInUse := by
  have used := trigger_use_same same
  simp only [usage, Prod.mk.injEq] at same
  obtain ⟨desk, _, agenda⟩ := same
  funext c
  simp only [comparisonInUse, isEntered, desk, agenda, triggers, used]

theorem child_in_use (plant : Plant) (t : TriggerId) (trigger : Trigger) (there : plant.triggers[t]? = some trigger)
    (used : plant.triggerInUse t = true) (child : ComparisonId) (member : child ∈ trigger.children) :
    plant.comparisonInUse child = true := by
  have listed : (trigger, t) ∈ plant.triggers.zipIdx := List.mem_zipIdx_iff_getElem?.mpr there
  rw [comparisonInUse, Bool.or_eq_true]
  exact .inr (List.any_eq_true.mpr ⟨(trigger, t), listed, by simp [member, used]⟩)

theorem unused_unowned (used : ∀ (t : TriggerId) (trigger : Trigger), plant.triggers[t]? = some trigger →
    trigger.active = true → plant.triggerInUse t = true) (c : ComparisonId)
    (unused : plant.comparisonInUse c = false) : plant.Unowned c := by
  intro t trigger there active member
  rw [child_in_use _ t trigger there (used t trigger there active) c member] at unused
  contradiction

theorem usage_unsubscribe_variable (plant : Plant) (v : VariableId) (ticket : Ticket) :
    (plant.unsubscribeVariable v ticket).usage = plant.usage ∧
      (plant.unsubscribeVariable v ticket).comparisons = plant.comparisons := by
  rw [unsubscribeVariable]
  split <;> exact ⟨rfl, rfl⟩

theorem usage_unsubscribe_comparison (plant : Plant) (c : ComparisonId) (ticket : Ticket) :
    (plant.unsubscribeComparison c ticket).usage = plant.usage := by
  rw [unsubscribeComparison]
  split <;> rfl

theorem deactivated_comparison (plant : Plant) (c : ComparisonId) :
    (plant.deactivateComparison c).usage = plant.usage ∧
      ∀ (other : ComparisonId) (after : Comparison),
        (plant.deactivateComparison c).comparisons[other]? = some after → after.isActive = true →
          other ≠ c ∧ plant.comparisons[other]? = some after := by
  rw [deactivateComparison]
  cases there : plant.comparisons[c]? with
  | none =>
      refine ⟨rfl, fun other after found _ => ⟨?_, found⟩⟩
      rintro rfl
      rw [there] at found
      contradiction
  | some comparison =>
      dsimp only
      obtain ⟨usage, comparisons⟩ := foldl_keeps
        (fun next => next.usage = plant.usage ∧ next.comparisons = plant.comparisons)
        (fun plant (link : VariableId × Ticket) => plant.unsubscribeVariable link.1 link.2)
        (fun next link kept =>
          ⟨(usage_unsubscribe_variable next link.1 link.2).1.trans kept.1,
            (usage_unsubscribe_variable next link.1 link.2).2.trans kept.2⟩)
        comparison.links plant ⟨rfl, rfl⟩
      refine ⟨usage, fun other after found active => ?_⟩
      rw [setComparison, comparisons] at found
      by_cases same : other = c
      · subst same
        rw [List.getElem?_set_self (List.getElem?_eq_some_iff.mp there).1] at found
        cases found
        contradiction
      · exact ⟨same, (List.getElem?_set_ne (Ne.symm same)).symm.trans found⟩

theorem deactivated_trigger (plant : Plant) (t : TriggerId) :
    (plant.deactivateTrigger t).usage = plant.usage ∧
      ∀ (other : TriggerId) (after : Trigger),
        (plant.deactivateTrigger t).triggers[other]? = some after → after.active = true →
          other ≠ t ∧ plant.triggers[other]? = some after := by
  constructor
  · rw [deactivateTrigger]
    cases there : plant.triggers[t]? with
    | none => rfl
    | some trigger =>
        dsimp only
        by_cases active : trigger.active = true
        · rw [if_pos active]
          refine foldl_keeps (fun next => next.usage = plant.usage) deactivateComparison
            (fun next c kept => (deactivated_comparison next c).1.trans kept) trigger.children _ ?_
          exact foldl_keeps (fun next => next.usage = plant.usage)
            (fun plant (link : ComparisonId × Ticket) => plant.unsubscribeComparison link.1 link.2)
            (fun next link kept => (usage_unsubscribe_comparison next link.1 link.2).trans kept)
            trigger.links _ rfl
        · rw [if_neg active]
  · intro other after found active
    cases there : plant.triggers[t]? with
    | none =>
        rw [deactivateTrigger, there] at found
        refine ⟨?_, found⟩
        rintro rfl
        rw [there] at found
        contradiction
    | some trigger =>
        rcases deactivate_trigger_own plant t trigger there with ⟨idle, same⟩ | sets
        · rw [same] at found
          refine ⟨?_, found⟩
          rintro rfl
          cases there.symm.trans found
          rw [idle] at active
          contradiction
        · by_cases same : other = t
          · subst same
            cases found.symm.trans (sets_there plant _ other trigger _ there sets)
            contradiction
          · rw [sets.triggers] at found
            exact ⟨same, (List.getElem?_set_ne (Ne.symm same)).symm.trans found⟩

theorem retired_triggers (coherent : plant.Coherent jobs) (items : List (Trigger × TriggerId)) :
    let retired := items.foldl (fun plant (trigger, id) =>
      if trigger.active && !plant.triggerInUse id then plant.deactivateTrigger id else plant) plant
    retired.Coherent jobs ∧ retired.usage = plant.usage ∧
      ∀ t after, retired.triggers[t]? = some after → after.active = true →
        plant.triggers[t]? = some after ∧ ((after, t) ∈ items → plant.triggerInUse t = true) := by
  induction items generalizing plant with
  | nil => exact ⟨coherent, rfl, fun t after there _ => ⟨there, nofun⟩⟩
  | cons item rest ih =>
      obtain ⟨trigger, id⟩ := item
      dsimp only
      rw [List.foldl_cons]
      dsimp only
      by_cases idle : (trigger.active && !plant.triggerInUse id) = true
      · rw [if_pos idle]
        obtain ⟨usage, others⟩ := deactivated_trigger plant id
        obtain ⟨kept, same, left⟩ := ih (coherent_deactivate_trigger coherent id fun _ member => .inl member)
        refine ⟨kept, same.trans usage, fun t after there active => ?_⟩
        obtain ⟨before, used⟩ := left t after there active
        obtain ⟨apart, origin⟩ := others t after before active
        rw [trigger_use_same usage] at used
        refine ⟨origin, fun member => ?_⟩
        rcases List.mem_cons.mp member with same | later
        · exact absurd (congrArg Prod.snd same) apart
        · exact used later
      · rw [if_neg idle]
        obtain ⟨kept, same, left⟩ := ih coherent
        refine ⟨kept, same, fun t after there active => ?_⟩
        obtain ⟨before, used⟩ := left t after there active
        refine ⟨before, fun member => ?_⟩
        rcases List.mem_cons.mp member with same | later
        · cases same
          simpa [active] using idle
        · exact used later

theorem retired_comparisons (coherent : plant.Coherent jobs)
    (used : ∀ (t : TriggerId) (trigger : Trigger), plant.triggers[t]? = some trigger →
      trigger.active = true → plant.triggerInUse t = true) (items : List (Comparison × ComparisonId)) :
    let retired := items.foldl (fun plant (comparison, id) =>
      if comparison.isActive && !plant.comparisonInUse id then plant.deactivateComparison id
      else plant) plant
    retired.Coherent jobs ∧ retired.usage = plant.usage ∧ retired.triggers = plant.triggers ∧
      ∀ c after, retired.comparisons[c]? = some after → after.isActive = true →
        plant.comparisons[c]? = some after ∧ ((after, c) ∈ items → plant.comparisonInUse c = true) := by
  induction items generalizing plant with
  | nil => exact ⟨coherent, rfl, rfl, fun c after there _ => ⟨there, nofun⟩⟩
  | cons item rest ih =>
      obtain ⟨comparison, id⟩ := item
      dsimp only
      rw [List.foldl_cons]
      dsimp only
      by_cases idle : (comparison.isActive && !plant.comparisonInUse id) = true
      · rw [if_pos idle]
        have unused : plant.comparisonInUse id = false := by
          simpa using (Bool.and_eq_true_iff.mp idle).2
        obtain ⟨usage, others⟩ := deactivated_comparison plant id
        have triggers := (inert_deactivate_comparison plant id).triggers
        obtain ⟨kept, same, still, left⟩ := ih
          (coherent_deactivate_comparison coherent id (unused_unowned used id unused))
          fun t trigger there active => by
            rw [triggers] at there
            rw [trigger_use_same usage]
            exact used t trigger there active
        refine ⟨kept, same.trans usage, still.trans triggers, fun c after there active => ?_⟩
        obtain ⟨before, needed⟩ := left c after there active
        obtain ⟨apart, origin⟩ := others c after before active
        rw [comparison_use_same usage triggers] at needed
        refine ⟨origin, fun member => ?_⟩
        rcases List.mem_cons.mp member with same | later
        · exact absurd (congrArg Prod.snd same) apart
        · exact needed later
      · rw [if_neg idle]
        obtain ⟨kept, same, still, left⟩ := ih coherent used
        refine ⟨kept, same, still, fun c after there active => ?_⟩
        obtain ⟨before, needed⟩ := left c after there active
        refine ⟨before, fun member => ?_⟩
        rcases List.mem_cons.mp member with same | later
        · cases same
          simpa [active] using idle
        · exact needed later

theorem usage_retire_devices (plant : Plant) : plant.retireDevices.usage = plant.usage := by
  refine foldl_keeps (fun next => next.usage = plant.usage) _ (fun next item kept => ?_) _ plant rfl
  obtain ⟨device, id⟩ := item
  dsimp only
  split
  · rw [deactivateDevice]
    split
    · exact kept
    · split <;> exact kept
  · exact kept

theorem retire_triggers_used (coherent : plant.Coherent jobs) :
    ∃ between : Plant, between.Coherent jobs ∧
      (∀ (t : TriggerId) (trigger : Trigger), between.triggers[t]? = some trigger →
        trigger.active = true → between.triggerInUse t = true) ∧
      plant.retireNodes = between.comparisons.zipIdx.foldl (fun plant (comparison, id) =>
        if comparison.isActive && !plant.comparisonInUse id then plant.deactivateComparison id
        else plant) between := by
  obtain ⟨kept, usage, left⟩ := retired_triggers coherent plant.triggers.zipIdx
  refine ⟨_, kept, ?_, rfl⟩
  intro t trigger there active
  obtain ⟨before, needed⟩ := left t trigger there active
  rw [trigger_use_same usage]
  exact needed (List.mem_zipIdx_iff_getElem?.mpr before)

theorem retire_used (coherent : plant.Coherent jobs) : plant.retire.Coherent jobs ∧ plant.retire.Used := by
  obtain ⟨between, kept, used, nodes⟩ := retire_triggers_used coherent
  obtain ⟨coherent, same, triggers, still⟩ := retired_comparisons kept used between.comparisons.zipIdx
  rw [← nodes] at coherent same triggers still
  have calm := calm_retire_devices plant.retireNodes
  have usage_devices := usage_retire_devices plant.retireNodes
  refine ⟨coherent_calm coherent calm fun _ member => member, ?_, ?_⟩
  · intro t trigger there active
    rw [retire, calm.triggers, triggers] at there
    rw [retire, trigger_use_same usage_devices, trigger_use_same same]
    exact used t trigger there active
  · intro c comparison there active
    rw [retire, calm.comparisons] at there
    obtain ⟨before, needed⟩ := still c comparison there active
    rw [retire, comparison_use_same usage_devices calm.triggers, comparison_use_same same triggers]
    exact needed (List.mem_zipIdx_iff_getElem?.mpr before)

end

end Interlock.Plant
