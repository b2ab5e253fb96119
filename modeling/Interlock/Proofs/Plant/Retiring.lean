import Interlock.Proofs.Plant.Pulse

/-!
What ends with a move: the activity of what nothing holds. The trigger of a step in flight is held.
-/

set_option autoImplicit false

namespace Interlock.Plant

open Interlock.Graph
open Interlock.Schedule (Sequence SequenceId Step Task)

theorem held_in_use (plant : Plant) (id : SequenceId) (t : TriggerId) (s : Sequence) (task : Task)
    (held : plant.sequences[id]? = some s) (busy : s.task = some task)
    (waits : task.step.trigger = some t) (flies : s.inFlight = true) :
    plant.triggerInUse t = true := by
  have used : plant.sequenceInUse id = true := by simp [sequenceInUse, held, flies]
  have needed : s.steps.any (waitsFor t) = true := by
    simp [Sequence.steps, busy, waitsFor, waits]
  have listed : (s, id) ∈ plant.sequences.zipIdx := List.mem_zipIdx_iff_getElem?.mpr held
  rw [triggerInUse, Bool.or_eq_true]
  exact .inr (List.any_eq_true.mpr ⟨(s, id), listed, by simp only [needed, used, Bool.and_self]⟩)

theorem retire_keeps (kept : Plant → Prop)
    (trigger : ∀ plant id, kept plant → plant.triggerInUse id = false →
      kept (plant.deactivateTrigger id))
    (comparison : ∀ plant id, kept plant → kept (plant.deactivateComparison id))
    (device : ∀ plant id, kept plant → kept (plant.deactivateDevice id)) (plant : Plant)
    (start : kept plant) : kept plant.retire := by
  refine foldl_keeps kept _ (fun plant item there => ?_) _ _
    (foldl_keeps kept _ (fun plant item there => ?_) _ _
      (foldl_keeps kept _ (fun plant item there => ?_) _ _ start))
  · obtain ⟨found, id⟩ := item
    dsimp only
    split
    · exact device plant id there
    · exact there
  · obtain ⟨found, id⟩ := item
    dsimp only
    split
    · exact comparison plant id there
    · exact there
  · obtain ⟨found, id⟩ := item
    dsimp only
    split
    · rename_i idle
      exact trigger plant id there (by simpa using (Bool.and_eq_true_iff.mp idle).2)
    · exact there

theorem retire_spares_held (plant : Plant) (id : SequenceId) (t : TriggerId) (s : Sequence)
    (task : Task) (held : plant.sequences[id]? = some s) (busy : s.task = some task)
    (waits : task.step.trigger = some t) (flies : s.inFlight = true) :
    Spares t plant plant.retire := by
  have both : Spares t plant plant.retire ∧ plant.retire.sequences = plant.sequences := by
    refine retire_keeps (fun next => Spares t plant next ∧ next.sequences = plant.sequences)
      ?_ ?_ ?_ plant ⟨.refl t plant, rfl⟩
    · rintro next other ⟨spares, same⟩ idle
      have apart : other ≠ t := by
        rintro rfl
        have used := held_in_use next id other s task (same ▸ held) busy waits flies
        rw [used] at idle
        contradiction
      exact ⟨spares.trans (spares_deactivate_trigger t next other apart),
        (quiet_deactivate_trigger next other).sequences.trans same⟩
    · rintro next other ⟨spares, same⟩
      have inert := inert_deactivate_comparison next other
      exact ⟨spares.trans (inert.spares t), inert.sequences.trans same⟩
    · rintro next other ⟨spares, same⟩
      have inert := inert_deactivate_device next other
      exact ⟨spares.trans (inert.spares t), inert.sequences.trans same⟩
  exact both.1

structure Still (plant next : Plant) : Prop where
  agenda : next.agenda = plant.agenda
  values : next.valueOf = plant.valueOf

theorem still_same (plant next : Plant) (agenda : next.agenda = plant.agenda)
    (vars : next.vars = plant.vars) : Still plant next :=
  ⟨agenda, by
    funext id
    rw [valueOf, vars, valueOf]⟩

theorem Still.refl (plant : Plant) : Still plant plant := ⟨rfl, rfl⟩

theorem Still.trans {plant middle next : Plant} (first : Still plant middle)
    (second : Still middle next) : Still plant next :=
  ⟨second.agenda.trans first.agenda, second.values.trans first.values⟩

theorem still_foldl {α : Type} (step : Plant → α → Plant)
    (each : ∀ plant item, Still plant (step plant item)) (items : List α) (plant : Plant) :
    Still plant (items.foldl step plant) :=
  foldl_keeps (Still plant) step (fun next item still => still.trans (each next item)) items plant
    (.refl plant)

theorem still_unsubscribe_variable (plant : Plant) (id : VariableId) (ticket : Ticket) :
    Still plant (plant.unsubscribeVariable id ticket) := by
  unfold unsubscribeVariable
  split
  · exact .refl plant
  · rename_i var there
    refine ⟨rfl, ?_⟩
    funext other
    obtain ⟨inside, found⟩ := List.getElem?_eq_some_iff.mp there
    by_cases own : id = other
    · subst other
      simp [valueOf, setVariable, inside, found]
    · simp [valueOf, setVariable, own]

theorem still_unsubscribe_comparison (plant : Plant) (id : ComparisonId) (ticket : Ticket) :
    Still plant (plant.unsubscribeComparison id ticket) := by
  unfold unsubscribeComparison
  split
  · exact .refl plant
  · exact still_same _ _ rfl rfl

theorem still_deactivate_comparison (plant : Plant) (id : ComparisonId) :
    Still plant (plant.deactivateComparison id) := by
  unfold deactivateComparison
  split
  · exact .refl plant
  · rename_i comparison there
    have unlinked := still_foldl
      (fun plant (link : VariableId × Ticket) => plant.unsubscribeVariable link.1 link.2)
      (fun plant link => still_unsubscribe_variable plant link.1 link.2) comparison.links plant
    exact unlinked.trans (still_same _ _ rfl rfl)

theorem still_deactivate_trigger (plant : Plant) (id : TriggerId) :
    Still plant (plant.deactivateTrigger id) := by
  unfold deactivateTrigger
  split
  · exact .refl plant
  · rename_i trigger there
    split
    · have unlinked := fun plant : Plant => still_foldl
        (fun plant (link : ComparisonId × Ticket) => plant.unsubscribeComparison link.1 link.2)
        (fun plant link => still_unsubscribe_comparison plant link.1 link.2) trigger.links plant
      have stopped := fun plant : Plant => still_foldl deactivateComparison
        still_deactivate_comparison trigger.children plant
      have set : Still plant (plant.setTrigger id trigger.halted) := still_same _ _ rfl rfl
      exact set.trans ((unlinked _).trans ((stopped _).trans (still_same _ _ rfl rfl)))
    · exact .refl plant

theorem still_deactivate_device (plant : Plant) (id : DeviceId) :
    Still plant (plant.deactivateDevice id) := by
  unfold deactivateDevice
  split
  · exact .refl plant
  · split
    · exact still_same _ _ rfl rfl
    · exact .refl plant

theorem still_retire (plant : Plant) : Still plant plant.retire :=
  retire_keeps (Still plant) (fun next id still _ => still.trans (still_deactivate_trigger next id))
    (fun next id still => still.trans (still_deactivate_comparison next id))
    (fun next id still => still.trans (still_deactivate_device next id)) plant (.refl plant)

theorem retire_sequences (plant : Plant) : plant.retire.sequences = plant.sequences :=
  (quiet_retire plant).sequences

end Interlock.Plant
