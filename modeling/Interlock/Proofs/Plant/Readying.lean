import Mathlib.Data.List.Forall2
import Interlock.Plant.Workspace

/-!
Making a schedule. It succeeds exactly if every text that a step waits for compiles and all its comparisons
bind when their turn comes, and then the queue holds the steps as they are written.
-/

set_option autoImplicit false

namespace Interlock

open Interlock.Graph
open Interlock.Schedule (RegistryId Sequence Step)

namespace Plant

-- The instant that the clock shows in so many readings.
def reading (plant : Plant) (count : Nat) : Calendar.Instant :=
  now { plant with readings := plant.readings + count }

structure MakesConditions (count : Nat) (plant next : Plant) : Prop where
  lookup : ∀ table, next.lookup table = plant.lookup table
  clock : ∀ more, next.reading more = plant.reading (count + more)
  triggers : plant.triggers <+: next.triggers
  sequences : next.sequences = plant.sequences

section

variable {plant middle next : Plant} {table : TableId}

theorem MakesConditions.refl (plant : Plant) : MakesConditions 0 plant plant :=
  ⟨fun _ => rfl, fun more => by rw [Nat.zero_add], List.prefix_refl _, rfl⟩

theorem MakesConditions.trans {count more : Nat} (first : MakesConditions count plant middle)
    (second : MakesConditions more middle next) : MakesConditions (count + more) plant next where
  lookup table := (second.lookup table).trans (first.lookup table)
  clock last := by rw [second.clock, first.clock, Nat.add_assoc]
  triggers := first.triggers.trans second.triggers
  sequences := second.sequences.trans first.sequences

-- A trigger that was made for a text, to go off once.
structure Expects (plant : Plant) (table : TableId) (text : String) (id : TriggerId) : Prop where
  made : ∃ condition children, Formula.Condition.compile text = .ok condition ∧
    plant.triggers[id]? = some (.create text table (some condition) children 1)

end

end Plant

end Interlock
