import Interlock.Plant.Basic

/-!
Which objects of the plant are in use.
-/

set_option autoImplicit false

namespace Interlock.Plant

open Interlock.Graph
open Interlock.Schedule (SequenceId Step)

def isEntered (plant : Plant) (node : Node) : Bool :=
  plant.agenda.any fun
    | .leave other => other == node
    | _ => false

def sequenceInUse (plant : Plant) (id : SequenceId) : Bool :=
  plant.desk.sequences.ids.contains id ||
    (plant.desk.schedule.any fun scheduled => scheduled.sequence == id) ||
    (match plant.sequences[id]? with
    | some sequence => sequence.inFlight
    | none => false)

def waitsFor (id : TriggerId) (step : Step) : Bool := step.trigger == some id

-- A trigger that is known by a name, belongs to a step, or is being called.
def triggerInUse (plant : Plant) (id : TriggerId) : Bool :=
  plant.desk.triggers.ids.contains id || plant.isEntered (.trigger id) ||
    (plant.desk.steps.any fun (_, step) => waitsFor id step) ||
    (plant.sequences.zipIdx.any fun (sequence, place) =>
      sequence.steps.any (waitsFor id) && plant.sequenceInUse place)

def comparisonInUse (plant : Plant) (id : ComparisonId) : Bool :=
  plant.desk.comparisons.ids.contains id || plant.isEntered (.comparison id) ||
    (plant.triggers.zipIdx.any fun (trigger, place) =>
      trigger.children.contains id && plant.triggerInUse place)

-- A variable that is known by a name, is read by a comparison or is being called. A subscription
-- keeps its variable in use, too.
def variableInUse (plant : Plant) (id : VariableId) : Bool :=
  (plant.table plant.desk.table).ids.contains id || plant.isEntered (.var id) ||
    (plant.desk.subscriptions.any fun (_, held) => held.publisher == .node (.var id)) ||
    (plant.triggers.zipIdx.any fun (trigger, place) =>
      (plant.table trigger.table).ids.contains id && plant.triggerInUse place) ||
    (plant.comparisons.zipIdx.any fun (comparison, place) =>
      comparison.relation.vars.contains id && plant.comparisonInUse place)

def deviceInUse (plant : Plant) (id : DeviceId) : Bool :=
  plant.desk.devices.ids.contains id || plant.desk.workspace.any fun devices => devices.contains id

def nodeInUse (plant : Plant) : Node → Bool
  | .var id => plant.variableInUse id
  | .comparison id => plant.comparisonInUse id
  | .trigger id => plant.triggerInUse id

end Interlock.Plant
