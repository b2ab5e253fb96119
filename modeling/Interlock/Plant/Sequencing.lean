import Interlock.Plant.Channels

/-!
Sequences at work. A step publishes its text, writes its actions and then waits for its trigger; the
next one begins when it is done. A suspended task looks again after every change of the trigger or of
the sequence, and every poll interval.
-/

set_option autoImplicit false

namespace Interlock.Plant

open Interlock.Graph
open Interlock.Schedule

def named (sequence : Sequence) : String × Json.Tree := ("sequence", .text sequence.name)

def announce (plant : Plant) (id : SequenceId) (progress : Progress) : Plant :=
  plant.note (.announced id progress)

def setState (plant : Plant) (id : SequenceId) (sequence : Sequence) (state : State) : Plant :=
  (plant.setSequence id { sequence with state := state }).dispatch fun dispatcher =>
    dispatcher.report id

def wakeTask (plant : Plant) (id : SequenceId) (sequence : Sequence) : Plant :=
  match sequence.task with
  | some (.waiting _) => plant.enqueue (.sequence id)
  | _ => plant

def tellStage (plant : Plant) (sequence : Sequence) (command : String) (value : Option Value)
    (description : String) : Plant :=
  let (stamp, plant) := plant.readClock
  (plant.notify sequence.channel ⟨sequence.name, stamp, command, value, description⟩).2

-- The queue is empty: tells it while the sequence is still active, then ends the run.
def finish (plant : Plant) (id : SequenceId) (sequence : Sequence) : Plant :=
  if sequence.active then
    (plant.push [.complete id]).tellStage sequence Sequence.completedCommand none ""
  else plant

-- Ends the run, unless a handler has ended it.
def complete (plant : Plant) (id : SequenceId) : Plant :=
  match plant.sequences[id]? with
  | none => plant
  | some sequence =>
      if sequence.active then
        let plant := (plant.setState id { sequence with active := false } .completed).wakeTask id
          sequence
        let plant := (plant.setActive sequence.channel false).log .sequence .info
          "Sequence completed" [named sequence]
        plant.announce id .completed
      else plant

def enterPause (plant : Plant) (id : SequenceId) (sequence : Sequence) : Plant :=
  let plant := (plant.setState id sequence .paused).log .sequence .info "Sequence paused"
    [named sequence, ("pending", .count sequence.queue.length)]
  plant.announce id .paused

def proceed (plant : Plant) (id : SequenceId) : Plant :=
  match plant.sequences[id]? with
  | none => plant
  | some sequence =>
      if !sequence.active || sequence.inFlight then plant
      else if sequence.paused then plant.enterPause id sequence
      else
        match sequence.queue with
        | [] => plant.finish id sequence
        | step :: rest =>
            (plant.setSequence id
              { sequence with queue := rest, inFlight := true, task := some (.fresh step) }).enqueue
              (.sequence id)

def activateSequence (plant : Plant) (id : SequenceId) : Except Failure Plant :=
  match plant.sequences[id]? with
  | none => .ok plant
  | some sequence =>
      if !plant.hasRuntime then
        .error (.sequence
          ("sequence '" ++ sequence.name ++ "' must be activated inside a tokio runtime"))
      else if sequence.active then .ok plant
      else
        let next := { sequence with active := true, executed := 0 }
        let plant := ((plant.setState id next .running).setActive sequence.channel true).wakeTask id
          next
        let plant := plant.log .sequence .info "Sequence started"
          [named sequence, ("steps", .count sequence.queue.length)]
        .ok ((plant.announce id (.started sequence.name)).proceed id)

def deactivateSequence (plant : Plant) (id : SequenceId) : Plant :=
  match plant.sequences[id]? with
  | none => plant
  | some sequence =>
      if sequence.active then
        let next := { sequence with active := false, paused := false, queue := [] }
        let plant := ((plant.setState id next .cancelled).wakeTask id next).setActive sequence.channel
          false
        let plant := plant.log .sequence .info "Sequence cancelled"
          [named sequence, ("dropped", .count sequence.queue.length)]
        plant.announce id .cancelled
      else plant

def pause (plant : Plant) (id : SequenceId) : Plant :=
  match plant.sequences[id]? with
  | none => plant
  | some sequence =>
      (plant.setSequence id { sequence with paused := true }).log .sequence .debug "Pause requested"
        [named sequence]

-- Ends a pause, or withdraws the request for one.
def resume (plant : Plant) (id : SequenceId) : Plant :=
  match plant.sequences[id]? with
  | none => plant
  | some sequence =>
      if !sequence.paused then plant
      else if !sequence.active || sequence.state != .paused then
        (plant.setSequence id { sequence with paused := false }).log .sequence .debug
          "Pause request withdrawn" [named sequence]
      else
        let plant := (plant.setState id { sequence with paused := false } .running).log .sequence
          .info "Sequence resumed" [named sequence]
        (plant.announce id .resumed).proceed id

def setPaused (plant : Plant) (id : SequenceId) (paused : Bool) : Plant :=
  if paused then plant.pause id else plant.resume id

def disposeSequence (plant : Plant) (id : SequenceId) : Plant :=
  let plant := plant.deactivateSequence id
  match plant.sequences[id]? with
  | none => plant
  | some sequence =>
      (plant.setSequence id { sequence with queue := [] }).clearSubscribers sequence.channel

def pushSteps (plant : Plant) (id : SequenceId) (step : Step) (count : Nat) : Plant :=
  match plant.sequences[id]? with
  | none => plant
  | some sequence =>
      plant.setSequence id { sequence with queue := sequence.queue ++ List.replicate count step }

def current? (plant : Plant) (id : SequenceId) : Option (Sequence × Step) :=
  match plant.sequences[id]? with
  | none => none
  | some sequence => sequence.task.map fun task => (sequence, task.step)

def currentTrigger? (plant : Plant) (id : SequenceId) : Option (Sequence × TriggerId × Trigger) :=
  match plant.current? id with
  | none => none
  | some (sequence, step) =>
      match step.trigger with
      | none => none
      | some trigger => (plant.triggers[trigger]?).map fun found => (sequence, trigger, found)

def beginStep (plant : Plant) (id : SequenceId) : Plant :=
  match plant.current? id with
  | none => plant
  | some (sequence, step) =>
      let index := sequence.executed + 1
      let plant := (plant.setSequence id { sequence with executed := index }).log .sequence .info
        "Step started"
        [named sequence, ("index", .count index), ("actions", .text step.source),
          ("description", .text step.description)]
      let plant := plant.push
        [.announce id (.stepStarted index step.source step.description), .act id step.actions]
      plant.tellStage sequence Sequence.nextCommand (some (.text step.source)) step.description

def act (plant : Plant) (id : SequenceId) (sequence : Sequence) (action : Action)
    (rest : List Action) : Plant :=
  let path := ("path", Json.Tree.text action.path)
  let after := plant.push [.act id rest]
  match action.value with
  | none =>
      after.log .sequence .debug "Placeholder action, nothing written" [named sequence, path]
  | some value =>
      match Registry.resolve? (plant.registry sequence.registry) action.path with
      | some channel =>
          let plant := after.push [.announce id (.actionApplied action.path value)]
          (plant.log .sequence .debug "Applying action"
            [named sequence, path, ("value", .text value.display)]).write channel value
      | none =>
          (after.log .sequence .warn "Action target not found, skipped"
            [named sequence, path]).announce id (.actionSkipped action.path)

def leaveStep (plant : Plant) (id : SequenceId) : Plant :=
  match plant.sequences[id]? with
  | none => plant
  | some sequence => (plant.setSequence id { sequence with task := none }).push [.next id]

-- Rearms and activates the trigger of the step. If it cannot become true any more the run is
-- stopped.
def arm (plant : Plant) (id : SequenceId) : Plant :=
  match plant.currentTrigger? id with
  | none => plant.leaveStep id
  | some (sequence, triggerId, _) =>
      if !sequence.active then plant.leaveStep id
      else
        let plant := plant.rearmTrigger triggerId
        match plant.triggers[triggerId]? with
        | none => plant.leaveStep id
        | some trigger =>
            let details := [named sequence, ("trigger", Json.Tree.text trigger.expression)]
            if trigger.remaining = 0 then
              ((plant.log .sequence .error "Trigger has no transitions left, cancelling"
                details).deactivateSequence id).leaveStep id
            else
              match (plant.push [.wait id]).activateTrigger triggerId trigger with
              | .ok plant => plant
              | .error error =>
                  ((plant.log .sequence .error "Trigger activation failed, cancelling"
                    (details ++ [("error", .text error.message)])).deactivateSequence id).leaveStep id

def isReleased (sequence : Sequence) (trigger : Trigger) : Bool :=
  trigger.latest || !sequence.active

-- Has the suspended task of a sequence look again after its poll interval, if not before.
def sleepTask (plant : Plant) (id : SequenceId) (sequence : Sequence) : Plant :=
  plant.dispatch fun dispatcher => dispatcher.sleep (.sequence id) sequence.pollInterval

def waitForTrigger (plant : Plant) (id : SequenceId) : Plant :=
  match plant.currentTrigger? id with
  | none => plant.leaveStep id
  | some (sequence, _, trigger) =>
      let plant := plant.announce id (.waitingOnTrigger trigger.expression)
      if isReleased sequence trigger then plant.push [.disarm id]
      else
        (plant.setSequence id
          { sequence with task := sequence.task.map fun task => .waiting task.step }).sleepTask id
          sequence

def disarm (plant : Plant) (id : SequenceId) : Plant :=
  match plant.currentTrigger? id with
  | none => plant.leaveStep id
  | some (sequence, triggerId, trigger) =>
      let plant := plant.deactivateTrigger triggerId
      let plant :=
        if trigger.latest then
          (plant.log .sequence .debug "Trigger satisfied"
            [named sequence, ("trigger", .text trigger.expression)]).announce id
            (.triggerSatisfied trigger.expression)
        else plant
      plant.leaveStep id

-- What the task does between steps: stop, end the run, pause, or take the next step.
def nextStep (plant : Plant) (id : SequenceId) : Plant :=
  match plant.sequences[id]? with
  | none => plant
  | some sequence =>
      let idle := { sequence with inFlight := false }
      if !sequence.active then plant.setSequence id idle
      else
        match sequence.queue with
        | [] => (plant.setSequence id idle).finish id idle
        | step :: rest =>
            if sequence.paused then plant.enterPause id idle
            else
              (plant.setSequence id { sequence with queue := rest, task := some (.busy step) }).push
                [.begin id]

def turnSequence (plant : Plant) (id : SequenceId) : Plant :=
  match plant.sequences[id]? with
  | none => plant
  | some sequence =>
      match sequence.task with
      | some (.fresh step) =>
          (plant.setSequence id { sequence with task := some (.busy step) }).push [.begin id]
      | some (.waiting step) =>
          match plant.currentTrigger? id with
          | none => plant
          | some (sequence, _, trigger) =>
              if isReleased sequence trigger then
                let plant := plant.dispatch fun dispatcher =>
                  dispatcher.clearTimer (.task (.sequence id))
                (plant.setSequence id { sequence with task := some (.busy step) }).push [.disarm id]
              else plant.sleepTask id sequence
      | _ => plant

end Interlock.Plant
