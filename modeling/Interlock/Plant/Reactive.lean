import Interlock.Plant.Use

/-!
Variables, comparisons and triggers at work. An assignment tells the comparisons that read the
variable, and these tell the triggers that they belong to, before the assignment returns.
-/

set_option autoImplicit false

namespace Interlock.Plant

open Interlock.Calendar (Instant)
open Interlock.Formula (EvaluationError)
open Interlock.Graph
open Interlock.Schedule (SequenceId Sequence)

-- Lists the deliveries to the subscribers of this moment, and what comes after them.
def publish (plant : Plant) (subscribers : Subscribers) (notification : Notification)
    (after : List Job) : Plant :=
  plant.push
    ((subscribers.map fun subscriber => .deliver subscriber.listener notification) ++ after)

def changeDetail (change : Change) : String × Json.Tree := ("kind", .text change.name)

def assign (plant : Plant) (id : VariableId) (var : Variable) (value : Value) :
    Except AssignError Change × Plant :=
  let (stamp, plant) := plant.readClock
  match var.assign stamp value with
  | .error error => (.error error, plant)
  | .ok (change, next) =>
      let plant := (plant.setVariable id next).log .variable
        (if var.verbose then .info else .debug) "Variable assigned"
        [("variable", .text var.name), ("value", .text next.value.display), changeDetail change]
      (.ok change,
        plant.publish next.subscribers ⟨var.name, change, next.value, stamp⟩ [.leave (.var id)])

def subscribeVariable (plant : Plant) (id : VariableId) (listener : Listener) :
    Option Ticket × Plant :=
  match plant.vars[id]? with
  | none => (none, plant)
  | some var =>
      if var.subscribers.refuses listener then (none, plant)
      else
        let (ticket, plant) := plant.issueTicket
        (some ticket,
          plant.setVariable id { var with subscribers := var.subscribers.add ticket listener })

def unsubscribeVariable (plant : Plant) (id : VariableId) (ticket : Ticket) : Plant :=
  match plant.vars[id]? with
  | none => plant
  | some var => plant.setVariable id { var with subscribers := var.subscribers.remove ticket }

def refresh (plant : Plant) (id : ComparisonId) (comparison : Comparison) (stamp : Instant) :
    Change × Plant :=
  let value := plant.sample comparison
  let change := Change.ofSame (comparison.latest == value)
  let plant := (plant.setComparison id { comparison with latest := value }).log .comparison .trace
    "Comparison refreshed"
    [("comparison", .text comparison.expression), ("value", .bool value), changeDetail change]
  (change,
    plant.publish comparison.subscribers ⟨comparison.expression, change, .bool value, stamp⟩
      [.leave (.comparison id)])

def linkVariables (plant : Plant) (id : ComparisonId) :
    List VariableId → List (VariableId × Ticket) × Plant
  | [] => ([], plant)
  | var :: rest =>
      match plant.subscribeVariable var (.comparison id) with
      | (some ticket, plant) =>
          let (links, plant) := linkVariables plant id rest
          ((var, ticket) :: links, plant)
      | (none, plant) => linkVariables plant id rest

def activateComparison (plant : Plant) (id : ComparisonId) : Plant :=
  match plant.comparisons[id]? with
  | none => plant
  | some comparison =>
      if comparison.isActive then plant
      else
        let latest := plant.sample comparison
        let (links, plant) := plant.linkVariables id comparison.relation.vars
        plant.setComparison id { comparison with latest := latest, links := links }

def deactivateComparison (plant : Plant) (id : ComparisonId) : Plant :=
  match plant.comparisons[id]? with
  | none => plant
  | some comparison =>
      let plant := comparison.links.foldl
        (fun plant (var, ticket) => plant.unsubscribeVariable var ticket) plant
      plant.setComparison id { comparison with links := [] }

def subscribeComparison (plant : Plant) (id : ComparisonId) (listener : Listener) :
    Option Ticket × Plant :=
  match plant.comparisons[id]? with
  | none => (none, plant)
  | some comparison =>
      if comparison.subscribers.refuses listener then (none, plant)
      else
        let (ticket, plant) := plant.issueTicket
        (some ticket,
          plant.setComparison id
            { comparison with subscribers := comparison.subscribers.add ticket listener })

def unsubscribeComparison (plant : Plant) (id : ComparisonId) (ticket : Ticket) : Plant :=
  match plant.comparisons[id]? with
  | none => plant
  | some comparison =>
      plant.setComparison id
        { comparison with subscribers := comparison.subscribers.remove ticket }

def makeComparison (plant : Plant) (table : TableId) (text : String) :
    Except BindingError (ComparisonId × Plant) :=
  let (now, plant) := plant.readClock
  match bind (plant.lookup table) now text with
  | .error error => .error error
  | .ok relation =>
      .ok (plant.addComparison (.create text relation (relation.sample plant.valueOf)))

def makeComparisons (plant : Plant) (table : TableId) :
    List String → Except BindingError (List ComparisonId × Plant)
  | [] => .ok ([], plant)
  | atom :: rest =>
      match plant.makeComparison table atom with
      | .error error => .error error
      | .ok (id, plant) =>
          (makeComparisons plant table rest).map fun (ids, plant) => (id :: ids, plant)

def makeTrigger (plant : Plant) (table : TableId) (expression : String) (times : Int) :
    Except BindingError (TriggerId × Plant) :=
  match Trigger.compile expression with
  | .error error => .error error
  | .ok condition =>
      let atoms := (condition.map fun condition => condition.atoms).getD []
      match plant.makeComparisons table atoms with
      | .error error => .error error
      | .ok (children, plant) =>
          .ok (plant.addTrigger (.create expression table condition children times))

def truths (plant : Plant) (children : List ComparisonId) : List (String × Bool) :=
  children.filterMap fun child =>
    (plant.comparisons[child]?).map fun comparison =>
      (comparison.expression, plant.sample comparison)

def wakeWaiting (plant : Plant) (id : TriggerId) : Plant :=
  plant.sequences.zipIdx.foldl
    (fun plant (sequence, place) =>
      match sequence.task with
      | some (.waiting step) =>
          if step.trigger == some id then plant.enqueue (.sequence place) else plant
      | _ => plant)
    plant

def evaluate (plant : Plant) (id : TriggerId) (trigger : Trigger) (stamp : Instant) :
    Except EvaluationError Change × Plant :=
  match trigger.evaluate (plant.truths trigger.children) with
  | .error error => (.error error, plant)
  | .ok found =>
      let value := found.trigger.latest
      let plant := (plant.setTrigger id found.trigger).wakeWaiting id
      let plant :=
        match found.change with
        | .changed =>
            plant.log .trigger (if trigger.verbose then .info else .debug) "Trigger changed"
              [("trigger", .text trigger.expression), ("value", .bool value)]
        | .updated => plant
      (.ok found.change,
        plant.publish trigger.subscribers ⟨trigger.expression, found.change, .bool value, stamp⟩
          ((if found.exhausted then [.exhaust id] else []) ++ [.leave (.trigger id)]))

def evaluateNow (plant : Plant) (id : TriggerId) (trigger : Trigger) :
    Except EvaluationError Change × Plant :=
  let (stamp, plant) := plant.readClock
  plant.evaluate id trigger stamp

def deactivateTrigger (plant : Plant) (id : TriggerId) : Plant :=
  match plant.triggers[id]? with
  | none => plant
  | some trigger =>
      if trigger.active then
        let plant := plant.setTrigger id { trigger with active := false, links := [], children := [] }
        let plant := trigger.links.foldl
          (fun plant (child, ticket) => plant.unsubscribeComparison child ticket) plant
        let plant := trigger.children.foldl deactivateComparison plant
        plant.log .trigger .debug "Trigger deactivated" [("trigger", .text trigger.expression)]
      else plant

def linkChildren (plant : Plant) (id : TriggerId) :
    List ComparisonId → List (ComparisonId × Ticket) × Plant
  | [] => ([], plant)
  | child :: rest =>
      match (plant.activateComparison child).subscribeComparison child (.trigger id) with
      | (some ticket, plant) =>
          let (links, plant) := linkChildren plant id rest
          ((child, ticket) :: links, plant)
      | (none, plant) => linkChildren plant id rest

def childrenOf (plant : Plant) (trigger : Trigger) :
    Except BindingError (List ComparisonId × Plant) :=
  if trigger.children.isEmpty then plant.makeComparisons trigger.table trigger.atoms
  else .ok (trigger.children, plant)

-- Starts to listen to the children and evaluates. A trigger without transitions left stays
-- inactive; one whose children cannot be made stays as it was.
def activateTrigger (plant : Plant) (id : TriggerId) (trigger : Trigger) :
    Except BindingError Plant :=
  if trigger.remaining = 0 then
    .ok (plant.log .trigger .warn "Repeat count exhausted, not activating"
      [("trigger", .text trigger.expression)])
  else if trigger.active then .ok plant
  else
    match plant.childrenOf trigger with
    | .error error => .error error
    | .ok (children, plant) =>
        let (links, plant) := plant.linkChildren id children
        let trigger := { trigger with active := true, children := children, links := links }
        let plant := (plant.setTrigger id trigger).log .trigger .debug "Trigger activated"
          [("trigger", .text trigger.expression)]
        match plant.evaluateNow id trigger with
        | (.ok _, plant) => .ok plant
        | (.error error, plant) =>
            .ok (plant.log .trigger .warn "Evaluation on activation failed"
              [("trigger", .text trigger.expression), ("error", .text error.message)])

def rearmTrigger (plant : Plant) (id : TriggerId) : Plant :=
  match plant.triggers[id]? with
  | none => plant
  | some trigger =>
      if trigger.active then plant else (plant.setTrigger id trigger.rearm).wakeWaiting id

def subscribeTrigger (plant : Plant) (id : TriggerId) (listener : Listener) :
    Option Ticket × Plant :=
  match plant.triggers[id]? with
  | none => (none, plant)
  | some trigger =>
      if trigger.subscribers.refuses listener then (none, plant)
      else
        let (ticket, plant) := plant.issueTicket
        (some ticket,
          plant.setTrigger id { trigger with subscribers := trigger.subscribers.add ticket listener })

def unsubscribeTrigger (plant : Plant) (id : TriggerId) (ticket : Ticket) : Plant :=
  match plant.triggers[id]? with
  | none => plant
  | some trigger =>
      plant.setTrigger id { trigger with subscribers := trigger.subscribers.remove ticket }

def hear (plant : Plant) (id : TriggerId) (stamp : Instant) : Plant :=
  match plant.triggers[id]? with
  | none => plant
  | some trigger =>
      if trigger.active && plant.triggerInUse id then
        match plant.evaluate id trigger stamp with
        | (.ok _, plant) => plant
        | (.error error, plant) =>
            plant.log .trigger .warn "Evaluation failed"
              [("trigger", .text trigger.expression), ("error", .text error.message)]
      else plant

def hearVariable (plant : Plant) (id : ComparisonId) (stamp : Instant) : Plant :=
  match plant.comparisons[id]? with
  | none => plant
  | some comparison =>
      if plant.comparisonInUse id then (plant.refresh id comparison stamp).2 else plant

-- Ends the activity of triggers and comparisons that nothing holds.
def retireNodes (plant : Plant) : Plant :=
  let plant := plant.triggers.zipIdx.foldl
    (fun plant (trigger, id) =>
      if trigger.active && !plant.triggerInUse id then plant.deactivateTrigger id else plant)
    plant
  plant.comparisons.zipIdx.foldl
    (fun plant (comparison, id) =>
      if comparison.isActive && !plant.comparisonInUse id then plant.deactivateComparison id
      else plant)
    plant

end Interlock.Plant
