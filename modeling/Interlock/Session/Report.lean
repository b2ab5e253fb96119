import Interlock.Plant.Run

/-!
Sessions step by step: a request, its reply, and what observers and receivers saw meanwhile.
-/

set_option autoImplicit false

namespace Interlock.Session

open Interlock.Calendar (Instant)
open Interlock.Graph (Notification)
open Interlock.Schedule (Progress SequenceId)

inductive Request where
  | command (command : Command)
  | wait (millis : Nat)
  | finished (id : String) (millis : Nat)

inductive Delivery where
  | notified (label : String) (notification : Notification) (stamp : Nat)
  | told (label : String) (event : Event)
  | replied (label : String) (reply : Reply)

inductive Received where
  | lagged (count : Nat)
  | progress (progress : Progress)

structure Report where
  reply : Reply
  deliveries : List Delivery
  events : List (String × Received)

def deliveriesOf : List Instant → List Entry → List Delivery
  | _, [] => []
  | seen, .notified label notification :: rest =>
      match seen.idxOf? notification.stamp with
      | some index => .notified label notification index :: deliveriesOf seen rest
      | none =>
          .notified label notification seen.length ::
            deliveriesOf (seen ++ [notification.stamp]) rest
  | seen, .told label event :: rest => .told label event :: deliveriesOf seen rest
  | seen, .replied label reply :: rest => .replied label reply :: deliveriesOf seen rest
  | seen, .announced _ _ :: rest => deliveriesOf seen rest
  | seen, .logged _ :: rest => deliveriesOf seen rest

def progressOf (id : SequenceId) (trace : List Entry) : List Progress :=
  trace.filterMap fun
    | .announced other progress => if other = id then some progress else none
    | _ => none

-- A receiver keeps so many events; older ones are lost.
def capacity : Nat := 1024

def receive (sent : List Progress) : List Received :=
  let lost := sent.length - capacity
  (if lost = 0 then [] else [.lagged lost]) ++ (sent.drop lost).map .progress

def eventsOf (sequences : Directory) (trace : List Entry) : List (String × Received) :=
  sequences.flatMap fun (name, id) => (receive (progressOf id trace)).map fun event => (name, event)

def answer (plant : Plant) : Request → Reply × Plant
  | .command command => plant.run command
  | .wait millis => (.truth true, plant.wait millis)
  | .finished name millis =>
      match plant.sequence? name with
      | none => (.noObject, plant)
      | some (id, _) =>
          let plant := plant.waitFinished id millis
          match plant.sequences[id]? with
          | some sequence =>
              if sequence.state.isFinished then (.word sequence.state.name, plant)
              else (.absent, plant)
          | none => (.absent, plant)

-- One step of a session. The clock moves on even if nothing reads it.
def step (plant : Plant) (request : Request) : Report × Plant :=
  let (_, plant) := plant.readClock
  let (reply, plant) := answer { plant with trace := [] } request
  let trace := plant.trace.reverse
  (⟨reply, deliveriesOf [] trace, eventsOf plant.desk.sequences trace⟩, plant)

end Interlock.Session
