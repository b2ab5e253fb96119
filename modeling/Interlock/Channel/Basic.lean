import Interlock.Graph.Subscription
import Interlock.Value.Basic

/-!
Channels: named places for a value that publish messages while they are active.
-/

set_option autoImplicit false

namespace Interlock

open Interlock.Calendar (Instant)
open Interlock.Graph (Subscribers)

structure Event where
  source : String
  stamp : Instant
  command : String
  value : Option Value
  description : String
deriving DecidableEq, Repr

namespace Event

def valueCommand : String := "Value"

def body (event : Event) : String :=
  event.source ++ " " ++ event.command ++
    (match event.value with
    | some value => " " ++ value.display
    | none => "") ++
    (if event.description.isEmpty then "" else " (" ++ event.description ++ ")")

def display (event : Event) : String := event.stamp.timeText ++ " " ++ event.body

end Event

abbrev ChannelId := Nat

structure Channel where
  -- the name given by the owner
  logical : String
  -- the name that messages carry
  assigned : String
  value : Option Value
  active : Bool
  verbose : Bool
  subscribers : Subscribers
deriving DecidableEq, Repr

namespace Channel

def create (name : String) : Channel := ⟨name, name, none, false, false, []⟩

def valueEvent (channel : Channel) (now : Instant) (value : Value) : Event :=
  ⟨channel.assigned, now, Event.valueCommand, some value, ""⟩

end Channel

end Interlock
