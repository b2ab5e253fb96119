import Interlock.Channel.Basic
import Interlock.Text.Case

/-!
Devices: groups of channels that a driver refreshes at a fixed interval.
-/

set_option autoImplicit false

namespace Interlock

abbrev DeviceId := Nat

inductive Driver where
  -- the time
  | tick
  -- the values of a list, one a poll
  | script (values : List Value)
deriving DecidableEq, Repr

namespace Driver

def name : Driver → String
  | tick => "tick"
  | script _ => "script"

def ofName? (name : String) : Option Driver :=
  if Text.lowerText name = "tick" then some tick else none

end Driver

structure Device where
  name : String
  driver : Driver
  -- in milliseconds, at least one
  interval : Nat
  channels : List ChannelId
  active : Bool
deriving DecidableEq, Repr

namespace Device

def create (name : String) (driver : Driver) (interval : Nat) : Device :=
  ⟨name, driver, max 1 interval, [], false⟩

def path (device : Device) (logical : String) : String := device.name ++ "." ++ logical

end Device

-- Names of attached channels differ by more than the case of their letters.
def sameLogical (a b : String) : Bool :=
  Number.lowerAscii a.toList == Number.lowerAscii b.toList

end Interlock
