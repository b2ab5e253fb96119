import Interlock.Device.Basic
import Interlock.Schedule.Sequence

/-!
Timers of tasks, and the stops that the clock makes on its way to them.
-/

set_option autoImplicit false

namespace Interlock

inductive Runner where
  | sequence (id : Schedule.SequenceId)
  | device (id : DeviceId)
  -- in the place of a task that was stopped; its turn does nothing
  | stopped
deriving DecidableEq, Repr

namespace Dispatch

inductive Sleeper where
  -- who waits for the run to end
  | caller
  | task (runner : Runner)
deriving DecidableEq, Repr

structure Timer where
  due : Nat
  sleeper : Sleeper
deriving DecidableEq, Repr

-- How wide the slots are in which timers are kept. A level has 64 slots, and each of them is as wide
-- as the whole level below.
def slotWidths : List Nat := [1, 64, 4096, 262144, 16777216, 1073741824]

-- A timer is in a slot of the lowest level that holds this moment, too; the clock stops where that
-- slot begins.
def stopAmong (now due : Nat) : List Nat → Nat
  | [] => due
  | [width] => due / width * width
  | width :: wider =>
      if now / (64 * width) = due / (64 * width) then due / width * width
      else stopAmong now due wider

def Timer.stop (timer : Timer) (now : Nat) : Nat := stopAmong now timer.due slotWidths

end Dispatch

end Interlock
