import Interlock.Config.Codec
import Interlock.Graph.Trigger
import Interlock.Schedule.Sequence
import Interlock.Session.Command

/-!
Replies to the commands of a session.
-/

set_option autoImplicit false

namespace Interlock

open Interlock.Graph (BindingError AssignError)

inductive Failure where
  | configuration (text : String)
  | value (error : AssignError)
  | sequence (text : String)
  | binding (error : BindingError)
deriving DecidableEq, Repr

def Failure.message : Failure → String
  | .configuration text => "Configuration validation error: " ++ text
  | .value error => "Value error: " ++ error.message
  | .sequence text => "Sequence error: " ++ text
  | .binding error => error.message

namespace Session

open Interlock.Graph (Change Operand)
open Interlock.Formula (EvaluationError)

-- One side of a comparison: the name of a variable with its value, or a constant.
structure OperandState where
  name : Option String
  value : Value
deriving DecidableEq, Repr

structure ComparisonState where
  expression : String
  comparator : Comparator
  left : OperandState
  right : OperandState
  value : Bool
  sample : Bool
  active : Bool
  subscribers : Nat
deriving DecidableEq, Repr

structure TriggerState where
  expression : String
  value : Bool
  remaining : Nat
  active : Bool
  children : Nat
  subscribers : Nat
deriving DecidableEq, Repr

structure SlotState where
  name : String
  active : Bool
  value : Option Value
deriving DecidableEq, Repr

structure DeviceState where
  name : String
  interval : Nat
  channels : Nat
  active : Bool
deriving DecidableEq, Repr

structure SequenceState where
  name : String
  state : Schedule.State
  active : Bool
  paused : Bool
  pending : Nat
  channelActive : Bool
  subscribers : Nat
deriving DecidableEq, Repr

inductive Reply where
  | noObject
  | failed (failure : Failure)
  | refused (refusal : Config.Refusal)
  | unbound (error : BindingError)
  | unevaluated (error : EvaluationError)
  | pollFailed (message : String)
  | truth (b : Bool)
  | count (n : Nat)
  | counts (devices channels vars : Nat)
  | absent
  | word (text : String)
  | change (change : Change)
  | replaced (name : Option String)
  | removed (name : Option String)
  | declared (replaced : Bool)
  | variable (value : Value) (subscribers : Nat)
  | names (names : List String) (contains : Option Bool)
  | comparison (state : ComparisonState)
  | trigger (state : TriggerState)
  -- whether a value came since the last look, if any can still come
  | signal (changed : Option Bool) (value : Bool)
  | slot (state : SlotState)
  | paths (paths : List String)
  | channel (logical assigned : String) (subscribers : Nat)
  | attached (logical : String) (active : Bool)
  | device (state : DeviceState)
  | step (source : String) (actions : Nat) (description : String) (trigger : Option String)
  | sequence (state : SequenceState)
  | schedule (autoStart autoExit : Bool) (sequence : SequenceState)
deriving DecidableEq, Repr

end Session

end Interlock
