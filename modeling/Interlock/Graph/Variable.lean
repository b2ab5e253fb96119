import Interlock.Graph.Subscription
import Interlock.Value.Basic

/-!
Variables: typed values that tell every assignment to their subscribers.
-/

set_option autoImplicit false

namespace Interlock.Graph

open Interlock.Calendar (Instant)

inductive Change where
  | changed
  | updated
deriving DecidableEq, Repr

def Change.name : Change → String
  | .changed => "Changed"
  | .updated => "Updated"

def Change.ofSame (same : Bool) : Change := if same then .updated else .changed

-- What variables, comparisons and triggers publish. The stamp is that of the assignment behind
-- it.
structure Notification where
  source : String
  change : Change
  value : Value
  stamp : Instant
deriving DecidableEq, Repr

structure Variable where
  name : String
  value : Value
  verbose : Bool
  subscribers : Subscribers
deriving DecidableEq, Repr

structure AssignError where
  value : Value
  kind : Kind
  name : String
deriving DecidableEq, Repr

def AssignError.message (error : AssignError) : String :=
  "cannot assign " ++ error.value.kind.name ++ " '" ++ error.value.display ++ "' to " ++
    error.kind.name ++ " variable '" ++ error.name ++ "'"

namespace Variable

def create (name : String) (value : Value) (verbose : Bool) : Variable := ⟨name, value, verbose, []⟩

def kind (var : Variable) : Kind := var.value.kind

-- The variable after an assignment, and whether its value moved. The kind stays.
def assign (var : Variable) (now : Instant) (value : Value) : Except AssignError (Change × Variable) :=
  match value.coerce now var.kind with
  | none => .error ⟨value, var.kind, var.name⟩
  | some stored => .ok (.ofSame (stored.sameAs var.value), { var with value := stored })

end Variable

end Interlock.Graph
