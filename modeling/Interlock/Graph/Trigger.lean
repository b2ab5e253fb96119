import Interlock.Formula.Condition
import Interlock.Graph.Comparison

/-!
Triggers: logical expressions over comparisons that tell the edges of their own truth.
-/

set_option autoImplicit false

namespace Interlock.Graph

open Interlock.Formula (Condition EvaluationError)

abbrev TableId := Nat

structure Trigger where
  expression : String
  -- the variables that its comparisons are bound to
  table : TableId
  -- absent for a blank expression, which is true
  condition : Option Condition
  children : List ComparisonId
  links : List (ComparisonId × Ticket)
  latest : Bool
  -- what receivers of the value see, and how often it was sent
  signal : Bool
  sends : Nat
  -- transitions left, and their number after rearming
  remaining : Nat
  limit : Nat
  active : Bool
  verbose : Bool
  subscribers : Subscribers
deriving DecidableEq, Repr

-- Counts of transitions have 32 bits; less than none is none.
def limitOf (times : Int) : Nat := min times.toNat 4294967295

namespace Trigger

def compile (expression : String) : Except BindingError (Option Condition) :=
  if Text.isBlankText expression then .ok none
  else
    match Condition.compile expression with
    | .ok condition => .ok (some condition)
    | .error error => .error (.compile error)

def create (expression : String) (table : TableId) (condition : Option Condition)
    (children : List ComparisonId) (times : Int) : Trigger :=
  { expression, table, condition, children, links := [], latest := condition.isNone,
    signal := condition.isNone, sends := 0, remaining := limitOf times, limit := limitOf times,
    active := false, verbose := false, subscribers := [] }

def atoms (trigger : Trigger) : List String :=
  match trigger.condition with
  | some condition => condition.atoms
  | none => []

def send (trigger : Trigger) (value : Bool) : Trigger :=
  { trigger with signal := value, sends := trigger.sends + 1 }

-- Restores the count of transitions and forgets the value. An active trigger stays as it is.
def rearm (trigger : Trigger) : Trigger :=
  if trigger.active then trigger
  else
    let latest := trigger.condition.isNone
    { trigger with remaining := trigger.limit, latest := latest }.send latest

-- Binds the comparisons of the children to their truth. Without children the last truths stay
-- bound.
def bindChildren (trigger : Trigger) (truths : List (String × Bool)) : Trigger :=
  { trigger with
    condition := trigger.condition.map fun condition =>
      truths.foldl (fun bound (atom, truth) => bound.bind atom truth) condition }

def truth (trigger : Trigger) : Except EvaluationError Bool :=
  match trigger.condition with
  | some condition => condition.evaluate
  | none => .ok true

-- What an evaluation found: the trigger after it, whether its value moved, and whether the last
-- transition was used up.
structure Evaluation where
  trigger : Trigger
  change : Change
  exhausted : Bool
deriving DecidableEq, Repr

-- Evaluates with the truths of the children. While active every transition counts.
def evaluate (trigger : Trigger) (truths : List (String × Bool)) : Except EvaluationError Evaluation :=
  let bound := trigger.bindChildren truths
  match bound.truth with
  | .error error => .error error
  | .ok value =>
      if value = bound.latest then .ok ⟨bound.send value, .updated, false⟩
      else
        let remaining := if bound.active then bound.remaining - 1 else bound.remaining
        .ok ⟨{ bound with latest := value, remaining := remaining }.send value, .changed,
          bound.active && remaining == 0⟩

end Trigger

end Interlock.Graph
