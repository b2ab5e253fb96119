import Interlock.Formula.Evaluation
import Interlock.Formula.Logic

/-!
Compiled conditions: logical expressions over comparisons whose truth is bound from outside.
-/

set_option autoImplicit false

namespace Interlock.Formula

structure Condition where
  source : String
  stream : Stream
deriving DecidableEq, Repr

namespace Condition

def compile (source : String) : Except CompileError Condition :=
  match compileLogic source with
  | .error error => .error error
  | .ok stream => .ok ⟨source, stream⟩

def atoms (condition : Condition) : List String := condition.stream.atoms

def bind (condition : Condition) (atom : String) (truth : Bool) : Condition :=
  { condition with
    stream := condition.stream.map fun token =>
      if token.role = .atom ∧ token.name = atom then { token with content := .flag truth } else token }

def evaluate (condition : Condition) : Except EvaluationError Bool :=
  logic.evaluate condition.stream

-- Binds all comparisons; those without a truth value are false.
def bindAll (condition : Condition) (truth : String → Option Bool) : Condition :=
  condition.atoms.foldl (fun bound atom => bound.bind atom ((truth atom).getD false)) condition

def evaluateWith (condition : Condition) (truth : String → Option Bool) :
    Except EvaluationError Bool :=
  (condition.bindAll truth).evaluate

end Condition

end Interlock.Formula
