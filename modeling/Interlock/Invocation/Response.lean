import Interlock.Invocation.Evaluation
import Interlock.Invocation.Execution
import Interlock.Invocation.Help

/-!
The answer of the program to its command line.
-/

set_option autoImplicit false

namespace Interlock.Invocation

open Interlock.Calendar (Instant)

def linesOf (text : String) : List Line :=
  let lines := Text.splitAll '\n' text.toList
  (if lines.getLast? = some [] then lines.dropLast else lines).map fun line =>
    .text (String.ofList line)

def outcomeOf : Except Fault (List Line) → Outcome
  | .ok lines => ⟨lines, none⟩
  | .error fault => ⟨[], some fault⟩

def texts (lines : List String) : List Line := lines.map .text

def Outcome.code (outcome : Outcome) : Nat := if outcome.fault.isNone then 0 else 1

def answer (invocation : Invocation) (around : Surroundings) (start : Instant) : Outcome :=
  match invocation with
  | .help topic => ⟨texts (helpLines topic), none⟩
  | .eval expression x parameters => outcomeOf ((evalLines expression x parameters).map texts)
  | .logic expression atoms => outcomeOf ((logicLines expression atoms).map texts)
  | .check path => outcomeOf ((checkText around path).map linesOf)
  | .run options => runAll around options start

end Interlock.Invocation
