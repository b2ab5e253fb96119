import Interlock.Formula.Condition
import Interlock.Formula.Curve
import Interlock.Invocation.Fault
import Interlock.Text.Split

/-!
Expressions evaluated from the command line.
-/

set_option autoImplicit false

namespace Interlock.Invocation

open Interlock.Formula (Curve Condition)

-- A parameter `NAME=VALUE`; the first equals sign ends the name.
def readParameter (parameter : String) : Except Fault (String × Float) :=
  match Text.splitFirst '=' parameter.toList with
  | none => .error (.plain ("parameter '" ++ parameter ++ "' is not NAME=VALUE"))
  | some (name, value) =>
      let literal := Text.trim value
      match Number.read literal with
      | some x => .ok (String.ofList (Text.trim name), x)
      | none =>
          .error (.within ("parameter '" ++ String.ofList name ++ "' is not a number")
            (if literal.isEmpty then "cannot parse float from empty string"
              else "invalid float literal"))

-- An atom `ATOM=BOOL`; the last equals sign ends the atom.
def readAtom (atom : String) : Except Fault (String × Bool) :=
  match Text.splitLast '=' atom.toList with
  | none => .error (.plain ("atom '" ++ atom ++ "' is not ATOM=BOOL"))
  | some (text, value) =>
      let word := Text.lower (Text.trim value)
      if word = "true".toList then .ok (String.ofList (Text.trim text), true)
      else if word = "false".toList then .ok (String.ofList (Text.trim text), false)
      else
        .error (.within ("atom '" ++ String.ofList text ++ "' needs true or false")
          "provided string was not `true` or `false`")

def readEach {α : Type} (read : String → Except Fault α) : List String → Except Fault (List α)
  | [] => .ok []
  | item :: rest =>
      match read item with
      | .error fault => .error fault
      | .ok a => (readEach read rest).map (a :: ·)

def compiling (expression : String) : String := "compiling '" ++ expression ++ "'"

def evalLines (expression : String) (x : Float) (parameters : List String) :
    Except Fault (List String) :=
  match Curve.compile expression with
  | .error error => .error (.within (compiling expression) error.message)
  | .ok curve =>
      match readEach readParameter parameters with
      | .error fault => .error fault
      | .ok named =>
          match curve.evaluateAt x named with
          | .error error => .error (.plain error.message)
          | .ok value =>
              .ok [
                "postfix:   " ++ curve.stream.text,
                "infix:     " ++ curve.stream.toInfix,
                "variables: " ++ String.intercalate ", " curve.parameters,
                "value:     " ++ Number.toPlainText value
              ]

-- The truth of the first option for an atom counts.
def logicLines (expression : String) (options : List String) : Except Fault (List String) :=
  match Condition.compile expression with
  | .error error => .error (.within (compiling expression) error.message)
  | .ok condition =>
      match readEach readAtom options with
      | .error fault => .error fault
      | .ok bound =>
          match condition.evaluateWith fun atom => bound.lookup atom with
          | .error error => .error (.plain error.message)
          | .ok value =>
              .ok [
                "postfix: " ++ condition.stream.text,
                "infix:   " ++ condition.stream.toInfix,
                "atoms:   " ++ String.intercalate ", " condition.atoms,
                "value:   " ++ (if value then "true" else "false")
              ]

end Interlock.Invocation
