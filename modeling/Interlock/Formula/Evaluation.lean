import Interlock.Formula.Token
import Interlock.Formula.Error
import Interlock.Formula.Builtin

/-!
Evaluation of streams on a stack. Numbers and truth values share the stack discipline and differ in
what operands stand for and how operators act.
-/

set_option autoImplicit false

namespace Interlock.Formula

structure Semantics (α : Type) where
  operand : Token → Except EvaluationError α
  apply : Token → List α → Except EvaluationError α

def Semantics.run {α : Type} (semantics : Semantics α) :
    Stream → List α → Except EvaluationError (List α)
  | [], stack => .ok stack
  | token :: rest, stack =>
      if token.role.isOperand then
        match semantics.operand token with
        | .error error => .error error
        | .ok value => semantics.run rest (value :: stack)
      else if stack.length < token.arity then
        .error (.underflow token.name token.arity stack.length)
      else
        match semantics.apply token (stack.take token.arity).reverse with
        | .error error => .error error
        | .ok value => semantics.run rest (value :: stack.drop token.arity)

def Semantics.evaluate {α : Type} (semantics : Semantics α) (stream : Stream) :
    Except EvaluationError α :=
  match semantics.run stream [] with
  | .error error => .error error
  | .ok [value] => .ok value
  | .ok stack => .error (.unreduced stack.length)

-- Dividing by a zero is undefined, whatever the dividend.
def divide (a b : Float) : Float := if b == 0 then Number.nan else a / b

def arithmetic : Semantics Float where
  operand token :=
    match token.role, token.content with
    | .number, .number x | .parameter, .number x => .ok x
    | _, _ => .error (.unexpected token.name)
  apply token operands :=
    match token.role, operands with
    | .operator, [a, b] =>
        if token.name = "+" then .ok (a + b)
        else if token.name = "-" then .ok (a - b)
        else if token.name = "*" then .ok (a * b)
        else if token.name = "/" then .ok (divide a b)
        else .error (.unexpected token.name)
    | .call, _ =>
        match applyBuiltin token.name operands with
        | some value => .ok value
        | none => .error (.unexpected token.name)
    | _, _ => .error (.unexpected token.name)

def logic : Semantics Bool where
  operand token :=
    match token.role, token.content with
    | .atom, .flag b => .ok b
    | _, _ => .error (.unexpected token.name)
  apply token operands :=
    match operands with
    | [a, b] =>
        if token.name = "&" then .ok (a && b)
        else if token.name = "|" then .ok (a || b)
        else .error (.unexpected token.name)
    | [a] => if token.name = "!" then .ok (!a) else .error (.unexpected token.name)
    | _ => .error (.unexpected token.name)

end Interlock.Formula
