import Interlock.Formula.Arithmetic
import Interlock.Formula.Evaluation

/-!
Compiled arithmetic expressions and the values bound to their parameters.
-/

set_option autoImplicit false

namespace Interlock.Formula

def abscissa : String := "x"

-- The running variable first, if it occurs; the others keep their order.
def abscissaFirst (names : List String) : List String :=
  if names.contains abscissa then abscissa :: names.filter (· ≠ abscissa) else names

structure Curve where
  source : String
  stream : Stream
  parameters : List String
deriving DecidableEq, Repr

abbrev Bindings := List (String × Float)

namespace Bindings

def names (bindings : Bindings) : List String := bindings.map Prod.fst

def values (bindings : Bindings) : List Float := bindings.map Prod.snd

def get? (bindings : Bindings) (name : String) : Option Float := bindings.lookup name

-- Names are lowered before they are looked up, as the expression was.
def set (bindings : Bindings) (name : String) (value : Float) : Except CompileError Bindings :=
  let key := Text.lowerText name
  if bindings.names.contains key then
    .ok (bindings.map fun (known, old) => (known, if known = key then value else old))
  else .error (.unboundVariable key)

def assign (bindings : Bindings) (name : String) (value : Float) : Bindings :=
  match bindings.set name value with
  | .ok bound => bound
  | .error _ => bindings

end Bindings

def Stream.bind (bindings : Bindings) (stream : Stream) : Stream :=
  stream.map fun token =>
    if token.role = .parameter then
      match bindings.get? token.name with
      | some value => { token with content := .number value }
      | none => token
    else token

namespace Curve

def compile (source : String) : Except CompileError Curve :=
  match compileArithmetic source with
  | .error error => .error error
  | .ok stream => .ok ⟨source, stream, abscissaFirst stream.parameters⟩

def bindings (curve : Curve) : Bindings := curve.parameters.map fun name => (name, 0)

def evaluate (curve : Curve) (bindings : Bindings) : Except EvaluationError Float :=
  arithmetic.evaluate (curve.stream.bind bindings)

-- The value at one point of the abscissa. Names that do not occur are ignored.
def evaluateAt (curve : Curve) (x : Float) (named : List (String × Float)) :
    Except EvaluationError Float :=
  curve.evaluate
    (named.foldl (fun bindings (name, value) => bindings.assign name value)
      (curve.bindings.assign abscissa x))

-- Values in the order of the parameters; missing ones stand at zero.
def evaluatePositional (curve : Curve) (values : List Float) : Except EvaluationError Float :=
  curve.evaluate
    (curve.parameters.zip (values ++ List.replicate (curve.parameters.length - values.length) 0))

end Curve

end Interlock.Formula
