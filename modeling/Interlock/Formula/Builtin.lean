import Interlock.Number.Rounding

/-!
The functions of arithmetic expressions. Each takes a fixed number of arguments; outside its domain
it yields an undefined number, never an error.
-/

set_option autoImplicit false

namespace Interlock.Formula

open Interlock.Number (nan)

inductive Builtin where
  | constant (value : Float)
  | unary (rule : Float → Float)
  | binary (rule : Float → Float → Float)
  | ternary (rule : Float → Float → Float → Float)
  | quaternary (rule : Float → Float → Float → Float → Float)
  | quinary (rule : Float → Float → Float → Float → Float → Float)

namespace Builtin

def arity : Builtin → Nat
  | constant _ => 0
  | unary _ => 1
  | binary _ => 2
  | ternary _ => 3
  | quaternary _ => 4
  | quinary _ => 5

def apply : Builtin → List Float → Option Float
  | constant value, [] => some value
  | unary rule, [x] => some (rule x)
  | binary rule, [x, y] => some (rule x y)
  | ternary rule, [x, y, z] => some (rule x y z)
  | quaternary rule, [x, y, z, u] => some (rule x y z u)
  | quinary rule, [x, y, z, u, v] => some (rule x y z u v)
  | _, _ => none

end Builtin

def archimedes : Float := 3.141592653589793

def euler : Float := 2.718281828459045

def speedOfLight : Float := 2.99792458e8

def boltzmann : Float := 1.380649e-23

def avogadro : Float := 6.02214076e23

def modulo (a b : Float) : Float := if b == 0 then nan else Number.remainder a b

def onPositive (rule : Float → Float) (x : Float) : Float := if x ≤ 0 then nan else rule x

def squareRoot (x : Float) : Float := if x < 0 then nan else x.sqrt

def signOf (x : Float) : Float :=
  if x.isNaN || x == 0 then x else if x < 0 then -1 else 1

def sinc (x : Float) : Float := if x == 0 then nan else x.sin / x

def decay (x amplitude tau : Float) : Float :=
  if tau == 0 then nan else amplitude * (-x / tau).exp

def stretched (x amplitude b c : Float) : Float :=
  if b == 0 then nan else amplitude * (-(x.pow c) / b).exp

def gaussProfile (x center width : Float) : Float :=
  if width == 0 then nan
  else
    let z := (x - center) / width
    (-z * z / 2).exp / ((2 * archimedes).sqrt * width)

def lorentzProfile (x center width : Float) : Float :=
  let dx := x - center
  width / (archimedes * (dx * dx + width * width))

def gauss (x amplitude center width : Float) : Float := amplitude * gaussProfile x center width

def lorentz (x amplitude center width : Float) : Float := amplitude * lorentzProfile x center width

def voigt (x amplitude center width mix : Float) : Float :=
  amplitude * (mix * gaussProfile x center width + (1 - mix) * lorentzProfile x center width)

def builtins : List (String × Builtin) := [
  ("power", .binary Float.pow),
  ("pow", .binary Float.pow),
  ("mod", .binary modulo),
  ("exp", .unary Float.exp),
  ("log", .unary (onPositive Float.log10)),
  ("ln", .unary (onPositive Float.log)),
  ("sqrt", .unary squareRoot),
  ("abs", .unary Number.magnitude),
  ("sin", .unary Float.sin),
  ("cos", .unary Float.cos),
  ("tan", .unary Float.tan),
  ("asin", .unary Float.asin),
  ("acos", .unary Float.acos),
  ("atan", .unary Float.atan),
  ("sinh", .unary Float.sinh),
  ("cosh", .unary Float.cosh),
  ("tanh", .unary Float.tanh),
  ("truncate", .unary Number.truncate),
  ("floor", .unary Number.floor),
  ("ceiling", .unary Number.ceiling),
  ("round", .unary Number.roundToEven),
  ("sign", .unary signOf),
  ("pi", .constant archimedes),
  ("e", .constant euler),
  ("c", .constant speedOfLight),
  ("kb", .constant boltzmann),
  ("na", .constant avogadro),
  ("sinc", .unary sinc),
  ("decay", .ternary decay),
  ("stretched", .quaternary stretched),
  ("gauss", .quaternary gauss),
  ("lorentz", .quaternary lorentz),
  ("voigt", .quinary voigt),
  ("foigt", .quinary voigt)
]

def builtin? (name : String) : Option Builtin := builtins.lookup name

def arity? (name : String) : Option Nat := (builtin? name).map Builtin.arity

def applyBuiltin (name : String) (arguments : List Float) : Option Float :=
  (builtin? name).bind fun builtin => builtin.apply arguments

end Interlock.Formula
