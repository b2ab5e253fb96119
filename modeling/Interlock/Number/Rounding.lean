import Interlock.Number.Binary

/-!
Rounding to whole numbers and the remainder of a division, computed exactly on quanta. The sign of
the argument is kept, also on a zero.
-/

set_option autoImplicit false

namespace Interlock.Number

-- Applies a rule to the magnitude of a finite number; all others stay as they are.
def mapQuanta (rule : Bool → Nat → Nat) (x : Float) : Float :=
  match exact x with
  | .finite negative quanta => ofQuanta negative (rule negative quanta)
  | .infinite _ | .undefined => x

def wholeBelow (quanta : Nat) : Nat := quanta / unit * unit

def wholeAbove (quanta : Nat) : Nat := (quanta + unit - 1) / unit * unit

def truncate (x : Float) : Float := mapQuanta (fun _ quanta => wholeBelow quanta) x

def floor (x : Float) : Float :=
  mapQuanta (fun negative quanta => if negative then wholeAbove quanta else wholeBelow quanta) x

def ceiling (x : Float) : Float :=
  mapQuanta (fun negative quanta => if negative then wholeBelow quanta else wholeAbove quanta) x

def roundToEven (x : Float) : Float :=
  mapQuanta (fun _ quanta => roundHalfEven quanta unit * unit) x

def magnitude (x : Float) : Float :=
  match exact x with
  | .finite _ quanta => ofQuanta false quanta
  | .infinite _ => infinity false
  | .undefined => nan

-- The exact remainder, with the sign of the dividend.
def remainder (dividend divisor : Float) : Float :=
  match exact dividend, exact divisor with
  | .finite negative quanta, .finite _ step =>
      if step = 0 then nan else ofQuanta negative (quanta % step)
  | .finite _ _, .infinite _ => dividend
  | _, _ => nan

end Interlock.Number
