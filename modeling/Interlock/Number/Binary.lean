/-!
Binary numbers as exact quantities. A finite number is a sign and a whole count of quanta, the
smallest positive step 2⁻¹⁰⁷⁴; every operation that must be exact works on those counts.
-/

set_option autoImplicit false

namespace Interlock.Number

inductive Exact where
  | finite (negative : Bool) (quanta : Nat)
  | infinite (negative : Bool)
  | undefined
deriving DecidableEq, Repr

def unit : Nat := Nat.pow 2 1074

-- The magnitude bits of infinity: a full exponent field and an empty fraction.
def infinityBits : Nat := 2047 * Nat.pow 2 52

-- A magnitude below `infinityBits` is a count of quanta shifted by its exponent field.
def quantaOfBits (magnitude : Nat) : Nat :=
  let field := magnitude / Nat.pow 2 52
  let fraction := magnitude % Nat.pow 2 52
  if field = 0 then fraction else (Nat.pow 2 52 + fraction) * Nat.pow 2 (field - 1)

-- The nearest whole number to a quotient; a half goes to the even neighbour.
def roundHalfEven (numerator denominator : Nat) : Nat :=
  let whole := numerator / denominator
  let twice := 2 * (numerator % denominator)
  if twice < denominator then whole
  else if denominator < twice then whole + 1
  else if whole % 2 = 0 then whole
  else whole + 1

def scaleOf (quanta : Nat) : Nat := quanta.log2 - 52

-- The magnitude bits nearest to a quotient of quanta. The exponent field and the significand add
-- up, so a carry out of the significand moves into the field by itself.
def bitsOfRatio (numerator denominator : Nat) : Nat :=
  let scale := scaleOf (numerator / denominator)
  min (scale * Nat.pow 2 52 + roundHalfEven numerator (denominator * Nat.pow 2 scale)) infinityBits

def signBit (negative : Bool) : Nat := if negative then Nat.pow 2 63 else 0

def ofMagnitude (negative : Bool) (magnitude : Nat) : Float :=
  Float.ofBits (UInt64.ofNat (signBit negative + magnitude))

def ofRatio (negative : Bool) (numerator denominator : Nat) : Float :=
  ofMagnitude negative (bitsOfRatio numerator denominator)

def ofQuanta (negative : Bool) (quanta : Nat) : Float := ofRatio negative quanta 1

def nan : Float := Float.ofBits 0x7ff8000000000000

def infinity (negative : Bool) : Float := ofMagnitude negative infinityBits

def exact (x : Float) : Exact :=
  let bits := x.toBits.toNat
  let negative := decide (Nat.pow 2 63 ≤ bits)
  let magnitude := bits % Nat.pow 2 63
  if magnitude < infinityBits then .finite negative (quantaOfBits magnitude)
  else if magnitude = infinityBits then .infinite negative
  else .undefined

def Exact.toFloat : Exact → Float
  | .finite negative quanta => ofQuanta negative quanta
  | .infinite negative => infinity negative
  | .undefined => nan

end Interlock.Number
