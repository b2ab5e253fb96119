import Interlock.Formula.Token

/-!
Operators wait in a yard until one that binds less tightly arrives; then they follow their operands
into the stream.
-/

set_option autoImplicit false

namespace Interlock.Formula

structure Waiting where
  symbol : Char
  strength : Nat
deriving DecidableEq, Repr

structure Yard where
  output : Stream
  waiting : List Waiting
deriving DecidableEq, Repr

namespace Yard

def empty : Yard := ⟨[], []⟩

def emit (yard : Yard) (stream : Stream) : Yard := { yard with output := yard.output ++ stream }

def hold (yard : Yard) (symbol : Char) (strength : Nat) : Yard :=
  { yard with waiting := ⟨symbol, strength⟩ :: yard.waiting }

def release (yard : Yard) (strength : Nat) : Yard :=
  let binds (operator : Waiting) : Bool := strength ≤ operator.strength
  ⟨yard.output ++ (yard.waiting.takeWhile binds).map (fun operator => Token.operator operator.symbol),
    yard.waiting.dropWhile binds⟩

def push (yard : Yard) (symbol : Char) (strength : Nat) : Yard :=
  (yard.release strength).hold symbol strength

def close (yard : Yard) : Stream := (yard.release 0).output

end Yard

end Interlock.Formula
