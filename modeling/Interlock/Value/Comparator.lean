/-!
The six relations of a comparison.
-/

set_option autoImplicit false

namespace Interlock

inductive Comparator where
  | equal
  | notEqual
  | greater
  | greaterOrEqual
  | less
  | lessOrEqual
deriving DecidableEq, Repr

namespace Comparator

def symbol : Comparator → String
  | equal => "=="
  | notEqual => "!="
  | greater => ">"
  | greaterOrEqual => ">="
  | less => "<"
  | lessOrEqual => "<="

def ofSymbol? (symbol : String) : Option Comparator :=
  if symbol = "=" ∨ symbol = "==" then some equal
  else if symbol = "!=" then some notEqual
  else if symbol = ">" then some greater
  else if symbol = ">=" then some greaterOrEqual
  else if symbol = "<" then some less
  else if symbol = "<=" then some lessOrEqual
  else none

-- Whether the order of two operands satisfies the relation. Operands without an order are only
-- unequal.
def test (comparator : Comparator) (ordering : Option Ordering) : Bool :=
  match ordering with
  | none => comparator == notEqual
  | some ordering =>
      match comparator with
      | equal => ordering == .eq
      | notEqual => ordering != .eq
      | greater => ordering == .gt
      | greaterOrEqual => ordering != .lt
      | less => ordering == .lt
      | lessOrEqual => ordering != .gt

end Comparator

end Interlock
