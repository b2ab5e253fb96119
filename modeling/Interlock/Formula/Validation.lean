import Interlock.Formula.Token
import Interlock.Formula.Error

/-!
The arity check: a stream is well formed when every token finds its operands on the stack and one
value remains. Only the depth of the stack is followed.
-/

set_option autoImplicit false

namespace Interlock.Formula.Stream

def depth : Stream → Nat → Except Flaw Nat
  | [], height => .ok height
  | token :: rest, height =>
      if height < token.arity then .error (.missingOperands token.name)
      else depth rest (height - token.arity + 1)

def check (stream : Stream) : Except Flaw Unit :=
  match depth stream 0 with
  | .error flaw => .error flaw
  | .ok 0 => .error .empty
  | .ok 1 => .ok ()
  | .ok count => .error (.unjoined count)

def validate (stream : Stream) (expression : String) : Except CompileError Unit :=
  (check stream).mapError (.malformed expression)

end Interlock.Formula.Stream
