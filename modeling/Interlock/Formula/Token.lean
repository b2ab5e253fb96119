import Interlock.Number.Decimal

/-!
Tokens of a compiled expression, in the order in which a stack machine consumes them: operands
first, then the operator or function that takes them.
-/

set_option autoImplicit false

namespace Interlock.Formula

inductive Role where
  | number
  | parameter
  | operator
  | call
  | atom
deriving DecidableEq, Repr

-- Numbers, parameters and atoms stand for values themselves; the others consume values.
def Role.isOperand : Role → Bool
  | .number | .parameter | .atom => true
  | .operator | .call => false

inductive Content where
  | empty
  | number (x : Float)
  | flag (b : Bool)
deriving DecidableEq, Repr

-- Numbers are compared as numbers: the two zeros agree, and an undefined number agrees with
-- nothing.
def Content.agrees : Content → Content → Bool
  | .empty, .empty => true
  | .number x, .number y => x == y
  | .flag a, .flag b => a == b
  | _, _ => false

structure Token where
  name : String
  role : Role
  content : Content
  arity : Nat
deriving DecidableEq, Repr

namespace Token

def number (x : Float) : Token := ⟨Number.toPlainText x, .number, .number x, 0⟩

def parameter (name : String) : Token := ⟨name, .parameter, .number 0, 0⟩

-- Negation takes one operand, every other operator two.
def operator (symbol : Char) : Token :=
  ⟨String.ofList [symbol], .operator, .empty, if symbol = '!' then 1 else 2⟩

def call (name : String) (arity : Nat) : Token := ⟨name, .call, .empty, arity⟩

def atom (text : String) : Token := ⟨text, .atom, .flag false, 0⟩

def agrees (a b : Token) : Bool :=
  a.name == b.name && a.role == b.role && a.content.agrees b.content && a.arity == b.arity

end Token

abbrev Stream := List Token

namespace Stream

def text (stream : Stream) : String := String.intercalate ", " (stream.map Token.name)

def agrees : Stream → Stream → Bool
  | [], [] => true
  | a :: as, b :: bs => a.agrees b && agrees as bs
  | _, _ => false

def namesOf (role : Role) (stream : Stream) : List String :=
  (stream.filter fun token => token.role = role).foldl
    (fun names token => if names.contains token.name then names else names ++ [token.name]) []

def parameters (stream : Stream) : List String := namesOf .parameter stream

def atoms (stream : Stream) : List String := namesOf .atom stream

def joined (token : Token) (operands : List String) : String :=
  match token.role, operands with
  | .operator, [left, right] => "(" ++ left ++ token.name ++ right ++ ")"
  | .operator, [operand] => token.name ++ operand
  | _, _ => token.name ++ "(" ++ String.intercalate "," operands ++ ")"

-- The texts on the stack, uppermost first. A stream short of operands joins those that are there.
def texts : Stream → List String → List String
  | [], stack => stack
  | token :: rest, stack =>
      if token.role.isOperand then texts rest (token.name :: stack)
      else
        texts rest
          (joined token (stack.take token.arity).reverse :: stack.drop token.arity)

def toInfix (stream : Stream) : String := String.intercalate " " (texts stream []).reverse

end Stream

end Interlock.Formula
