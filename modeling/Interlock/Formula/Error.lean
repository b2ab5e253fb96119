/-!
What can be wrong with an expression, and what is said about it.
-/

set_option autoImplicit false

namespace Interlock.Formula

-- What an operand was found in front of, with no operator between.
inductive Follower where
  | group
  | number
  | name
deriving DecidableEq, Repr

def Follower.text : Follower → String
  | .group => "'('"
  | .number => "number"
  | .name => "name"

inductive Flaw where
  | missingOperator (before : Follower)
  | unopened
  | unclosed
  | missingLeftOperand (symbol : Char)
  | unexpectedCharacter (symbol : Char)
  | argumentCount (name : String) (arity given : Nat)
  | emptyArgument (name : String)
  | invalidNumber (literal : String)
  | groupInComparison
  | negationInComparison
  | missingOperands (name : String)
  | empty
  | unjoined (count : Nat)
deriving DecidableEq, Repr

def Flaw.message : Flaw → String
  | .missingOperator follower => "missing operator before " ++ follower.text
  | .unopened => "unbalanced ')'"
  | .unclosed => "unbalanced '('"
  | .missingLeftOperand symbol => "operator '" ++ String.ofList [symbol] ++ "' has no left operand"
  | .unexpectedCharacter symbol => "unexpected character '" ++ String.ofList [symbol] ++ "'"
  | .argumentCount name arity given =>
      name ++ " takes " ++ arity.repr ++ " argument(s), " ++ given.repr ++ " given"
  | .emptyArgument name => "empty argument to " ++ name
  | .invalidNumber literal => "invalid number '" ++ literal ++ "'"
  | .groupInComparison => "'(' inside a comparison"
  | .negationInComparison => "'!' inside a comparison"
  | .missingOperands name => "'" ++ name ++ "' is missing operands"
  | .empty => "empty expression"
  | .unjoined count => count.repr ++ " operands are not joined by an operator"

inductive CompileError where
  | undefinedFunction (name : String)
  | unboundVariable (name : String)
  | malformed (expression : String) (flaw : Flaw)
deriving DecidableEq, Repr

def CompileError.message : CompileError → String
  | .undefinedFunction name => "Undefined function '" ++ name ++ "'"
  | .unboundVariable name => "Variable '" ++ name ++ "' is not referenced by the expression"
  | .malformed expression flaw => "Malformed expression '" ++ expression ++ "': " ++ flaw.message

inductive EvaluationError where
  | underflow (token : String) (arity available : Nat)
  | unreduced (count : Nat)
  | unexpected (token : String)
deriving DecidableEq, Repr

def EvaluationError.message : EvaluationError → String
  | .underflow token arity available =>
      "'" ++ token ++ "' expects " ++ arity.repr ++ " operand(s), stack holds " ++ available.repr
  | .unreduced count => "Expression reduced to " ++ count.repr ++ " values instead of one"
  | .unexpected token => "Token '" ++ token ++ "' is not valid in this expression kind"

end Interlock.Formula
