import Interlock.Formula.Error
import Interlock.Graph.Variable
import Interlock.Text.Blank
import Interlock.Value.Comparator

/-!
Comparisons of two operands, at least one of them a variable.
-/

set_option autoImplicit false

namespace Interlock.Graph

open Interlock.Calendar (Instant)

inductive BindingError where
  | noVariable (comparison : String)
  | typeMismatch (comparison : String) (left right : Kind)
  | invalidConstant (comparison constant : String) (kind : Kind)
  | notBoolean (comparison : String)
  | malformed (comparison : String)
  | compile (error : Formula.CompileError)
deriving DecidableEq, Repr

def BindingError.message : BindingError → String
  | .noVariable comparison => "No variable found in comparison '" ++ comparison ++ "'"
  | .typeMismatch comparison left right =>
      "Type mismatch in '" ++ comparison ++ "': " ++ left.name ++ " cannot be compared with " ++
        right.name
  | .invalidConstant comparison constant kind =>
      "Constant '" ++ constant ++ "' in '" ++ comparison ++ "' is not a valid " ++ kind.name
  | .notBoolean comparison =>
      "Comparison '" ++ comparison ++ "' without an operator requires a Bool variable"
  | .malformed comparison => "Malformed comparison '" ++ comparison ++ "'"
  | .compile error => error.message

inductive Operand where
  | var (id : VariableId)
  | constant (value : Value)
deriving DecidableEq, Repr

namespace Operand

def value? (valueOf : VariableId → Option Value) : Operand → Option Value
  | var id => valueOf id
  | constant value => some value

def var? : Operand → Option VariableId
  | var id => some id
  | constant _ => none

end Operand

structure Relation where
  left : Operand
  comparator : Comparator
  right : Operand
deriving DecidableEq, Repr

namespace Relation

def sample (relation : Relation) (valueOf : VariableId → Option Value) : Bool :=
  relation.comparator.test
    (match relation.left.value? valueOf, relation.right.value? valueOf with
    | some left, some right => left.compare? right
    | _, _ => none)

-- The variables on the two sides; one that stands on both comes twice.
def vars (relation : Relation) : List VariableId :=
  [relation.left, relation.right].filterMap Operand.var?

end Relation

def isRelationChar (c : Char) : Bool := c == '<' || c == '>' || c == '=' || c == '!'

-- The text of a comparison in parts: a name alone, or two operands around a symbol.
inductive Phrase where
  | name (text : String)
  | relation (left : String) (comparator : Comparator) (right : String)
deriving DecidableEq, Repr

def Phrase.read (cs : List Char) : Option Phrase :=
  let left := cs.takeWhile fun c => !isRelationChar c
  let rest := cs.dropWhile fun c => !isRelationChar c
  let right := rest.dropWhile isRelationChar
  if left.isEmpty then none
  else if rest.isEmpty then some (.name (String.ofList left))
  else if right.isEmpty || right.any isRelationChar then none
  else
    (Comparator.ofSymbol? (String.ofList (rest.takeWhile isRelationChar))).map fun comparator =>
      .relation (String.ofList left) comparator (String.ofList right)

abbrev Lookup := String → Option (VariableId × Variable)

def bindConstant (now : Instant) (comparison text : String) (kind : Kind) :
    Except BindingError Operand :=
  match Value.readAs now text kind with
  | some value => .ok (.constant value)
  | none => .error (.invalidConstant comparison text kind)

-- The operands of a comparison. A text that names a variable is that variable, any other one a
-- constant.
def bindOperands (lookup : Lookup) (now : Instant) (comparison left right : String) :
    Except BindingError (Operand × Operand) :=
  match lookup left, lookup right with
  | some (leftId, leftVar), some (rightId, rightVar) =>
      if leftVar.kind = rightVar.kind then .ok (.var leftId, .var rightId)
      else .error (.typeMismatch comparison leftVar.kind rightVar.kind)
  | some (leftId, leftVar), none =>
      (bindConstant now comparison right leftVar.kind).map fun constant => (.var leftId, constant)
  | none, some (rightId, rightVar) =>
      (bindConstant now comparison left rightVar.kind).map fun constant => (constant, .var rightId)
  | none, none => .error (.noVariable comparison)

def bindPhrase (lookup : Lookup) (now : Instant) (comparison : String) :
    Phrase → Except BindingError Relation
  | .relation left comparator right =>
      (bindOperands lookup now comparison left right).map fun (left, right) =>
        ⟨left, comparator, right⟩
  | .name text =>
      match lookup text with
      | none => .error (.noVariable comparison)
      | some (id, var) =>
          match var.value.asBool with
          | some _ => .ok ⟨.var id, .equal, .constant (.bool true)⟩
          | none => .error (.notBoolean comparison)

def strip (comparison : String) : List Char := Text.stripBlanks comparison.toList

def bind (lookup : Lookup) (now : Instant) (comparison : String) : Except BindingError Relation :=
  match Phrase.read (strip comparison) with
  | some phrase => bindPhrase lookup now comparison phrase
  | none => .error (.malformed comparison)

structure Comparison where
  expression : String
  relation : Relation
  -- the truth last published
  latest : Bool
  -- the subscriptions held while active
  links : List (VariableId × Ticket)
  subscribers : Subscribers
deriving DecidableEq, Repr

namespace Comparison

def create (comparison : String) (relation : Relation) (latest : Bool) : Comparison :=
  ⟨String.ofList (strip comparison), relation, latest, [], []⟩

def isActive (comparison : Comparison) : Bool := !comparison.links.isEmpty

end Comparison

end Interlock.Graph
