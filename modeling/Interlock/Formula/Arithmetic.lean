import Interlock.Formula.Builtin
import Interlock.Formula.Group
import Interlock.Formula.Literal
import Interlock.Formula.Validation
import Interlock.Formula.Yard
import Interlock.Text.Blank
import Interlock.Text.Case
import Interlock.Text.Letter

/-!
The compiler of arithmetic expressions. Blanks are dropped and letters lowered first. `*` and `/`
bind tighter than `+` and `-`; a sign before an operand binds tighter still and multiplies by minus
one, unless a number follows it directly. Groups and arguments are compiled on their own.
-/

set_option autoImplicit false

namespace Interlock.Formula

open Interlock.Text (startsName continuesName)

def isOperator (c : Char) : Bool := c == '+' || c == '-' || c == '*' || c == '/'

def strengthOf (symbol : Char) : Nat := if symbol = '*' ∨ symbol = '/' then 2 else 1

def signStrength : Nat := 3

def readLiteral (whole : String) (literal : List Char) : Except CompileError Float :=
  match Number.read literal with
  | some value => .ok value
  | none => .error (.malformed whole (.invalidNumber (String.ofList literal)))

theorem dropped_length {p : Char → Bool} {cs after : List Char} (dropped : cs.dropWhile p = after) :
    after.length ≤ cs.length :=
  dropped ▸ (List.dropWhile_sublist p).length_le

mutual

-- Scans a text whose next part must be an operand if `wanted` holds, and an operator if not.
def scan (whole : String) (cs : List Char) (yard : Yard) (wanted : Bool) :
    Except CompileError Stream :=
  match cs with
  | [] => .ok yard.close
  | c :: rest =>
      if c = '(' then
        if !wanted then .error (.malformed whole (.missingOperator .group))
        else
          match found : splitGroup 0 rest with
          | none => .error (.malformed whole .unclosed)
          | some (body, after) =>
              have := split_group_length found
              match scan whole body .empty true with
              | .error error => .error error
              | .ok group => scan whole after (yard.emit group) false
      else if c = ')' then .error (.malformed whole .unopened)
      else if c = '-' ∧ wanted ∧ (rest.head?.any startsNumber) then
        match readLiteral whole ('-' :: (splitNumber rest).1) with
        | .error error => .error error
        | .ok value =>
            have := split_number_length rest
            scan whole (splitNumber rest).2 (yard.emit [.number value]) false
      else if c = '-' ∧ wanted then
        scan whole rest ((yard.emit [.number (-1)]).hold '*' signStrength) true
      else if c = '+' ∧ wanted then scan whole rest yard true
      else if isOperator c then
        if wanted then .error (.malformed whole (.missingLeftOperand c))
        else scan whole rest (yard.push c (strengthOf c)) true
      else if starts : startsNumber c then
        if !wanted then .error (.malformed whole (.missingOperator .number))
        else
          match readLiteral whole (splitNumber (c :: rest)).1 with
          | .error error => .error error
          | .ok value =>
              have := split_number_rest_lt c rest starts
              scan whole (splitNumber (c :: rest)).2 (yard.emit [.number value]) false
      else if startsName c then
        if !wanted then .error (.malformed whole (.missingOperator .name))
        else
          let name := String.ofList (c :: rest.takeWhile continuesName)
          match behind : rest.dropWhile continuesName with
          | '(' :: inside =>
              match found : splitGroup 0 inside with
              | none => .error (.malformed whole .unclosed)
              | some (body, after) =>
                  have := split_group_length found
                  have := argument_fields_length body
                  have := dropped_length behind
                  match arity? name with
                  | none => .error (.undefinedFunction name)
                  | some arity =>
                      let given := (argumentFields body).length
                      if given ≠ arity then
                        .error (.malformed whole (.argumentCount name arity given))
                      else
                        match scanArguments whole name (argumentFields body) with
                        | .error error => .error error
                        | .ok operands =>
                            scan whole after (yard.emit (operands ++ [.call name arity])) false
          | after =>
              have := dropped_length behind
              scan whole after (yard.emit [.parameter name]) false
      else .error (.malformed whole (.unexpectedCharacter c))
termination_by cs.length
decreasing_by
  all_goals
    simp only [List.length_cons] at *
    omega

def scanArguments (whole name : String) (fields : List (List Char)) :
    Except CompileError Stream :=
  match fields with
  | [] => .ok []
  | field :: others =>
      if field.isEmpty then .error (.malformed whole (.emptyArgument name))
      else
        match scan whole field .empty true with
        | .error error => .error error
        | .ok operand =>
            match scanArguments whole name others with
            | .error error => .error error
            | .ok operands => .ok (operand ++ operands)
termination_by fieldsLength fields
decreasing_by
  all_goals
    simp only [fieldsLength]
    omega

end

-- The text that is compiled: no blanks, lower case.
def normalize (expression : String) : String :=
  String.ofList (Text.lower (Text.stripBlanks expression.toList))

def compileArithmetic (expression : String) : Except CompileError Stream :=
  let whole := normalize expression
  match scan whole whole.toList .empty true with
  | .error error => .error error
  | .ok stream =>
      match stream.validate whole with
      | .error error => .error error
      | .ok () => .ok stream

end Interlock.Formula
