import Interlock.Formula.Group
import Interlock.Formula.Validation
import Interlock.Formula.Yard
import Interlock.Text.Blank

/-!
The compiler of logical conditions. `!` binds tighter than `&`, which binds tighter than `|`; both
binary operators may be doubled. All text between operators is a comparison, kept as it is written
but for its blanks. A `!` directly before `=` belongs to the comparison.
-/

set_option autoImplicit false

namespace Interlock.Formula

def connectiveStrength (symbol : Char) : Nat :=
  if symbol = '!' then 3 else if symbol = '&' then 2 else 1

def emitAtom (atom : List Char) (yard : Yard) : Yard :=
  if atom = [] then yard else yard.emit [.atom (String.ofList atom)]

def skipSame (c : Char) : List Char → List Char
  | [] => []
  | d :: rest => if d = c then rest else d :: rest

theorem skip_same_length (c : Char) (cs : List Char) : (skipSame c cs).length ≤ cs.length := by
  fun_cases skipSame c cs <;> simp

def scanCondition (whole : String) (cs : List Char) (yard : Yard) (atom : List Char) :
    Except CompileError Stream :=
  match cs with
  | [] => .ok (emitAtom atom yard).close
  | c :: rest =>
      if c = '(' then
        if atom ≠ [] then .error (.malformed whole .groupInComparison)
        else
          match found : splitGroup 0 rest with
          | none => .error (.malformed whole .unclosed)
          | some (body, after) =>
              have := split_group_length found
              match scanCondition whole body .empty [] with
              | .error error => .error error
              | .ok group => scanCondition whole after (yard.emit group) []
      else if c = ')' then .error (.malformed whole .unopened)
      else if c = '!' then
        match rest with
        | '=' :: behind => scanCondition whole behind yard (atom ++ ['!', '='])
        | behind =>
            if atom ≠ [] then .error (.malformed whole .negationInComparison)
            else scanCondition whole behind (yard.hold '!' (connectiveStrength '!')) []
      else if c = '&' ∨ c = '|' then
        have := skip_same_length c rest
        scanCondition whole (skipSame c rest) ((emitAtom atom yard).push c (connectiveStrength c)) []
      else scanCondition whole rest yard (atom ++ [c])
termination_by cs.length
decreasing_by
  all_goals
    simp only [List.length_cons] at *
    omega

def compileLogic (expression : String) : Except CompileError Stream :=
  let whole := String.ofList (Text.stripBlanks expression.toList)
  match scanCondition whole whole.toList .empty [] with
  | .error error => .error error
  | .ok stream =>
      match stream.validate whole with
      | .error error => .error error
      | .ok () => .ok stream

end Interlock.Formula
