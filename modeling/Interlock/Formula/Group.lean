/-!
Parenthesised groups: the text up to the closing parenthesis, and its arguments between commas.
-/

set_option autoImplicit false

namespace Interlock.Formula

def nesting (depth : Nat) (c : Char) : Nat :=
  if c = '(' then depth + 1 else if c = ')' then depth - 1 else depth

-- Splits what follows an opening parenthesis into the group's body and the text behind the
-- parenthesis that closes it. `depth` counts the groups open inside.
def splitGroup : Nat → List Char → Option (List Char × List Char)
  | _, [] => none
  | depth, c :: rest =>
      if c = ')' ∧ depth = 0 then some ([], rest)
      else (splitGroup (nesting depth c) rest).map fun (body, after) => (c :: body, after)

theorem split_group_length {depth : Nat} {cs body after : List Char}
    (found : splitGroup depth cs = some (body, after)) :
    body.length + after.length + 1 = cs.length := by
  induction cs generalizing depth body after with
  | nil => simp [splitGroup] at found
  | cons c rest ih =>
      rw [splitGroup] at found
      split at found
      · cases found
        simp
      · obtain ⟨⟨inner, behind⟩, split, same⟩ := Option.map_eq_some_iff.mp found
        cases same
        simp [← ih split]
        omega

def extendFirst (c : Char) : List (List Char) → List (List Char)
  | [] => [[c]]
  | field :: fields => (c :: field) :: fields

def splitArguments : Nat → List Char → List (List Char)
  | _, [] => [[]]
  | depth, c :: rest =>
      if c = ',' ∧ depth = 0 then [] :: splitArguments depth rest
      else extendFirst c (splitArguments (nesting depth c) rest)

def fieldsLength : List (List Char) → Nat
  | [] => 0
  | field :: fields => field.length + 1 + fieldsLength fields

theorem split_arguments_length (depth : Nat) (cs : List Char) :
    fieldsLength (splitArguments depth cs) = cs.length + 1 := by
  induction cs generalizing depth with
  | nil => rfl
  | cons c rest ih =>
      rw [splitArguments]
      split
      · have length := ih depth
        simp only [fieldsLength, List.length_nil, List.length_cons] at length ⊢
        omega
      · have length := ih (nesting depth c)
        cases fields : splitArguments (nesting depth c) rest with
        | nil => simp [fields, fieldsLength] at length
        | cons field others =>
            simp only [fields, extendFirst, fieldsLength, List.length_cons] at length ⊢
            omega

-- The arguments of a call: none in an empty body.
def argumentFields (body : List Char) : List (List Char) :=
  if body = [] then [] else splitArguments 0 body

theorem argument_fields_length (body : List Char) :
    fieldsLength (argumentFields body) ≤ body.length + 1 := by
  unfold argumentFields
  split
  · simp [fieldsLength]
  · exact Nat.le_of_eq (split_arguments_length 0 body)

end Interlock.Formula
