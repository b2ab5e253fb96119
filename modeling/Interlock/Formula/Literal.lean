import Interlock.Number.Decimal

/-!
The number at the front of a text.
-/

set_option autoImplicit false

namespace Interlock.Formula

open Interlock.Number (isDigit)

def startsNumber (c : Char) : Bool := isDigit c || c == '.'

def splitDigits (cs : List Char) : List Char × List Char :=
  (cs.takeWhile isDigit, cs.dropWhile isDigit)

def splitFraction : List Char → List Char × List Char
  | '.' :: rest => ('.' :: (splitDigits rest).1, (splitDigits rest).2)
  | cs => ([], cs)

def splitPowerSign : List Char → List Char × List Char
  | '+' :: rest => (['+'], rest)
  | '-' :: rest => (['-'], rest)
  | cs => ([], cs)

-- An exponent counts only if at least one digit follows its mark.
def splitPower : List Char → List Char × List Char
  | 'e' :: rest =>
      let signed := splitPowerSign rest
      let power := splitDigits signed.2
      if power.1.isEmpty then ([], 'e' :: rest) else ('e' :: (signed.1 ++ power.1), power.2)
  | cs => ([], cs)

-- The longest unsigned number, and the rest. It may be a lone mark, which no reader accepts.
def splitNumber (cs : List Char) : List Char × List Char :=
  let whole := splitDigits cs
  let fraction := splitFraction whole.2
  let power := splitPower fraction.2
  (whole.1 ++ fraction.1 ++ power.1, power.2)

theorem split_digits_append (cs : List Char) : (splitDigits cs).1 ++ (splitDigits cs).2 = cs :=
  List.takeWhile_append_dropWhile

theorem split_fraction_append (cs : List Char) :
    (splitFraction cs).1 ++ (splitFraction cs).2 = cs := by
  unfold splitFraction
  split
  · rename_i rest
    simp [split_digits_append rest]
  · rfl

theorem split_power_sign_append (cs : List Char) :
    (splitPowerSign cs).1 ++ (splitPowerSign cs).2 = cs := by
  unfold splitPowerSign
  split <;> rfl

theorem split_power_append (cs : List Char) : (splitPower cs).1 ++ (splitPower cs).2 = cs := by
  unfold splitPower
  split
  · rename_i rest
    dsimp only
    split
    · rfl
    · simp [split_digits_append, split_power_sign_append]
  · rfl

theorem split_number_append (cs : List Char) :
    (splitNumber cs).1 ++ (splitNumber cs).2 = cs := by
  simp [splitNumber, List.append_assoc, split_power_append, split_fraction_append, split_digits_append]

theorem split_number_length (cs : List Char) : (splitNumber cs).2.length ≤ cs.length := by
  have length := congrArg List.length (split_number_append cs)
  simp only [List.length_append] at length
  omega

theorem split_number_nonempty (c : Char) (rest : List Char) (starts : startsNumber c = true) :
    (splitNumber (c :: rest)).1 ≠ [] := by
  unfold startsNumber at starts
  by_cases digit : isDigit c = true
  · simp [splitNumber, splitDigits, digit]
  · have mark : c = '.' := by simpa [digit] using starts
    subst mark
    simp [splitNumber, splitDigits, digit, splitFraction]

theorem split_number_rest_lt (c : Char) (rest : List Char) (starts : startsNumber c = true) :
    (splitNumber (c :: rest)).2.length < (c :: rest).length := by
  have nonempty := List.length_pos_iff.mpr (split_number_nonempty c rest starts)
  have length := congrArg List.length (split_number_append (c :: rest))
  simp only [List.length_append] at length
  omega

end Interlock.Formula
