import Interlock.Proofs.Formula.Grammar
import Interlock.Proofs.Number.Layout

/-!
The runs of the scanner that go through, as a relation: one rule for every branch that does not end in
an error.
-/

set_option autoImplicit false

namespace Interlock.Formula

open Interlock.Text (startsName continuesName)
open Interlock.Number (isDigit)

mutual
inductive Scanned : List Char → Yard → Bool → Stream → Prop where
  | done (yard : Yard) (wanted : Bool) : Scanned [] yard wanted yard.close
  | group (rest body after : List Char) (yard : Yard) (inner stream : Stream)
      (found : splitGroup 0 rest = some (body, after)) (within : Scanned body .empty true inner)
      (later : Scanned after (yard.emit inner) false stream) : Scanned ('(' :: rest) yard true stream
  | negative (c : Char) (rest : List Char) (yard : Yard) (stream : Stream)
      (starts : startsNumber c = true) (numeral : Numeral (splitNumber (c :: rest)).1)
      (later : Scanned (splitNumber (c :: rest)).2
        (yard.emit [.number (valueOf ('-' :: (splitNumber (c :: rest)).1))]) false stream) :
      Scanned ('-' :: c :: rest) yard true stream
  | minus (rest : List Char) (yard : Yard) (stream : Stream)
      (free : rest.head?.any startsNumber = false)
      (later : Scanned rest ((yard.emit [.number (-1)]).hold '*' signStrength) true stream) :
      Scanned ('-' :: rest) yard true stream
  | plus (rest : List Char) (yard : Yard) (stream : Stream) (later : Scanned rest yard true stream) :
      Scanned ('+' :: rest) yard true stream
  | operator (c : Char) (rest : List Char) (yard : Yard) (stream : Stream)
      (operator : isOperator c = true)
      (later : Scanned rest (yard.push c (strengthOf c)) true stream) :
      Scanned (c :: rest) yard false stream
  | number (c : Char) (rest : List Char) (yard : Yard) (stream : Stream)
      (starts : startsNumber c = true) (numeral : Numeral (splitNumber (c :: rest)).1)
      (later : Scanned (splitNumber (c :: rest)).2
        (yard.emit [.number (valueOf (splitNumber (c :: rest)).1)]) false stream) :
      Scanned (c :: rest) yard true stream
  | parameter (c : Char) (rest : List Char) (yard : Yard) (stream : Stream)
      (starts : startsName c = true)
      (free : ∀ inside, rest.dropWhile continuesName ≠ '(' :: inside)
      (later : Scanned (rest.dropWhile continuesName)
        (yard.emit [.parameter (String.ofList (c :: rest.takeWhile continuesName))]) false stream) :
      Scanned (c :: rest) yard true stream
  | call (c : Char) (rest inside body after : List Char) (yard : Yard) (operands stream : Stream)
      (starts : startsName c = true) (behind : rest.dropWhile continuesName = '(' :: inside)
      (found : splitGroup 0 inside = some (body, after))
      (arity : arity? (String.ofList (c :: rest.takeWhile continuesName)) =
        some (argumentFields body).length)
      (within : ScannedFields (argumentFields body) operands)
      (later : Scanned after
        (yard.emit (operands ++ [.call (String.ofList (c :: rest.takeWhile continuesName))
          (argumentFields body).length])) false stream) :
      Scanned (c :: rest) yard true stream

inductive ScannedFields : List (List Char) → Stream → Prop where
  | nil : ScannedFields [] []
  | cons (field : List Char) (others : List (List Char)) (operand operands : Stream)
      (filled : field ≠ []) (within : Scanned field .empty true operand)
      (later : ScannedFields others operands) : ScannedFields (field :: others) (operand ++ operands)
end

theorem read_literal_ok (whole : String) (literal : List Char) (value : Float)
    (ok : readLiteral whole literal = .ok value) : Number.read literal = some value := by
  unfold readLiteral at ok
  split at ok
  · rename_i read
    cases ok
    exact read
  · contradiction

theorem value_of_read (literal : List Char) (value : Float)
    (read : Number.read literal = some value) : value = valueOf literal := by
  rw [valueOf, read, Option.getD_some]

mutual
theorem scan_sound (whole : String) (cs : List Char) (yard : Yard) (wanted : Bool) (stream : Stream)
    (ok : scan whole cs yard wanted = .ok stream) : Scanned cs yard wanted stream := by
  cases cs with
  | nil =>
      rw [scan] at ok
      cases ok
      exact .done yard wanted
  | cons c rest =>
      rw [scan] at ok
      by_cases opening : c = '('
      · rw [if_pos opening] at ok
        subst c
        by_cases operandWanted : wanted = true
        · subst wanted
          rw [if_neg (by decide)] at ok
          split at ok
          · contradiction
          · rename_i body after found
            have := split_group_length found
            split at ok
            · contradiction
            · rename_i inner within
              exact .group rest body after yard inner stream found
                (scan_sound whole body .empty true inner within)
                (scan_sound whole after _ false stream ok)
        · rw [if_pos (by simpa using operandWanted)] at ok
          contradiction
      rw [if_neg opening] at ok
      by_cases closing : c = ')'
      · rw [if_pos closing] at ok
        contradiction
      rw [if_neg closing] at ok
      by_cases negative : c = '-' ∧ wanted = true ∧ rest.head?.any startsNumber = true
      · rw [if_pos negative] at ok
        obtain ⟨rfl, rfl, starts⟩ := negative
        split at ok
        · contradiction
        · rename_i value read
          have := split_number_length rest
          cases rest with
          | nil => simp at starts
          | cons d others =>
              have startsD : startsNumber d = true := by simpa using starts
              have readValue := read_literal_ok _ _ _ read
              rw [value_of_read _ _ readValue] at ok
              exact .negative d others yard stream startsD
                (numeral_of_read d others startsD value (.inr readValue))
                (scan_sound whole _ _ false stream ok)
      rw [if_neg negative] at ok
      by_cases minus : c = '-' ∧ wanted = true
      · rw [if_pos minus] at ok
        obtain ⟨rfl, rfl⟩ := minus
        exact .minus rest yard stream (by simpa using negative)
          (scan_sound whole rest _ true stream ok)
      rw [if_neg minus] at ok
      by_cases plus : c = '+' ∧ wanted = true
      · rw [if_pos plus] at ok
        obtain ⟨rfl, rfl⟩ := plus
        exact .plus rest yard stream (scan_sound whole rest yard true stream ok)
      rw [if_neg plus] at ok
      by_cases operator : isOperator c = true
      · rw [if_pos operator] at ok
        cases wanted with
        | true => contradiction
        | false =>
            exact .operator c rest yard stream operator (scan_sound whole rest _ true stream ok)
      rw [if_neg operator] at ok
      by_cases starts : startsNumber c = true
      · rw [dif_pos starts] at ok
        cases wanted with
        | false => contradiction
        | true =>
            rw [if_neg (by decide)] at ok
            split at ok
            · contradiction
            · rename_i value read
              have := split_number_rest_lt c rest starts
              have readValue := read_literal_ok _ _ _ read
              rw [value_of_read _ _ readValue] at ok
              exact .number c rest yard stream starts
                (numeral_of_read c rest starts value (.inl readValue))
                (scan_sound whole _ _ false stream ok)
      rw [dif_neg starts] at ok
      by_cases named : startsName c = true
      · rw [if_pos named] at ok
        cases wanted with
        | false => contradiction
        | true =>
            rw [if_neg (by decide)] at ok
            dsimp only at ok
            split at ok
            · rename_i inside behind
              split at ok
              · contradiction
              · rename_i body after found
                have := split_group_length found
                have := argument_fields_length body
                have := dropped_length behind
                split at ok
                · contradiction
                · rename_i arity known
                  split at ok
                  · contradiction
                  · rename_i exact
                    have given : (argumentFields body).length = arity := by simpa using exact
                    split at ok
                    · contradiction
                    · rename_i operands within
                      subst arity
                      exact .call c rest inside body after yard operands stream named behind found
                        known (scan_arguments_sound whole _ _ operands within)
                        (scan_sound whole after _ false stream ok)
            · rename_i free
              have := dropped_length (rfl : rest.dropWhile continuesName = _)
              exact .parameter c rest yard stream named (fun inside => free inside)
                (scan_sound whole _ _ false stream ok)
      rw [if_neg named] at ok
      contradiction
termination_by cs.length
decreasing_by
  all_goals
    subst_vars
    simp only [List.length_cons] at *
    omega

theorem scan_arguments_sound (whole name : String) (fields : List (List Char)) (stream : Stream)
    (ok : scanArguments whole name fields = .ok stream) : ScannedFields fields stream := by
  cases fields with
  | nil =>
      rw [scanArguments] at ok
      cases ok
      exact .nil
  | cons field others =>
      rw [scanArguments] at ok
      split at ok
      · contradiction
      · rename_i filled
        split at ok
        · contradiction
        · rename_i operand within
          split at ok
          · contradiction
          · rename_i operands later
            cases ok
            exact .cons field others operand operands (by simpa using filled)
              (scan_sound whole field .empty true operand within)
              (scan_arguments_sound whole name others operands later)
termination_by fieldsLength fields
decreasing_by
  all_goals
    subst_vars
    simp only [fieldsLength]
    omega
end

theorem digit_starts_no_name (c : Char) (digit : isDigit c = true) : startsName c = false := by
  have bounds := Number.digit_code c digit
  have tens : ∀ k : Fin 10, startsName (Char.ofNat (48 + k)) = false := by decide
  have same : Char.ofNat (48 + (c.toNat - 48)) = c := by
    rw [show 48 + (c.toNat - 48) = c.toNat by omega, Char.ofNat_toNat]
  rw [← same]
  exact tens ⟨c.toNat - 48, by omega⟩

theorem name_start_other (c : Char) (starts : startsName c = true) :
    c ≠ '(' ∧ c ≠ ')' ∧ c ≠ '-' ∧ c ≠ '+' ∧ isOperator c = false ∧ startsNumber c = false := by
  have other : ∀ d : Char, startsName d = false → c ≠ d := by
    rintro d outside rfl
    rw [starts] at outside
    contradiction
  refine ⟨other _ rfl, other _ rfl, other _ rfl, other _ rfl, ?_, ?_⟩
  · simp [isOperator, other '+' rfl, other '-' rfl, other '*' rfl, other '/' rfl]
  · by_cases digit : isDigit c = true
    · rw [digit_starts_no_name c digit] at starts
      contradiction
    · simp [startsNumber, digit, other '.' rfl]

theorem scan_name (whole : String) (c : Char) (rest : List Char) (yard : Yard)
    (starts : startsName c = true) (free : ∀ inside, rest.dropWhile continuesName ≠ '(' :: inside) :
    scan whole (c :: rest) yard true = scan whole (rest.dropWhile continuesName)
      (yard.emit [.parameter (String.ofList (c :: rest.takeWhile continuesName))]) false := by
  obtain ⟨noOpening, noClosing, noMinus, noPlus, noOperator, noNumber⟩ := name_start_other c starts
  rw [scan]
  simp only [noOpening, noClosing, noMinus, noPlus, noOperator, noNumber, starts, if_true, if_false,
    false_and, Bool.false_eq_true, dite_false, Bool.not_true]

theorem scan_call (whole : String) (c : Char) (rest inside body after : List Char) (yard : Yard)
    (starts : startsName c = true) (behind : rest.dropWhile continuesName = '(' :: inside)
    (found : splitGroup 0 inside = some (body, after))
    (arity : arity? (String.ofList (c :: rest.takeWhile continuesName)) =
      some (argumentFields body).length) :
    scan whole (c :: rest) yard true =
      match scanArguments whole (String.ofList (c :: rest.takeWhile continuesName))
        (argumentFields body) with
      | .error error => .error error
      | .ok operands =>
          scan whole after
            (yard.emit (operands ++ [.call (String.ofList (c :: rest.takeWhile continuesName))
              (argumentFields body).length])) false := by
  obtain ⟨noOpening, noClosing, noMinus, noPlus, noOperator, noNumber⟩ := name_start_other c starts
  rw [scan]
  simp only [noOpening, noClosing, noMinus, noPlus, noOperator, noNumber, starts, if_true, if_false,
    false_and, Bool.false_eq_true, dite_false, Bool.not_true]
  split
  · rename_i inside' behind'
    obtain ⟨_, rfl⟩ := List.cons.inj (behind.symm.trans behind')
    split
    · rename_i absent
      rw [found] at absent
      contradiction
    · rename_i body' after' found'
      obtain ⟨rfl, rfl⟩ := Prod.mk.inj (Option.some.inj (found.symm.trans found'))
      rw [arity]
      exact if_neg (by simp)
  · rename_i free
    exact absurd behind (free inside)

theorem operator_not_bracket (c : Char) (operator : isOperator c = true) : c ≠ '(' ∧ c ≠ ')' := by
  constructor <;> rintro rfl <;> exact absurd operator (by decide)

theorem number_start_other (c : Char) (starts : startsNumber c = true) :
    c ≠ '(' ∧ c ≠ ')' ∧ c ≠ '-' ∧ c ≠ '+' ∧ isOperator c = false := by
  have other : ∀ d : Char, startsNumber d = false → c ≠ d := by
    rintro d outside rfl
    rw [starts] at outside
    contradiction
  refine ⟨other _ rfl, other _ rfl, other _ rfl, other _ rfl, ?_⟩
  simp [isOperator, other '+' rfl, other '-' rfl, other '*' rfl, other '/' rfl]

theorem read_literal_value (whole : String) (literal : List Char)
    (read : Number.read literal = some (valueOf literal)) :
    readLiteral whole literal = .ok (valueOf literal) := by
  rw [readLiteral, read]

mutual
theorem scan_complete (whole : String) :
    ∀ (cs : List Char) (yard : Yard) (wanted : Bool) (stream : Stream),
      Scanned cs yard wanted stream → scan whole cs yard wanted = .ok stream
  | _, _, _, _, .done yard wanted => by rw [scan]
  | _, _, _, _, .group rest body after yard inner stream found within later => by
      have first := scan_complete whole body .empty true inner within
      have second := scan_complete whole after (yard.emit inner) false stream later
      rw [scan, if_pos rfl, if_neg (by decide)]
      split
      · rename_i absent
        rw [found] at absent
        contradiction
      · rename_i body' after' found'
        obtain ⟨rfl, rfl⟩ := Prod.mk.inj (Option.some.inj (found.symm.trans found'))
        rw [first]
        exact second
  | _, _, _, _, .negative c rest yard stream starts numeral later => by
      have read := read_literal_value whole _ (read_negative_numeral _ numeral)
      have second := scan_complete whole _ _ false stream later
      rw [scan, if_neg (by decide), if_neg (by decide), if_pos ⟨rfl, rfl, by simpa using starts⟩, read]
      exact second
  | _, _, _, _, .minus rest yard stream free later => by
      have second := scan_complete whole rest _ true stream later
      rw [scan, if_neg (by decide), if_neg (by decide), if_neg (by simp [free]),
        if_pos ⟨rfl, rfl⟩, second]
  | _, _, _, _, .plus rest yard stream later => by
      have second := scan_complete whole rest yard true stream later
      rw [scan, if_neg (by decide), if_neg (by decide), if_neg (by simp), if_neg (by simp),
        if_pos ⟨rfl, rfl⟩, second]
  | _, _, _, _, .operator c rest yard stream operator later => by
      obtain ⟨noOpening, noClosing⟩ := operator_not_bracket c operator
      have second := scan_complete whole rest _ true stream later
      rw [scan, if_neg noOpening, if_neg noClosing, if_neg (by simp), if_neg (by simp),
        if_neg (by simp), if_pos operator, if_neg (by decide), second]
  | _, _, _, _, .number c rest yard stream starts numeral later => by
      obtain ⟨noOpening, noClosing, noMinus, noPlus, noOperator⟩ := number_start_other c starts
      have read := read_literal_value whole _ (read_numeral _ numeral)
      have second := scan_complete whole _ _ false stream later
      rw [scan, if_neg noOpening, if_neg noClosing, if_neg (by simp [noMinus]),
        if_neg (by simp [noMinus]), if_neg (by simp [noPlus]), if_neg (by simp [noOperator]),
        dif_pos starts, if_neg (by decide), read]
      exact second
  | _, _, _, _, .parameter c rest yard stream starts free later => by
      rw [scan_name whole c rest yard starts free]
      exact scan_complete whole _ _ false stream later
  | _, _, _, _, .call c rest inside body after yard operands stream starts behind found arity within
      later => by
      have first := scan_arguments_complete whole
        (String.ofList (c :: rest.takeWhile continuesName)) _ operands within
      have second := scan_complete whole after _ false stream later
      rw [scan_call whole c rest inside body after yard starts behind found arity, first]
      exact second

theorem scan_arguments_complete (whole name : String) :
    ∀ (fields : List (List Char)) (stream : Stream),
      ScannedFields fields stream → scanArguments whole name fields = .ok stream
  | _, _, .nil => by rw [scanArguments]
  | _, _, .cons field others operand operands filled within later => by
      have first := scan_complete whole field .empty true operand within
      have second := scan_arguments_complete whole name others operands later
      rw [scanArguments, if_neg (by simpa using filled), first]
      dsimp only
      rw [second]
end

end Interlock.Formula
