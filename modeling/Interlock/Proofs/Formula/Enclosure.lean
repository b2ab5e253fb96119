import Interlock.Proofs.Formula.Grammar

/-!
Texts whose parentheses match. Splitting a group off, or a body at its commas, passes over such a
text as a whole, and what it splits can be put together again.
-/

set_option autoImplicit false

namespace Interlock.Formula

open Interlock.Text (startsName continuesName)
open Interlock.Number (isDigit)

-- A text that no split ends inside. Below the least depth its commas would count.
structure Closed (least : Nat) (text : List Char) : Prop where
  group : ∀ (depth : Nat) (rest : List Char), splitGroup depth (text ++ rest) =
    (splitGroup depth rest).map fun found => (text ++ found.1, found.2)
  field : ∀ (depth : Nat) (rest : List Char), least ≤ depth →
    splitArguments depth (text ++ rest) = text.foldr extendFirst (splitArguments depth rest)

theorem closed_nil (least : Nat) : Closed least [] := by
  constructor
  · intro depth rest
    simp
  · intro depth rest _
    rfl

theorem closed_append (least : Nat) (first second : List Char) (firstClosed : Closed least first)
    (secondClosed : Closed least second) : Closed least (first ++ second) := by
  constructor
  · intro depth rest
    rw [List.append_assoc, firstClosed.group, secondClosed.group]
    simp [Function.comp_def]
  · intro depth rest bound
    rw [List.append_assoc, firstClosed.field depth _ bound, secondClosed.field depth _ bound,
      List.foldr_append]

theorem closed_deeper (least deeper : Nat) (text : List Char) (bound : least ≤ deeper)
    (closed : Closed least text) : Closed deeper text :=
  ⟨closed.group, fun depth rest below => closed.field depth rest (Nat.le_trans bound below)⟩

theorem closed_char (least : Nat) (c : Char) (noOpening : c ≠ '(') (noClosing : c ≠ ')')
    (noComma : c ≠ ',' ∨ 0 < least) : Closed least [c] := by
  have same : ∀ depth, nesting depth c = depth := fun depth => by
    simp [nesting, noOpening, noClosing]
  constructor
  · intro depth rest
    simp [splitGroup, noClosing, same]
  · intro depth rest bound
    have inside : ¬ (c = ',' ∧ depth = 0) := by
      rintro ⟨comma, rfl⟩
      rcases noComma with other | positive
      · exact other comma
      · omega
    simp [splitArguments, if_neg inside, same]

theorem closed_plain (text : List Char)
    (plain : ∀ c ∈ text, c ≠ '(' ∧ c ≠ ')' ∧ c ≠ ',') : Closed 0 text := by
  induction text with
  | nil => exact closed_nil 0
  | cons c rest ih =>
      obtain ⟨noOpening, noClosing, noComma⟩ := plain c (by simp)
      exact closed_append 0 [c] rest (closed_char 0 c noOpening noClosing (.inl noComma))
        (ih fun d member => plain d (by simp [member]))

theorem closed_group (body : List Char) (closed : Closed 1 body) :
    Closed 0 ('(' :: (body ++ [')'])) := by
  constructor
  · intro depth rest
    have opened : nesting depth '(' = depth + 1 := by simp [nesting]
    have reclosed : nesting (depth + 1) ')' = depth := by simp [nesting]
    simp [splitGroup, opened, closed.group, reclosed, Function.comp_def]
  · intro depth rest _
    have opened : nesting depth '(' = depth + 1 := by simp [nesting]
    have reclosed : nesting (depth + 1) ')' = depth := by simp [nesting]
    simp [splitArguments, opened, closed.field, reclosed]

theorem name_char_plain (c : Char) (continued : continuesName c = true) :
    c ≠ '(' ∧ c ≠ ')' ∧ c ≠ ',' := by
  refine ⟨?_, ?_, ?_⟩ <;> rintro rfl <;> exact absurd continued (by decide)

theorem starts_continues (c : Char) (starts : startsName c = true) : continuesName c = true := by
  simp only [startsName, continuesName, Bool.or_eq_true] at starts ⊢
  exact starts.imp .inl id

theorem name_closed (name : List Char) (named : Name name) : Closed 0 name := by
  cases named with
  | letters c rest starts continued =>
      refine closed_plain _ fun d member => name_char_plain d ?_
      rcases List.mem_cons.mp member with rfl | later
      · exact starts_continues d starts
      · exact continued d later

theorem digit_plain (c : Char) (digit : isDigit c = true) : c ≠ '(' ∧ c ≠ ')' ∧ c ≠ ',' := by
  refine ⟨?_, ?_, ?_⟩ <;> rintro rfl <;> exact absurd digit (by decide)

theorem digits_closed (ds : List Char) (digits : Digits ds) : Closed 0 ds :=
  closed_plain ds fun c member => digit_plain c (digits c member)

theorem numeral_closed (literal : List Char) (numeral : Numeral literal) : Closed 0 literal := by
  cases numeral with
  | parts whole fraction power digits marked raised _ =>
      refine closed_append 0 _ _ (closed_append 0 _ _ (digits_closed whole digits) ?_) ?_
      · cases marked with
        | absent => exact closed_nil 0
        | present ds fractionDigits =>
            exact closed_append 0 ['.'] ds (closed_plain _ (by simp)) (digits_closed ds fractionDigits)
      · cases raised with
        | absent => exact closed_nil 0
        | present sign ds signed powerDigits _ =>
            refine closed_append 0 ['e'] _ (closed_plain _ (by simp)) ?_
            refine closed_append 0 sign ds (closed_plain _ ?_) (digits_closed ds powerDigits)
            rcases signed with rfl | rfl | rfl <;> simp

theorem operator_plain (symbol : Char) (operator : isOperator symbol = true) :
    symbol ≠ '(' ∧ symbol ≠ ')' ∧ symbol ≠ ',' := by
  refine ⟨?_, ?_, ?_⟩ <;> rintro rfl <;> exact absurd operator (by decide)

mutual
theorem expression_closed :
    ∀ (text : List Char) (tree : Tree), Expression text tree → Closed 0 text
  | _, _, .chain first rest operand items leading trailing =>
      closed_append 0 first rest (operand_closed first operand leading)
        (continuation_closed rest items trailing)

theorem continuation_closed :
    ∀ (text : List Char) (chain : Chain), Continuation text chain → Closed 0 text
  | _, _, .done => closed_nil 0
  | _, _, .more symbol first rest operand items operator leading trailing => by
      obtain ⟨noOpening, noClosing, noComma⟩ := operator_plain symbol operator
      exact closed_append 0 [symbol] (first ++ rest)
        (closed_char 0 symbol noOpening noClosing (.inl noComma))
        (closed_append 0 first rest (operand_closed first operand leading)
          (continuation_closed rest items trailing))

theorem operand_closed : ∀ (text : List Char) (tree : Tree), Operand text tree → Closed 0 text
  | _, _, .primary text tree inner => primary_closed text tree inner
  | _, _, .plus text tree inner =>
      closed_append 0 ['+'] text (closed_plain _ (by simp)) (operand_closed text tree inner)
  | _, _, .minus text tree _ inner =>
      closed_append 0 ['-'] text (closed_plain _ (by simp)) (operand_closed text tree inner)

theorem primary_closed : ∀ (text : List Char) (tree : Tree), Primary text tree → Closed 0 text
  | _, _, .number literal numeral => numeral_closed literal numeral
  | _, _, .negative literal numeral =>
      closed_append 0 ['-'] literal (closed_plain _ (by simp)) (numeral_closed literal numeral)
  | _, _, .parameter name named => name_closed name named
  | _, _, .call name body operands named arguments _ =>
      closed_append 0 name _ (name_closed name named)
        (closed_group body (arguments_closed body operands arguments))
  | _, _, .group body tree inner =>
      closed_group body (closed_deeper 0 1 body (by omega) (expression_closed body tree inner))

theorem arguments_closed :
    ∀ (text : List Char) (trees : List Tree), Arguments text trees → Closed 1 text
  | _, _, .none => closed_nil 1
  | _, _, .some body operands fields => fields_closed body operands fields

theorem fields_closed :
    ∀ (text : List Char) (trees : List Tree), Fields text trees → Closed 1 text
  | _, _, .last field operand inner =>
      closed_deeper 0 1 field (by omega) (expression_closed field operand inner)
  | _, _, .more field rest operand operands inner others =>
      closed_append 1 field (',' :: rest)
        (closed_deeper 0 1 field (by omega) (expression_closed field operand inner))
        (closed_append 1 [','] rest (closed_char 1 ',' (by decide) (by decide) (.inr (by omega)))
          (fields_closed rest operands others))
end

theorem split_group_closed (body rest : List Char) (closed : Closed 1 body) :
    splitGroup 0 (body ++ ')' :: rest) = some (body, rest) := by
  rw [closed.group]
  simp [splitGroup]

theorem split_group_join (depth : Nat) (cs body after : List Char)
    (found : splitGroup depth cs = some (body, after)) : cs = body ++ ')' :: after := by
  induction cs generalizing depth body after with
  | nil => simp [splitGroup] at found
  | cons c rest ih =>
      rw [splitGroup] at found
      split at found
      · rename_i ends
        cases found
        rw [ends.1, List.nil_append]
      · obtain ⟨⟨inner, behind⟩, split, same⟩ := Option.map_eq_some_iff.mp found
        cases same
        rw [List.cons_append, ← ih _ _ _ split]

theorem extend_fields (text field : List Char) (others : List (List Char)) :
    text.foldr extendFirst (field :: others) = (text ++ field) :: others := by
  induction text with
  | nil => rfl
  | cons c rest ih => rw [List.foldr_cons, ih, extendFirst, List.cons_append]

theorem split_arguments_last (field : List Char) (closed : Closed 0 field) :
    splitArguments 0 field = [field] := by
  have split := closed.field 0 [] (by omega)
  rwa [List.append_nil, splitArguments, extend_fields, List.append_nil] at split

theorem split_arguments_more (field rest : List Char) (closed : Closed 0 field) :
    splitArguments 0 (field ++ ',' :: rest) = field :: splitArguments 0 rest := by
  rw [closed.field 0 _ (by omega), splitArguments, if_pos ⟨rfl, rfl⟩, extend_fields, List.append_nil]

def joinFields : List (List Char) → List Char
  | [] => []
  | [field] => field
  | field :: other :: others => field ++ ',' :: joinFields (other :: others)

theorem join_extended (c : Char) (field : List Char) (others : List (List Char)) :
    joinFields (extendFirst c (field :: others)) = c :: joinFields (field :: others) := by
  cases others <;> rfl

theorem split_arguments_join (depth : Nat) (body : List Char) :
    joinFields (splitArguments depth body) = body ∧ splitArguments depth body ≠ [] := by
  induction body generalizing depth with
  | nil => exact ⟨rfl, by simp [splitArguments]⟩
  | cons c rest ih =>
      rw [splitArguments]
      split
      · rename_i comma
        obtain ⟨joined, some⟩ := ih depth
        cases split : splitArguments depth rest with
        | nil => exact absurd split some
        | cons field others =>
            rw [split] at joined
            exact ⟨by rw [joinFields, joined, comma.1, List.nil_append], by simp⟩
      · obtain ⟨joined, some⟩ := ih (nesting depth c)
        cases split : splitArguments (nesting depth c) rest with
        | nil => exact absurd split some
        | cons field others =>
            rw [split] at joined
            exact ⟨by rw [join_extended, joined], by simp [extendFirst]⟩

end Interlock.Formula
