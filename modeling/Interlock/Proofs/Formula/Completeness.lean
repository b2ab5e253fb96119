import Interlock.Proofs.Formula.Assembly
import Interlock.Proofs.Formula.Enclosure
import Interlock.Proofs.Formula.Scanning

/-!
Every derived text is scanned, to the stream of the tree that its derivation stands for.
-/

set_option autoImplicit false

namespace Interlock.Formula

open Interlock.Text (startsName continuesName)
open Interlock.Number (isDigit)

def Behind (rest : List Char) : Prop := ∀ c ∈ rest.head?, isOperator c = true

theorem behind_nil : Behind [] := by simp [Behind]

theorem behind_continuation (text : List Char) (chain : Chain) (trailing : Continuation text chain) :
    Behind text := by
  cases trailing with
  | done => exact behind_nil
  | more symbol first rest operand items operator _ _ => simpa [Behind] using operator

theorem operator_no_name (c : Char) (operator : isOperator c = true) : continuesName c = false := by
  simp only [isOperator, Bool.or_eq_true, beq_iff_eq] at operator
  rcases operator with ((rfl | rfl) | rfl) | rfl <;> rfl

theorem operator_no_number (c : Char) (operator : isOperator c = true) :
    isDigit c = false ∧ c ≠ '.' ∧ c ≠ 'e' := by
  simp only [isOperator, Bool.or_eq_true, beq_iff_eq] at operator
  rcases operator with ((rfl | rfl) | rfl) | rfl <;> decide

theorem behind_apart (rest : List Char) (behind : Behind rest) : Apart rest := fun c member =>
  operator_no_number c (behind c member)

theorem split_name (letters rest : List Char) (continued : ∀ d ∈ letters, continuesName d = true)
    (ended : ∀ d ∈ rest.head?, continuesName d = false) :
    (letters ++ rest).takeWhile continuesName = letters ∧
      (letters ++ rest).dropWhile continuesName = rest := by
  rw [List.takeWhile_append_of_pos continued, List.dropWhile_append_of_pos continued]
  cases rest with
  | nil => simp
  | cons d others => simp [ended d (by simp)]

theorem name_scanned (name rest : List Char) (yard : Yard) (stream : Stream) (named : Name name)
    (behind : Behind rest)
    (later : Scanned rest (yard.emit [.parameter (String.ofList name)]) false stream) :
    Scanned (name ++ rest) yard true stream := by
  cases named with
  | letters c letters starts continued =>
      obtain ⟨taken, dropped⟩ := split_name letters rest continued fun d member =>
        operator_no_name d (behind d member)
      refine .parameter c (letters ++ rest) yard stream starts ?_ ?_
      · rintro inside same
        rw [dropped] at same
        subst rest
        exact absurd (behind '(' rfl) (by decide)
      · rw [taken, dropped]
        exact later

theorem call_scanned (name body rest : List Char) (yard : Yard) (operands stream : Stream)
    (named : Name name) (closed : Closed 1 body)
    (arity : arity? (String.ofList name) = some (argumentFields body).length)
    (within : ScannedFields (argumentFields body) operands)
    (later : Scanned rest (yard.emit
      (operands ++ [.call (String.ofList name) (argumentFields body).length])) false stream) :
    Scanned (name ++ '(' :: (body ++ ')' :: rest)) yard true stream := by
  cases named with
  | letters c letters starts continued =>
      obtain ⟨taken, dropped⟩ := split_name letters ('(' :: (body ++ ')' :: rest)) continued (by
        rintro d member
        obtain rfl : '(' = d := by simpa using member
        rfl)
      refine .call c (letters ++ '(' :: (body ++ ')' :: rest)) _ body rest yard operands stream starts
        dropped (split_group_closed body rest closed) ?_ within ?_
      · rw [taken]
        exact arity
      · rw [taken]
        exact later

theorem number_scanned (literal rest : List Char) (yard : Yard) (stream : Stream)
    (numeral : Numeral literal) (behind : Behind rest)
    (later : Scanned rest (yard.emit [.number (valueOf literal)]) false stream) :
    Scanned (literal ++ rest) yard true stream := by
  have split := split_number_complete literal rest numeral (behind_apart rest behind)
  obtain ⟨c, others, rfl, starts⟩ := numeral_head literal numeral
  rw [List.cons_append] at split ⊢
  refine .number c _ yard stream starts ?_ ?_
  · rw [split]
    exact numeral
  · rw [split]
    exact later

theorem negative_scanned (literal rest : List Char) (yard : Yard) (stream : Stream)
    (numeral : Numeral literal) (behind : Behind rest)
    (later : Scanned rest (yard.emit [.number (valueOf ('-' :: literal))]) false stream) :
    Scanned ('-' :: (literal ++ rest)) yard true stream := by
  have split := split_number_complete literal rest numeral (behind_apart rest behind)
  obtain ⟨c, others, rfl, starts⟩ := numeral_head literal numeral
  rw [List.cons_append] at split ⊢
  refine .negative c _ yard stream starts ?_ ?_
  · rw [split]
    exact numeral
  · rw [split]
    exact later

-- Behind an operand the scanner closes the yard or pushes an operator, so it does not see what the
-- operator would release.
theorem scanned_agree (rest : List Char) (yard other : Yard) (stream : Stream)
    (agree : yard.Agree 2 other) (scanned : Scanned rest other false stream) :
    Scanned rest yard false stream := by
  cases scanned with
  | done =>
      rw [← Yard.close_agree 2 yard other agree]
      exact .done yard false
  | operator c others _ _ operator later =>
      refine .operator c others yard stream operator ?_
      rw [Yard.push_agree 2 yard other agree c _ (Yard.strength_bounds c)]
      exact later

theorem negated_agree (yard : Yard) (tree : Tree) :
    Yard.Agree 2 (((yard.emit [.number (-1)]).hold '*' signStrength).emit tree.postorder)
      (yard.emit tree.negated.postorder) := by
  intro strength bound
  have agree := Yard.combine_agree yard.output '*' signStrength yard.waiting (.number (-1)) tree
  have below : strength ≤ signStrength := Nat.le_trans bound (by decide)
  have same := agree strength below
  simpa [Yard.emit, Yard.hold, Tree.number, Tree.leaf, Tree.postorder, Tree.postorders, Tree.negated]
    using same

theorem name_filled (name : List Char) (named : Name name) : name ≠ [] := by
  cases named
  simp

theorem primary_filled (text : List Char) (tree : Tree) (primary : Primary text tree) : text ≠ [] := by
  cases primary with
  | number literal numeral =>
      obtain ⟨c, rest, rfl, _⟩ := numeral_head text numeral
      simp
  | negative => simp
  | parameter _ named => exact name_filled text named
  | call => simp
  | group => simp

theorem operand_filled (text : List Char) (tree : Tree) (operand : Operand text tree) : text ≠ [] := by
  cases operand with
  | primary _ _ inner => exact primary_filled text tree inner
  | plus => simp
  | minus => simp

theorem expression_filled (text : List Char) (tree : Tree) (expression : Expression text tree) :
    text ≠ [] := by
  cases expression with
  | chain first rest operand items leading _ => simp [operand_filled first operand leading]

theorem fields_filled (text : List Char) (trees : List Tree) (fields : Fields text trees) :
    text ≠ [] := by
  cases fields with
  | last _ operand inner => exact expression_filled text operand inner
  | more => simp

theorem head_append_filled (text rest : List Char) (filled : text ≠ []) :
    (text ++ rest).head? = text.head? := by
  cases text with
  | nil => contradiction
  | cons c others => rfl

mutual
theorem expression_scanned :
    ∀ (text : List Char) (tree : Tree), Expression text tree →
      Scanned text .empty true tree.postorder
  | _, _, .chain first rest operand items leading trailing => by
      rw [← Yard.close_items]
      exact operand_scanned first operand leading rest _ _ (behind_continuation rest items trailing)
        (continuation_scanned rest items trailing _)

theorem continuation_scanned :
    ∀ (text : List Char) (chain : Chain), Continuation text chain →
      ∀ yard : Yard, Scanned text yard false (yard.runItems chain).close
  | _, _, .done, yard => .done yard false
  | _, _, .more symbol first rest operand items operator leading trailing, yard =>
      .operator symbol _ yard _ operator
        (operand_scanned first operand leading rest _ _ (behind_continuation rest items trailing)
          (continuation_scanned rest items trailing _))

theorem operand_scanned :
    ∀ (text : List Char) (tree : Tree), Operand text tree →
      ∀ (rest : List Char) (yard : Yard) (stream : Stream), Behind rest →
        Scanned rest (yard.emit tree.postorder) false stream →
          Scanned (text ++ rest) yard true stream
  | _, _, .primary text tree inner, rest, yard, stream, behind, later =>
      primary_scanned text tree inner rest yard stream behind later
  | _, _, .plus text tree inner, rest, yard, stream, behind, later =>
      .plus _ yard stream (operand_scanned text tree inner rest yard stream behind later)
  | _, _, .minus text tree free inner, rest, yard, stream, behind, later => by
      refine .minus (text ++ rest) yard stream ?_ ?_
      · rw [head_append_filled text rest (operand_filled text tree inner)]
        exact free
      · exact operand_scanned text tree inner rest _ stream behind
          (scanned_agree rest _ _ stream (negated_agree yard tree) later)

theorem primary_scanned :
    ∀ (text : List Char) (tree : Tree), Primary text tree →
      ∀ (rest : List Char) (yard : Yard) (stream : Stream), Behind rest →
        Scanned rest (yard.emit tree.postorder) false stream →
          Scanned (text ++ rest) yard true stream
  | _, _, .number literal numeral, rest, yard, stream, behind, later =>
      number_scanned literal rest yard stream numeral behind later
  | _, _, .negative literal numeral, rest, yard, stream, behind, later =>
      negative_scanned literal rest yard stream numeral behind later
  | _, _, .parameter name named, rest, yard, stream, behind, later =>
      name_scanned name rest yard stream named behind later
  | _, _, .call name body operands named arguments arity, rest, yard, stream, _, later => by
      obtain ⟨count, within⟩ := arguments_scanned body operands arguments
      simp only [List.append_assoc, List.cons_append, List.nil_append]
      refine call_scanned name body rest yard _ stream named
        (arguments_closed body operands arguments) ?_ within ?_
      · rw [count]
        exact arity
      · rw [count]
        exact later
  | _, _, .group body tree inner, rest, yard, stream, _, later => by
      have closed := closed_deeper 0 1 body (by omega) (expression_closed body tree inner)
      simp only [List.append_assoc, List.cons_append, List.nil_append]
      exact .group _ body rest yard tree.postorder stream (split_group_closed body rest closed)
        (expression_scanned body tree inner) later

theorem arguments_scanned :
    ∀ (text : List Char) (trees : List Tree), Arguments text trees →
      (argumentFields text).length = trees.length ∧
        ScannedFields (argumentFields text) (Tree.postorders trees)
  | _, _, .none => ⟨rfl, .nil⟩
  | _, _, .some body operands fields => by
      rw [argumentFields, if_neg (fields_filled body operands fields)]
      exact fields_scanned body operands fields

theorem fields_scanned :
    ∀ (text : List Char) (trees : List Tree), Fields text trees →
      (splitArguments 0 text).length = trees.length ∧
        ScannedFields (splitArguments 0 text) (Tree.postorders trees)
  | _, _, .last field operand inner => by
      rw [split_arguments_last field (expression_closed field operand inner)]
      exact ⟨rfl, .cons field [] operand.postorder [] (expression_filled field operand inner)
        (expression_scanned field operand inner) .nil⟩
  | _, _, .more field rest operand operands inner others => by
      obtain ⟨count, within⟩ := fields_scanned rest operands others
      rw [split_arguments_more field rest (expression_closed field operand inner)]
      exact ⟨by simp [count], .cons field _ operand.postorder _ (expression_filled field operand inner)
        (expression_scanned field operand inner) within⟩
end

end Interlock.Formula
