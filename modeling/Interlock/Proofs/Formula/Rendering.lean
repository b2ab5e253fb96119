import Interlock.Proofs.Formula.Compilation
import Interlock.Proofs.Number.Exactness
import Interlock.Proofs.Text.Lowering

/-!
The infix text of a stream is the text of its tree, with every operation in parentheses. The trees of
compiled expressions are legible: their numbers are defined and their names are names in lower case.
-/

set_option autoImplicit false

namespace Interlock.Formula

open Interlock.Text (Settled)

namespace Tree

mutual
def text : Tree → String
  | .node token operands =>
      if token.role.isOperand then token.name else Stream.joined token (texts operands)

def texts : List Tree → List String
  | [] => []
  | tree :: rest => text tree :: texts rest
end

theorem texts_map (trees : List Tree) : texts trees = trees.map text := by
  induction trees with
  | nil => rfl
  | cons tree rest ih => rw [texts, ih, List.map_cons]

theorem combine_text (symbol : Char) (left right : Tree) :
    (combine symbol left right).text =
      "(" ++ left.text ++ String.ofList [symbol] ++ right.text ++ ")" := rfl

theorem call_text (name : String) (operands : List Tree) :
    (call name operands).text =
      name ++ "(" ++ String.intercalate "," (operands.map text) ++ ")" := by
  rw [← texts_map]
  rfl

inductive Legible : Tree → Prop where
  | number (value : Float) (defined : Number.exact value ≠ .undefined) : Legible (.number value)
  | parameter (name : String) (named : Name name.toList) (settled : ∀ c ∈ name.toList, Settled c) :
      Legible (.parameter name)
  | combine (symbol : Char) (left right : Tree) (operator : isOperator symbol = true)
      (leftLegible : Legible left) (rightLegible : Legible right) : Legible (.combine symbol left right)
  | call (name : String) (operands : List Tree) (named : Name name.toList)
      (settled : ∀ c ∈ name.toList, Settled c) (arity : arity? name = some operands.length)
      (each : ∀ operand ∈ operands, Legible operand) : Legible (.call name operands)

end Tree

theorem value_of_defined (literal : List Char) (numeral : Numeral literal) :
    Number.exact (valueOf literal) ≠ .undefined ∧ Number.exact (valueOf ('-' :: literal)) ≠ .undefined := by
  obtain ⟨decimal, read⟩ := read_decimal_complete literal numeral
  obtain ⟨c, rest, rfl, starts⟩ := numeral_head literal numeral
  have positive := read_of_decimal false _ _ decimal (split_sign_number c rest starts) read
  have negative := read_of_decimal true ('-' :: c :: rest) _ decimal rfl read
  rw [valueOf, valueOf, positive, negative]
  exact ⟨Number.to_float_defined false decimal, Number.to_float_defined true decimal⟩

theorem name_legible (name : List Char) (named : Name name) (settled : ∀ c ∈ name, Settled c) :
    Name (String.ofList name).toList ∧ ∀ c ∈ (String.ofList name).toList, Settled c := by
  rw [String.toList_ofList]
  exact ⟨named, settled⟩

mutual
theorem expression_legible :
    ∀ (text : List Char) (tree : Tree), Expression text tree → (∀ c ∈ text, Settled c) → tree.Legible
  | _, _, .chain first rest operand items leading trailing, settled => by
      obtain ⟨front, behind⟩ := List.forall_mem_append.mp settled
      exact assemble_inherited Tree.Legible.combine operand items
        (operand_legible first operand leading front) (continuation_legible rest items trailing behind)

theorem continuation_legible :
    ∀ (text : List Char) (chain : Chain), Continuation text chain → (∀ c ∈ text, Settled c) →
      ∀ item ∈ chain, isOperator item.1 = true ∧ item.2.Legible
  | _, _, .done, _ => by simp
  | _, _, .more symbol first rest operand items operator leading trailing, settled => by
      obtain ⟨front, behind⟩ := List.forall_mem_append.mp (List.forall_mem_cons.mp settled).2
      intro item member
      rcases List.mem_cons.mp member with same | later
      · rw [same]
        exact ⟨operator, operand_legible first operand leading front⟩
      · exact continuation_legible rest items trailing behind item later

theorem operand_legible :
    ∀ (text : List Char) (tree : Tree), Operand text tree → (∀ c ∈ text, Settled c) → tree.Legible
  | _, _, .primary text tree inner, settled => primary_legible text tree inner settled
  | _, _, .plus text tree inner, settled => operand_legible text tree inner (List.forall_mem_cons.mp settled).2
  | _, _, .minus text tree _ inner, settled =>
      .combine '*' _ tree rfl (.number (-1) (by decide +kernel))
        (operand_legible text tree inner (List.forall_mem_cons.mp settled).2)

theorem primary_legible :
    ∀ (text : List Char) (tree : Tree), Primary text tree → (∀ c ∈ text, Settled c) → tree.Legible
  | _, _, .number literal numeral, _ => .number _ (value_of_defined literal numeral).1
  | _, _, .negative literal numeral, _ => .number _ (value_of_defined literal numeral).2
  | _, _, .parameter name named, settled => by
      obtain ⟨named, settled⟩ := name_legible name named settled
      exact .parameter _ named settled
  | _, _, .call name body operands named arguments arity, settled => by
      obtain ⟨front, behind⟩ := List.forall_mem_append.mp settled
      obtain ⟨inside, _⟩ := List.forall_mem_append.mp (List.forall_mem_cons.mp behind).2
      obtain ⟨named, settled⟩ := name_legible name named front
      exact .call _ operands named settled arity (arguments_legible body operands arguments inside)
  | _, _, .group body tree inner, settled =>
      expression_legible body tree inner
        (List.forall_mem_append.mp (List.forall_mem_cons.mp settled).2).1

theorem arguments_legible :
    ∀ (text : List Char) (trees : List Tree), Arguments text trees → (∀ c ∈ text, Settled c) →
      ∀ tree ∈ trees, tree.Legible
  | _, _, .none, _ => by simp
  | _, _, .some body operands fields, settled => fields_legible body operands fields settled

theorem fields_legible :
    ∀ (text : List Char) (trees : List Tree), Fields text trees → (∀ c ∈ text, Settled c) →
      ∀ tree ∈ trees, tree.Legible
  | _, _, .last field operand inner, settled => by
      intro tree member
      rw [List.mem_singleton.mp member]
      exact expression_legible field operand inner settled
  | _, _, .more field rest operand operands inner others, settled => by
      obtain ⟨front, behind⟩ := List.forall_mem_append.mp settled
      intro tree member
      rcases List.mem_cons.mp member with same | later
      · rw [same]
        exact expression_legible field operand inner front
      · exact fields_legible rest operands others (List.forall_mem_cons.mp behind).2 tree later
end

theorem compiled_legible (expression : String) (tree : Tree)
    (derived : Expression (normalize expression).toList tree) : tree.Legible := by
  refine expression_legible _ tree derived fun c member => ?_
  rw [normalize, String.toList_ofList] at member
  exact Text.lower_yields_settled _ c member

namespace Stream

theorem texts_operator (token : Token) (operands : List Tree) (rest : Stream) (stack : List String)
    (rank : operands.length = token.arity) (consumes : token.role.isOperand = false) :
    texts (token :: rest) ((operands.map Tree.text).reverse ++ stack) =
      texts rest ((Tree.node token operands).text :: stack) := by
  have taken : ((operands.map Tree.text).reverse ++ stack).take token.arity =
      (operands.map Tree.text).reverse := List.take_left' (by simpa using rank)
  have left : ((operands.map Tree.text).reverse ++ stack).drop token.arity = stack :=
    List.drop_left' (by simpa using rank)
  rw [texts, taken, left, List.reverse_reverse, Tree.text, ← Tree.texts_map]
  simp only [consumes, Bool.false_eq_true, if_false]

theorem texts_operands (operands : List Tree) (rest : Stream) (stack : List String)
    (each : ∀ operand ∈ operands, ∀ (rest : Stream) (stack : List String),
      texts (operand.postorder ++ rest) stack = texts rest (operand.text :: stack)) :
    texts (Tree.postorders operands ++ rest) stack =
      texts rest ((operands.map Tree.text).reverse ++ stack) := by
  induction operands generalizing stack with
  | nil => rfl
  | cons operand others ih =>
      rw [Tree.postorders, List.append_assoc, each operand (by simp),
        ih _ fun other member => each other (by simp [member])]
      simp

theorem texts_postorder (tree : Tree) (legible : tree.Legible) (rest : Stream) (stack : List String) :
    texts (tree.postorder ++ rest) stack = texts rest (tree.text :: stack) := by
  induction legible generalizing rest stack with
  | number value _ => rfl
  | parameter name _ _ => rfl
  | combine symbol left right operator _ _ leftTexts rightTexts =>
      have each : ∀ operand ∈ [left, right], ∀ (rest : Stream) (stack : List String),
          texts (operand.postorder ++ rest) stack = texts rest (operand.text :: stack) :=
        List.forall_mem_cons.mpr ⟨leftTexts, List.forall_mem_singleton.mpr rightTexts⟩
      have binary : (Token.operator symbol).arity = 2 := if_neg (operator_not_negation symbol operator)
      rw [Tree.combine, Tree.postorder, List.append_assoc, texts_operands [left, right] _ _ each,
        List.singleton_append, texts_operator (.operator symbol) [left, right] _ _ binary.symm rfl]
  | call name operands _ _ _ _ each =>
      rw [Tree.call, Tree.postorder, List.append_assoc, texts_operands operands _ _ each,
        List.singleton_append, texts_operator (.call name operands.length) operands _ _ rfl rfl]

theorem to_infix_postorder (tree : Tree) (legible : tree.Legible) :
    toInfix tree.postorder = tree.text := by
  have whole := texts_postorder tree legible [] []
  rw [List.append_nil] at whole
  rw [toInfix, whole]
  simp [texts]

end Stream

end Interlock.Formula
