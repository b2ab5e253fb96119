import Interlock.Formula.Arithmetic
import Interlock.Proofs.Formula.Numeral
import Interlock.Proofs.Formula.Tree

/-!
The grammar of arithmetic expressions, and the tree that each derivation stands for. An expression is
a chain of operands with operators between; the chain is put together by strength, from the left.
-/

set_option autoImplicit false

namespace Interlock.Formula

open Interlock.Text (startsName continuesName)

namespace Tree

def number (value : Float) : Tree := leaf (.number value)

def parameter (name : String) : Tree := leaf (.parameter name)

def call (name : String) (operands : List Tree) : Tree :=
  .node (.call name operands.length) operands

def negated (tree : Tree) : Tree := combine '*' (number (-1)) tree

end Tree

abbrev Chain := List (Char × Tree)

def joinFactors (first : Tree) : Chain → Tree × Chain
  | [] => (first, [])
  | (symbol, operand) :: rest =>
      if symbol = '*' ∨ symbol = '/' then joinFactors (.combine symbol first operand) rest
      else (first, (symbol, (joinFactors operand rest).1) :: (joinFactors operand rest).2)

def joinTerms (first : Tree) (terms : Chain) : Tree :=
  terms.foldl (fun left (symbol, right) => .combine symbol left right) first

-- Products are joined first, then what is added and subtracted, both from the left.
def assemble (first : Tree) (chain : Chain) : Tree :=
  joinTerms (joinFactors first chain).1 (joinFactors first chain).2

inductive Name : List Char → Prop where
  | letters (c : Char) (rest : List Char) (starts : startsName c = true)
      (continued : ∀ d ∈ rest, continuesName d = true) : Name (c :: rest)

-- One rule each of
--   E ::= U (('+' | '-' | '*' | '/') U)*
--   U ::= ('+' | '-')* P
--   P ::= number | name | name '(' [E (',' E)*] ')' | '(' E ')'
-- A '-' that is wanted as an operand and stands directly before a digit or a mark belongs to the
-- number behind it, so it is no sign of its own there.
mutual
inductive Expression : List Char → Tree → Prop where
  | chain (first rest : List Char) (operand : Tree) (items : Chain)
      (leading : Operand first operand) (trailing : Continuation rest items) :
      Expression (first ++ rest) (assemble operand items)

inductive Continuation : List Char → Chain → Prop where
  | done : Continuation [] []
  | more (symbol : Char) (first rest : List Char) (operand : Tree) (items : Chain)
      (operator : isOperator symbol = true) (leading : Operand first operand)
      (trailing : Continuation rest items) :
      Continuation (symbol :: (first ++ rest)) ((symbol, operand) :: items)

inductive Operand : List Char → Tree → Prop where
  | primary (text : List Char) (tree : Tree) (inner : Primary text tree) : Operand text tree
  | plus (text : List Char) (tree : Tree) (inner : Operand text tree) : Operand ('+' :: text) tree
  | minus (text : List Char) (tree : Tree) (free : text.head?.any startsNumber = false)
      (inner : Operand text tree) : Operand ('-' :: text) tree.negated

inductive Primary : List Char → Tree → Prop where
  | number (literal : List Char) (numeral : Numeral literal) :
      Primary literal (.number (valueOf literal))
  | negative (literal : List Char) (numeral : Numeral literal) :
      Primary ('-' :: literal) (.number (valueOf ('-' :: literal)))
  | parameter (name : List Char) (named : Name name) :
      Primary name (.parameter (String.ofList name))
  | call (name body : List Char) (operands : List Tree) (named : Name name)
      (arguments : Arguments body operands)
      (arity : arity? (String.ofList name) = some operands.length) :
      Primary (name ++ '(' :: (body ++ [')'])) (.call (String.ofList name) operands)
  | group (body : List Char) (tree : Tree) (inner : Expression body tree) :
      Primary ('(' :: (body ++ [')'])) tree

inductive Arguments : List Char → List Tree → Prop where
  | none : Arguments [] []
  | some (body : List Char) (operands : List Tree) (fields : Fields body operands) :
      Arguments body operands

inductive Fields : List Char → List Tree → Prop where
  | last (field : List Char) (operand : Tree) (inner : Expression field operand) :
      Fields field [operand]
  | more (field rest : List Char) (operand : Tree) (operands : List Tree)
      (inner : Expression field operand) (others : Fields rest operands) :
      Fields (field ++ ',' :: rest) (operand :: operands)
end

def Tree.Combines (fits : Tree → Prop) : Prop :=
  ∀ symbol left right, isOperator symbol = true → fits left → fits right →
    fits (.combine symbol left right)

structure Tree.Inherited (fits : Tree → Prop) : Prop where
  number : ∀ value, fits (.number value)
  parameter : ∀ name, fits (.parameter name)
  combine : Tree.Combines fits
  call : ∀ name operands, arity? name = some operands.length → (∀ operand ∈ operands, fits operand) →
    fits (.call name operands)

section

variable {fits : Tree → Prop} (combines : Tree.Combines fits)

include combines

theorem join_factors_inherited (first : Tree) (chain : Chain) (firstFits : fits first)
    (each : ∀ item ∈ chain, isOperator item.1 = true ∧ fits item.2) :
    fits (joinFactors first chain).1 ∧
      ∀ item ∈ (joinFactors first chain).2, isOperator item.1 = true ∧ fits item.2 := by
  induction chain generalizing first with
  | nil => exact ⟨firstFits, each⟩
  | cons item rest ih =>
      obtain ⟨symbol, operand⟩ := item
      obtain ⟨operator, operandFits⟩ := each (symbol, operand) (by simp)
      have later : ∀ other ∈ rest, isOperator other.1 = true ∧ fits other.2 := fun other member =>
        each other (by simp [member])
      rw [joinFactors]
      split
      · exact ih _ (combines symbol first operand operator firstFits operandFits) later
      · obtain ⟨headFits, tailFits⟩ := ih operand operandFits later
        refine ⟨firstFits, ?_⟩
        intro other member
        rcases List.mem_cons.mp member with rfl | member
        · exact ⟨operator, headFits⟩
        · exact tailFits other member

theorem join_terms_inherited (first : Tree) (terms : Chain) (firstFits : fits first)
    (each : ∀ item ∈ terms, isOperator item.1 = true ∧ fits item.2) : fits (joinTerms first terms) := by
  induction terms generalizing first with
  | nil => exact firstFits
  | cons item rest ih =>
      obtain ⟨operator, operandFits⟩ := each item (by simp)
      exact ih _ (combines item.1 first item.2 operator firstFits operandFits)
        fun other member => each other (by simp [member])

theorem assemble_inherited (first : Tree) (chain : Chain) (firstFits : fits first)
    (each : ∀ item ∈ chain, isOperator item.1 = true ∧ fits item.2) : fits (assemble first chain) := by
  obtain ⟨headFits, tailFits⟩ := join_factors_inherited combines first chain firstFits each
  exact join_terms_inherited combines _ _ headFits tailFits

end

mutual
theorem expression_inherited {fits : Tree → Prop} (inherited : Tree.Inherited fits) :
    ∀ (text : List Char) (tree : Tree), Expression text tree → fits tree
  | _, _, .chain first rest operand items leading trailing =>
      assemble_inherited inherited.combine operand items (operand_inherited inherited first operand leading)
        (continuation_inherited inherited rest items trailing)

theorem continuation_inherited {fits : Tree → Prop} (inherited : Tree.Inherited fits) :
    ∀ (text : List Char) (chain : Chain), Continuation text chain →
      ∀ item ∈ chain, isOperator item.1 = true ∧ fits item.2
  | _, _, .done => by simp
  | _, _, .more symbol first rest operand items operator leading trailing => by
      intro item member
      rcases List.mem_cons.mp member with same | later
      · rw [same]
        exact ⟨operator, operand_inherited inherited first operand leading⟩
      · exact continuation_inherited inherited rest items trailing item later

theorem operand_inherited {fits : Tree → Prop} (inherited : Tree.Inherited fits) :
    ∀ (text : List Char) (tree : Tree), Operand text tree → fits tree
  | _, _, .primary text tree inner => primary_inherited inherited text tree inner
  | _, _, .plus text tree inner => operand_inherited inherited text tree inner
  | _, _, .minus text tree _ inner =>
      inherited.combine '*' _ tree (by decide) (inherited.number (-1))
        (operand_inherited inherited text tree inner)

theorem primary_inherited {fits : Tree → Prop} (inherited : Tree.Inherited fits) :
    ∀ (text : List Char) (tree : Tree), Primary text tree → fits tree
  | _, _, .number _ _ => inherited.number _
  | _, _, .negative _ _ => inherited.number _
  | _, _, .parameter _ _ => inherited.parameter _
  | _, _, .call _ body operands _ arguments arity =>
      inherited.call _ operands arity (arguments_inherited inherited body operands arguments)
  | _, _, .group body tree inner => expression_inherited inherited body tree inner

theorem arguments_inherited {fits : Tree → Prop} (inherited : Tree.Inherited fits) :
    ∀ (text : List Char) (trees : List Tree), Arguments text trees → ∀ tree ∈ trees, fits tree
  | _, _, .none => by simp
  | _, _, .some body operands fields => fields_inherited inherited body operands fields

theorem fields_inherited {fits : Tree → Prop} (inherited : Tree.Inherited fits) :
    ∀ (text : List Char) (trees : List Tree), Fields text trees → ∀ tree ∈ trees, fits tree
  | _, _, .last field operand inner => by
      intro tree member
      rw [List.mem_singleton.mp member]
      exact expression_inherited inherited field operand inner
  | _, _, .more field rest operand operands inner others => by
      intro tree member
      rcases List.mem_cons.mp member with same | later
      · rw [same]
        exact expression_inherited inherited field operand inner
      · exact fields_inherited inherited rest operands others tree later
end

theorem operator_not_negation (symbol : Char) (operator : isOperator symbol = true) : symbol ≠ '!' := by
  rintro rfl
  exact absurd operator (by decide)

theorem ranked_inherited : Tree.Inherited Tree.Ranked where
  number _ := Tree.leaf_ranked _ rfl
  parameter _ := Tree.leaf_ranked _ rfl
  combine symbol left right operator :=
    Tree.combine_ranked symbol left right (operator_not_negation symbol operator)
  call _ operands _ each := .node _ operands rfl each

theorem expression_ranked (text : List Char) (tree : Tree) (derived : Expression text tree) :
    tree.Ranked :=
  expression_inherited ranked_inherited text tree derived

end Interlock.Formula
