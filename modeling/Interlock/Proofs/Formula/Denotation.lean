import Interlock.Formula.Curve
import Interlock.Proofs.Formula.Compilation

/-!
What an arithmetic tree denotes once its parameters have values. The stack evaluation of the stream
that lists the tree leaves exactly this number.
-/

set_option autoImplicit false

namespace Interlock.Formula

open Interlock.Number (nan)

inductive Operation : Char → Float → Float → Float → Prop where
  | sum (a b : Float) : Operation '+' a b (a + b)
  | difference (a b : Float) : Operation '-' a b (a - b)
  | product (a b : Float) : Operation '*' a b (a * b)
  | quotient (a b : Float) : Operation '/' a b (if b == 0 then nan else a / b)

namespace Tree

mutual
inductive Denotes (environment : String → Float) : Tree → Float → Prop where
  | number (value : Float) : Denotes environment (.number value) value
  | parameter (name : String) : Denotes environment (.parameter name) (environment name)
  | operation (symbol : Char) (left right : Tree) (a b value : Float)
      (first : Denotes environment left a) (second : Denotes environment right b)
      (result : Operation symbol a b value) : Denotes environment (.combine symbol left right) value
  | call (name : String) (operands : List Tree) (values : List Float) (value : Float)
      (each : DenotesEach environment operands values)
      (applied : applyBuiltin name values = some value) : Denotes environment (.call name operands) value

inductive DenotesEach (environment : String → Float) : List Tree → List Float → Prop where
  | nil : DenotesEach environment [] []
  | cons (tree : Tree) (value : Float) (trees : List Tree) (values : List Float)
      (first : Denotes environment tree value) (others : DenotesEach environment trees values) :
      DenotesEach environment (tree :: trees) (value :: values)
end

-- The names of the parameters, from left to right.
mutual
def mentions : Tree → List String
  | .node token operands =>
      mentionsEach operands ++ if token.role = .parameter then [token.name] else []

def mentionsEach : List Tree → List String
  | [] => []
  | tree :: rest => mentions tree ++ mentionsEach rest
end

theorem denotes_each_length (environment : String → Float) :
    ∀ (trees : List Tree) (values : List Float), DenotesEach environment trees values →
      values.length = trees.length
  | _, _, .nil => rfl
  | _, _, .cons _ _ trees values _ others => by
      simpa using denotes_each_length environment trees values others

end Tree

theorem builtin_applies (builtin : Builtin) (values : List Float)
    (full : values.length = builtin.arity) : ∃ value, builtin.apply values = some value := by
  cases builtin with
  | constant result =>
      match values, full with
      | [], _ => exact ⟨result, rfl⟩
  | unary rule =>
      match values, full with
      | [x], _ => exact ⟨rule x, rfl⟩
  | binary rule =>
      match values, full with
      | [x, y], _ => exact ⟨rule x y, rfl⟩
  | ternary rule =>
      match values, full with
      | [x, y, z], _ => exact ⟨rule x y z, rfl⟩
  | quaternary rule =>
      match values, full with
      | [x, y, z, u], _ => exact ⟨rule x y z u, rfl⟩
  | quinary rule =>
      match values, full with
      | [x, y, z, u, v], _ => exact ⟨rule x y z u v, rfl⟩

theorem call_applies (name : String) (values : List Float) (known : arity? name = some values.length) :
    ∃ value, applyBuiltin name values = some value := by
  obtain ⟨builtin, found, arity⟩ := Option.map_eq_some_iff.mp known
  obtain ⟨value, applied⟩ := builtin_applies builtin values arity.symm
  refine ⟨value, ?_⟩
  rw [applyBuiltin, found, Option.bind_some, applied]

theorem operation_exists (symbol : Char) (a b : Float) (operator : isOperator symbol = true) :
    ∃ value, Operation symbol a b value := by
  have cases : symbol = '+' ∨ symbol = '-' ∨ symbol = '*' ∨ symbol = '/' := by
    simpa [isOperator, or_assoc] using operator
  rcases cases with rfl | rfl | rfl | rfl
  · exact ⟨_, .sum a b⟩
  · exact ⟨_, .difference a b⟩
  · exact ⟨_, .product a b⟩
  · exact ⟨_, .quotient a b⟩

theorem operation_applied (symbol : Char) (a b value : Float) (result : Operation symbol a b value) :
    symbol ≠ '!' ∧ arithmetic.apply (.operator symbol) [a, b] = .ok value := by
  cases result with
  | sum | difference | product | quotient => exact ⟨by decide, rfl⟩

theorem denotes_each_exists (environment : String → Float) (trees : List Tree)
    (each : ∀ tree ∈ trees, ∃ value, tree.Denotes environment value) :
    ∃ values, Tree.DenotesEach environment trees values := by
  induction trees with
  | nil => exact ⟨[], .nil⟩
  | cons tree rest ih =>
      obtain ⟨value, first⟩ := each tree (by simp)
      obtain ⟨values, others⟩ := ih fun other member => each other (by simp [member])
      exact ⟨value :: values, .cons tree value rest values first others⟩

theorem denoting_inherited (environment : String → Float) :
    Tree.Inherited fun tree => ∃ value, tree.Denotes environment value where
  number value := ⟨value, .number value⟩
  parameter name := ⟨environment name, .parameter name⟩
  combine symbol left right operator first second := by
    obtain ⟨a, first⟩ := first
    obtain ⟨b, second⟩ := second
    obtain ⟨value, result⟩ := operation_exists symbol a b operator
    exact ⟨value, .operation symbol left right a b value first second result⟩
  call name operands known each := by
    obtain ⟨values, denoted⟩ := denotes_each_exists environment operands each
    rw [← Tree.denotes_each_length environment operands values denoted] at known
    obtain ⟨value, applied⟩ := call_applies name values known
    exact ⟨value, .call name operands values value denoted applied⟩

theorem combine_mentions (symbol : Char) (left right : Tree) :
    (Tree.combine symbol left right).mentions = left.mentions ++ right.mentions := by
  simp [Tree.combine, Tree.mentions, Tree.mentionsEach, Token.operator]

theorem call_mentions (name : String) (operands : List Tree) :
    (Tree.call name operands).mentions = Tree.mentionsEach operands := by
  simp [Tree.call, Tree.mentions, Token.call]

def Leaves (stream : Stream) (value : Float) : Prop :=
  ∀ (rest : Stream) (stack : List Float),
    arithmetic.run (stream ++ rest) stack = arithmetic.run rest (value :: stack)

def LeavesEach (stream : Stream) (values : List Float) : Prop :=
  ∀ (rest : Stream) (stack : List Float),
    arithmetic.run (stream ++ rest) stack = arithmetic.run rest (values.reverse ++ stack)

section

variable (bindings : Bindings)

theorem bind_append (first second : Stream) :
    Stream.bind bindings (first ++ second) = Stream.bind bindings first ++ Stream.bind bindings second :=
  List.map_append

theorem operation_leaves (symbol : Char) (left right : Tree) (a b value : Float)
    (result : Operation symbol a b value)
    (first : Leaves (Stream.bind bindings left.postorder) a)
    (second : Leaves (Stream.bind bindings right.postorder) b) :
    Leaves (Stream.bind bindings (Tree.combine symbol left right).postorder) value := by
  intro rest stack
  have listed : Stream.bind bindings (Tree.combine symbol left right).postorder =
      Stream.bind bindings left.postorder ++
        (Stream.bind bindings right.postorder ++ [Token.operator symbol]) := by
    simp only [Tree.combine, Tree.postorder, Tree.postorders, bind_append, List.append_nil,
      List.append_assoc]
    rfl
  obtain ⟨binary, applied⟩ := operation_applied symbol a b value result
  have arity : (Token.operator symbol).arity = 2 := by simp [Token.operator, binary]
  rw [listed, List.append_assoc, List.append_assoc, first, second, List.singleton_append,
    Semantics.run, if_neg (by simp [Token.operator, Role.isOperand]), arity, if_neg (by simp)]
  exact applied ▸ rfl

theorem call_leaves (name : String) (operands : List Tree) (values : List Float) (value : Float)
    (count : values.length = operands.length) (applied : applyBuiltin name values = some value)
    (each : LeavesEach (Stream.bind bindings (Tree.postorders operands)) values) :
    Leaves (Stream.bind bindings (Tree.call name operands).postorder) value := by
  intro rest stack
  have listed : Stream.bind bindings (Tree.call name operands).postorder =
      Stream.bind bindings (Tree.postorders operands) ++ [Token.call name operands.length] := by
    rw [Tree.call, Tree.postorder, bind_append]
    rfl
  have enough : ¬ (values.reverse ++ stack).length < (Token.call name operands.length).arity := by
    simp [Token.call, count]
  have taken : (values.reverse ++ stack).take (Token.call name operands.length).arity =
      values.reverse :=
    List.take_left' (by simp [Token.call, count])
  have left : (values.reverse ++ stack).drop (Token.call name operands.length).arity = stack :=
    List.drop_left' (by simp [Token.call, count])
  have called : arithmetic.apply (.call name operands.length) values = .ok value := by
    simp [arithmetic, Token.call, applied]
  rw [listed, List.append_assoc, each, List.singleton_append, Semantics.run,
    if_neg (by simp [Token.call, Role.isOperand]), if_neg enough, taken, left, List.reverse_reverse,
    called]

def Bound (environment : String → Float) (names : List String) : Prop :=
  ∀ name ∈ names, bindings.get? name = some (environment name)

theorem parameter_leaves (environment : String → Float) (name : String)
    (bound : bindings.get? name = some (environment name)) :
    Leaves (Stream.bind bindings (Tree.parameter name).postorder) (environment name) := by
  intro rest stack
  have listed : Stream.bind bindings (Tree.parameter name).postorder =
      [{ Token.parameter name with content := .number (environment name) }] := by
    simp [Tree.parameter, Tree.leaf, Tree.postorder, Tree.postorders, Stream.bind, Token.parameter,
      bound]
  rw [listed]
  rfl

mutual
theorem denoted_leaves (environment : String → Float) :
    ∀ (tree : Tree) (value : Float), tree.Denotes environment value →
      Bound bindings environment tree.mentions → Leaves (Stream.bind bindings tree.postorder) value
  | _, _, .number value, _ => fun _ _ => rfl
  | _, _, .parameter name, bound =>
      parameter_leaves bindings environment name
        (bound name (by simp [Tree.parameter, Tree.leaf, Tree.mentions, Token.parameter]))
  | _, _, .operation symbol left right a b value first second result, bound => by
      rw [combine_mentions] at bound
      exact operation_leaves bindings symbol left right a b value result
        (denoted_leaves environment left a first fun name member => bound name (by simp [member]))
        (denoted_leaves environment right b second fun name member => bound name (by simp [member]))
  | _, _, .call name operands values value each applied, bound => by
      rw [call_mentions] at bound
      exact call_leaves bindings name operands values value
        (Tree.denotes_each_length environment operands values each) applied
        (denoted_each_leave environment operands values each bound)

theorem denoted_each_leave (environment : String → Float) :
    ∀ (trees : List Tree) (values : List Float), Tree.DenotesEach environment trees values →
      Bound bindings environment (Tree.mentionsEach trees) →
        LeavesEach (Stream.bind bindings (Tree.postorders trees)) values
  | _, _, .nil, _ => fun _ _ => rfl
  | _, _, .cons tree value trees values first others, bound => by
      intro rest stack
      have leading := denoted_leaves environment tree value first fun name member =>
        bound name (by simp [Tree.mentionsEach, member])
      have trailing := denoted_each_leave environment trees values others fun name member =>
        bound name (by simp [Tree.mentionsEach, member])
      rw [Tree.postorders, bind_append, List.append_assoc, leading, trailing, List.reverse_cons,
        List.append_assoc, List.singleton_append]
end

end

end Interlock.Formula
