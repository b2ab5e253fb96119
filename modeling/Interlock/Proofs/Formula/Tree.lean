import Interlock.Formula.Validation

/-!
Expressions as trees, and the streams that list them with every token behind its operands. A stream
has at most one tree, and the streams of trees are those that pass the arity check.
-/

set_option autoImplicit false

namespace Interlock.Formula

inductive Tree where
  | node (token : Token) (operands : List Tree)

namespace Tree

def leaf (token : Token) : Tree := .node token []

def combine (symbol : Char) (left right : Tree) : Tree := .node (.operator symbol) [left, right]

mutual
def postorder : Tree → Stream
  | .node token operands => postorders operands ++ [token]

def postorders : List Tree → Stream
  | [] => []
  | tree :: rest => postorder tree ++ postorders rest
end

inductive Ranked : Tree → Prop where
  | node (token : Token) (operands : List Tree) (rank : operands.length = token.arity)
      (each : ∀ operand ∈ operands, Ranked operand) : Ranked (.node token operands)

theorem leaf_ranked (token : Token) (nullary : token.arity = 0) : Ranked (leaf token) :=
  .node token [] nullary.symm (by simp)

theorem combine_ranked (symbol : Char) (left right : Tree) (binary : symbol ≠ '!')
    (leftRanked : Ranked left) (rightRanked : Ranked right) : Ranked (combine symbol left right) := by
  refine .node _ _ ?_ ?_
  · simp [Token.operator, binary]
  · intro operand member
    simp only [List.mem_cons, List.not_mem_nil, or_false] at member
    rcases member with same | same
    · exact same ▸ leftRanked
    · exact same ▸ rightRanked

end Tree

namespace Stream

-- The inverse of postorder: it works on a stack of finished trees, the latest first.
def gather : Stream → List Tree → Option (List Tree)
  | [], stack => some stack
  | token :: rest, stack =>
      if stack.length < token.arity then none
      else gather rest (.node token (stack.take token.arity).reverse :: stack.drop token.arity)

mutual
theorem gather_postorder (tree : Tree) (rest : Stream) (stack : List Tree) (ranked : tree.Ranked) :
    gather (tree.postorder ++ rest) stack = gather rest (tree :: stack) := by
  cases ranked with
  | node token operands rank each =>
      rw [Tree.postorder, List.append_assoc, gather_postorders operands _ stack each]
      have enough : ¬ (operands.reverse ++ stack).length < token.arity := by
        simp only [List.length_append, List.length_reverse]
        omega
      have taken : (operands.reverse ++ stack).take token.arity = operands.reverse :=
        List.take_left' (by simpa using rank)
      have left : (operands.reverse ++ stack).drop token.arity = stack :=
        List.drop_left' (by simpa using rank)
      rw [List.singleton_append, gather, if_neg enough, taken, left, List.reverse_reverse]

theorem gather_postorders (trees : List Tree) (rest : Stream) (stack : List Tree)
    (ranked : ∀ tree ∈ trees, tree.Ranked) :
    gather (Tree.postorders trees ++ rest) stack = gather rest (trees.reverse ++ stack) := by
  cases trees with
  | nil => rfl
  | cons tree others =>
      rw [Tree.postorders, List.append_assoc,
        gather_postorder tree _ stack (ranked tree (by simp)),
        gather_postorders others rest (tree :: stack) fun other member =>
          ranked other (by simp [member])]
      simp
end

theorem postorder_injective (a b : Tree) (aRanked : a.Ranked) (bRanked : b.Ranked)
    (same : a.postorder = b.postorder) : a = b := by
  have gathered : gather (a.postorder ++ []) [] = gather (b.postorder ++ []) [] := by rw [same]
  rw [gather_postorder a [] [] aRanked, gather_postorder b [] [] bRanked] at gathered
  simpa [gather] using gathered

theorem depth_gather (stream : Stream) (stack trees : List Tree)
    (gathered : gather stream stack = some trees) :
    depth stream stack.length = .ok trees.length := by
  induction stream generalizing stack with
  | nil =>
      cases gathered
      rfl
  | cons token rest ih =>
      by_cases short : stack.length < token.arity
      · simp [gather, short] at gathered
      · rw [gather, if_neg short] at gathered
        rw [depth, if_neg short]
        simpa [List.length_drop] using ih _ gathered

theorem check_postorder (tree : Tree) (ranked : tree.Ranked) : check tree.postorder = .ok () := by
  have gathered : gather tree.postorder [] = some [tree] := by
    simpa [gather] using gather_postorder tree [] [] ranked
  have height := depth_gather _ _ _ gathered
  simp only [List.length_nil, List.length_singleton] at height
  rw [check, height]
  rfl

theorem validate_ok (stream : Stream) (expression : String) :
    stream.validate expression = .ok () ↔ stream.check = .ok () := by
  rw [validate]
  cases checked : stream.check with
  | ok => exact ⟨fun _ => rfl, fun _ => rfl⟩
  | error flaw => constructor <;> intro passed <;> contradiction

-- How many values a stream leaves more than it finds. A stream that lacks operands has a balance,
-- too, so the balances of parts add up whether or not the parts are complete.
def balance : Stream → Int
  | [] => 0
  | token :: rest => 1 - token.arity + balance rest

theorem balance_append (first second : Stream) :
    balance (first ++ second) = balance first + balance second := by
  induction first with
  | nil => simp [balance]
  | cons token rest ih =>
      simp only [List.cons_append, balance, ih]
      omega

theorem depth_balance (stream : Stream) (height final : Nat)
    (completed : depth stream height = .ok final) : (final : Int) = height + balance stream := by
  induction stream generalizing height with
  | nil =>
      cases completed
      simp [balance]
  | cons token rest ih =>
      by_cases short : height < token.arity
      · simp [depth, short] at completed
      · rw [depth, if_neg short] at completed
        have later := ih _ completed
        simp only [balance]
        omega

theorem balance_of_check (stream : Stream) (checked : check stream = .ok ()) : balance stream = 1 := by
  unfold check at checked
  split at checked <;> try contradiction
  rename_i completed
  have found := depth_balance stream 0 1 completed
  omega

end Stream

end Interlock.Formula
