import Interlock.Proofs.Formula.Binding
import Interlock.Proofs.Formula.Tree

/-!
Propositions over comparisons, and the streams that list them. However its comparisons were bound, the
evaluation of such a stream yields the truth of the proposition, and never an error.
-/

set_option autoImplicit false

namespace Interlock.Formula

inductive Proposition where
  | atom (text : String)
  | not (operand : Proposition)
  | and (left right : Proposition)
  | or (left right : Proposition)
deriving DecidableEq, Repr

namespace Proposition

def tree : Proposition → Tree
  | atom text => .leaf (.atom text)
  | not operand => .node (.operator '!') [operand.tree]
  | and left right => .combine '&' left.tree right.tree
  | or left right => .combine '|' left.tree right.tree

def postorder (proposition : Proposition) : Stream := proposition.tree.postorder

def truth (valuation : String → Bool) : Proposition → Bool
  | atom text => valuation text
  | not operand => !operand.truth valuation
  | and left right => left.truth valuation && right.truth valuation
  | or left right => left.truth valuation || right.truth valuation

theorem tree_ranked (proposition : Proposition) : proposition.tree.Ranked := by
  induction proposition with
  | atom text => exact Tree.leaf_ranked _ rfl
  | not operand ih => exact .node _ _ rfl (by simpa using ih)
  | and left right first second => exact Tree.combine_ranked '&' _ _ (by decide) first second
  | or left right first second => exact Tree.combine_ranked '|' _ _ (by decide) first second

theorem postorder_atom (text : String) : (atom text).postorder = [.atom text] := rfl

theorem postorder_not (operand : Proposition) :
    operand.not.postorder = operand.postorder ++ [.operator '!'] := by
  simp [postorder, tree, Tree.postorder, Tree.postorders]

theorem postorder_and (left right : Proposition) :
    (left.and right).postorder = left.postorder ++ right.postorder ++ [.operator '&'] := by
  simp [postorder, tree, Tree.combine, Tree.postorder, Tree.postorders]

theorem postorder_or (left right : Proposition) :
    (left.or right).postorder = left.postorder ++ right.postorder ++ [.operator '|'] := by
  simp [postorder, tree, Tree.combine, Tree.postorder, Tree.postorders]

theorem validates (proposition : Proposition) (expression : String) :
    proposition.postorder.validate expression = .ok () :=
  (Stream.validate_ok _ expression).mpr (Stream.check_postorder _ proposition.tree_ranked)

end Proposition

-- A token behind some bindings: the last one of its name counts.
def Token.rebound (truths : List (String × Bool)) (token : Token) : Token :=
  if token.role = .atom then
    match truths.reverse.lookup token.name with
    | some truth => { token with content := .flag truth }
    | none => token
  else token

-- The truth that a comparison has then; it is false before the first binding.
def lastTruth (truths : List (String × Bool)) (atom : String) : Bool :=
  (truths.reverse.lookup atom).getD false

theorem rebound_cons (atom : String) (truth : Bool) (truths : List (String × Bool)) (token : Token) :
    Token.rebound truths
        (if token.role = .atom ∧ token.name = atom then { token with content := .flag truth }
          else token) =
      token.rebound ((atom, truth) :: truths) := by
  by_cases role : token.role = .atom
  · by_cases same : token.name = atom
    · subst atom
      cases found : truths.reverse.lookup token.name <;>
        simp [Token.rebound, role, List.lookup_append, found]
    · have apart : (token.name == atom) = false := beq_eq_false_iff_ne.mpr same
      simp [Token.rebound, role, same, List.lookup_append, List.lookup_cons, apart]
  · simp [Token.rebound, role]

theorem bind_list_stream (condition : Condition) (truths : List (String × Bool)) :
    (condition.bindList truths).stream = condition.stream.map (Token.rebound truths) := by
  induction truths generalizing condition with
  | nil =>
      refine (List.map_id'' (fun token => ?_) condition.stream).symm
      simp [Token.rebound]
  | cons first rest ih =>
      obtain ⟨atom, truth⟩ := first
      refine (ih (condition.bind atom truth)).trans ?_
      rw [Condition.bind, List.map_map]
      exact List.map_congr_left fun token _ => rebound_cons atom truth rest token

section

variable (change : Token → Token) (valuation : String → Bool)
  (atoms : ∀ text, change (.atom text) = { Token.atom text with content := .flag (valuation text) })
  (operators : ∀ symbol, change (.operator symbol) = .operator symbol)

include atoms operators

theorem proposition_run (proposition : Proposition) (rest : Stream) (stack : List Bool) :
    logic.run (proposition.postorder.map change ++ rest) stack =
      logic.run rest (proposition.truth valuation :: stack) := by
  induction proposition generalizing rest stack with
  | atom text =>
      rw [Proposition.postorder_atom, List.map_singleton, atoms]
      rfl
  | not operand ih =>
      rw [Proposition.postorder_not, List.map_append, List.append_assoc, ih, List.map_singleton, operators]
      rfl
  | and left right first second =>
      rw [Proposition.postorder_and, List.map_append, List.map_append, List.append_assoc,
        List.append_assoc, first, second, List.map_singleton, operators]
      rfl
  | or left right first second =>
      rw [Proposition.postorder_or, List.map_append, List.map_append, List.append_assoc,
        List.append_assoc, first, second, List.map_singleton, operators]
      rfl

theorem proposition_result (proposition : Proposition) :
    logic.evaluate (proposition.postorder.map change) = .ok (proposition.truth valuation) := by
  have run := proposition_run change valuation atoms operators proposition [] []
  rw [List.append_nil] at run
  rw [Semantics.evaluate, run]
  rfl

end

theorem proposition_evaluates (condition : Condition) (proposition : Proposition)
    (listed : condition.stream = proposition.postorder) (truths : List (String × Bool)) :
    (condition.bindList truths).evaluate = .ok (proposition.truth (lastTruth truths)) := by
  rw [Condition.evaluate, bind_list_stream, listed]
  refine proposition_result _ _ (fun text => ?_) (fun symbol => rfl) proposition
  rw [lastTruth]
  cases found : truths.reverse.lookup text <;> simp [Token.rebound, Token.atom, found]

theorem proposition_evaluates_with (condition : Condition) (proposition : Proposition)
    (listed : condition.stream = proposition.postorder) (truth : String → Option Bool) :
    condition.evaluateWith truth = .ok (proposition.truth fun atom => (truth atom).getD false) := by
  rw [Condition.evaluateWith, Condition.evaluate, Condition.bind_all_stream, listed]
  exact proposition_result _ _ (fun text => rfl) (fun symbol => rfl) proposition

end Interlock.Formula
