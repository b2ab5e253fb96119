import Mathlib.Logic.ExistsUnique
import Interlock.Formula.Evaluation
import Interlock.Proofs.Formula.Truth

/-!
The arity check and the stacks of the evaluations. The height that the check follows is that of the stack of
every evaluation that gets so far, and a stream passes exactly if it lists a tree.
-/

set_option autoImplicit false

namespace Interlock.Formula

-- Numbers, parameters and atoms consume nothing. Operators and calls may consume any number of values.
def Stream.Nullary (stream : Stream) : Prop :=
  ∀ token ∈ stream, token.role.isOperand = true → token.arity = 0

namespace Tree

theorem postorders_append (first second : List Tree) :
    postorders (first ++ second) = postorders first ++ postorders second := by
  induction first with
  | nil => rfl
  | cons tree rest ih => rw [List.cons_append, postorders, postorders, ih, List.append_assoc]

end Tree

namespace Stream

theorem gather_depth (stream : Stream) (stack : List Tree) (height : Nat)
    (deep : stream.depth stack.length = .ok height) :
    ∃ trees, stream.gather stack = some trees ∧ trees.length = height := by
  induction stream generalizing stack with
  | nil =>
      cases deep
      exact ⟨stack, rfl, rfl⟩
  | cons token rest ih =>
      rw [depth] at deep
      split at deep
      · contradiction
      · next enough =>
          rw [gather, if_neg enough]
          refine ih _ ?_
          rwa [List.length_cons, List.length_drop]

theorem gather_lists (stream : Stream) (stack trees : List Tree) (ranked : ∀ tree ∈ stack, tree.Ranked)
    (gathered : stream.gather stack = some trees) :
    (∀ tree ∈ trees, tree.Ranked) ∧
      Tree.postorders trees.reverse = Tree.postorders stack.reverse ++ stream := by
  induction stream generalizing stack with
  | nil =>
      cases gathered
      exact ⟨ranked, (List.append_nil _).symm⟩
  | cons token rest ih =>
      rw [gather] at gathered
      split at gathered
      · contradiction
      · next enough =>
          have halves : stack.reverse =
              (stack.drop token.arity).reverse ++ (stack.take token.arity).reverse := by
            rw [← List.reverse_append, List.take_append_drop]
          have top : Tree.Ranked (.node token (stack.take token.arity).reverse) := by
            refine .node token _ ?_ fun operand member => ?_
            · rw [List.length_reverse, List.length_take]
              omega
            · exact ranked operand (List.mem_of_mem_take (List.mem_reverse.mp member))
          obtain ⟨each, listed⟩ := ih _ (List.forall_mem_cons.mpr
            ⟨top, fun tree member => ranked tree (List.mem_of_mem_drop member)⟩) gathered
          refine ⟨each, ?_⟩
          rw [listed, List.reverse_cons, Tree.postorders_append, halves, Tree.postorders_append]
          simp [Tree.postorders, Tree.postorder]

theorem check_lists (stream : Stream) :
    stream.check = .ok () ↔ ∃! tree : Tree, tree.Ranked ∧ tree.postorder = stream := by
  constructor
  · intro checked
    obtain ⟨trees, gathered, single⟩ := gather_depth stream [] 1 (checked_depth stream checked)
    obtain ⟨tree, rfl⟩ := List.length_eq_one_iff.mp single
    obtain ⟨each, listed⟩ := gather_lists stream [] [tree] (by simp) gathered
    have own : tree.postorder = stream := by simpa [Tree.postorders] using listed
    refine ⟨tree, ⟨each tree (by simp), own⟩, fun other ⟨ranked, same⟩ => ?_⟩
    exact postorder_injective other tree ranked (each tree (by simp)) (same.trans own.symm)
  · rintro ⟨tree, ⟨ranked, rfl⟩, _⟩
    exact check_postorder tree ranked

end Stream

namespace Semantics

variable {α : Type}

structure Plain (semantics : Semantics α) : Prop where
  operand : ∀ token error, semantics.operand token = .error error → error = .unexpected token.name
  apply : ∀ token operands error, semantics.apply token operands = .error error →
    error = .unexpected token.name

variable {semantics : Semantics α}

theorem run_height (stream : Stream) (nullary : stream.Nullary) (stack after : List α)
    (ran : semantics.run stream stack = .ok after) : stream.depth stack.length = .ok after.length := by
  induction stream generalizing stack with
  | nil =>
      cases ran
      rfl
  | cons token rest ih =>
      have behind : Stream.Nullary rest := fun other member => nullary other (List.mem_cons_of_mem _ member)
      rw [run] at ran
      rw [Stream.depth]
      split at ran
      · next operand =>
          rw [nullary token List.mem_cons_self operand, if_neg (Nat.not_lt_zero _)]
          split at ran
          · contradiction
          · exact ih behind _ ran
      · split at ran
        · contradiction
        · next enough =>
            rw [if_neg enough]
            split at ran
            · contradiction
            · have later := ih behind _ ran
              rwa [List.length_cons, List.length_drop] at later

theorem run_stops (plain : semantics.Plain) (stream : Stream) (nullary : stream.Nullary) (stack : List α)
    (error : EvaluationError) (stopped : semantics.run stream stack = .error error) :
    (∃ token ∈ stream, error = .unexpected token.name) ∨
      ∃ token ∈ stream, stream.depth stack.length = .error (.missingOperands token.name) := by
  induction stream generalizing stack with
  | nil => contradiction
  | cons token rest ih =>
      have behind : Stream.Nullary rest := fun other member => nullary other (List.mem_cons_of_mem _ member)
      have later (height : Nat) (stack : List α) (same : stack.length = height)
          (stopped : semantics.run rest stack = .error error) :
          (∃ other ∈ token :: rest, error = .unexpected other.name) ∨
            ∃ other ∈ token :: rest, Stream.depth rest height = .error (.missingOperands other.name) := by
        rcases ih behind stack stopped with ⟨other, member, same⟩ | ⟨other, member, missing⟩
        · exact .inl ⟨other, List.mem_cons_of_mem _ member, same⟩
        · exact .inr ⟨other, List.mem_cons_of_mem _ member, same ▸ missing⟩
      rw [run] at stopped
      rw [Stream.depth]
      split at stopped
      · next operand =>
          rw [nullary token List.mem_cons_self operand, if_neg (Nat.not_lt_zero _)]
          split at stopped
          · next found =>
              cases stopped
              exact .inl ⟨token, List.mem_cons_self, plain.operand token _ found⟩
          · exact later _ _ rfl stopped
      · split at stopped
        · next short =>
            rw [if_pos short]
            exact .inr ⟨token, List.mem_cons_self, rfl⟩
        · next enough =>
            rw [if_neg enough]
            split at stopped
            · next found =>
                cases stopped
                exact .inl ⟨token, List.mem_cons_self, plain.apply token _ _ found⟩
            · exact later _ _ (by rw [List.length_cons, List.length_drop]) stopped

-- An evaluation gives a value or names a token of the stream that it does not know.
def Completes (semantics : Semantics α) (stream : Stream) : Prop :=
  (∃ value, semantics.evaluate stream = .ok value) ∨
    ∃ token ∈ stream, semantics.evaluate stream = .error (.unexpected token.name)

theorem checked_completes (plain : semantics.Plain) (stream : Stream) (nullary : stream.Nullary)
    (checked : stream.check = .ok ()) : semantics.Completes stream := by
  have deep := checked_depth stream checked
  cases ran : semantics.run stream [] with
  | error error =>
      rcases run_stops plain stream nullary [] error ran with ⟨token, member, rfl⟩ | ⟨token, _, missing⟩
      · exact .inr ⟨token, member, by rw [evaluate, ran]⟩
      · exact absurd (missing.symm.trans deep) (by simp)
  | ok after =>
      have height := run_height stream nullary [] after ran
      obtain ⟨value, rfl⟩ := List.length_eq_one_iff.mp (Except.ok.inj (height.symm.trans deep))
      exact .inl ⟨value, by rw [evaluate, ran]⟩

theorem unchecked_fails (stream : Stream) (nullary : stream.Nullary) (flaw : Flaw)
    (checked : stream.check = .error flaw) : ∃ error, semantics.evaluate stream = .error error := by
  cases evaluated : semantics.evaluate stream with
  | error error => exact ⟨error, rfl⟩
  | ok value =>
      rw [evaluate] at evaluated
      split at evaluated
      · contradiction
      · next ran =>
          have deep : stream.depth 0 = .ok 1 := run_height stream nullary [] _ ran
          rw [Stream.check, deep] at checked
          contradiction
      · contradiction

end Semantics

theorem arithmetic_plain : arithmetic.Plain where
  operand token error failed := by
    simp only [arithmetic] at failed
    split at failed <;> cases failed
    rfl
  apply token operands error failed := by
    simp only [arithmetic] at failed
    repeat' split at failed
    all_goals cases failed
    all_goals rfl

theorem logic_plain : logic.Plain where
  operand token error failed := by
    simp only [logic] at failed
    split at failed <;> cases failed
    rfl
  apply token operands error failed := by
    simp only [logic] at failed
    repeat' split at failed
    all_goals cases failed
    all_goals rfl

theorem validation_decides (stream : Stream) (expression : String) (nullary : stream.Nullary) :
    (stream.validate expression = .ok () → arithmetic.Completes stream ∧ logic.Completes stream) ∧
      (∀ refusal, stream.validate expression = .error refusal →
        (∃ error, arithmetic.evaluate stream = .error error) ∧
          ∃ error, logic.evaluate stream = .error error) ∧
      (stream.validate expression = .ok () ↔ ∃! tree : Tree, tree.Ranked ∧ tree.postorder = stream) := by
  refine ⟨fun valid => ?_, fun refusal refused => ?_, ?_⟩
  · have checked := (Stream.validate_ok stream expression).mp valid
    exact ⟨Semantics.checked_completes arithmetic_plain stream nullary checked,
      Semantics.checked_completes logic_plain stream nullary checked⟩
  · cases checked : stream.check with
    | ok =>
        rw [(Stream.validate_ok stream expression).mpr checked] at refused
        contradiction
    | error flaw =>
        exact ⟨Semantics.unchecked_fails stream nullary flaw checked,
          Semantics.unchecked_fails stream nullary flaw checked⟩
  · rw [Stream.validate_ok, Stream.check_lists]

def ternaryStream : Stream := [.atom "a", .call "pi" 0, .number 1, ⟨"&", .operator, .empty, 3⟩]

theorem ternary_stream_decided :
    ternaryStream.Nullary ∧ arithmetic.Completes ternaryStream ∧ logic.Completes ternaryStream := by
  have nullary : ternaryStream.Nullary := by
    unfold Stream.Nullary
    decide
  exact ⟨nullary, (validation_decides ternaryStream "" nullary).1 rfl⟩

end Interlock.Formula
