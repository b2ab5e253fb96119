import Interlock.Proofs.Formula.Clause
import Interlock.Proofs.Formula.Truth

/-!
What the compiler of conditions emits. Derivable or not, an accepted text compiles to the stream of a
proposition whose comparisons are runs of the text.
-/

set_option autoImplicit false

namespace Interlock.Formula

open Interlock.Text (isBlank)

section

-- A property of the stream follows from what holds of each comparison that the scanner gathers and of
-- each connective.
variable (kind : Char → Prop) (fits : Token → Prop)
  (atoms : ∀ text, Atom text → (∀ c ∈ text, kind c) → fits (.atom (String.ofList text)))
  (connectives : ∀ symbol, IsConnective symbol → fits (.operator symbol))

theorem emit_atom_waiting (atom : List Char) (yard : Yard) :
    (emitAtom atom yard).waiting = yard.waiting := by
  unfold emitAtom
  split <;> rfl

include atoms in
theorem emit_atom_fits (atom : List Char) (yard : Yard) (run : Run atom)
    (gathered : ∀ c ∈ atom, kind c) (output : ∀ token ∈ yard.output, fits token) :
    ∀ token ∈ (emitAtom atom yard).output, fits token := by
  unfold emitAtom
  split
  · exact output
  · next filled =>
      exact List.forall_mem_append.mpr
        ⟨output, List.forall_mem_singleton.mpr (atoms atom ⟨run, filled⟩ gathered)⟩

include connectives in
theorem release_fits (yard : Yard) (strength : Nat) (output : ∀ token ∈ yard.output, fits token)
    (waiting : ∀ operator ∈ yard.waiting, IsConnective operator.symbol) :
    ∀ token ∈ (yard.release strength).output, fits token := by
  refine List.forall_mem_append.mpr ⟨output, fun token member => ?_⟩
  obtain ⟨operator, held, rfl⟩ := List.mem_map.mp member
  exact connectives _ (waiting operator ((List.takeWhile_sublist _).subset held))

include atoms connectives in
theorem scan_condition_emits (whole : String) (cs : List Char) (yard : Yard) (atom : List Char)
    (stream : Stream) (made : scanCondition whole cs yard atom = .ok stream)
    (input : ∀ c ∈ cs, kind c) (run : Run atom) (gathered : ∀ c ∈ atom, kind c)
    (output : ∀ token ∈ yard.output, fits token)
    (waiting : ∀ operator ∈ yard.waiting, IsConnective operator.symbol) :
    ∀ token ∈ stream, fits token := by
  fun_induction scanCondition whole cs yard atom generalizing stream with
  | case1 yard atom =>
      cases made
      have emitted := emit_atom_fits kind fits atoms atom yard run gathered output
      refine release_fits fits connectives _ 0 emitted ?_
      rw [emit_atom_waiting]
      exact waiting
  | case2 | case3 | case4 | case6 | case8 => contradiction
  | case5 yard atom rest _ body after found _ group within inner later =>
      rw [split_group_join 0 rest body after found] at input
      obtain ⟨front, behind⟩ := List.forall_mem_append.mp (List.forall_mem_cons.mp input).2
      have grouped := inner group within front run_nil (by simp) (by simp [Yard.empty])
        (by simp [Yard.empty])
      exact later stream made (List.forall_mem_cons.mp behind).2 run_nil (by simp)
        (List.forall_mem_append.mpr ⟨output, grouped⟩) waiting
  | case7 yard atom behind _ _ ih =>
      obtain ⟨exclamation, others⟩ := List.forall_mem_cons.mp input
      obtain ⟨equals, rest⟩ := List.forall_mem_cons.mp others
      refine ih stream made rest (run_append atom _ run run_unequal) ?_ output waiting
      exact List.forall_mem_append.mpr ⟨gathered, by simp [exclamation, equals]⟩
  | case9 yard atom behind _ _ _ _ ih =>
      exact ih stream made (List.forall_mem_cons.mp input).2 run_nil (by simp) output
        (List.forall_mem_cons.mpr ⟨.not, waiting⟩)
  | case10 yard atom d rest _ _ _ connective _ ih =>
      have known : IsConnective d := by
        rcases connective with rfl | rfl
        · exact .and
        · exact .or
      have emitted := emit_atom_fits kind fits atoms atom yard run gathered output
      rw [← emit_atom_waiting atom yard] at waiting
      refine ih stream made (fun c member => input c ?_) run_nil (by simp)
        (release_fits fits connectives _ _ emitted waiting) ?_
      · exact List.mem_cons_of_mem _ (skip_same_mem d c rest member)
      · exact List.forall_mem_cons.mpr
          ⟨known, fun operator held => waiting operator ((List.dropWhile_sublist _).subset held)⟩
  | case11 yard atom d rest noOpening noClosing negation noConnective ih =>
      obtain ⟨noAnd, noOr⟩ := not_or.mp noConnective
      obtain ⟨first, others⟩ := List.forall_mem_cons.mp input
      have char := run_char d ⟨noOpening, noClosing, noAnd, noOr⟩ negation
      exact ih stream made others (run_append atom [d] run char)
        (List.forall_mem_append.mpr ⟨gathered, List.forall_mem_singleton.mpr first⟩) output waiting

end

-- A comparison without blanks that is not bound yet, or a connective.
inductive Token.Written : Token → Prop where
  | atom (text : List Char) (atom : Atom text) (clear : ∀ c ∈ text, isBlank c = false) :
      Written (.atom (String.ofList text))
  | connective (symbol : Char) (known : IsConnective symbol) : Written (.operator symbol)

theorem compiled_written (expression : String) (stream : Stream)
    (compiled : compileLogic expression = .ok stream) :
    (∀ token ∈ stream, token.Written) ∧ stream.check = .ok () := by
  obtain ⟨whole, scanned, checked⟩ := compile_logic_scanned expression stream compiled
  have input : ∀ c ∈ Text.stripBlanks expression.toList, isBlank c = false := by
    intro c member
    rw [Text.stripBlanks, List.mem_filter] at member
    simpa using member.2
  exact ⟨scan_condition_emits _ _ .atom .connective whole _ .empty [] stream scanned input run_nil
    (by simp) (by simp [Yard.empty]) (by simp [Yard.empty]), checked⟩

namespace Proposition

inductive Legible : Proposition → Prop where
  | atom (text : List Char) (atom : Atom text) (clear : ∀ c ∈ text, isBlank c = false) :
      Legible (.atom (String.ofList text))
  | not (operand : Proposition) (inner : Legible operand) : Legible operand.not
  | and (left right : Proposition) (first : Legible left) (second : Legible right) :
      Legible (left.and right)
  | or (left right : Proposition) (first : Legible left) (second : Legible right) :
      Legible (left.or right)

def postorders (stack : List Proposition) : Stream := stack.reverse.flatMap postorder

theorem postorders_cons (top : Proposition) (below : List Proposition) :
    postorders (top :: below) = postorders below ++ top.postorder := by
  simp [postorders]

end Proposition

open Proposition (Legible postorders postorders_cons)

theorem written_gathers (stream : Stream) (written : ∀ token ∈ stream, token.Written)
    (stack : List Proposition) (legible : ∀ proposition ∈ stack, Legible proposition) (height : Nat)
    (deep : stream.depth stack.length = .ok height) :
    ∃ after : List Proposition, after.length = height ∧ (∀ proposition ∈ after, Legible proposition) ∧
      postorders after = postorders stack ++ stream := by
  induction stream generalizing stack with
  | nil =>
      cases deep
      exact ⟨stack, rfl, legible, (List.append_nil _).symm⟩
  | cons token rest ih =>
      obtain ⟨here, later⟩ := List.forall_mem_cons.mp written
      -- One more proposition in place of the operands of the token.
      have push (top : Proposition) (below : List Proposition) (topLegible : Legible top)
          (belowLegible : ∀ proposition ∈ below, Legible proposition)
          (listed : postorders (top :: below) = postorders stack ++ [token])
          (deeper : Stream.depth rest (below.length + 1) = .ok height) :
          ∃ after : List Proposition, after.length = height ∧
            (∀ proposition ∈ after, Legible proposition) ∧
            postorders after = postorders stack ++ token :: rest := by
        obtain ⟨after, length, each, same⟩ :=
          ih later (top :: below) (List.forall_mem_cons.mpr ⟨topLegible, belowLegible⟩) deeper
        refine ⟨after, length, each, ?_⟩
        rw [same, listed, List.append_assoc, List.singleton_append]
      cases here with
      | atom text atom clear =>
          exact push _ stack (.atom text atom clear) legible (postorders_cons _ stack) deep
      | connective symbol known =>
          cases stack with
          | nil => cases known <;> contradiction
          | cons top below =>
              obtain ⟨topLegible, belowLegible⟩ := List.forall_mem_cons.mp legible
              cases known with
              | not =>
                  refine push top.not below (.not top topLegible) belowLegible ?_ deep
                  rw [postorders_cons, postorders_cons, Proposition.postorder_not, List.append_assoc]
              | and =>
                  cases below with
                  | nil => contradiction
                  | cons next bottom =>
                      obtain ⟨nextLegible, bottomLegible⟩ := List.forall_mem_cons.mp belowLegible
                      refine push (next.and top) bottom (.and next top nextLegible topLegible)
                        bottomLegible ?_ deep
                      simp only [postorders_cons, Proposition.postorder_and, List.append_assoc]
              | or =>
                  cases below with
                  | nil => contradiction
                  | cons next bottom =>
                      obtain ⟨nextLegible, bottomLegible⟩ := List.forall_mem_cons.mp belowLegible
                      refine push (next.or top) bottom (.or next top nextLegible topLegible)
                        bottomLegible ?_ deep
                      simp only [postorders_cons, Proposition.postorder_or, List.append_assoc]

theorem compiled_proposition (expression : String) (stream : Stream)
    (compiled : compileLogic expression = .ok stream) :
    ∃ proposition, Legible proposition ∧ stream = proposition.postorder := by
  obtain ⟨written, checked⟩ := compiled_written expression stream compiled
  obtain ⟨after, single, legible, listed⟩ :=
    written_gathers stream written [] (by simp) 1 (checked_depth stream checked)
  obtain ⟨proposition, rfl⟩ := List.length_eq_one_iff.mp single
  exact ⟨proposition, legible proposition (by simp), by simpa [postorders] using listed.symm⟩

end Interlock.Formula
