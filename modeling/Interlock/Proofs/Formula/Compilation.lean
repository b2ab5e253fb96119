import Interlock.Proofs.Formula.Completeness

/-!
The compiler of arithmetic expressions accepts the derivable texts and no others. The scanner lets
operators without a right operand and empty groups pass, and only the whole stream is checked. But no
part of a stream can leave more values than its place wants, so a stream that leaves one value lacks
none anywhere.
-/

set_option autoImplicit false

namespace Interlock.Formula

open Interlock.Text (startsName continuesName)
open Interlock.Formula.Stream (balance balance_append)

def Yard.surplus (yard : Yard) : Int := balance yard.close

theorem close_output (yard : Yard) :
    yard.close = yard.output ++ yard.waiting.map fun held => Token.operator held.symbol := by
  rw [Yard.close, Yard.release_all _ _ 0 fun held _ => Nat.zero_le held.strength]

theorem surplus_empty : Yard.empty.surplus = 0 := rfl

theorem surplus_emit (yard : Yard) (stream : Stream) :
    (yard.emit stream).surplus = yard.surplus + balance stream := by
  simp only [Yard.surplus, close_output, Yard.emit, balance_append]
  omega

theorem surplus_hold (yard : Yard) (symbol : Char) (strength : Nat) (binary : symbol ≠ '!') :
    (yard.hold symbol strength).surplus = yard.surplus - 1 := by
  simp only [Yard.surplus, close_output, Yard.hold, List.map_cons, balance_append, balance,
    Token.operator, if_neg binary]
  omega

theorem surplus_release (yard : Yard) (strength : Nat) :
    (yard.release strength).surplus = yard.surplus := by
  simp only [Yard.surplus, close_output, Yard.release, List.append_assoc, ← List.map_append,
    List.takeWhile_append_dropWhile]

theorem surplus_push (yard : Yard) (symbol : Char) (strength : Nat) (binary : symbol ≠ '!') :
    (yard.push symbol strength).surplus = yard.surplus - 1 := by
  rw [Yard.push, surplus_hold _ _ _ binary, surplus_release]

-- The values that are still to come where an operand is wanted.
def due (wanted : Bool) : Int := if wanted then 1 else 0

theorem balance_value (token : Token) (nullary : token.arity = 0) : balance [token] = 1 := by
  simp [balance, nullary]

theorem balance_call (name : String) (operands : Stream) (arity : Nat) :
    balance (operands ++ [.call name arity]) = balance operands + 1 - arity := by
  simp only [balance_append, balance, Token.call]
  omega

mutual
theorem scanned_balance :
    ∀ (cs : List Char) (yard : Yard) (wanted : Bool) (stream : Stream),
      Scanned cs yard wanted stream → balance stream ≤ yard.surplus + due wanted
  | _, _, _, _, .done yard wanted => by
      have none : 0 ≤ due wanted := by cases wanted <;> decide
      rw [Yard.surplus]
      omega
  | _, _, _, _, .group rest body after yard inner stream found within later => by
      have first := scanned_balance body .empty true inner within
      have second := scanned_balance after _ false stream later
      rw [surplus_empty] at first
      rw [surplus_emit] at second
      simp only [due, Bool.false_eq_true, if_true, if_false] at first second ⊢
      omega
  | _, _, _, _, .negative c rest yard stream starts numeral later => by
      have second := scanned_balance _ _ false stream later
      rw [surplus_emit, balance_value _ rfl] at second
      simp only [due, Bool.false_eq_true, if_true, if_false] at second ⊢
      omega
  | _, _, _, _, .minus rest yard stream free later => by
      have second := scanned_balance rest _ true stream later
      rw [surplus_hold _ _ _ (by decide), surplus_emit, balance_value _ rfl] at second
      omega
  | _, _, _, _, .plus rest yard stream later => scanned_balance rest yard true stream later
  | _, _, _, _, .operator c rest yard stream operator later => by
      have second := scanned_balance rest _ true stream later
      rw [surplus_push yard c _ (operator_not_negation c operator)] at second
      simp only [due, Bool.false_eq_true, if_true, if_false] at second ⊢
      omega
  | _, _, _, _, .number c rest yard stream starts numeral later => by
      have second := scanned_balance _ _ false stream later
      rw [surplus_emit, balance_value _ rfl] at second
      simp only [due, Bool.false_eq_true, if_true, if_false] at second ⊢
      omega
  | _, _, _, _, .parameter c rest yard stream starts free later => by
      have second := scanned_balance _ _ false stream later
      rw [surplus_emit, balance_value _ rfl] at second
      simp only [due, Bool.false_eq_true, if_true, if_false] at second ⊢
      omega
  | _, _, _, _, .call c rest inside body after yard operands stream starts behind found arity within
      later => by
      have first := fields_balance _ operands within
      have second := scanned_balance after _ false stream later
      rw [surplus_emit, balance_call] at second
      simp only [due, Bool.false_eq_true, if_true, if_false] at second ⊢
      omega

theorem fields_balance :
    ∀ (fields : List (List Char)) (stream : Stream), ScannedFields fields stream →
      balance stream ≤ fields.length
  | _, _, .nil => by simp [balance]
  | _, _, .cons field others operand operands filled within later => by
      have first := scanned_balance field .empty true operand within
      have second := fields_balance others operands later
      rw [surplus_empty] at first
      simp only [due, if_true] at first
      rw [balance_append, List.length_cons]
      omega
end

-- What the text has to be from a place on where an operand is wanted, or an operator.
def Derivable (wanted : Bool) (text : List Char) : Prop :=
  if wanted then
    ∃ first rest operand chain, text = first ++ rest ∧ Operand first operand ∧ Continuation rest chain
  else ∃ chain, Continuation text chain

theorem derivable_primary (first rest : List Char) (operand : Tree) (primary : Primary first operand)
    (later : Derivable false rest) : Derivable true (first ++ rest) := by
  obtain ⟨chain, trailing⟩ := later
  exact ⟨first, rest, operand, chain, rfl, .primary first operand primary, trailing⟩

theorem derivable_expression (text : List Char) (derivable : Derivable true text) :
    ∃ tree, Expression text tree := by
  obtain ⟨first, rest, operand, chain, rfl, leading, trailing⟩ := derivable
  exact ⟨_, .chain first rest operand chain leading trailing⟩

theorem head_any_append (first rest : List Char) (operand : Tree) (leading : Operand first operand)
    (free : (first ++ rest).head?.any startsNumber = false) :
    first.head?.any startsNumber = false := by
  rwa [head_append_filled first rest (operand_filled first operand leading)] at free

theorem arguments_derived (body : List Char) (trees : List Tree)
    (derived : argumentFields body ≠ [] → Fields (joinFields (argumentFields body)) trees)
    (count : trees.length = (argumentFields body).length) : Arguments body trees := by
  by_cases empty : body = []
  · subst body
    obtain rfl : trees = [] := List.eq_nil_of_length_eq_zero count
    exact .none
  · obtain ⟨joined, filled⟩ := split_arguments_join 0 body
    have fields : argumentFields body = splitArguments 0 body := if_neg empty
    rw [fields, joined] at derived
    exact .some body trees (derived filled)

mutual
theorem scanned_derived :
    ∀ (cs : List Char) (yard : Yard) (wanted : Bool) (stream : Stream),
      Scanned cs yard wanted stream → balance stream = yard.surplus + due wanted →
        Derivable wanted cs
  | _, _, _, _, .done yard wanted, full => by
      cases wanted with
      | false => exact ⟨[], .done⟩
      | true =>
          simp only [Yard.surplus, due, if_true] at full
          omega
  | _, _, _, _, .group rest body after yard inner stream found within later, full => by
      have first := scanned_balance body .empty true inner within
      have second := scanned_balance after _ false stream later
      rw [surplus_empty] at first
      rw [surplus_emit] at second
      simp only [due, Bool.false_eq_true, if_true, if_false] at first second full
      obtain ⟨tree, inside⟩ := derivable_expression body
        (scanned_derived body .empty true inner within (by
          rw [surplus_empty]
          simp only [due, if_true]
          omega))
      have behind := scanned_derived after _ false stream later (by
        rw [surplus_emit]
        simp only [due, Bool.false_eq_true, if_false]
        omega)
      have whole := derivable_primary _ after tree (.group body tree inside) behind
      rw [split_group_join 0 rest body after found]
      simpa using whole
  | _, _, _, _, .negative c rest yard stream starts numeral later, full => by
      have behind := scanned_derived _ _ false stream later (by
        rw [surplus_emit, balance_value _ rfl]
        simp only [due, Bool.false_eq_true, if_true, if_false] at full ⊢
        omega)
      have whole := derivable_primary _ _ _ (.negative _ numeral) behind
      rwa [List.cons_append, split_number_append] at whole
  | _, _, _, _, .minus rest yard stream free later, full => by
      obtain ⟨first, after, operand, chain, rfl, leading, trailing⟩ :=
        scanned_derived rest _ true stream later (by
          rw [surplus_hold _ _ _ (by decide), surplus_emit, balance_value _ rfl]
          omega)
      exact ⟨'-' :: first, after, _, chain, rfl,
        .minus first operand (head_any_append first after operand leading free) leading, trailing⟩
  | _, _, _, _, .plus rest yard stream later, full => by
      obtain ⟨first, after, operand, chain, rfl, leading, trailing⟩ :=
        scanned_derived rest yard true stream later full
      exact ⟨'+' :: first, after, _, chain, rfl, .plus first operand leading, trailing⟩
  | _, _, _, _, .operator c rest yard stream operator later, full => by
      obtain ⟨first, after, operand, chain, rfl, leading, trailing⟩ :=
        scanned_derived rest _ true stream later (by
          rw [surplus_push yard c _ (operator_not_negation c operator)]
          simp only [due, Bool.false_eq_true, if_true, if_false] at full ⊢
          omega)
      exact ⟨_, .more c first after operand chain operator leading trailing⟩
  | _, _, _, _, .number c rest yard stream starts numeral later, full => by
      have behind := scanned_derived _ _ false stream later (by
        rw [surplus_emit, balance_value _ rfl]
        simp only [due, Bool.false_eq_true, if_true, if_false] at full ⊢
        omega)
      have whole := derivable_primary _ _ _ (.number _ numeral) behind
      rwa [split_number_append] at whole
  | _, _, _, _, .parameter c rest yard stream starts free later, full => by
      have behind := scanned_derived _ _ false stream later (by
        rw [surplus_emit, balance_value _ rfl]
        simp only [due, Bool.false_eq_true, if_true, if_false] at full ⊢
        omega)
      have named : Name (c :: rest.takeWhile continuesName) :=
        .letters c _ starts (List.all_eq_true.mp List.all_takeWhile)
      have whole := derivable_primary _ _ _ (.parameter _ named) behind
      rwa [List.cons_append, List.takeWhile_append_dropWhile] at whole
  | _, _, _, _, .call c rest inside body after yard operands stream starts behind found arity within
      later, full => by
      have first := fields_balance _ operands within
      have second := scanned_balance after _ false stream later
      rw [surplus_emit, balance_call] at second
      simp only [due, Bool.false_eq_true, if_true, if_false] at second full
      obtain ⟨trees, count, derived⟩ := fields_derived _ operands within (by omega)
      have trailing := scanned_derived after _ false stream later (by
        rw [surplus_emit, balance_call]
        simp only [due, Bool.false_eq_true, if_false]
        omega)
      have named : Name (c :: rest.takeWhile continuesName) :=
        .letters c _ starts (List.all_eq_true.mp List.all_takeWhile)
      have whole := derivable_primary _ after _
        (.call _ body trees named (arguments_derived body trees derived count)
          (by rw [arity, count])) trailing
      have text : c :: rest = c :: rest.takeWhile continuesName ++ '(' :: (body ++ ')' :: after) := by
        rw [← split_group_join 0 inside body after found, ← behind, List.cons_append,
          List.takeWhile_append_dropWhile]
      rw [text]
      simpa using whole

theorem fields_derived :
    ∀ (fields : List (List Char)) (stream : Stream), ScannedFields fields stream →
      balance stream = fields.length →
        ∃ trees, trees.length = fields.length ∧ (fields ≠ [] → Fields (joinFields fields) trees)
  | _, _, .nil, _ => ⟨[], rfl, fun filled => absurd rfl filled⟩
  | _, _, .cons field others operand operands filled within later, full => by
      have first := scanned_balance field .empty true operand within
      have second := fields_balance others operands later
      rw [surplus_empty] at first
      simp only [due, if_true] at first
      rw [balance_append, List.length_cons] at full
      obtain ⟨tree, inside⟩ := derivable_expression field
        (scanned_derived field .empty true operand within (by
          rw [surplus_empty]
          simp only [due, if_true]
          omega))
      obtain ⟨trees, count, derived⟩ := fields_derived others operands later (by omega)
      refine ⟨tree :: trees, by simp [count], fun _ => ?_⟩
      cases others with
      | nil =>
          obtain rfl : trees = [] := List.eq_nil_of_length_eq_zero count
          exact .last field tree inside
      | cons other more => exact .more field _ tree trees inside (derived (by simp))
end

theorem compile_scanned (expression : String) (stream : Stream)
    (ok : compileArithmetic expression = .ok stream) :
    Scanned (normalize expression).toList .empty true stream ∧ stream.check = .ok () := by
  unfold compileArithmetic at ok
  dsimp only at ok
  split at ok
  · contradiction
  · rename_i found scanned
    split at ok
    · contradiction
    · rename_i validated
      cases ok
      exact ⟨scan_sound _ _ _ _ stream scanned, (Stream.validate_ok stream _).mp validated⟩

theorem compile_derived (expression : String) (stream : Stream)
    (ok : compileArithmetic expression = .ok stream) :
    ∃ tree, Expression (normalize expression).toList tree := by
  obtain ⟨scanned, checked⟩ := compile_scanned expression stream ok
  refine derivable_expression _ (scanned_derived _ .empty true stream scanned ?_)
  rw [surplus_empty, Stream.balance_of_check stream checked]
  rfl

theorem derived_compiles (expression : String) (tree : Tree)
    (derived : Expression (normalize expression).toList tree) :
    compileArithmetic expression = .ok tree.postorder := by
  have scanned := scan_complete (normalize expression) _ _ _ _ (expression_scanned _ tree derived)
  have checked := Stream.check_postorder tree (expression_ranked _ tree derived)
  have validated := (Stream.validate_ok tree.postorder (normalize expression)).mpr checked
  simp [compileArithmetic, scanned, validated]

theorem derivation_unique (expression : String) (tree other : Tree)
    (derived : Expression (normalize expression).toList tree)
    (again : Expression (normalize expression).toList other) : other = tree := by
  have first := derived_compiles expression tree derived
  have second := derived_compiles expression other again
  rw [first] at second
  exact Stream.postorder_injective other tree (expression_ranked _ other again)
    (expression_ranked _ tree derived) (Except.ok.inj second).symm

end Interlock.Formula
