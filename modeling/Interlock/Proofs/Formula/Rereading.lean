import Interlock.Proofs.Formula.Emission
import Interlock.Proofs.Formula.Juncture
import Interlock.Proofs.Formula.Rendering

/-!
Compiling the infix text of a compiled condition. The text derives the proposition that it is the text
of, but for one juncture: a '!' merges with a comparison that begins with '='.
-/

set_option autoImplicit false

namespace Interlock.Formula

open Interlock.Text (isBlank)

namespace Proposition

def text (proposition : Proposition) : String := proposition.tree.text

theorem text_atom (text : String) : (atom text).text = text := rfl

theorem text_not (operand : Proposition) : operand.not.text.toList = '!' :: operand.text.toList := by
  have joined : operand.not.text = "!" ++ operand.text := rfl
  rw [joined, String.toList_append]
  rfl

theorem text_and (left right : Proposition) :
    (left.and right).text.toList = '(' :: (left.text.toList ++ '&' :: right.text.toList ++ [')']) := by
  have joined : (left.and right).text = "(" ++ left.text ++ "&" ++ right.text ++ ")" := rfl
  simp [joined]

theorem text_or (left right : Proposition) :
    (left.or right).text.toList = '(' :: (left.text.toList ++ '|' :: right.text.toList ++ [')']) := by
  have joined : (left.or right).text = "(" ++ left.text ++ "|" ++ right.text ++ ")" := rfl
  simp [joined]

def reread : Proposition → Proposition
  | atom text => atom text
  | not (atom text) => if text.toList.head? = some '=' then atom ("!" ++ text) else not (atom text)
  | not operand => not operand.reread
  | and left right => and left.reread right.reread
  | or left right => or left.reread right.reread

end Proposition

open Proposition (Legible)

theorem texts_proposition (proposition : Proposition) (rest : Stream) (stack : List String) :
    Stream.texts (proposition.postorder ++ rest) stack =
      Stream.texts rest (proposition.text :: stack) := by
  induction proposition generalizing rest stack with
  | atom text => rfl
  | not operand ih => rw [Proposition.postorder_not, List.append_assoc, ih]; rfl
  | and left right first second =>
      rw [Proposition.postorder_and, List.append_assoc, List.append_assoc, first, second]
      rfl
  | or left right first second =>
      rw [Proposition.postorder_or, List.append_assoc, List.append_assoc, first, second]
      rfl

theorem infix_proposition (proposition : Proposition) :
    proposition.postorder.toInfix = proposition.text := by
  have whole := texts_proposition proposition [] []
  rw [List.append_nil] at whole
  rw [Stream.toInfix, whole]
  simp [Stream.texts]

theorem marks_clear : ∀ c ∈ ['(', ')', '!', '&', '|'], isBlank c = false := by
  simp only [List.forall_mem_cons]
  exact ⟨by decide, by decide, by decide, by decide, by decide, by simp⟩

theorem enclosed_clear (left right : List Char) (symbol : Char) (connective : symbol ∈ ['&', '|'])
    (first : ∀ c ∈ left, isBlank c = false) (second : ∀ c ∈ right, isBlank c = false) :
    ∀ c ∈ '(' :: (left ++ symbol :: right ++ [')']), isBlank c = false := by
  have mark : isBlank symbol = false := marks_clear symbol (by simp_all)
  simp only [List.forall_mem_cons, List.forall_mem_append]
  exact ⟨marks_clear '(' (by simp), ⟨first, mark, second⟩, marks_clear ')' (by simp), by simp⟩

theorem text_clear (proposition : Proposition) (legible : Legible proposition) :
    ∀ c ∈ proposition.text.toList, isBlank c = false := by
  induction legible with
  | atom text atom clear =>
      rw [Proposition.text_atom, String.toList_ofList]
      exact clear
  | not operand _ ih =>
      rw [Proposition.text_not]
      exact List.forall_mem_cons.mpr ⟨marks_clear '!' (by simp), ih⟩
  | and left right _ _ first second =>
      rw [Proposition.text_and]
      exact enclosed_clear _ _ '&' (by simp) first second
  | or left right _ _ first second =>
      rw [Proposition.text_or]
      exact enclosed_clear _ _ '|' (by simp) first second

theorem negation_and (left right : List Char) (first second : Proposition)
    (leading : Negation left first) (trailing : Negation right second) :
    Negation ('(' :: (left ++ '&' :: right ++ [')'])) (.and first second) := by
  refine .group _ _ (.single _ _ ?_)
  exact .more left ['&'] right first second (.single left first leading) .single trailing

theorem negation_or (left right : List Char) (first second : Proposition)
    (leading : Negation left first) (trailing : Negation right second) :
    Negation ('(' :: (left ++ '|' :: right ++ [')'])) (.or first second) := by
  refine .group _ _ ?_
  exact .more left ['|'] right first second (.single _ _ (.single left first leading)) .single
    (.single right second trailing)

theorem reread_compound (operand : Proposition) (compound : ∀ text, operand ≠ .atom text) :
    operand.not.reread = .not operand.reread ∧ operand.text.toList.head? ≠ some '=' := by
  cases operand with
  | atom text => exact absurd rfl (compound text)
  | not inner => exact ⟨rfl, by simp [Proposition.text_not]⟩
  | and left right => exact ⟨rfl, by simp [Proposition.text_and]⟩
  | or left right => exact ⟨rfl, by simp [Proposition.text_or]⟩

theorem negated_atom (text : List Char) (atom : Atom text) :
    Negation ('!' :: text) (Proposition.not (.atom (String.ofList text))).reread := by
  rw [Proposition.reread, String.toList_ofList]
  by_cases equals : text.head? = some '='
  · obtain ⟨rest, rfl⟩ := List.head?_eq_some_iff.mp equals
    have run := run_append ['!', '='] rest run_unequal (run_tail '=' rest atom.toRun)
    have joined : "!" ++ String.ofList ('=' :: rest) = String.ofList ('!' :: '=' :: rest) := by
      apply String.toList_injective
      simp
    rw [if_pos equals, joined]
    exact .atom _ ⟨run, by simp⟩
  · rw [if_neg equals]
    exact .not text _ equals (.atom text atom)

theorem text_reread (proposition : Proposition) (legible : Legible proposition) :
    Negation proposition.text.toList proposition.reread := by
  induction legible with
  | atom text atom _ =>
      rw [Proposition.text_atom, String.toList_ofList]
      exact .atom text atom
  | not operand inner ih =>
      rw [Proposition.text_not]
      by_cases compound : ∀ text, operand ≠ .atom text
      · obtain ⟨kept, free⟩ := reread_compound operand compound
        rw [kept]
        exact .not _ _ free ih
      · push Not at compound
        obtain ⟨text, rfl⟩ := compound
        cases inner with
        | atom text atom _ =>
            rw [Proposition.text_atom, String.toList_ofList]
            exact negated_atom text atom
  | and left right _ _ first second =>
      rw [Proposition.text_and]
      exact negation_and _ _ _ _ first second
  | or left right _ _ first second =>
      rw [Proposition.text_or]
      exact negation_or _ _ _ _ first second

theorem text_recompiles (proposition : Proposition) (legible : Legible proposition) :
    compileLogic proposition.text = .ok proposition.reread.postorder := by
  have verbatim : Text.stripBlanks proposition.text.toList = proposition.text.toList := by
    rw [Text.stripBlanks, List.filter_eq_self]
    intro c member
    simp [text_clear proposition legible c member]
  refine derived_condition _ _ ?_
  rw [verbatim]
  exact .single _ _ (.single _ _ (text_reread proposition legible))

structure Merges (operand negation : Token) : Prop where
  comparison : operand.role = .atom
  equals : operand.name.toList.head? = some '='
  operator : negation.role = .operator
  exclamation : negation.name = "!"

def Stream.Apart (stream : Stream) : Prop := stream.IsChain fun a b => ¬ Merges a b

theorem apart_nowhere (stream : Stream) :
    stream.Apart ↔ ¬ ∃ before operand negation after,
      stream = before ++ operand :: negation :: after ∧ Merges operand negation := by
  rw [Stream.Apart, List.isChain_iff_forall_rel_of_append_cons_cons]
  exact ⟨fun apart ⟨before, operand, negation, after, same, merges⟩ => apart same merges,
    fun nowhere operand negation before after same merges =>
      nowhere ⟨before, operand, negation, after, same, merges⟩⟩

theorem postorder_first (proposition : Proposition) :
    ∃ text rest, proposition.postorder = .atom text :: rest := by
  induction proposition with
  | atom text => exact ⟨text, [], rfl⟩
  | not operand ih =>
      obtain ⟨text, rest, same⟩ := ih
      exact ⟨text, _, by rw [Proposition.postorder_not, same, List.cons_append]⟩
  | and left right first _ =>
      obtain ⟨text, rest, same⟩ := first
      exact ⟨text, _, by rw [Proposition.postorder_and, same, List.cons_append, List.cons_append]⟩
  | or left right first _ =>
      obtain ⟨text, rest, same⟩ := first
      exact ⟨text, _, by rw [Proposition.postorder_or, same, List.cons_append, List.cons_append]⟩

theorem compound_last (operand : Proposition) (compound : ∀ text, operand ≠ .atom text) :
    ∀ token ∈ operand.postorder.getLast?, token.role = .operator := by
  cases operand with
  | atom text => exact absurd rfl (compound text)
  | not inner => simp [Proposition.postorder_not, Token.operator]
  | and left right => simp [Proposition.postorder_and, Token.operator]
  | or left right => simp [Proposition.postorder_or, Token.operator]

theorem apart_joined (left right : Proposition) (symbol : Char) (other : symbol ≠ '!') :
    Stream.Apart (left.postorder ++ right.postorder ++ [.operator symbol]) ↔
      Stream.Apart left.postorder ∧ Stream.Apart right.postorder := by
  have name : (Token.operator symbol).name ≠ "!" := fun same => by
    have chars : [symbol] = ['!'] := by
      simpa [Token.operator] using congrArg String.toList same
    exact other (List.cons.inj chars).1
  obtain ⟨text, rest, first⟩ := postorder_first right
  constructor
  · intro apart
    have both := List.IsChain.left_of_append apart
    exact ⟨List.IsChain.left_of_append both, List.IsChain.right_of_append both⟩
  · rintro ⟨early, late⟩
    refine List.IsChain.append (List.IsChain.append early late ?_) (.singleton _) ?_
    · intro operand _ token head merges
      rw [first] at head
      obtain rfl := Option.some.inj head
      exact absurd merges.operator (by simp [Token.atom])
    · intro operand _ token head merges
      obtain rfl := Option.some.inj head
      exact name merges.exclamation

inductive Rereads (proposition : Proposition) : Prop where
  | kept (same : proposition.reread = proposition) (apart : proposition.postorder.Apart)
  | merged (fewer : proposition.reread.postorder.length < proposition.postorder.length)
      (merges : ¬ proposition.postorder.Apart)

theorem atom_negation_rereads (text : String) : Rereads (.not (.atom text)) := by
  by_cases equals : text.toList.head? = some '='
  · have merged : Merges (.atom text) (.operator '!') := ⟨rfl, equals, rfl, rfl⟩
    refine .merged ?_ ?_
    · rw [Proposition.reread, if_pos equals]
      exact Nat.one_lt_two
    · rw [Proposition.postorder_not, Proposition.postorder_atom]
      simp [Stream.Apart, merged]
  · refine .kept ?_ ?_
    · rw [Proposition.reread, if_neg equals]
    · rw [Proposition.postorder_not, Proposition.postorder_atom]
      have apart : ¬ Merges (.atom text) (.operator '!') := fun merges => equals merges.equals
      simp [Stream.Apart, apart]

theorem joined_rereads (left right whole : Proposition) (symbol : Char) (other : symbol ≠ '!')
    (listed : whole.postorder = left.postorder ++ right.postorder ++ [.operator symbol])
    (relisted : whole.reread.postorder =
      left.reread.postorder ++ right.reread.postorder ++ [.operator symbol])
    (same : left.reread = left → right.reread = right → whole.reread = whole)
    (first : Rereads left) (second : Rereads right) : Rereads whole := by
  have split := apart_joined left right symbol other
  rw [← listed] at split
  have lengths : whole.postorder.length = left.postorder.length + right.postorder.length + 1 := by
    simp [listed, Nat.add_assoc]
  have relengths : whole.reread.postorder.length =
      left.reread.postorder.length + right.reread.postorder.length + 1 := by
    simp [relisted, Nat.add_assoc]
  cases first with
  | kept leftSame leftApart =>
      cases second with
      | kept rightSame rightApart =>
          exact .kept (same leftSame rightSame) (split.mpr ⟨leftApart, rightApart⟩)
      | merged fewer merges =>
          rw [leftSame] at relengths
          exact .merged (by omega) fun apart => merges (split.mp apart).2
  | merged fewer merges =>
      have right_no_longer : right.reread.postorder.length ≤ right.postorder.length := by
        cases second with
        | kept rightSame _ => rw [rightSame]
        | merged rightFewer _ => omega
      exact .merged (by omega) fun apart => merges (split.mp apart).1

theorem proposition_rereads (proposition : Proposition) : Rereads proposition := by
  induction proposition with
  | atom text => exact .kept rfl (.singleton _)
  | not operand ih =>
      by_cases compound : ∀ text, operand ≠ .atom text
      · have reread := (reread_compound operand compound).1
        have last := compound_last operand compound
        cases ih with
        | kept same apart =>
            refine .kept (by rw [reread, same]) ?_
            rw [Proposition.postorder_not]
            refine List.IsChain.append apart (.singleton _) fun token end_ _ _ merges => ?_
            have operator := last token end_
            rw [merges.comparison] at operator
            contradiction
        | merged fewer merges =>
            refine .merged ?_ fun apart => ?_
            · rw [reread, Proposition.postorder_not, Proposition.postorder_not]
              simpa using fewer
            · rw [Proposition.postorder_not] at apart
              exact merges (List.IsChain.left_of_append apart)
      · push Not at compound
        obtain ⟨text, rfl⟩ := compound
        exact atom_negation_rereads text
  | and left right first second =>
      exact joined_rereads left right _ '&' (by decide) (Proposition.postorder_and left right)
        (Proposition.postorder_and left.reread right.reread)
        (fun leftSame rightSame => by rw [Proposition.reread, leftSame, rightSame]) first second
  | or left right first second =>
      exact joined_rereads left right _ '|' (by decide) (Proposition.postorder_or left right)
        (Proposition.postorder_or left.reread right.reread)
        (fun leftSame rightSame => by rw [Proposition.reread, leftSame, rightSame]) first second

-- The infix text of a compiled condition compiles, and to the same stream unless a '!' stands right
-- behind a comparison that begins with '='.
theorem condition_infix_recompiles (expression : String) (stream : Stream)
    (compiled : compileLogic expression = .ok stream) :
    ∃ again, compileLogic stream.toInfix = .ok again ∧
      (again = stream ↔
        ¬ ∃ before operand negation after, stream = before ++ operand :: negation :: after ∧
          Merges operand negation) := by
  obtain ⟨proposition, legible, rfl⟩ := compiled_proposition expression stream compiled
  refine ⟨proposition.reread.postorder, ?_, ?_⟩
  · rw [infix_proposition]
    exact text_recompiles proposition legible
  · rw [← apart_nowhere]
    cases proposition_rereads proposition with
    | kept same apart =>
        rw [same]
        exact ⟨fun _ => apart, fun _ => rfl⟩
    | merged fewer merges =>
        exact ⟨fun same => absurd (congrArg List.length same) (by omega), fun apart => absurd apart merges⟩

-- The '!' is taken for a part of the comparison.
theorem merged_infix_recompiles :
    ∃ stream again, compileLogic "!(=x) & b" = .ok stream ∧ stream.toInfix = "(!=x&b)" ∧
      compileLogic stream.toInfix = .ok again ∧ again ≠ stream := by
  have made : (compileLogic "!(=x) & b").toOption =
      some [.atom "=x", .operator '!', .atom "b", .operator '&'] := by decide +kernel
  cases compiled : compileLogic "!(=x) & b" with
  | error error =>
      rw [compiled] at made
      contradiction
  | ok stream =>
      rw [compiled] at made
      obtain rfl := Option.some.inj made
      obtain ⟨again, recompiled, agreement⟩ := condition_infix_recompiles _ _ compiled
      refine ⟨_, again, rfl, by decide +kernel, recompiled, fun same => agreement.mp same ?_⟩
      exact ⟨[], .atom "=x", .operator '!', [.atom "b", .operator '&'], rfl, rfl, by decide, rfl, rfl⟩

end Interlock.Formula
