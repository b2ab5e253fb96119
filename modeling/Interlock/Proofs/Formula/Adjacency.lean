import Mathlib.Data.List.Chain
import Interlock.Proofs.Formula.Compilation
import Interlock.Proofs.Formula.Juncture

/-!
What the compiler of conditions accepts. The scanner does not look at what stands behind a closed group,
so a surplus operand there can make up for one that is missing elsewhere. This is the only way out of the
grammar: where nothing but a connective or the end of an outer group follows a closing parenthesis, the
compiler accepts the derivable texts and no others.
-/

set_option autoImplicit false

namespace Interlock.Formula

open Interlock.Formula.Stream (balance)

def EndsGroup (c : Char) : Prop := c = ')' ∨ c = '&' ∨ c = '|'

def Separated (text : List Char) : Prop := text.IsChain fun a b => a = ')' → EndsGroup b

theorem separated_cons (c : Char) (text : List Char) (other : c ≠ ')') (separated : Separated text) :
    Separated (c :: text) :=
  List.isChain_cons.mpr ⟨fun _ _ same => absurd same other, separated⟩

theorem separated_append (first second : List Char) (early : Separated first) (late : Separated second)
    (ends : ∀ c ∈ second.head?, EndsGroup c) : Separated (first ++ second) :=
  List.IsChain.append early late fun _ _ c head _ => ends c head

theorem separated_tail (c : Char) (text : List Char) (separated : Separated (c :: text)) :
    Separated text :=
  (List.isChain_cons.mp separated).2

theorem separated_run (text : List Char) (run : Run text) : Separated text := by
  induction text with
  | nil => exact .nil
  | cons c rest ih =>
      exact separated_cons c rest (run.plain c (by simp)).2.1 (ih (run_tail c rest run))

theorem separated_mark (symbol : Char) (mark text : List Char) (connective : symbol = '&' ∨ symbol = '|')
    (marked : Mark symbol mark) (separated : Separated text) : Separated (mark ++ text) := by
  have other : symbol ≠ ')' := by
    rcases connective with rfl | rfl
    · decide
    · decide
  cases marked with
  | single => exact separated_cons symbol text other separated
  | double => exact separated_cons symbol _ other (separated_cons symbol text other separated)

theorem separated_join (symbol : Char) (left mark right : List Char)
    (connective : symbol = '&' ∨ symbol = '|') (marked : Mark symbol mark) (early : Separated left)
    (late : Separated right) : Separated (left ++ (mark ++ right)) := by
  refine separated_append left _ early (separated_mark symbol mark right connective marked late) ?_
  intro c head
  have same : c = symbol := by
    cases marked with
    | single => simpa [eq_comm] using head
    | double => simpa [eq_comm] using head
  exact same ▸ .inr connective

mutual
theorem disjunction_separated :
    ∀ (text : List Char) (proposition : Proposition), Disjunction text proposition → Separated text
  | _, _, .single text proposition inner => conjunction_separated text proposition inner
  | _, _, .more left mark right first second leading marked trailing =>
      separated_join '|' left mark right (.inr rfl) marked (disjunction_separated left first leading)
        (conjunction_separated right second trailing)

theorem conjunction_separated :
    ∀ (text : List Char) (proposition : Proposition), Conjunction text proposition → Separated text
  | _, _, .single text proposition inner => negation_separated text proposition inner
  | _, _, .more left mark right first second leading marked trailing =>
      separated_join '&' left mark right (.inl rfl) marked (conjunction_separated left first leading)
        (negation_separated right second trailing)

theorem negation_separated :
    ∀ (text : List Char) (proposition : Proposition), Negation text proposition → Separated text
  | _, _, .not text operand _ inner =>
      separated_cons '!' text (by decide) (negation_separated text operand inner)
  | _, _, .group body proposition inner =>
      separated_cons '(' _ (by decide)
        (separated_append body [')'] (disjunction_separated body proposition inner) (.singleton ')')
          (by simp [EndsGroup]))
  | _, _, .atom text atom => separated_run text atom.toRun
end

inductive Clauses : List Char → Prop where
  | done : Clauses []
  | more (symbol : Char) (mark text rest : List Char) (operand : Proposition)
      (connective : symbol = '&' ∨ symbol = '|') (marked : Mark symbol mark)
      (derived : Negation text operand) (others : Clauses rest) : Clauses (mark ++ (text ++ rest))

theorem clauses_join (rest : List Char) (clauses : Clauses rest) (leading : List Char)
    (completed : ∀ text proposition, Conjunction text proposition →
      ∃ whole, Disjunction (leading ++ text) whole)
    (last : List Char) (proposition : Proposition) (derived : Conjunction last proposition) :
    ∃ whole, Disjunction (leading ++ (last ++ rest)) whole := by
  induction clauses generalizing leading last proposition with
  | done =>
      rw [List.append_nil]
      exact completed last proposition derived
  | more symbol mark text rest operand connective marked negation others ih =>
      rcases connective with rfl | rfl
      · have longer := ih leading completed _ _ (.more last mark text _ operand derived marked negation)
        simpa [List.append_assoc] using longer
      · obtain ⟨before, earlier⟩ := completed last proposition derived
        have longer := ih (leading ++ last ++ mark) (fun next other conjunction => by
          have joined := Disjunction.more _ mark next before other earlier marked conjunction
          exact ⟨_, by simpa [List.append_assoc] using joined⟩)
          text operand (.single text operand negation)
        simpa [List.append_assoc] using longer

def Resumes (wanted : Bool) (text : List Char) : Prop :=
  if wanted then
    ∃ first rest operand, text = first ++ rest ∧ Negation first operand ∧ Clauses rest
  else Clauses text

theorem resumes_disjunction (text : List Char) (resumes : Resumes true text) :
    ∃ proposition, Disjunction text proposition := by
  obtain ⟨first, rest, operand, rfl, derived, clauses⟩ := resumes
  exact clauses_join rest clauses [] (fun _ _ conjunction => ⟨_, .single _ _ conjunction⟩) first operand
    (.single first operand derived)

theorem skip_same_mark (c : Char) (rest : List Char) :
    ∃ mark, Mark c mark ∧ c :: rest = mark ++ skipSame c rest := by
  cases rest with
  | nil => exact ⟨[c], .single, rfl⟩
  | cons d others =>
      by_cases same : d = c
      · subst d
        exact ⟨[c, c], .double, by simp [skipSame]⟩
      · exact ⟨[c], .single, by simp [skipSame, same]⟩

theorem clauses_connective (c : Char) (rest : List Char) (connective : c = '&' ∨ c = '|')
    (resumes : Resumes true (skipSame c rest)) : Clauses (c :: rest) := by
  obtain ⟨mark, marked, split⟩ := skip_same_mark c rest
  obtain ⟨first, others, operand, same, derived, clauses⟩ := resumes
  rw [split, same]
  exact .more c mark first others operand connective marked derived clauses

theorem surplus_negation (yard : Yard) (strength : Nat) :
    (yard.hold '!' strength).surplus = yard.surplus := by
  simp only [Yard.surplus, close_output, Yard.hold, List.map_cons, Stream.balance_append, balance,
    Token.operator, if_true]
  omega

theorem surplus_atom (atom : List Char) (yard : Yard) :
    (emitAtom atom yard).surplus = yard.surplus + due (atom ≠ []) := by
  by_cases empty : atom = []
  · simp [emitAtom, empty, due]
  · rw [emitAtom, if_neg empty, surplus_emit, balance_value _ rfl]
    simp [empty, due]

structure Placed (wanted : Bool) (atom cs : List Char) : Prop where
  run : Run atom
  separated : Separated cs
  between : wanted = false → atom = [] ∧ ∀ c ∈ cs.head?, EndsGroup c

theorem placed_wanted (wanted : Bool) (atom : List Char) (c : Char) (rest : List Char)
    (placed : Placed wanted atom (c :: rest)) (other : ¬ EndsGroup c) : wanted = true := by
  cases wanted with
  | true => rfl
  | false => exact absurd ((placed.between rfl).2 c rfl) other

theorem placed_operand (cs : List Char) (separated : Separated cs) : Placed true [] cs :=
  ⟨run_nil, separated, by simp⟩

theorem placed_within (body after : List Char) (separated : Separated (body ++ ')' :: after)) :
    Placed true [] body ∧ Placed false [] after := by
  have early := List.IsChain.left_of_append separated
  obtain ⟨ends, late⟩ := List.isChain_cons.mp (List.IsChain.right_of_append separated)
  exact ⟨placed_operand body early, run_nil, late, fun _ => ⟨rfl, fun c head => ends c head rfl⟩⟩

theorem resumes_group (body after : List Char) (inside : Resumes true body)
    (behind : Resumes false after) : Resumes true ('(' :: (body ++ ')' :: after)) := by
  obtain ⟨proposition, derived⟩ := resumes_disjunction body inside
  exact ⟨'(' :: (body ++ [')']), after, proposition, by simp, .group body proposition derived, behind⟩

theorem resumes_negation (text : List Char) (free : text.head? ≠ some '=')
    (resumes : Resumes true text) : Resumes true ('!' :: text) := by
  obtain ⟨first, rest, operand, rfl, derived, clauses⟩ := resumes
  have apart : first.head? ≠ some '=' := by
    obtain ⟨c, others, rfl, _⟩ := negation_opens first operand derived
    exact free
  exact ⟨'!' :: first, rest, .not operand, rfl, .not first operand apart derived, clauses⟩

theorem resumes_atom (atom rest : List Char) (run : Run atom) (filled : atom ≠ [])
    (clauses : Clauses rest) : Resumes true (atom ++ rest) :=
  ⟨atom, rest, _, rfl, .atom atom ⟨run, filled⟩, clauses⟩

theorem resumes_behind (wanted : Bool) (atom rest : List Char) (yard : Yard) (stream : Stream)
    (placed : Placed wanted atom rest) (bounded : balance stream ≤ (emitAtom atom yard).surplus)
    (resumed : balance stream = (emitAtom atom yard).surplus → Clauses rest) :
    balance stream ≤ yard.surplus + due wanted ∧
      (balance stream = yard.surplus + due wanted → Resumes wanted (atom ++ rest)) := by
  rw [surplus_atom] at bounded resumed
  by_cases empty : atom = []
  · subst atom
    simp only [due, ne_eq, not_true_eq_false, decide_false, Bool.false_eq_true, if_false]
      at bounded resumed
    cases wanted with
    | true =>
        simp only [due, if_true]
        exact ⟨by omega, fun full => by omega⟩
    | false => exact ⟨bounded, resumed⟩
  · cases wanted with
    | true =>
        simp only [due, ne_eq, empty, not_false_eq_true, decide_true, if_true] at bounded resumed
        exact ⟨bounded, fun full => resumes_atom atom rest placed.run empty (resumed full)⟩
    | false => exact absurd (placed.between rfl).1 empty

-- No part of a stream leaves more values than its place wants; where it leaves as many, the text there
-- is derivable.
theorem scan_condition_resumes (whole : String) (cs : List Char) (yard : Yard) (atom : List Char)
    (stream : Stream) (made : scanCondition whole cs yard atom = .ok stream) (wanted : Bool)
    (placed : Placed wanted atom cs) :
    balance stream ≤ yard.surplus + due wanted ∧
      (balance stream = yard.surplus + due wanted → Resumes wanted (atom ++ cs)) := by
  fun_induction scanCondition whole cs yard atom generalizing stream wanted with
  | case1 yard atom =>
      cases made
      exact resumes_behind wanted atom [] yard _ placed (Int.le_refl _) fun _ => .done
  | case2 | case3 | case4 | case6 | case8 => contradiction
  | case5 yard atom rest unfilled body after found _ group within inner later =>
      obtain rfl := placed_wanted wanted atom '(' rest placed (by simp [EndsGroup])
      obtain rfl : atom = [] := not_not.mp unfilled
      have joined := split_group_join 0 rest body after found
      have separated := separated_tail '(' rest placed.separated
      rw [joined] at separated
      obtain ⟨inside, behind⟩ := placed_within body after separated
      obtain ⟨first, enclosed⟩ := inner group within true inside
      obtain ⟨second, followed⟩ := later stream made false behind
      rw [surplus_empty] at first enclosed
      rw [surplus_emit] at second followed
      simp only [due, Bool.false_eq_true, if_true, if_false] at first enclosed second followed ⊢
      refine ⟨by omega, fun full => ?_⟩
      rw [joined]
      exact resumes_group body after (enclosed (by omega)) (followed (by omega))
  | case7 yard atom behind _ _ ih =>
      obtain rfl := placed_wanted wanted atom '!' _ placed (by simp [EndsGroup])
      have separated := separated_tail '=' behind (separated_tail '!' _ placed.separated)
      have longer := ih stream made true
        ⟨run_append atom ['!', '='] placed.run run_unequal, separated, by simp⟩
      simpa [List.append_assoc] using longer
  | case9 yard atom rest free unfilled _ _ ih =>
      obtain rfl := placed_wanted wanted atom '!' rest placed (by simp [EndsGroup])
      obtain rfl : atom = [] := not_not.mp unfilled
      obtain ⟨bounded, resumed⟩ :=
        ih stream made true (placed_operand rest (separated_tail '!' rest placed.separated))
      rw [surplus_negation] at bounded resumed
      have apart : rest.head? ≠ some '=' := fun equals =>
        (List.head?_eq_some_iff.mp equals).elim free
      exact ⟨bounded, fun full => resumes_negation rest apart (resumed full)⟩
  | case10 yard atom d rest _ _ _ connective _ ih =>
      obtain ⟨mark, marked, split⟩ := skip_same_mark d rest
      have separated := placed.separated
      rw [split] at separated
      obtain ⟨bounded, resumed⟩ :=
        ih stream made true (placed_operand _ (List.IsChain.right_of_append separated))
      have binary : d ≠ '!' := by
        rcases connective with rfl | rfl
        · decide
        · decide
      rw [surplus_push _ d _ binary] at bounded resumed
      simp only [due, if_true] at bounded resumed
      exact resumes_behind wanted atom _ yard stream placed (by omega) fun full =>
        clauses_connective d rest connective (resumed (by omega))
  | case11 yard atom d rest noOpening noClosing negation noConnective ih =>
      obtain ⟨noAnd, noOr⟩ := not_or.mp noConnective
      obtain rfl := placed_wanted wanted atom d rest placed (by simp [EndsGroup, noClosing, noAnd, noOr])
      have run := run_append atom [d] placed.run (run_char d ⟨noOpening, noClosing, noAnd, noOr⟩ negation)
      have longer := ih stream made true ⟨run, separated_tail d rest placed.separated, by simp⟩
      simpa [List.append_assoc] using longer

-- The compiler accepts the derivable texts, and besides them only texts in which something else than a
-- connective or the end of an outer group follows a closing parenthesis.
theorem conditions_accepted (expression : String) :
    (∃ proposition, Disjunction (Text.stripBlanks expression.toList) proposition) ↔
      (∃ stream, compileLogic expression = .ok stream) ∧
        Separated (Text.stripBlanks expression.toList) := by
  constructor
  · rintro ⟨proposition, derived⟩
    exact ⟨⟨_, derived_condition expression proposition derived⟩,
      disjunction_separated _ proposition derived⟩
  · rintro ⟨⟨stream, compiled⟩, separated⟩
    obtain ⟨whole, scanned, checked⟩ := compile_logic_scanned expression stream compiled
    obtain ⟨_, resumed⟩ := scan_condition_resumes whole _ .empty [] stream scanned true
      (placed_operand _ separated)
    refine resumes_disjunction _ (resumed ?_)
    rw [surplus_empty, Stream.balance_of_check stream checked]
    rfl

theorem postfix_negation_accepted :
    compileLogic "(a)!" = .ok [.atom "a", .operator '!'] ∧
      ¬ ∃ proposition, Disjunction (Text.stripBlanks "(a)!".toList) proposition := by
  have text : Text.stripBlanks "(a)!".toList = ['(', 'a', ')', '!'] := by decide +kernel
  constructor
  · have made : (compileLogic "(a)!").toOption = some [.atom "a", .operator '!'] := by decide +kernel
    cases compiled : compileLogic "(a)!" with
    | error error =>
        rw [compiled] at made
        contradiction
    | ok stream =>
        rw [compiled] at made
        exact congrArg Except.ok (Option.some.inj made)
  · rintro ⟨proposition, derived⟩
    rw [text] at derived
    have separated := disjunction_separated _ proposition derived
    simp [Separated, EndsGroup] at separated

end Interlock.Formula
