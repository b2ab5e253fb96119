import Interlock.Formula.Logic
import Interlock.Proofs.Formula.Enclosure
import Interlock.Proofs.Formula.Proposition

/-!
The grammar of conditions, and the proposition that each derivation stands for. `!` binds tighter than
`&`, which binds tighter than `|`; both binary connectives may be doubled and are joined from the left.
-/

set_option autoImplicit false

namespace Interlock.Formula

-- What comparisons are written with: no parentheses or connectives, and a '!' only directly before '='.
structure Run (text : List Char) : Prop where
  plain : ∀ c ∈ text, c ≠ '(' ∧ c ≠ ')' ∧ c ≠ '&' ∧ c ≠ '|'
  marked : ∀ before after, text = before ++ '!' :: after → after.head? = some '='

structure Atom (text : List Char) : Prop extends Run text where
  filled : text ≠ []

inductive Mark (symbol : Char) : List Char → Prop where
  | single : Mark symbol [symbol]
  | double : Mark symbol [symbol, symbol]

-- One rule each of
--   Or ::= And (('|' | '||') And)*
--   And ::= Not (('&' | '&&') Not)*
--   Not ::= '!' Not | '(' Or ')' | atom
-- A '!' directly before '=' belongs to a comparison, so it is no negation there.
mutual
inductive Disjunction : List Char → Proposition → Prop where
  | single (text : List Char) (proposition : Proposition) (inner : Conjunction text proposition) :
      Disjunction text proposition
  | more (left mark right : List Char) (first second : Proposition) (leading : Disjunction left first)
      (marked : Mark '|' mark) (trailing : Conjunction right second) :
      Disjunction (left ++ (mark ++ right)) (.or first second)

inductive Conjunction : List Char → Proposition → Prop where
  | single (text : List Char) (proposition : Proposition) (inner : Negation text proposition) :
      Conjunction text proposition
  | more (left mark right : List Char) (first second : Proposition) (leading : Conjunction left first)
      (marked : Mark '&' mark) (trailing : Negation right second) :
      Conjunction (left ++ (mark ++ right)) (.and first second)

inductive Negation : List Char → Proposition → Prop where
  | not (text : List Char) (operand : Proposition) (free : text.head? ≠ some '=')
      (inner : Negation text operand) : Negation ('!' :: text) (.not operand)
  | group (body : List Char) (proposition : Proposition) (inner : Disjunction body proposition) :
      Negation ('(' :: (body ++ [')'])) proposition
  | atom (text : List Char) (atom : Atom text) : Negation text (.atom (String.ofList text))
end

theorem run_append (first second : List Char) (firstRun : Run first) (secondRun : Run second) :
    Run (first ++ second) := by
  constructor
  · intro c member
    rcases List.mem_append.mp member with early | late
    · exact firstRun.plain c early
    · exact secondRun.plain c late
  · intro before after same
    rcases List.append_eq_append_iff.mp same with ⟨middle, rfl, split⟩ | ⟨middle, rfl, split⟩
    · exact secondRun.marked middle after split
    · cases middle with
      | nil => exact secondRun.marked [] after split.symm
      | cons c others =>
          obtain ⟨rfl, rfl⟩ := List.cons.inj split
          have equals := firstRun.marked before others rfl
          cases others with
          | nil => contradiction
          | cons d more => exact equals

theorem run_nil : Run [] := ⟨by simp, by simp⟩

theorem run_char (c : Char) (plain : c ≠ '(' ∧ c ≠ ')' ∧ c ≠ '&' ∧ c ≠ '|') (other : c ≠ '!') :
    Run [c] := by
  refine ⟨by simpa using plain, fun before after same => ?_⟩
  have member : '!' ∈ [c] := by simp [same]
  exact absurd (List.mem_singleton.mp member).symm other

theorem run_unequal : Run ['!', '='] := by
  refine ⟨by simp, fun before after same => ?_⟩
  rcases List.cons_eq_append_iff.mp same with ⟨rfl, here⟩ | ⟨others, rfl, later⟩
  · obtain ⟨_, rfl⟩ := List.cons.inj here
    rfl
  · have member : '!' ∈ ['='] := by simp [later]
    exact absurd member (by decide)

theorem run_tail (c : Char) (rest : List Char) (run : Run (c :: rest)) : Run rest :=
  ⟨fun d member => run.plain d (List.mem_cons_of_mem c member), fun before after same =>
    run.marked (c :: before) after (congrArg (c :: ·) same)⟩

theorem run_negation (rest : List Char) (run : Run ('!' :: rest)) : ∃ behind, rest = '=' :: behind := by
  have equals := run.marked [] rest rfl
  cases rest with
  | nil => contradiction
  | cons c behind => exact ⟨behind, congrArg (· :: behind) (Option.some.inj equals)⟩

theorem mark_closed (symbol : Char) (mark : List Char) (connective : symbol = '&' ∨ symbol = '|')
    (marked : Mark symbol mark) : Closed 1 mark := by
  have single : Closed 1 [symbol] := by
    rcases connective with rfl | rfl
    · exact closed_char 1 '&' (by decide) (by decide) (.inr (by omega))
    · exact closed_char 1 '|' (by decide) (by decide) (.inr (by omega))
  cases marked with
  | single => exact single
  | double => exact closed_append 1 [symbol] [symbol] single single

theorem run_closed (text : List Char) (run : Run text) : Closed 1 text := by
  induction text with
  | nil => exact closed_nil 1
  | cons c rest ih =>
      obtain ⟨noOpening, noClosing, _⟩ := run.plain c (by simp)
      exact closed_append 1 [c] rest (closed_char 1 c noOpening noClosing (.inr (by omega)))
        (ih (run_tail c rest run))

mutual
theorem disjunction_closed :
    ∀ (text : List Char) (proposition : Proposition), Disjunction text proposition → Closed 1 text
  | _, _, .single text proposition inner => conjunction_closed text proposition inner
  | _, _, .more left mark right first second leading marked trailing =>
      closed_append 1 left _ (disjunction_closed left first leading)
        (closed_append 1 mark right (mark_closed '|' mark (.inr rfl) marked)
          (conjunction_closed right second trailing))

theorem conjunction_closed :
    ∀ (text : List Char) (proposition : Proposition), Conjunction text proposition → Closed 1 text
  | _, _, .single text proposition inner => negation_closed text proposition inner
  | _, _, .more left mark right first second leading marked trailing =>
      closed_append 1 left _ (conjunction_closed left first leading)
        (closed_append 1 mark right (mark_closed '&' mark (.inl rfl) marked)
          (negation_closed right second trailing))

theorem negation_closed :
    ∀ (text : List Char) (proposition : Proposition), Negation text proposition → Closed 1 text
  | _, _, .not text operand _ inner =>
      closed_append 1 ['!'] text (closed_char 1 '!' (by decide) (by decide) (.inr (by omega)))
        (negation_closed text operand inner)
  | _, _, .group body proposition inner =>
      closed_deeper 0 1 _ (by omega) (closed_group body (disjunction_closed body proposition inner))
  | _, _, .atom text atom => run_closed text atom.toRun
end

def Opens (text : List Char) : Prop :=
  ∃ c rest, text = c :: rest ∧ c ≠ ')' ∧ c ≠ '&' ∧ c ≠ '|'

theorem opens_append (text rest : List Char) (opens : Opens text) : Opens (text ++ rest) := by
  obtain ⟨c, others, rfl, plain⟩ := opens
  exact ⟨c, others ++ rest, rfl, plain⟩

theorem opens_apart (text : List Char) (opens : Opens text) (symbol : Char)
    (connective : symbol = '&' ∨ symbol = '|') : text.head? ≠ some symbol := by
  obtain ⟨c, others, rfl, _, noAnd, noOr⟩ := opens
  rcases connective with rfl | rfl
  · exact fun same => noAnd (Option.some.inj same)
  · exact fun same => noOr (Option.some.inj same)

theorem negation_opens (text : List Char) (proposition : Proposition)
    (derived : Negation text proposition) : Opens text := by
  cases derived with
  | not text operand _ _ => exact ⟨'!', text, rfl, by decide, by decide, by decide⟩
  | group body _ _ => exact ⟨'(', body ++ [')'], rfl, by decide, by decide, by decide⟩
  | atom _ atom =>
      cases text with
      | nil => exact absurd rfl atom.filled
      | cons c rest => exact ⟨c, rest, rfl, (atom.plain c (by simp)).2⟩

theorem conjunction_opens :
    ∀ (text : List Char) (proposition : Proposition), Conjunction text proposition → Opens text
  | _, _, .single text proposition inner => negation_opens text proposition inner
  | _, _, .more left _ _ first _ leading _ _ =>
      opens_append left _ (conjunction_opens left first leading)

theorem negation_unequal (text : List Char) (operand : Proposition) (equals : text.head? = some '=')
    (derived : Negation text operand) : ∃ other, Negation ('!' :: text) other := by
  cases derived with
  | not => simp at equals
  | group => simp at equals
  | atom _ atom =>
      cases text with
      | nil => contradiction
      | cons c rest =>
          obtain rfl : c = '=' := Option.some.inj equals
          have run := run_append ['!', '='] rest run_unequal (run_tail '=' rest atom.toRun)
          exact ⟨_, .atom _ ⟨run, by simp⟩⟩

end Interlock.Formula
