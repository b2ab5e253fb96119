import Interlock.Invocation.Evaluation
import Interlock.Proofs.Formula.Emission
import Interlock.Proofs.Schedule.Assignment

/-!
Truths of comparisons from the command line. The blanks within an expression are dropped, those within the
comparison of an option are kept: an option whose comparison holds a blank between other characters is for
no comparison, and the first of the others counts.
-/

set_option autoImplicit false

namespace Interlock

namespace Text

section

variable (c : Char) (cs before behind : List Char)

theorem split_last_found (apart : c ∉ behind) :
    splitLast c (before ++ c :: behind) = some (before, behind) := by
  have turned := split_first_found c behind.reverse before.reverse (by rwa [List.mem_reverse])
  have joined : (before ++ c :: behind).reverse = behind.reverse ++ c :: before.reverse := by simp
  rw [splitLast, joined, turned]
  simp

theorem split_last_some (found : splitLast c cs = some (before, behind)) :
    cs = before ++ c :: behind ∧ c ∉ behind := by
  by_cases inside : c ∈ cs.reverse
  · obtain ⟨apart, parts⟩ := first_occurrence c cs.reverse inside
    have split := split_first_found c _ (cs.reverse.dropWhile (· != c)).tail apart
    rw [← parts] at split
    rw [splitLast, split] at found
    cases found
    rw [List.mem_reverse]
    refine ⟨?_, apart⟩
    have turned := congrArg List.reverse parts
    simpa using turned
  · rw [splitLast, split_first_missing c _ inside] at found
    contradiction

theorem strip_trim : stripBlanks (trim cs) = stripBlanks cs := by
  have drop : ∀ cs : List Char, stripBlanks (cs.dropWhile isBlank) = stripBlanks cs := by
    intro cs
    have front : ∀ c ∈ cs.takeWhile isBlank, ¬ (!isBlank c) = true := by
      intro c member
      simp [List.mem_takeWhile_imp member]
    conv_rhs => rw [← List.takeWhile_append_dropWhile (p := isBlank) (l := cs)]
    rw [stripBlanks, stripBlanks, List.filter_append, List.filter_eq_nil_iff.mpr front, List.nil_append]
  have turned := drop (trimStart cs).reverse
  rw [stripBlanks, stripBlanks, List.filter_reverse] at turned
  rw [trim, trimEnd, stripBlanks, List.filter_reverse, turned, List.reverse_reverse]
  exact drop cs

end

end Text

namespace Invocation

open Interlock.Formula

def truthWord (truth : Bool) : List Char := if truth then "true".toList else "false".toList

-- An option for a comparison. The last equals sign stands before a word for a truth value.
structure AtomOption where
  text : List Char
  word : List Char
  truth : Bool
  single : '=' ∉ word
  worded : Text.lower (Text.trim word) = truthWord truth

namespace AtomOption

def argument (option : AtomOption) : String := String.ofList (option.text ++ '=' :: option.word)

def comparison (option : AtomOption) : String := String.ofList (Text.stripBlanks option.text)

-- No blank stands between other characters.
def Solid (option : AtomOption) : Prop := Text.trim option.text = Text.stripBlanks option.text

instance (option : AtomOption) : Decidable option.Solid := inferInstanceAs (Decidable (_ = _))

end AtomOption

def boundTruths (options : List AtomOption) : List (String × Bool) :=
  options.map fun option => (String.ofList (Text.trim option.text), option.truth)

def givenTruth (options : List AtomOption) (atom : String) : Bool :=
  ((options.find? fun option => option.comparison == atom).map (·.truth)).getD false

theorem read_option (option : AtomOption) :
    readAtom option.argument = .ok (String.ofList (Text.trim option.text), option.truth) := by
  have worded := option.worded
  rw [readAtom, AtomOption.argument, String.toList_ofList, Text.split_last_found _ _ _ option.single]
  dsimp only
  rw [worded]
  cases option.truth <;> rfl

theorem read_atom_option (argument : String) (read : String × Bool) (valid : readAtom argument = .ok read) :
    ∃ option : AtomOption, option.argument = argument := by
  unfold readAtom at valid
  split at valid
  · contradiction
  · next text word split =>
      obtain ⟨parts, single⟩ := Text.split_last_some _ _ _ _ split
      have made : ∀ truth, Text.lower (Text.trim word) = truthWord truth →
          ∃ option : AtomOption, option.argument = argument := by
        intro truth worded
        refine ⟨⟨text, word, truth, single, worded⟩, ?_⟩
        rw [AtomOption.argument, ← parts, String.ofList_toList]
      dsimp only at valid
      split at valid
      · next worded => exact made true worded
      · split at valid
        · next worded => exact made false worded
        · contradiction

theorem read_options (options : List AtomOption) :
    readEach readAtom (options.map (·.argument)) = .ok (boundTruths options) := by
  induction options with
  | nil => rfl
  | cons option rest ih =>
      rw [List.map_cons, readEach, read_option, ih]
      rfl

theorem lookup_given (options : List AtomOption) (atom : List Char)
    (clear : ∀ c ∈ atom, Text.isBlank c = false) :
    ((boundTruths options).lookup (String.ofList atom)).getD false =
      givenTruth (options.filter (·.Solid)) (String.ofList atom) := by
  have stripped : Text.stripBlanks atom = atom :=
    List.filter_eq_self.mpr fun c member => by simp [clear c member]
  induction options with
  | nil => rfl
  | cons option rest ih =>
      rw [boundTruths] at ih
      rw [boundTruths, List.map_cons, List.lookup_cons]
      by_cases solid : option.Solid
      · rw [List.filter_cons_of_pos (by simpa using solid), givenTruth, List.find?_cons,
          AtomOption.comparison, ← solid]
        by_cases same : String.ofList atom = String.ofList (Text.trim option.text)
        · rw [same, beq_self_eq_true]
          rfl
        · rw [beq_false_of_ne same, beq_false_of_ne (Ne.symm same)]
          exact ih
      · have apart : String.ofList atom ≠ String.ofList (Text.trim option.text) := by
          intro same
          have text := String.ofList_inj.mp same
          refine solid ?_
          rw [AtomOption.Solid, ← Text.strip_trim, ← text, stripped]
        rw [List.filter_cons_of_neg (by simpa using solid), beq_false_of_ne apart]
        exact ih

theorem legible_truth (proposition : Proposition) (legible : proposition.Legible)
    (first second : String → Bool)
    (same : ∀ atom : List Char, (∀ c ∈ atom, Text.isBlank c = false) →
      first (String.ofList atom) = second (String.ofList atom)) :
    proposition.truth first = proposition.truth second := by
  induction legible with
  | atom text _ clear => exact same text clear
  | not operand _ ih => rw [Proposition.truth, Proposition.truth, ih]
  | and left right _ _ one other => rw [Proposition.truth, Proposition.truth, one, other]
  | or left right _ _ one other => rw [Proposition.truth, Proposition.truth, one, other]

theorem logic_answers (expression : String) (condition : Condition)
    (compiled : Condition.compile expression = .ok condition) (options : List AtomOption) :
    ∃ proposition : Proposition, condition.stream = proposition.postorder ∧
      logicLines expression (options.map (·.argument)) = .ok [
        "postfix: " ++ condition.stream.text,
        "infix:   " ++ condition.stream.toInfix,
        "atoms:   " ++ String.intercalate ", " condition.atoms,
        "value:   " ++ String.ofList (truthWord (proposition.truth (givenTruth (options.filter (·.Solid)))))
      ] := by
  obtain ⟨proposition, legible, listed⟩ :=
    compiled_proposition expression condition.stream (compile_stream expression condition compiled)
  refine ⟨proposition, listed, ?_⟩
  have value := legible_truth proposition legible
    (fun atom => ((boundTruths options).lookup atom).getD false) _ (lookup_given options)
  rw [logicLines, compiled]
  dsimp only
  rw [read_options]
  dsimp only
  rw [proposition_evaluates_with condition proposition listed, value]
  cases proposition.truth (givenTruth (options.filter (·.Solid))) <;> rfl

-- The blanks of the expression are dropped, those of the option are not.
theorem spaced_option_missed :
    Condition.compile "Level >= 5" = .ok ⟨"Level >= 5", [.atom "Level>=5"]⟩ ∧
      logicLines "Level >= 5" ["Level >= 5=true"] = .ok
        ["postfix: Level>=5", "infix:   Level>=5", "atoms:   Level>=5", "value:   false"] := by
  have compiled : Condition.compile "Level >= 5" = .ok ⟨"Level >= 5", [.atom "Level>=5"]⟩ := by decide +kernel
  obtain ⟨proposition, listed, answer⟩ := logic_answers _ _ compiled
    [⟨"Level >= 5".toList, "true".toList, true, by decide, by decide +kernel⟩]
  refine ⟨compiled, ?_⟩
  have last := congrArg List.getLast? listed
  cases proposition with
  | atom text => exact answer
  | not operand => simp [Proposition.postorder_not, Token.atom, Token.operator] at last
  | and left right => simp [Proposition.postorder_and, Token.atom, Token.operator] at last
  | or left right => simp [Proposition.postorder_or, Token.atom, Token.operator] at last

end Invocation

end Interlock
