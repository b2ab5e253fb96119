import Interlock.Formula.Condition
import Interlock.Proofs.Formula.Assembly
import Interlock.Proofs.Formula.Clause

/-!
The scanner of conditions on derived texts. Scanning a derived text leaves the yard as if its
proposition had been emitted; what the operators of the text still wait for is settled by any connective
behind it. So every derived text compiles, to a condition that evaluates like its proposition.
-/

set_option autoImplicit false

namespace Interlock.Formula

theorem scan_group (whole : String) (rest body after : List Char) (yard : Yard) (group : Stream)
    (found : splitGroup 0 rest = some (body, after))
    (within : scanCondition whole body .empty [] = .ok group) :
    scanCondition whole ('(' :: rest) yard [] = scanCondition whole after (yard.emit group) [] := by
  rw [scanCondition.eq_def]
  dsimp only
  rw [if_pos rfl, if_neg (by simp)]
  split
  · rename_i missing
    rw [found] at missing
    contradiction
  · rename_i other behind same
    obtain ⟨rfl, rfl⟩ := Prod.mk.inj (Option.some.inj (found.symm.trans same))
    rw [within]

theorem scan_negation (whole : String) (rest : List Char) (yard : Yard) (free : rest.head? ≠ some '=') :
    scanCondition whole ('!' :: rest) yard [] =
      scanCondition whole rest (yard.hold '!' (connectiveStrength '!')) [] := by
  rw [scanCondition.eq_def]
  dsimp only
  rw [if_neg (by decide), if_neg (by decide), if_pos rfl]
  split
  · contradiction
  · rw [if_neg (by simp)]

theorem scan_unequal (whole : String) (rest : List Char) (yard : Yard) (atom : List Char) :
    scanCondition whole ('!' :: '=' :: rest) yard atom =
      scanCondition whole rest yard (atom ++ ['!', '=']) := by
  rw [scanCondition]
  rfl

theorem scan_plain (whole : String) (c : Char) (rest : List Char) (yard : Yard) (atom : List Char)
    (plain : c ≠ '(' ∧ c ≠ ')' ∧ c ≠ '&' ∧ c ≠ '|') (other : c ≠ '!') :
    scanCondition whole (c :: rest) yard atom = scanCondition whole rest yard (atom ++ [c]) := by
  obtain ⟨noOpening, noClosing, noAnd, noOr⟩ := plain
  rw [scanCondition.eq_def]
  simp [noOpening, noClosing, noAnd, noOr, other]

theorem scan_connective (whole : String) (c : Char) (rest : List Char) (yard : Yard) (atom : List Char)
    (connective : c = '&' ∨ c = '|') :
    scanCondition whole (c :: rest) yard atom =
      scanCondition whole (skipSame c rest) ((emitAtom atom yard).push c (connectiveStrength c)) [] := by
  rw [scanCondition.eq_def]
  rcases connective with rfl | rfl
  · rfl
  · rfl

theorem scan_run (whole : String) (rest : List Char) (yard : Yard) :
    ∀ (text atom : List Char), Run text →
      scanCondition whole (text ++ rest) yard atom = scanCondition whole rest yard (atom ++ text)
  | [], atom, _ => by rw [List.nil_append, List.append_nil]
  | c :: text, atom, run => by
      by_cases negation : c = '!'
      · subst c
        obtain ⟨behind, rfl⟩ := run_negation text run
        have later := scan_run whole rest yard behind (atom ++ ['!', '='])
          (run_tail '=' behind (run_tail '!' _ run))
        rw [List.cons_append, List.cons_append, scan_unequal, later, List.append_assoc]
        rfl
      · have later := scan_run whole rest yard text (atom ++ [c]) (run_tail c text run)
        rw [List.cons_append, scan_plain whole c _ yard atom (run.plain c (by simp)) negation, later,
          List.append_assoc]
        rfl
termination_by text => text.length

-- What may stand behind an operand: nothing, or a connective that binds no tighter than this.
def Trails (least : Nat) (rest : List Char) : Prop :=
  ∀ c ∈ rest.head?, (c = '&' ∨ c = '|') ∧ connectiveStrength c ≤ least

theorem trails_nil (least : Nat) : Trails least [] := by simp [Trails]

theorem trails_weaken (least more : Nat) (rest : List Char) (bound : least ≤ more)
    (trails : Trails least rest) : Trails more rest := fun c member =>
  ⟨(trails c member).1, Nat.le_trans (trails c member).2 bound⟩

theorem trails_mark (symbol : Char) (mark rest : List Char) (connective : symbol = '&' ∨ symbol = '|')
    (marked : Mark symbol mark) : Trails (connectiveStrength symbol) (mark ++ rest) := by
  cases marked with
  | single => simpa [Trails] using connective
  | double => simpa [Trails] using connective

theorem emit_atom_nil (yard : Yard) : emitAtom [] yard = yard := if_pos rfl

theorem scan_trailing (whole : String) (least : Nat) (rest atom : List Char) (yard : Yard)
    (trails : Trails least rest) :
    scanCondition whole rest yard atom = scanCondition whole rest (emitAtom atom yard) [] := by
  cases rest with
  | nil => rw [scanCondition, scanCondition, emit_atom_nil]
  | cons c others =>
      have connective := (trails c rfl).1
      rw [scan_connective whole c others yard atom connective,
        scan_connective whole c others _ [] connective, emit_atom_nil]

theorem scan_agree (whole : String) (least : Nat) (rest : List Char) (yard other : Yard)
    (agree : yard.Agree least other) (trails : Trails least rest) :
    scanCondition whole rest yard [] = scanCondition whole rest other [] := by
  cases rest with
  | nil =>
      rw [scanCondition, scanCondition, emit_atom_nil, emit_atom_nil,
        Yard.close_agree least yard other agree]
  | cons c others =>
      obtain ⟨connective, bound⟩ := trails c rfl
      rw [scan_connective whole c others yard [] connective,
        scan_connective whole c others other [] connective, emit_atom_nil, emit_atom_nil,
        Yard.push_agree least yard other agree c _ bound]

theorem scan_mark (whole : String) (symbol : Char) (mark rest : List Char) (yard : Yard)
    (connective : symbol = '&' ∨ symbol = '|') (marked : Mark symbol mark)
    (apart : rest.head? ≠ some symbol) :
    scanCondition whole (mark ++ rest) yard [] =
      scanCondition whole rest (yard.push symbol (connectiveStrength symbol)) [] := by
  cases marked with
  | single =>
      have kept : skipSame symbol rest = rest := by
        cases rest with
        | nil => rfl
        | cons d others => exact if_neg fun same => apart (congrArg some same)
      rw [List.cons_append, scan_connective whole symbol _ yard [] connective, emit_atom_nil,
        List.nil_append, kept]
  | double =>
      have skipped : skipSame symbol (symbol :: rest) = rest := if_pos rfl
      rw [List.cons_append, scan_connective whole symbol _ yard [] connective, emit_atom_nil,
        List.cons_append, List.nil_append, skipped]

theorem connective_emitted (yard : Yard) (first second : Stream) (symbol : Char) (strength : Nat)
    (kept : ∀ held ∈ yard.waiting, held.strength < strength) :
    Yard.Agree strength (((yard.emit first).push symbol strength).emit second)
      (yard.emit (first ++ second ++ [.operator symbol])) := by
  have released : (yard.emit first).release strength = yard.emit first :=
    Yard.release_weaker (yard.output ++ first) yard.waiting strength kept
  have agree := Yard.held_agree (yard.output ++ first ++ second) symbol strength yard.waiting
  rw [Yard.push, released]
  simpa [Yard.emit, Yard.hold] using agree

theorem negation_emitted (yard : Yard) (operand : Stream) :
    Yard.Agree 2 ((yard.hold '!' (connectiveStrength '!')).emit operand)
      (yard.emit (operand ++ [.operator '!'])) := by
  intro strength bound
  have below : strength ≤ connectiveStrength '!' := Nat.le_trans bound (by decide)
  have agree := Yard.held_agree (yard.output ++ operand) '!' _ yard.waiting strength below
  simpa [Yard.emit, Yard.hold] using agree

mutual
theorem disjunction_scanned (whole : String) :
    ∀ (text : List Char) (proposition : Proposition), Disjunction text proposition →
      ∀ (rest : List Char) (yard : Yard), yard.waiting = [] → Trails 1 rest →
        scanCondition whole (text ++ rest) yard [] =
          scanCondition whole rest (yard.emit proposition.postorder) []
  | _, _, .single text proposition inner, rest, yard, idle, trails =>
      conjunction_scanned whole text proposition inner rest yard (by simp [idle])
        (trails_weaken 1 2 rest (by decide) trails)
  | _, _, .more left mark right first second leading marked trailing, rest, yard, idle, trails => by
      have opens := opens_append right rest (conjunction_opens right second trailing)
      have before := disjunction_scanned whole left first leading (mark ++ (right ++ rest)) yard idle
        (trails_mark '|' mark _ (.inr rfl) marked)
      have between := scan_mark whole '|' mark (right ++ rest) (yard.emit first.postorder) (.inr rfl)
        marked (opens_apart _ opens '|' (.inr rfl))
      have behind := conjunction_scanned whole right second trailing rest
        ((yard.emit first.postorder).push '|' 1)
        (by simp [Yard.push, Yard.release, Yard.emit, Yard.hold, idle])
        (trails_weaken 1 2 rest (by decide) trails)
      have agree := connective_emitted yard first.postorder second.postorder '|' 1 (by simp [idle])
      rw [List.append_assoc, List.append_assoc, before, between, Proposition.postorder_or]
      exact behind.trans (scan_agree whole 1 rest _ _ agree trails)

theorem conjunction_scanned (whole : String) :
    ∀ (text : List Char) (proposition : Proposition), Conjunction text proposition →
      ∀ (rest : List Char) (yard : Yard), (∀ held ∈ yard.waiting, held.strength < 2) →
        Trails 2 rest → scanCondition whole (text ++ rest) yard [] =
          scanCondition whole rest (yard.emit proposition.postorder) []
  | _, _, .single text proposition inner, rest, yard, _, trails =>
      negation_scanned whole text proposition inner rest yard trails
  | _, _, .more left mark right first second leading marked trailing, rest, yard, weaker, trails => by
      have opens := opens_append right rest (negation_opens right second trailing)
      have before := conjunction_scanned whole left first leading (mark ++ (right ++ rest)) yard weaker
        (trails_mark '&' mark _ (.inl rfl) marked)
      have between := scan_mark whole '&' mark (right ++ rest) (yard.emit first.postorder) (.inl rfl)
        marked (opens_apart _ opens '&' (.inl rfl))
      have behind := negation_scanned whole right second trailing rest
        ((yard.emit first.postorder).push '&' 2) trails
      have agree := connective_emitted yard first.postorder second.postorder '&' 2 weaker
      rw [List.append_assoc, List.append_assoc, before, between, Proposition.postorder_and]
      exact behind.trans (scan_agree whole 2 rest _ _ agree trails)

theorem negation_scanned (whole : String) :
    ∀ (text : List Char) (proposition : Proposition), Negation text proposition →
      ∀ (rest : List Char) (yard : Yard), Trails 2 rest →
        scanCondition whole (text ++ rest) yard [] =
          scanCondition whole rest (yard.emit proposition.postorder) []
  | _, _, .not text operand free inner, rest, yard, trails => by
      have apart : (text ++ rest).head? ≠ some '=' := by
        obtain ⟨c, others, rfl, _⟩ := negation_opens text operand inner
        exact free
      have operated := negation_scanned whole text operand inner rest
        (yard.hold '!' (connectiveStrength '!')) trails
      rw [List.cons_append, scan_negation whole _ yard apart, operated, Proposition.postorder_not]
      exact scan_agree whole 2 rest _ _ (negation_emitted yard operand.postorder) trails
  | _, _, .group body proposition inner, rest, yard, _ => by
      have closed := disjunction_closed body proposition inner
      have within := disjunction_scanned whole body proposition inner [] .empty rfl (trails_nil 1)
      rw [List.append_nil] at within
      have emitted : scanCondition whole body .empty [] = .ok proposition.postorder := by
        rw [within, scanCondition, emit_atom_nil]
        simp [Yard.emit, Yard.empty, Yard.close, Yard.release]
      rw [List.cons_append, List.append_assoc]
      exact scan_group whole _ body rest yard _ (split_group_closed body rest closed) emitted
  | _, _, .atom text atom, rest, yard, trails => by
      rw [scan_run whole rest yard text [] atom.toRun, List.nil_append,
        scan_trailing whole 2 rest text yard trails, emitAtom, if_neg atom.filled]
      rfl
end

theorem derived_condition (expression : String) (proposition : Proposition)
    (derived : Disjunction (Text.stripBlanks expression.toList) proposition) :
    compileLogic expression = .ok proposition.postorder := by
  have scanned := fun whole => disjunction_scanned whole _ proposition derived [] .empty rfl
    (trails_nil 1)
  simp only [List.append_nil] at scanned
  have emitted : (Yard.empty.emit proposition.postorder).close = proposition.postorder := by
    simp [Yard.emit, Yard.empty, Yard.close, Yard.release]
  rw [compileLogic, String.toList_ofList]
  simp only [scanned, scanCondition, emit_atom_nil, emitted, Proposition.validates]

-- Derived conditions compile to their propositions and evaluate like them, in whichever order and
-- however often their comparisons were bound.
theorem conditions_evaluate (expression : String) (proposition : Proposition)
    (derived : Disjunction (Text.stripBlanks expression.toList) proposition) :
    compileLogic expression = .ok proposition.postorder ∧
      ∃ condition, Condition.compile expression = .ok condition ∧
        ∀ truths, (condition.bindList truths).evaluate = .ok (proposition.truth (lastTruth truths)) := by
  have compiled := derived_condition expression proposition derived
  refine ⟨compiled, ⟨expression, proposition.postorder⟩, ?_, fun truths => ?_⟩
  · rw [Condition.compile, compiled]
  · exact proposition_evaluates _ proposition rfl truths

theorem letter_negation (c : Char) (plain : c ≠ '(' ∧ c ≠ ')' ∧ c ≠ '&' ∧ c ≠ '|') (other : c ≠ '!') :
    Negation [c] (.atom (String.ofList [c])) :=
  .atom [c] ⟨run_char c plain other, by simp⟩

theorem guarded_condition_evaluates :
    compileLogic " !( a | b!=1 )&&! c " =
        .ok [.atom "a", .atom "b!=1", .operator '|', .operator '!', .atom "c", .operator '!',
          .operator '&'] ∧
      ∃ condition, Condition.compile " !( a | b!=1 )&&! c " = .ok condition ∧
        ∀ truths, (condition.bindList truths).evaluate =
          .ok (!(lastTruth truths "a" || lastTruth truths "b!=1") && !lastTruth truths "c") := by
  have text : Text.stripBlanks " !( a | b!=1 )&&! c ".toList =
      '!' :: ('(' :: ((['a'] ++ (['|'] ++ ['b', '!', '=', '1'])) ++ [')'])) ++
        (['&', '&'] ++ ['!', 'c']) := by
    decide +kernel
  have run : Run (['b'] ++ (['!', '='] ++ ['1'])) :=
    run_append _ _ (run_char 'b' (by decide) (by decide))
      (run_append _ _ run_unequal (run_char '1' (by decide) (by decide)))
  have either :
      Disjunction (['a'] ++ (['|'] ++ ['b', '!', '=', '1'])) (.or (.atom "a") (.atom "b!=1")) :=
    .more ['a'] ['|'] _ _ _ (.single _ _ (.single _ _ (letter_negation 'a' (by decide) (by decide))))
      .single (.single _ _ (.atom ['b', '!', '=', '1'] ⟨run, by simp⟩))
  have negated : Negation ['!', 'c'] (.not (.atom "c")) :=
    .not ['c'] _ (by decide) (letter_negation 'c' (by decide) (by decide))
  have derived : Disjunction (Text.stripBlanks " !( a | b!=1 )&&! c ".toList)
      (.and (.not (.or (.atom "a") (.atom "b!=1"))) (.not (.atom "c"))) := by
    rw [text]
    exact .single _ _ (.more _ ['&', '&'] ['!', 'c'] _ _
      (.single _ _ (.not _ _ (by decide) (.group _ _ either))) .double negated)
  exact conditions_evaluate _ _ derived

end Interlock.Formula
