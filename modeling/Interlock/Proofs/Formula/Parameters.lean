import Interlock.Proofs.Formula.Binding
import Interlock.Proofs.Formula.Denotation

/-!
The parameters of a compiled expression and their values. The table of parameters lists each of them
once; every way to bind them makes the expression yield what its tree denotes, and never an error.
-/

set_option autoImplicit false

namespace Interlock.Formula

open Interlock.Number (nan)

mutual
theorem parameter_tokens :
    ∀ tree : Tree, ((tree.postorder.filter fun token => token.role = .parameter).map Token.name) =
      tree.mentions
  | .node token operands => by
      rw [Tree.postorder, List.filter_append, List.map_append, parameter_tokens_each operands,
        Tree.mentions]
      by_cases parameter : token.role = .parameter <;> simp [parameter]

theorem parameter_tokens_each :
    ∀ trees : List Tree,
      (((Tree.postorders trees).filter fun token => token.role = .parameter).map Token.name) =
        Tree.mentionsEach trees
  | [] => rfl
  | tree :: rest => by
      rw [Tree.postorders, List.filter_append, List.map_append, parameter_tokens tree,
        parameter_tokens_each rest, Tree.mentionsEach]
end

theorem parameters_mem (tree : Tree) (name : String) :
    name ∈ Stream.parameters tree.postorder ↔ name ∈ tree.mentions := by
  rw [Stream.parameters, Stream.names_of_mem, ← parameter_tokens]
  simp [and_assoc]

-- The list is in reverse, so that the induction adds a last token: names found before keep the places
-- of their first appearance.
theorem add_names_order (tokens : List Token) :
    (tokens.reverse.foldl Stream.addName []).Pairwise fun a b =>
      (tokens.reverse.map Token.name).idxOf a < (tokens.reverse.map Token.name).idxOf b := by
  induction tokens with
  | nil => exact .nil
  | cons token rest ih =>
      rw [List.reverse_cons, List.foldl_append, List.map_append, List.foldl_cons, List.foldl_nil,
        List.map_singleton]
      have listed : ∀ name, name ∈ rest.reverse.foldl Stream.addName [] ↔
          name ∈ rest.reverse.map Token.name := by
        intro name
        rw [Stream.add_names_mem]
        simp
      generalize rest.reverse.foldl Stream.addName [] = names at ih listed ⊢
      generalize rest.reverse.map Token.name = before at ih listed ⊢
      have place : ∀ name ∈ names, (before ++ [token.name]).idxOf name = before.idxOf name := by
        intro name member
        rw [List.idxOf_append, if_pos ((listed name).mp member)]
      have kept : names.Pairwise fun a b =>
          (before ++ [token.name]).idxOf a < (before ++ [token.name]).idxOf b := by
        refine ih.imp_of_mem fun {a b} first second less => ?_
        rw [place a first, place b second]
        exact less
      rw [Stream.addName]
      by_cases known : token.name ∈ names
      · rw [if_pos (by simpa using known)]
        exact kept
      · rw [if_neg (by simpa using known)]
        refine List.pairwise_append.mpr ⟨kept, by simp, fun a member b last => ?_⟩
        obtain rfl := List.mem_singleton.mp last
        have fresh : token.name ∉ before := fun member => known ((listed _).mpr member)
        have bound := List.idxOf_lt_length_of_mem ((listed a).mp member)
        rw [place a member, List.idxOf_append, if_neg fresh]
        omega

theorem parameters_order (tree : Tree) :
    (Stream.parameters tree.postorder).Pairwise fun a b =>
      tree.mentions.idxOf a < tree.mentions.idxOf b := by
  have ordered := add_names_order (tree.postorder.filter fun token => token.role = .parameter).reverse
  rw [List.reverse_reverse, parameter_tokens] at ordered
  exact ordered

-- A table that has the running variable first and the others in order of first appearance.
structure Tabulates (names : List String) (tree : Tree) : Prop where
  mentioned : ∀ name, name ∈ names ↔ name ∈ tree.mentions
  once : names.Nodup
  leading : abscissa ∈ tree.mentions → names.head? = some abscissa
  ordered : (names.filter (· ≠ abscissa)).Pairwise fun a b =>
    tree.mentions.idxOf a < tree.mentions.idxOf b

theorem abscissa_first_tabulates (tree : Tree) :
    Tabulates (abscissaFirst (Stream.parameters tree.postorder)) tree := by
  have listed := parameters_mem tree
  have once := Stream.names_of_nodup .parameter tree.postorder
  have order := parameters_order tree
  by_cases runs : abscissa ∈ tree.mentions
  · have there := (listed abscissa).mpr runs
    have first : abscissaFirst (Stream.parameters tree.postorder) =
        abscissa :: (Stream.parameters tree.postorder).filter (· ≠ abscissa) := by
      rw [abscissaFirst, if_pos (by simpa using there)]
    rw [first]
    refine ⟨fun name => ?_, ?_, fun _ => rfl, ?_⟩
    · by_cases same : name = abscissa
      · simp [same, runs]
      · simp [same, ← listed]
    · exact List.nodup_cons.mpr ⟨by simp, once.filter _⟩
    · simpa using order.filter (· ≠ abscissa)
  · have absent : abscissa ∉ Stream.parameters tree.postorder := fun there =>
      runs ((listed abscissa).mp there)
    have same : abscissaFirst (Stream.parameters tree.postorder) = Stream.parameters tree.postorder := by
      rw [abscissaFirst, if_neg (by simpa using absent)]
    rw [same]
    exact ⟨listed, once, fun there => absurd there runs, order.filter _⟩

theorem lookup_replaced (bindings : Bindings) (key name : String) (value : Float) :
    Bindings.get? (bindings.map fun (known, old) => (known, if known = key then value else old)) name =
      (bindings.get? name).map fun old => if name = key then value else old := by
  induction bindings with
  | nil => rfl
  | cons first rest ih =>
      obtain ⟨known, old⟩ := first
      simp only [Bindings.get?, List.map_cons, List.lookup_cons]
      by_cases same : name = known
      · simp [same]
      · rw [beq_eq_false_iff_ne.mpr same]
        exact ih

theorem get_known (bindings : Bindings) (name : String) :
    name ∈ bindings.names ↔ ∃ value, bindings.get? name = some value := by
  induction bindings with
  | nil => simp [Bindings.names, Bindings.get?]
  | cons first rest ih =>
      obtain ⟨known, value⟩ := first
      simp only [Bindings.names, Bindings.get?, List.map_cons, List.mem_cons, List.lookup_cons] at ih ⊢
      by_cases same : name = known
      · simp [same]
      · simp [same, ih, beq_eq_false_iff_ne.mpr same]

theorem assign_get (bindings : Bindings) (name key : String) (value old : Float)
    (found : bindings.get? key = some old) :
    (bindings.assign name value).get? key =
      some (if Text.lowerText name = key then value else old) := by
  rw [Bindings.assign, Bindings.set]
  by_cases known : Text.lowerText name ∈ bindings.names
  · rw [if_pos (by simpa using known)]
    simp only [lookup_replaced, found, Option.map_some, eq_comm]
  · rw [if_neg (by simpa using known)]
    have apart : Text.lowerText name ≠ key := by
      rintro rfl
      exact known ((get_known bindings _).mpr ⟨old, found⟩)
    rw [if_neg apart]
    exact found

-- The value of the last parameter with this name, else that of the running variable, else zero.
def namedValues (x : Float) (values : List (String × Float)) (name : String) : Float :=
  match values.reverse.find? fun entry => Text.lowerText entry.1 = name with
  | some entry => entry.2
  | none => if name = abscissa then x else 0

-- The induction runs over the parameters in reverse: the last one that fits is the first one found.
theorem assigned_get (bindings : Bindings) (values : List (String × Float)) (key : String)
    (old : Float) (found : bindings.get? key = some old) :
    Bindings.get? (values.foldr (fun entry bound => bound.assign entry.1 entry.2) bindings) key =
      some (match values.find? fun entry => Text.lowerText entry.1 = key with
        | some entry => entry.2
        | none => old) := by
  induction values with
  | nil => exact found
  | cons entry rest ih =>
      rw [List.foldr_cons, assign_get _ _ _ _ _ ih]
      by_cases same : Text.lowerText entry.1 = key
      · rw [if_pos same, List.find?_cons_of_pos (by simpa using same)]
      · rw [if_neg same, List.find?_cons_of_neg (by simpa using same)]

theorem initial_get (curve : Curve) (name : String) (listed : name ∈ curve.parameters) :
    curve.bindings.get? name = some 0 := by
  rw [Curve.bindings, Bindings.get?]
  generalize curve.parameters = names at listed ⊢
  induction names with
  | nil => contradiction
  | cons first rest ih =>
      rw [List.map_cons, List.lookup_cons]
      by_cases same : name = first
      · simp [same]
      · rw [beq_eq_false_iff_ne.mpr same]
        exact ih ((List.mem_cons.mp listed).resolve_left same)

theorem named_bound (curve : Curve) (x : Float) (values : List (String × Float)) :
    Bound (values.foldl (fun bindings (name, value) => bindings.assign name value)
      (curve.bindings.assign abscissa x)) (namedValues x values) curve.parameters := by
  intro name listed
  have lowered : Text.lowerText abscissa = abscissa := by decide +kernel
  have started := assign_get curve.bindings abscissa name x 0 (initial_get curve name listed)
  rw [lowered] at started
  have assigned := assigned_get _ values.reverse name _ started
  rw [List.foldr_reverse] at assigned
  refine assigned.trans (congrArg some ?_)
  rw [namedValues]
  cases values.reverse.find? fun entry => Text.lowerText entry.1 = name with
  | some entry => rfl
  | none => simp only [eq_comm]

def positionalValues (names : List String) (values : List Float) (name : String) : Float :=
  values.getD (names.idxOf name) 0

theorem lookup_zip (names : List String) (values : List Float) (name : String)
    (enough : names.length ≤ values.length) (listed : name ∈ names) :
    Bindings.get? (names.zip values) name = values[names.idxOf name]? := by
  induction names generalizing values with
  | nil => contradiction
  | cons first rest ih =>
      cases values with
      | nil => simp at enough
      | cons value others =>
          rw [Bindings.get?, List.zip_cons_cons, List.lookup_cons, List.idxOf_cons]
          by_cases same : name = first
          · simp [same]
          · rw [beq_eq_false_iff_ne.mpr same, beq_eq_false_iff_ne.mpr (Ne.symm same)]
            have later := (List.mem_cons.mp listed).resolve_left same
            exact ih others (by simpa using enough) later

theorem positional_bound (curve : Curve) (values : List Float) :
    Bound (curve.parameters.zip
        (values ++ List.replicate (curve.parameters.length - values.length) 0))
      (positionalValues curve.parameters values) curve.parameters := by
  intro name listed
  have place := List.idxOf_lt_length_of_mem listed
  rw [lookup_zip _ _ _ (by simp; omega) listed, positionalValues, List.getD_eq_getElem?_getD]
  by_cases given : curve.parameters.idxOf name < values.length
  · rw [List.getElem?_append_left given, List.getElem?_eq_getElem given, Option.getD_some]
  · rw [List.getElem?_append_right (by omega), List.getElem?_replicate, if_pos (by omega),
      List.getElem?_eq_none (by omega), Option.getD_none]

theorem bound_evaluates (curve : Curve) (tree : Tree) (listed : curve.stream = tree.postorder)
    (environment : String → Float) (bindings : Bindings)
    (bound : Bound bindings environment tree.mentions) (value : Float)
    (denoted : tree.Denotes environment value) : curve.evaluate bindings = .ok value := by
  have leaves := denoted_leaves bindings environment tree value denoted bound [] []
  rw [List.append_nil] at leaves
  rw [Curve.evaluate, listed, Semantics.evaluate, leaves]
  rfl

theorem denoted_once (curve : Curve) (tree : Tree) (listed : curve.stream = tree.postorder)
    (exists_value : ∀ environment, ∃ value, tree.Denotes environment value)
    (environment : String → Float) (bindings : Bindings)
    (bound : Bound bindings environment tree.mentions) :
    ∃ value, curve.evaluate bindings = .ok value ∧
      ∀ other, tree.Denotes environment other ↔ other = value := by
  obtain ⟨value, denoted⟩ := exists_value environment
  have evaluated := bound_evaluates curve tree listed environment bindings bound value denoted
  refine ⟨value, evaluated, fun other => ⟨fun again => ?_, ?_⟩⟩
  · have same := bound_evaluates curve tree listed environment bindings bound other again
    rw [evaluated] at same
    exact (Except.ok.inj same).symm
  · rintro rfl
    exact denoted

theorem compiled_curve (source : String) (curve : Curve)
    (compiled : Curve.compile source = .ok curve) :
    compileArithmetic source = .ok curve.stream ∧
      curve.parameters = abscissaFirst curve.stream.parameters := by
  rw [Curve.compile] at compiled
  cases made : compileArithmetic source with
  | error error =>
      rw [made] at compiled
      contradiction
  | ok stream =>
      rw [made] at compiled
      cases compiled
      exact ⟨rfl, rfl⟩

theorem curve_evaluates (source : String) (curve : Curve)
    (compiled : Curve.compile source = .ok curve) :
    ∃ tree, (∀ other, Expression (normalize source).toList other ↔ other = tree) ∧
      Tabulates curve.parameters tree ∧
      (∀ (x : Float) (values : List (String × Float)), ∃ value,
        curve.evaluateAt x values = .ok value ∧
          ∀ other, tree.Denotes (namedValues x values) other ↔ other = value) ∧
      ∀ values : List Float, ∃ value, curve.evaluatePositional values = .ok value ∧
        ∀ other, tree.Denotes (positionalValues curve.parameters values) other ↔ other = value := by
  obtain ⟨made, named⟩ := compiled_curve source curve compiled
  obtain ⟨tree, derived⟩ := compile_derived source curve.stream made
  have listed : curve.stream = tree.postorder := by
    rw [derived_compiles source tree derived] at made
    exact (Except.ok.inj made).symm
  have tabulated : Tabulates curve.parameters tree := by
    rw [named, listed]
    exact abscissa_first_tabulates tree
  have denoting := fun environment => expression_inherited (denoting_inherited environment) _ _ derived
  have mentioned : ∀ (environment : String → Float) (bindings : Bindings),
      Bound bindings environment curve.parameters → Bound bindings environment tree.mentions :=
    fun _ _ bound name member => bound name ((tabulated.mentioned name).mpr member)
  refine ⟨tree, fun other => ⟨derivation_unique source tree other derived, ?_⟩, tabulated, ?_, ?_⟩
  · rintro rfl
    exact derived
  · intro x values
    exact denoted_once curve tree listed denoting _ _ (mentioned _ _ (named_bound curve x values))
  · intro values
    exact denoted_once curve tree listed denoting _ _ (mentioned _ _ (positional_bound curve values))

theorem letter_operand (c : Char) (starts : Text.startsName c = true) :
    Operand [c] (.parameter (String.ofList [c])) :=
  .primary [c] _ (.parameter [c] (.letters c [] starts (by simp)))

-- A name in two spellings, a call, a divisor that may be zero and a parameter that is left out.
theorem mixed_curve_evaluates :
    ∃ curve, Curve.compile " A*X + Sin(b)/x - 2 " = .ok curve ∧
      ∀ x a : Float, curve.evaluateAt x [("a", 7), ("A", a)] =
        .ok (a * x + (if x == 0 then nan else Float.sin 0 / x) - 2) := by
  have compiles : (Curve.compile " A*X + Sin(b)/x - 2 ").toOption.isSome = true := by decide +kernel
  obtain ⟨curve, compiled⟩ : ∃ curve, Curve.compile " A*X + Sin(b)/x - 2 " = .ok curve := by
    cases result : Curve.compile " A*X + Sin(b)/x - 2 " with
    | ok curve => exact ⟨curve, rfl⟩
    | error error =>
        rw [result] at compiles
        contradiction
  refine ⟨curve, compiled, fun x a => ?_⟩
  obtain ⟨tree, only, _, evaluates, _⟩ := curve_evaluates _ curve compiled
  have text : normalize " A*X + Sin(b)/x - 2 " = "a*x+sin(b)/x-2" := by decide +kernel
  have two : Primary ['2'] (.number (valueOf ['2'])) :=
    .number ['2'] (.parts ['2'] [] [] (List.forall_mem_singleton.mpr rfl) .absent .absent
      ⟨'2', by simp, rfl⟩)
  have sine : Primary "sin(b)".toList (.call "sin" [.parameter "b"]) :=
    .call ['s', 'i', 'n'] ['b'] [.parameter "b"]
      (.letters 's' ['i', 'n'] rfl (List.forall_mem_cons.mpr ⟨rfl, List.forall_mem_singleton.mpr rfl⟩))
      (.some ['b'] _ (.last ['b'] _ (.chain ['b'] [] _ [] (letter_operand 'b' rfl) .done))) rfl
  have derived : Expression (normalize " A*X + Sin(b)/x - 2 ").toList
      (assemble (.parameter "a") [('*', .parameter "x"), ('+', .call "sin" [.parameter "b"]),
        ('/', .parameter "x"), ('-', .number (valueOf ['2']))]) := by
    rw [text]
    exact .chain ['a'] _ _ _ (letter_operand 'a' rfl)
      (.more '*' ['x'] _ _ _ rfl (letter_operand 'x' rfl)
        (.more '+' "sin(b)".toList _ _ _ rfl (.primary _ _ sine)
          (.more '/' ['x'] _ _ _ rfl (letter_operand 'x' rfl)
            (.more '-' ['2'] [] _ _ rfl (.primary _ _ two) .done))))
  obtain rfl := (only _).mp derived
  obtain ⟨value, evaluated, denotes⟩ := evaluates x [("a", 7), ("A", a)]
  have read : valueOf ['2'] = 2 := by decide +kernel
  rw [read] at denotes
  have capital : Text.lowerText "A" = "a" := by decide +kernel
  have small : Text.lowerText "a" = "a" := by decide +kernel
  have factor : namedValues x [("a", 7), ("A", a)] "a" = a := by simp [namedValues, capital]
  have running : namedValues x [("a", 7), ("A", a)] "x" = x := by
    simp [namedValues, capital, small, abscissa]
  have absent : namedValues x [("a", 7), ("A", a)] "b" = 0 := by
    simp [namedValues, capital, small, abscissa]
  have parameters := @Tree.Denotes.parameter (namedValues x [("a", 7), ("A", a)])
  have left := parameters "a"
  have middle := parameters "x"
  have argument := parameters "b"
  rw [factor] at left
  rw [running] at middle
  rw [absent] at argument
  have called := Tree.Denotes.call "sin" _ _ (Float.sin 0) (.cons _ _ _ _ argument .nil) rfl
  have product := Tree.Denotes.operation '*' _ _ _ _ _ left middle (.product a x)
  have quotient := Tree.Denotes.operation '/' _ _ _ _ _ called middle (.quotient _ x)
  have sum := Tree.Denotes.operation '+' _ _ _ _ _ product quotient (.sum _ _)
  have difference := Tree.Denotes.operation '-' _ _ _ _ _ sum (.number 2) (.difference _ _)
  rw [evaluated, (denotes _).mp difference]

end Interlock.Formula
