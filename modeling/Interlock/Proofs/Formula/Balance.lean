import Mathlib.Data.List.Infix
import Mathlib.Data.Set.Basic
import Mathlib.Order.Bounds.Basic
import Interlock.Proofs.Formula.Enclosure

/-!
Parentheses by their count. The group that is opened at an index ends at the first index where as many
parentheses have been closed as opened from there, and nowhere before are more closed than opened. The
arguments of a group are cut at its own commas: each one is balanced, and its commas stand inside groups.
-/

set_option autoImplicit false

namespace Interlock.Formula

def excess (text : List Char) : Int := (text.count '(' : Int) - text.count ')'

section

variable (c : Char) (text first second : List Char)

theorem excess_append : excess (first ++ second) = excess first + excess second := by
  rw [excess, excess, excess, List.count_append, List.count_append]
  omega

theorem excess_cons : excess (c :: text) = excess [c] + excess text := excess_append [c] text

theorem excess_nil : excess [] = 0 := rfl

theorem excess_opening : excess ['('] = 1 := rfl

theorem excess_closing : excess [')'] = -1 := rfl

theorem nesting_excess (depth : Nat) (level : 0 ≤ (depth : Int) + excess [c]) :
    (nesting depth c : Int) = depth + excess [c] := by
  rw [nesting]
  split
  · next opens =>
      subst opens
      rfl
  · split
    · next closes =>
        subst closes
        rw [excess_closing] at level ⊢
        omega
    · next other neither =>
        have level : excess [c] = 0 := by simp [excess, other, neither]
        rw [level, Int.add_zero]

end

-- No beginning of a text closes more groups than are open in front of it and in it.
def Covered (depth : Nat) (text : List Char) : Prop :=
  ∀ part, part <+: text → 0 ≤ (depth : Int) + excess part

theorem covered_nil (depth : Nat) : Covered depth [] := by
  intro part front
  rw [List.prefix_nil.mp front, excess_nil]
  omega

theorem covered_first (depth : Nat) (c : Char) (rest : List Char) (covered : Covered depth (c :: rest)) :
    0 ≤ (depth : Int) + excess [c] :=
  covered [c] (List.cons_prefix_cons.mpr ⟨rfl, List.nil_prefix⟩)

theorem covered_cons (depth : Nat) (c : Char) (rest : List Char) (level : 0 ≤ (depth : Int) + excess [c]) :
    Covered depth (c :: rest) ↔ Covered (nesting depth c) rest := by
  have same := nesting_excess c depth level
  constructor
  · intro covered part front
    have longer := covered (c :: part) (List.cons_prefix_cons.mpr ⟨rfl, front⟩)
    rw [excess_cons] at longer
    omega
  · intro covered part front
    rcases List.prefix_cons_iff.mp front with rfl | ⟨others, rfl, behind⟩
    · rw [excess_nil]
      omega
    · have shorter := covered others behind
      rw [excess_cons]
      omega

theorem covered_count (depth : Nat) (text : List Char) (covered : Covered depth text) :
    ((text.foldl nesting depth : Nat) : Int) = depth + excess text := by
  induction text generalizing depth with
  | nil => simp [excess_nil]
  | cons c rest ih =>
      have level := covered_first depth c rest covered
      rw [List.foldl_cons, ih _ ((covered_cons depth c rest level).mp covered), nesting_excess c depth level,
        excess_cons c rest, Int.add_assoc]

theorem excess_inside (depth : Nat) (c : Char) (inside : ¬ (c = ')' ∧ depth = 0)) :
    0 ≤ (depth : Int) + excess [c] := by
  by_cases closes : c = ')'
  · subst closes
    have deep : depth ≠ 0 := fun outside => inside ⟨rfl, outside⟩
    rw [excess_closing]
    omega
  · have level : 0 ≤ excess [c] := by simp [excess, closes]
    omega

theorem split_group_found (depth : Nat) (cs body after : List Char)
    (found : splitGroup depth cs = some (body, after)) :
    Covered depth body ∧ (depth : Int) + excess body = 0 := by
  induction cs generalizing depth body after with
  | nil => simp [splitGroup] at found
  | cons c rest ih =>
      rw [splitGroup] at found
      split at found
      · next ends =>
          cases found
          exact ⟨covered_nil depth, by rw [excess_nil, ends.2]; rfl⟩
      · next inside =>
          obtain ⟨⟨inner, behind⟩, split, same⟩ := Option.map_eq_some_iff.mp found
          cases same
          have level := excess_inside depth c inside
          obtain ⟨covered, closed⟩ := ih _ _ _ split
          refine ⟨(covered_cons depth c inner level).mpr covered, ?_⟩
          rw [excess_cons, ← Int.add_assoc, ← nesting_excess c depth level, closed]

theorem split_group_missing (depth : Nat) (cs : List Char) (missing : splitGroup depth cs = none) :
    Covered depth cs := by
  induction cs generalizing depth with
  | nil => exact covered_nil depth
  | cons c rest ih =>
      rw [splitGroup] at missing
      split at missing
      · contradiction
      · next inside =>
          rw [covered_cons depth c rest (excess_inside depth c inside)]
          exact ih _ (Option.map_eq_none_iff.mp missing)

-- A field between commas: it closes all groups that are open in front of it and no more, and its own commas
-- stand inside groups.
structure Field (depth : Nat) (field : List Char) : Prop where
  covered : Covered depth field
  closed : (depth : Int) + excess field = 0
  commas : ∀ before behind, field = before ++ ',' :: behind → 0 < (depth : Int) + excess before

theorem field_extended (depth : Nat) (c : Char) (field : List Char) (level : 0 ≤ (depth : Int) + excess [c])
    (inside : ¬ (c = ',' ∧ depth = 0)) (rest : Field (nesting depth c) field) : Field depth (c :: field) := by
  have same := nesting_excess c depth level
  refine ⟨(covered_cons depth c field level).mpr rest.covered, ?_, ?_⟩
  · rw [excess_cons, ← Int.add_assoc, ← same, rest.closed]
  · intro before behind parts
    cases before with
    | nil =>
        obtain ⟨rfl, rfl⟩ := List.cons.inj parts
        have deep : depth ≠ 0 := fun outside => inside ⟨rfl, outside⟩
        rw [excess_nil]
        omega
    | cons d others =>
        obtain ⟨rfl, tails⟩ := List.cons.inj parts
        have deeper := rest.commas others behind tails
        rw [excess_cons]
        omega

theorem arguments_fields (depth : Nat) (body : List Char) (covered : Covered depth body)
    (closed : (depth : Int) + excess body = 0) :
    ∃ field others, splitArguments depth body = field :: others ∧ Field depth field ∧
      ∀ other ∈ others, Field 0 other := by
  induction body generalizing depth with
  | nil => exact ⟨[], [], rfl, ⟨covered, closed, by simp⟩, by simp⟩
  | cons c rest ih =>
      have level := covered_first depth c rest covered
      have same := nesting_excess c depth level
      rw [covered_cons depth c rest level] at covered
      rw [excess_cons, ← Int.add_assoc, ← same] at closed
      obtain ⟨field, others, split, first, later⟩ := ih _ covered closed
      rw [splitArguments]
      split
      · next comma =>
          obtain ⟨rfl, rfl⟩ := comma
          change splitArguments 0 rest = field :: others at split
          refine ⟨[], field :: others, by rw [split], ⟨covered_nil 0, rfl, by simp⟩, ?_⟩
          exact List.forall_mem_cons.mpr ⟨first, later⟩
      · next inside =>
          exact ⟨c :: field, others, by rw [split, extendFirst], field_extended depth c field level inside first,
            later⟩

theorem join_fields_intercalate (fields : List (List Char)) : joinFields fields = [','].intercalate fields := by
  fun_induction joinFields fields with
  | case1 => rfl
  | case2 field => simp
  | case3 field other others ih => simp [ih]

def stretch (cs : List Char) (first last : Nat) : List Char := (cs.drop first).take (last + 1 - first)

-- The index of the parenthesis that ends the group opened at an index.
def closingIndex (cs : List Char) (opening : Nat) : Option Nat :=
  (splitGroup 0 (cs.drop (opening + 1))).map fun (body, _) => opening + 1 + body.length

-- The later indices where as many parentheses have been closed as opened.
def balancedAt (cs : List Char) (opening : Nat) : Set Nat :=
  {index | opening < index ∧ index < cs.length ∧ excess (stretch cs opening index) = 0}

theorem covered_prefix (depth : Nat) (part text : List Char) (front : part <+: text)
    (covered : Covered depth text) : Covered depth part :=
  fun shorter inner => covered shorter (inner.trans front)

theorem covered_closing (body : List Char) (covered : Covered 0 body) (closed : excess body = 0) :
    Covered 1 (body ++ [')']) := by
  intro part front
  rcases List.prefix_concat_iff.mp front with rfl | inner
  · rw [excess_append, closed, excess_closing]
    omega
  · have level := covered part inner
    omega

section

variable {cs : List Char} {opening : Nat}

theorem stretch_opening (opens : cs[opening]? = some '(') (index : Nat) (later : opening ≤ index) :
    stretch cs opening index = '(' :: (cs.drop (opening + 1)).take (index - opening) := by
  obtain ⟨bound, here⟩ := List.getElem?_eq_some_iff.mp opens
  rw [stretch, List.drop_eq_getElem_cons bound, here, show index + 1 - opening = index - opening + 1 by omega,
    List.take_succ_cons]

theorem excess_opening_stretch (opens : cs[opening]? = some '(') (index : Nat) (later : opening ≤ index) :
    excess (stretch cs opening index) = 1 + excess ((cs.drop (opening + 1)).take (index - opening)) := by
  rw [stretch_opening opens index later, excess_cons, excess_opening]

theorem covered_opening_stretch (opens : cs[opening]? = some '(') (index : Nat) (later : opening ≤ index) :
    Covered 0 (stretch cs opening index) ↔ Covered 1 ((cs.drop (opening + 1)).take (index - opening)) := by
  rw [stretch_opening opens index later]
  exact covered_cons 0 '(' _ (by decide)

structure Ends (cs : List Char) (opening closing : Nat) : Prop where
  split : splitGroup 0 (cs.drop (opening + 1)) = some (stretch cs (opening + 1) (closing - 1), cs.drop (closing + 1))
  covered : Covered 0 (stretch cs (opening + 1) (closing - 1))
  closed : excess (stretch cs (opening + 1) (closing - 1)) = 0
  behind : (cs.drop (opening + 1)).take (closing - opening) = stretch cs (opening + 1) (closing - 1) ++ [')']
  later : opening < closing
  within : closing < cs.length

theorem closing_ends (closing : Nat) (found : closingIndex cs opening = some closing) :
    Ends cs opening closing := by
  obtain ⟨⟨body, after⟩, split, rfl⟩ := Option.map_eq_some_iff.mp found
  change Ends cs opening (opening + 1 + body.length)
  have parts := split_group_join 0 _ body after split
  obtain ⟨covered, closed⟩ := split_group_found 0 _ body after split
  have inside : stretch cs (opening + 1) (opening + 1 + body.length - 1) = body := by
    rw [stretch, parts, show opening + 1 + body.length - 1 + 1 - (opening + 1) = body.length by omega,
      List.take_left]
  have rest : cs.drop (opening + 1 + body.length + 1) = after := by
    rw [Nat.add_assoc _ body.length, ← List.drop_drop, parts, List.drop_append]
    simp
  have length := congrArg List.length parts
  rw [List.length_drop, List.length_append, List.length_cons] at length
  constructor
  · rw [inside, rest, split]
  · rw [inside]
    exact covered
  · rw [inside]
    omega
  · rw [inside, parts, show opening + 1 + body.length - opening = body.length + 1 by omega, List.take_append]
    simp
  · omega
  · omega

theorem ends_positive (opens : cs[opening]? = some '(') (closing index : Nat) (ends : Ends cs opening closing)
    (first : opening ≤ index) (before : index < closing) : 0 < excess (stretch cs opening index) := by
  have later := ends.later
  have part : (cs.drop (opening + 1)).take (index - opening) <+: stretch cs (opening + 1) (closing - 1) := by
    rw [stretch]
    exact List.take_prefix_take_left (by omega)
  have level := ends.covered _ part
  rw [excess_opening_stretch opens index first]
  omega

theorem ends_balanced (opens : cs[opening]? = some '(') (closing : Nat) (ends : Ends cs opening closing) :
    excess (stretch cs opening closing) = 0 := by
  rw [excess_opening_stretch opens closing (Nat.le_of_lt ends.later), ends.behind, excess_append, ends.closed,
    excess_closing]
  rfl

theorem ends_covered (opens : cs[opening]? = some '(') (closing index : Nat) (ends : Ends cs opening closing)
    (first : opening ≤ index) (last : index ≤ closing) : Covered 0 (stretch cs opening index) := by
  rw [covered_opening_stretch opens index first]
  refine covered_prefix 1 _ _ ?_ (covered_closing _ ends.covered ends.closed)
  rw [← ends.behind]
  exact List.take_prefix_take_left (by omega)

theorem ends_least (opens : cs[opening]? = some '(') (closing : Nat) (ends : Ends cs opening closing) :
    IsLeast (balancedAt cs opening) closing := by
  refine ⟨⟨ends.later, ends.within, ends_balanced opens closing ends⟩, ?_⟩
  rintro index ⟨later, _, level⟩
  refine Nat.le_of_not_lt fun before => ?_
  have positive := ends_positive opens closing index ends (Nat.le_of_lt later) before
  omega

theorem missing_covered (opens : cs[opening]? = some '(') (missing : closingIndex cs opening = none)
    (index : Nat) (first : opening ≤ index) :
    Covered 0 (stretch cs opening index) ∧ 0 < excess (stretch cs opening index) := by
  have rest := covered_prefix 0 _ _ (List.take_prefix (index - opening) _)
    (split_group_missing 0 _ (Option.map_eq_none_iff.mp missing))
  have level := rest _ (List.prefix_refl _)
  rw [covered_opening_stretch opens index first, excess_opening_stretch opens index first]
  refine ⟨fun part front => ?_, by omega⟩
  have inner := rest part front
  omega

theorem missing_unbalanced (opens : cs[opening]? = some '(') (missing : closingIndex cs opening = none) :
    balancedAt cs opening = ∅ := by
  refine Set.eq_empty_of_forall_notMem ?_
  rintro index ⟨later, _, level⟩
  have positive := (missing_covered opens missing index (Nat.le_of_lt later)).2
  omega

theorem scanned_covered (opens : cs[opening]? = some '(') (index : Nat) (first : opening ≤ index)
    (scanned : ∀ closing ∈ closingIndex cs opening, index ≤ closing) : Covered 0 (stretch cs opening index) := by
  cases found : closingIndex cs opening with
  | none => exact (missing_covered opens found index first).1
  | some closing => exact ends_covered opens closing index (closing_ends closing found) first (scanned closing found)

end

-- The count of open groups never has to be cut off at zero while the end of a group is looked for, so it is the
-- excess of what has been looked at.
theorem groups_exact (cs : List Char) (opening : Nat) (opens : cs[opening]? = some '(') :
    (∀ closing, closingIndex cs opening = some closing ↔ IsLeast (balancedAt cs opening) closing) ∧
      (closingIndex cs opening = none ↔ balancedAt cs opening = ∅) ∧
      (∀ index, opening ≤ index → (∀ closing ∈ closingIndex cs opening, index ≤ closing) →
        (((stretch cs opening index).foldl nesting 0 : Nat) : Int) = excess (stretch cs opening index)) ∧
      ∀ closing ∈ closingIndex cs opening,
        let body := stretch cs (opening + 1) (closing - 1)
        splitGroup 0 (cs.drop (opening + 1)) = some (body, cs.drop (closing + 1)) ∧
          [','].intercalate (splitArguments 0 body) = body ∧ ∀ field ∈ splitArguments 0 body, Field 0 field := by
  refine ⟨fun closing => ⟨fun found => ends_least opens closing (closing_ends closing found), ?_⟩,
    ⟨missing_unbalanced opens, ?_⟩, ?_, ?_⟩
  · intro least
    cases found : closingIndex cs opening with
    | none =>
        rw [missing_unbalanced opens found] at least
        exact absurd least.1 (Set.notMem_empty closing)
    | some other => rw [(ends_least opens other (closing_ends other found)).unique least]
  · intro unbalanced
    cases found : closingIndex cs opening with
    | none => rfl
    | some closing =>
        have balanced := (ends_least opens closing (closing_ends closing found)).1
        simp [unbalanced] at balanced
  · intro index first scanned
    rw [covered_count 0 _ (scanned_covered opens index first scanned)]
    exact Int.zero_add _
  · intro closing found
    have ends := closing_ends closing found
    obtain ⟨field, others, split, leading, trailing⟩ := arguments_fields 0 _ ends.covered
      ((Int.zero_add _).trans ends.closed)
    refine ⟨ends.split, ?_, ?_⟩
    · rw [← join_fields_intercalate, (split_arguments_join 0 _).1]
    · rw [split]
      exact List.forall_mem_cons.mpr ⟨leading, trailing⟩

-- The call ends in front of the sum, and the last of its three arguments is empty.
theorem nested_call_exact :
    let cs := "f(a,(b,c),)+(".toList
    cs[1]? = some '(' ∧ IsLeast (balancedAt cs 1) 10 ∧
      splitArguments 0 (stretch cs 2 9) = ["a".toList, "(b,c)".toList, []] ∧
      ∀ field ∈ ["a".toList, "(b,c)".toList, []], Field 0 field := by
  intro cs
  have opens : cs[1]? = some '(' := by decide
  have found : closingIndex cs 1 = some 10 := by decide
  have fields : splitArguments 0 (stretch cs 2 9) = ["a".toList, "(b,c)".toList, []] := by decide
  obtain ⟨least, _, _, arguments⟩ := groups_exact cs 1 opens
  refine ⟨opens, (least 10).mp found, fields, ?_⟩
  rw [← fields]
  exact (arguments 10 found).2.2

end Interlock.Formula
