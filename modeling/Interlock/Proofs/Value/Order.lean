import Interlock.Graph.Comparison
import Interlock.Graph.Variable
import Interlock.Proofs.Number.Exactness

/-!
Order and identity of values. Seen from the other side the order is reversed, also where there is none. It is
transitive within each kind, and two values that are level in it are the same but for the two zeros, which no
comparison tells apart. So an assignment that no comparison can see is a change only between the zeros.
-/

set_option autoImplicit false

namespace Interlock

open Float.Model (UnpackedFloat)
open Float.Model.UnpackedFloat (Sign)

theorem compare_sign_swap (s t : UnpackedFloat.Sign) : compare t s = (compare s t).swap := by
  cases s <;> cases t <;> rfl

theorem compare_magnitude_swap (i j : Int) (m n : Nat) :
    (compare j i).then (compare n m) = ((compare i j).then (compare m n)).swap := by
  rw [Ordering.swap_then, Std.OrientedOrd.eq_swap (a := j), Std.OrientedOrd.eq_swap (a := n)]

theorem compare_unpacked_swap (x y : UnpackedFloat) :
    y.compare x = (x.compare y).map Ordering.swap := by
  cases x with
  | notANumber => cases y <;> rfl
  | infinity s =>
    cases y with
    | infinity t => exact congrArg some (compare_sign_swap s t)
    | notANumber => cases s <;> rfl
    | zero => cases s <;> rfl
    | finite => cases s <;> rfl
  | zero =>
    cases y with
    | infinity t => cases t <;> rfl
    | notANumber => rfl
    | zero => rfl
    | finite t => cases t <;> rfl
  | finite s m i =>
    cases y with
    | infinity t => cases s <;> cases t <;> rfl
    | notANumber => cases s <;> rfl
    | zero => cases s <;> rfl
    | finite t n j =>
      have magnitude := compare_magnitude_swap i j m n
      cases s <;> cases t
      case positive.positive => exact congrArg some magnitude
      case negative.negative => exact congrArg (some ∘ Ordering.swap) magnitude
      all_goals rfl

namespace Value

theorem below_unpacked (x y : Float) :
    x < y ↔ x.toModel.unpack.compare y.toModel.unpack = some .lt := by
  change (decide ((x.toModel.unpack.compare y.toModel.unpack == some .lt) = true) : Bool) = true ↔ _
  simp

theorem level_unpacked (x y : Float) :
    (x == y) = (x.toModel.unpack.compare y.toModel.unpack == some .eq) := rfl

theorem compare_numbers_unpacked (x y : Float) :
    compareNumbers x y = x.toModel.unpack.compare y.toModel.unpack := by
  simp only [compareNumbers, level_unpacked, below_unpacked,
    compare_unpacked_swap x.toModel.unpack y.toModel.unpack]
  rcases x.toModel.unpack.compare y.toModel.unpack with _ | (_ | _ | _) <;> rfl

theorem compare_numbers_swap (x y : Float) :
    compareNumbers y x = (compareNumbers x y).map Ordering.swap := by
  rw [compare_numbers_unpacked, compare_numbers_unpacked, compare_unpacked_swap]

theorem compare_swap (a b : Value) : b.compare? a = (a.compare? b).map Ordering.swap := by
  cases a <;> cases b
  case number.number x y => exact compare_numbers_swap x y
  case bool.bool a b => exact congrArg some Std.OrientedOrd.eq_swap
  case timestamp.timestamp a b =>
    exact congrArg some (compare_magnitude_swap a.second b.second a.nano b.nano)
  case text.text a b => exact congrArg some Std.OrientedOrd.eq_swap
  all_goals rfl

end Value

section

variable {α : Type} {order : α → α → Ordering} [Std.TransCmp order] {a b c : α} {first second : Ordering}

theorem ordering_then (agree : first = second ∨ first = .eq ∨ second = .eq) (left : order a b = first)
    (right : order b c = second) : order a c = first.then second := by
  cases first <;> cases second
  case lt.lt => exact Std.TransCmp.lt_trans left right
  case gt.gt => exact Std.TransCmp.gt_trans left right
  case lt.eq => exact Std.TransCmp.lt_of_lt_of_eq left right
  case gt.eq => exact Std.TransCmp.gt_of_gt_of_eq left right
  case eq.lt => exact Std.TransCmp.lt_of_eq_of_lt left right
  case eq.gt => exact Std.TransCmp.gt_of_eq_of_gt left right
  case eq.eq => exact Std.TransCmp.eq_trans left right
  case lt.gt => simp at agree
  case gt.lt => simp at agree

end

instance : Std.TransCmp Calendar.compareInstants :=
  inferInstanceAs (Std.TransCmp (compareLex (compareOn Calendar.Instant.second) (compareOn Calendar.Instant.nano)))

instance : Std.TransCmp Value.compareBools := inferInstanceAs (Std.TransCmp (compareOn Bool.toNat))

-- The place of a number in the order: its class, its exponent and its significand.
abbrev Place := Int × Int × Int

def comparePlaces : Place → Place → Ordering :=
  compareLex (compareOn fun place => place.1)
    (compareLex (compareOn fun place => place.2.1) (compareOn fun place => place.2.2))

instance : Std.TransCmp comparePlaces := inferInstanceAs (Std.TransCmp (compareLex _ _))

theorem places_level (a b : Place) (level : comparePlaces a b = .eq) : a = b := by
  simp only [comparePlaces, compareLex_eq_eq, compareOn, Std.compare_eq_iff_eq] at level
  exact Prod.ext level.1 (Prod.ext level.2.1 level.2.2)

def placeOf : UnpackedFloat → Option Place
  | .notANumber => none
  | .infinity .negative => some (-2, 0, 0)
  | .infinity .positive => some (2, 0, 0)
  | .zero _ => some (0, 0, 0)
  | .finite .negative m e _ => some (-1, -e, -m)
  | .finite .positive m e _ => some (1, e, m)

theorem compare_cast (m n : Nat) : compare (m : Int) (n : Int) = compare m n := by
  simp [compare, compareOfLessAndEq]

theorem compare_negated (i j : Int) : compare (-i) (-j) = compare j i := by
  simp [compare, compareOfLessAndEq, eq_comm]

theorem compare_placed (x y : UnpackedFloat) :
    x.compare y = (placeOf x).bind fun a => (placeOf y).map (comparePlaces a) := by
  have upward : ∀ (m n : Nat) (i j : Int),
      comparePlaces (1, i, m) (1, j, n) = (compare i j).then (compare m n) := by
    intro m n i j
    rw [← compare_cast]
    rfl
  have downward : ∀ (m n : Nat) (i j : Int),
      comparePlaces (-1, -i, -m) (-1, -j, -n) = ((compare i j).then (compare m n)).swap := by
    intro m n i j
    rw [← compare_magnitude_swap, ← compare_cast, ← compare_negated i j, ← compare_negated m n]
    rfl
  cases x with
  | notANumber => cases y <;> rfl
  | infinity s =>
    cases y with
    | infinity t => cases s <;> cases t <;> rfl
    | notANumber => cases s <;> rfl
    | zero => cases s <;> rfl
    | finite t => cases s <;> cases t <;> rfl
  | zero =>
    cases y with
    | infinity t => cases t <;> rfl
    | notANumber => rfl
    | zero => rfl
    | finite t => cases t <;> rfl
  | finite s m i =>
    cases y with
    | infinity t => cases s <;> cases t <;> rfl
    | notANumber => cases s <;> rfl
    | zero => cases s <;> rfl
    | finite t n j =>
      cases s <;> cases t
      case positive.positive => exact congrArg some (upward m n i j).symm
      case negative.negative => exact congrArg some (downward m n i j).symm
      all_goals rfl

namespace Value

def place (x : Float) : Option Place := placeOf x.toModel.unpack

theorem compare_numbers_placed (x y : Float) :
    compareNumbers x y = (place x).bind fun a => (place y).map (comparePlaces a) := by
  rw [compare_numbers_unpacked, compare_placed, place, place]

theorem compare_numbers_some (x y : Float) (ordering : Ordering) (known : compareNumbers x y = some ordering) :
    ∃ a b, place x = some a ∧ place y = some b ∧ comparePlaces a b = ordering := by
  rw [compare_numbers_placed] at known
  obtain ⟨a, left, known⟩ := Option.bind_eq_some_iff.mp known
  obtain ⟨b, right, known⟩ := Option.map_eq_some_iff.mp known
  exact ⟨a, b, left, right, known⟩

theorem compare_trans (a b c : Value) (first second : Ordering)
    (agree : first = second ∨ first = .eq ∨ second = .eq) (left : a.compare? b = some first)
    (right : b.compare? c = some second) : a.compare? c = some (first.then second) := by
  cases a <;> cases b <;> cases c
  case number.number.number x y z =>
    obtain ⟨p, q, atX, atY, left⟩ := compare_numbers_some x y first left
    obtain ⟨q, r, again, atZ, right⟩ := compare_numbers_some y z second right
    obtain rfl := Option.some.inj (atY.symm.trans again)
    have known : compareNumbers x z = some (comparePlaces p r) := by
      rw [compare_numbers_placed, atX, atZ]
      rfl
    rw [compare?, known, ordering_then agree left right]
  case bool.bool.bool =>
    exact congrArg some (ordering_then agree (Option.some.inj left) (Option.some.inj right))
  case timestamp.timestamp.timestamp =>
    exact congrArg some (ordering_then agree (Option.some.inj left) (Option.some.inj right))
  case text.text.text =>
    exact congrArg some (ordering_then agree (Option.some.inj left) (Option.some.inj right))
  all_goals simp [compare?] at left right

theorem unpack_injective (x y : Float) (same : x.toModel.unpack = y.toModel.unpack) : x = y := by
  rw [← Float.ofBits_toBits x, ← Float.ofBits_toBits y]
  exact congrArg (fun unpacked => Float.ofModel (.pack unpacked)) same

theorem unpack_zero : (0 : Float).toModel.unpack = .zero .positive ∧ (-0 : Float).toModel.unpack = .zero .negative :=
  ⟨by rfl, by rfl⟩

inductive OppositeZeros : Value → Value → Prop where
  | negated : OppositeZeros (.number 0) (.number (-0))
  | restored : OppositeZeros (.number (-0)) (.number 0)

-- A number that is none is not level with anything.
def Defined : Value → Prop
  | .number x => Number.exact x ≠ .undefined
  | _ => True

theorem places_equal (u v : UnpackedFloat) (placed : placeOf u ≠ none) (same : placeOf u = placeOf v) :
    u = v ∨ ∃ s t, u = .zero s ∧ v = .zero t := by
  cases u with
  | notANumber => contradiction
  | infinity s =>
    cases v with
    | infinity t => cases s <;> cases t <;> simp_all [placeOf]
    | notANumber => contradiction
    | zero t => cases s <;> simp_all [placeOf]
    | finite t => cases s <;> cases t <;> simp_all [placeOf]
  | zero s =>
    cases v with
    | infinity t => cases t <;> simp_all [placeOf]
    | notANumber => contradiction
    | zero t => exact .inr ⟨s, t, rfl, rfl⟩
    | finite t => cases t <;> simp_all [placeOf]
  | finite s =>
    cases v with
    | infinity t => cases s <;> cases t <;> simp_all [placeOf]
    | notANumber => contradiction
    | zero t => cases s <;> simp_all [placeOf]
    | finite t => cases s <;> cases t <;> simp_all [placeOf]

theorem place_defined (x : Float) (defined : Number.exact x ≠ .undefined) : place x ≠ none := by
  have reflexive := Number.defined_equal x defined
  rw [level_unpacked, beq_iff_eq, compare_placed] at reflexive
  obtain ⟨a, placed, _⟩ := Option.bind_eq_some_iff.mp reflexive
  rw [place, placed]
  simp

theorem zeros_placed : place 0 = some (0, 0, 0) ∧ place (-0) = some (0, 0, 0) := by
  rw [place, place, unpack_zero.1, unpack_zero.2]
  exact ⟨rfl, rfl⟩

theorem unpacked_zeros (x y : Float) (s t : Sign) (left : x.toModel.unpack = .zero s)
    (right : y.toModel.unpack = .zero t) : x = y ∨ OppositeZeros (.number x) (.number y) := by
  obtain ⟨positive, negative⟩ := unpack_zero
  cases s <;> cases t
  case negative.negative => exact .inl (unpack_injective x y (left.trans right.symm))
  case positive.positive => exact .inl (unpack_injective x y (left.trans right.symm))
  case negative.positive =>
    obtain rfl := unpack_injective x (-0) (left.trans negative.symm)
    obtain rfl := unpack_injective y 0 (right.trans positive.symm)
    exact .inr .restored
  case positive.negative =>
    obtain rfl := unpack_injective x 0 (left.trans positive.symm)
    obtain rfl := unpack_injective y (-0) (right.trans negative.symm)
    exact .inr .negated

theorem numbers_level (x y : Float) (defined : Number.exact x ≠ .undefined) :
    compareNumbers x y = some .eq ↔ x = y ∨ OppositeZeros (.number x) (.number y) := by
  have placed := place_defined x defined
  constructor
  · intro level
    obtain ⟨a, b, atX, atY, level⟩ := compare_numbers_some x y .eq level
    obtain rfl := places_level a b level
    rcases places_equal _ _ placed (atX.trans atY.symm) with same | ⟨s, t, left, right⟩
    · exact .inl (unpack_injective x y same)
    · exact unpacked_zeros x y s t left right
  · obtain ⟨zero, negated⟩ := zeros_placed
    rintro (rfl | opposite)
    · obtain ⟨a, atX⟩ := Option.ne_none_iff_exists'.mp placed
      rw [compare_numbers_placed, atX]
      exact congrArg some Std.ReflCmp.compare_self
    · cases opposite <;> rw [compare_numbers_placed, zero, negated] <;> rfl

theorem level_iff (a b : Value) (defined : a.Defined) :
    a.compare? b = some .eq ↔ a.sameAs b = true ∨ OppositeZeros a b := by
  rw [sameAs, beq_iff_eq]
  have other : ∀ c d : Value, c.kind ≠ .number → ¬ OppositeZeros c d := by
    rintro _ _ apart (_ | _) <;> exact apart rfl
  cases a with
  | number x =>
    cases b with
    | number y => simpa [compare?] using numbers_level x y defined
    | bool | timestamp | text => exact iff_of_false nofun (by rintro (same | opposite) <;> contradiction)
  | bool a =>
    rw [or_iff_left (other _ _ (by simp [kind]))]
    cases b with
    | bool b => cases a <;> cases b <;> decide
    | number | timestamp | text => exact iff_of_false nofun nofun
  | timestamp a =>
    rw [or_iff_left (other _ _ (by simp [kind]))]
    cases b with
    | timestamp b =>
      obtain ⟨second, nano⟩ := a
      obtain ⟨later, part⟩ := b
      simp [compare?, Calendar.compareInstants]
    | number | bool | text => exact iff_of_false nofun nofun
  | text a =>
    rw [or_iff_left (other _ _ (by simp [kind]))]
    cases b with
    | text b => simp [compare?]
    | number | bool | timestamp => exact iff_of_false nofun nofun

theorem zeros_alike (a b operand : Value) (opposite : OppositeZeros a b) :
    a.compare? operand = b.compare? operand := by
  obtain ⟨zero, negated⟩ := zeros_placed
  cases operand with
  | number x =>
    cases opposite <;>
      rw [compare?, compare?, compare_numbers_placed, compare_numbers_placed, zero, negated]
  | bool | timestamp | text => cases opposite <;> rfl

theorem zeros_differ (a b : Value) (opposite : OppositeZeros a b) : a.sameAs b = false := by
  cases opposite <;> decide

-- Whether the two values differ in a comparison with some operand.
def Told (a b : Value) : Prop :=
  ∃ (comparator : Comparator) (operand : Value),
    comparator.test (a.compare? operand) ≠ comparator.test (b.compare? operand)

theorem told_iff (a b : Value) (defined : a.Defined) :
    a.sameAs b = false ↔ Told a b ∨ OppositeZeros a b := by
  constructor
  · intro differ
    by_cases opposite : OppositeZeros a b
    · exact .inr opposite
    · -- the value itself is the operand that tells
      refine .inl ⟨.equal, a, ?_⟩
      have same : a.compare? a = some .eq := (level_iff a a defined).mpr (.inl (by simp [sameAs]))
      have apart : b.compare? a ≠ some .eq := by
        intro level
        rw [compare_swap, Option.map_eq_some_iff] at level
        obtain ⟨ordering, known, reversed⟩ := level
        obtain rfl : ordering = .eq := by
          cases ordering <;> first | rfl | contradiction
        rcases (level_iff a b defined).mp known with alike | zeros
        · rw [differ] at alike
          contradiction
        · exact opposite zeros
      rw [same]
      cases known : b.compare? a with
      | none => decide
      | some ordering =>
        rw [known] at apart
        cases ordering
        · decide
        · contradiction
        · decide
  · rintro (⟨comparator, operand, differ⟩ | opposite)
    · rw [sameAs, beq_eq_false_iff_ne]
      rintro rfl
      exact differ rfl
    · exact zeros_differ a b opposite

end Value

namespace Graph

open Interlock.Calendar (Instant)
open Interlock.Value (Told OppositeZeros)

theorem assign_changed (var after : Variable) (now : Instant) (value : Value) (change : Change)
    (assigned : var.assign now value = .ok (change, after)) :
    change = .changed ↔ after.value.sameAs var.value = false := by
  unfold Variable.assign at assigned
  split at assigned
  · contradiction
  · next stored _ =>
      cases assigned
      cases stored.sameAs var.value <;> simp [Change.ofSame]

-- Identity and order part only at the zeros: they are level, no comparison tells them apart, and yet one after
-- the other is a change.
theorem changes_and_order (a b : Value) :
    Equivalence (fun a b : Value => a.sameAs b = true) ∧
      b.compare? a = (a.compare? b).map Ordering.swap ∧
      (∀ (c : Value) (first second : Ordering), (first = second ∨ first = .eq ∨ second = .eq) →
        a.compare? b = some first → b.compare? c = some second → a.compare? c = some (first.then second)) ∧
      (a.Defined → (a.compare? b = some .eq ↔ a.sameAs b = true ∨ OppositeZeros a b)) ∧
      (OppositeZeros a b → a.sameAs b = false ∧ ¬ Told a b) ∧
      ∀ (var after : Variable) (now : Instant) (value : Value) (change : Change),
        var.assign now value = .ok (change, after) → after.value.Defined →
          (change = .changed ↔ Told after.value var.value ∨ OppositeZeros after.value var.value) := by
  refine ⟨⟨?_, ?_, ?_⟩, Value.compare_swap a b, Value.compare_trans a b, Value.level_iff a b, ?_, ?_⟩
  · intro a
    simp [Value.sameAs]
  · intro a b same
    rw [Value.sameAs, beq_iff_eq] at same ⊢
    exact same.symm
  · intro a b c left right
    rw [Value.sameAs, beq_iff_eq] at left right ⊢
    exact left.trans right
  · intro opposite
    refine ⟨Value.zeros_differ a b opposite, ?_⟩
    rintro ⟨comparator, operand, differ⟩
    rw [Value.zeros_alike a b operand opposite] at differ
    contradiction
  · intro var after now value change assigned defined
    rw [assign_changed var after now value change assigned, Value.told_iff _ _ defined]

theorem negated_zero_changes :
    let var := Variable.create "x" (.number 0) false
    var.assign ⟨0, 0⟩ (.number (-0)) = .ok (.changed, { var with value := .number (-0) }) ∧
      (Value.number (-0)).compare? (.number 0) = some .eq ∧ ¬ Told (.number (-0)) (.number 0) := by
  intro var
  have defined : (Value.number (-0)).Defined := by
    change Number.exact (-0) ≠ .undefined
    decide +kernel
  have zeros : OppositeZeros (.number (-0)) (.number 0) := .restored
  obtain ⟨_, _, _, level, apart, changes⟩ := changes_and_order (.number (-0)) (.number 0)
  obtain ⟨change, assigned⟩ : ∃ change, var.assign ⟨0, 0⟩ (.number (-0)) =
      .ok (change, { var with value := .number (-0) }) := ⟨_, rfl⟩
  obtain rfl := (changes var _ ⟨0, 0⟩ (.number (-0)) change assigned defined).mpr (.inr zeros)
  exact ⟨assigned, (level defined).mpr (.inr zeros), (apart zeros).2⟩

end Graph

end Interlock
