import Mathlib.Tactic.Ring
import Interlock.Proofs.Number.Layout
import Interlock.Proofs.Number.Nearest

/-!
The shortest decimal of a number rounds to the number. The search for it only ever stops inside the
span, and neither cut-off of the conversion is met there. It stops before the digits get long.
-/

set_option autoImplicit false

namespace Interlock.Number

theorem ten_down_positive (exponent : Int) : 0 < tenDown exponent := Nat.pow_pos (by decide)

theorem around_holds_middle (quanta denominator : Nat) (nonzero : quanta ≠ 0) (positive : 0 < denominator) :
    (Span.around quanta).holds (4 * (quanta * denominator)) denominator = true := by
  have gap : 0 < Nat.pow 2 (scaleOf quanta) := Nat.two_pow_pos _
  have below : (Span.around quanta).lower < 4 * quanta := by
    simp only [Span.around]
    split <;> omega
  have above : 4 * quanta < (Span.around quanta).upper := by
    simp only [Span.around]
    omega
  have low := Nat.mul_lt_mul_of_pos_right below positive
  have high := Nat.mul_lt_mul_of_pos_right above positive
  rw [Nat.mul_assoc] at low high
  rw [Span.holds]
  split <;> simp only [Bool.and_eq_true, decide_eq_true_eq] <;> omega

theorem grid_point_holds (span : Span) (tie : Tie) (exponent : Int) (point : Nat)
    (found : span.gridPoint tie exponent = some point) :
    span.holds (point * (tenUp exponent * (4 * unit))) (tenDown exponent) = true := by
  unfold Span.gridPoint at found
  dsimp only at found
  generalize tenUp exponent * (4 * unit) = step at found ⊢
  generalize span.middle * tenDown exponent / step = low at found
  simp only [Bool.and_eq_true] at found
  split at found
  · rename_i both
    obtain ⟨⟨_, lowInside⟩, highInside⟩ := both
    split at found
    · cases found
      exact lowInside
    · cases found
      exact highInside
    · split at found
      · cases found
        exact highInside
      · cases found
        split <;> assumption
  · split at found
    · rename_i lowInside
      cases found
      exact lowInside.2
    · split at found
      · cases found
        assumption
      · contradiction

-- A decimal as a quotient of whole counts of quanta.
def Decimal.numerator (decimal : Decimal) : Nat := decimal.coefficient * tenUp decimal.exponent * unit

def Decimal.denominator (decimal : Decimal) : Nat := tenDown decimal.exponent

def Span.Admits (span : Span) (decimal : Decimal) : Prop :=
  span.holds (4 * decimal.numerator) decimal.denominator = true

theorem fives_and_unit : Nat.pow 5 1074 * unit = tenDown (-1074) := by
  have places : (-(-1074 : Int)).toNat = 1074 := rfl
  unfold unit tenDown
  simp only [places]
  generalize 1074 = places
  exact (Nat.mul_pow 5 2 places).symm

theorem around_admits_exact (quanta : Nat) (nonzero : quanta ≠ 0) :
    (Span.around quanta).Admits ⟨quanta * Nat.pow 5 1074, -1074⟩ := by
  have value : (⟨quanta * Nat.pow 5 1074, -1074⟩ : Decimal).numerator = quanta * tenDown (-1074) := by
    rw [Decimal.numerator, show tenUp (-1074) = 1 from rfl, Nat.mul_one, Nat.mul_assoc, fives_and_unit]
  rw [Span.Admits, value]
  exact around_holds_middle quanta _ nonzero (ten_down_positive _)

theorem grid_point_admitted (span : Span) (tie : Tie) (exponent : Int) (point : Nat)
    (found : span.gridPoint tie exponent = some point) : span.Admits ⟨point, exponent⟩ := by
  have inside := grid_point_holds span tie exponent point found
  rwa [← Nat.mul_assoc, Nat.mul_left_comm] at inside

def firstPoint (grid : Int → Option Nat) (last : Decimal) : Nat → Int → Decimal
  | 0, _ => last
  | fuel + 1, exponent =>
      match grid exponent with
      | some point => ⟨point, exponent⟩
      | none => firstPoint grid last fuel (exponent - 1)

theorem coarsest_point_first (quanta : Nat) (tie : Tie) :
    coarsestPoint quanta tie =
      firstPoint ((Span.around quanta).gridPoint tie) ⟨quanta * Nat.pow 5 1074, -1074⟩ := by
  delta coarsestPoint firstPoint
  rfl

theorem first_point_fits (fits : Decimal → Prop) (grid : Int → Option Nat) (last : Decimal)
    (ends : fits last) (each : ∀ exponent point, grid exponent = some point → fits ⟨point, exponent⟩)
    (fuel : Nat) (exponent : Int) : fits (firstPoint grid last fuel exponent) := by
  induction fuel generalizing exponent with
  | zero => exact ends
  | succ fuel ih =>
      rw [firstPoint]
      split
      · exact each _ _ (by assumption)
      · exact ih _

theorem shortest_admitted (tie : Tie) (quanta : Nat) (nonzero : quanta ≠ 0) :
    (Span.around quanta).Admits (shortest tie quanta) := by
  rw [shortest, if_neg nonzero, coarsest_point_first]
  exact first_point_fits _ _ _ (around_admits_exact quanta nonzero)
    (fun exponent point => grid_point_admitted _ tie exponent point) _ _

theorem mark_above (decimal : Decimal) (shift : Nat) (nonzero : decimal.coefficient ≠ 0)
    (far : (shift : Int) < (digits decimal.coefficient).length + decimal.exponent) :
    10 ^ shift * tenDown decimal.exponent ≤ decimal.coefficient * tenUp decimal.exponent := by
  have reach := digits_reach decimal.coefficient nonzero
  have filled := List.length_pos_iff.mpr (digits_filled decimal.coefficient)
  calc 10 ^ shift * tenDown decimal.exponent
      = 10 ^ (shift + (-decimal.exponent).toNat) := (Nat.pow_add _ _ _).symm
    _ ≤ 10 ^ ((digits decimal.coefficient).length - 1 + decimal.exponent.toNat) :=
        Nat.pow_le_pow_right (by decide) (by omega)
    _ = 10 ^ ((digits decimal.coefficient).length - 1) * tenUp decimal.exponent := Nat.pow_add _ _ _
    _ ≤ decimal.coefficient * tenUp decimal.exponent := Nat.mul_le_mul_right _ reach

theorem mark_below (decimal : Decimal) (shift : Nat)
    (far : (digits decimal.coefficient).length + decimal.exponent < -(shift : Int)) :
    decimal.coefficient * tenUp decimal.exponent * 10 ^ shift < tenDown decimal.exponent := by
  have below := digits_below decimal.coefficient
  calc decimal.coefficient * tenUp decimal.exponent * 10 ^ shift
      < 10 ^ (digits decimal.coefficient).length * tenUp decimal.exponent * 10 ^ shift :=
        Nat.mul_lt_mul_of_pos_right
          (Nat.mul_lt_mul_of_pos_right below (Nat.pow_pos (by decide))) (Nat.pow_pos (by decide))
    _ = 10 ^ ((digits decimal.coefficient).length + decimal.exponent.toNat + shift) := by
        rw [Nat.pow_add, Nat.pow_add]
        rfl
    _ ≤ tenDown decimal.exponent := Nat.pow_le_pow_right (by decide) (by omega)

def overflow : Nat := Nat.pow 2 2098

theorem power_below_overflow (exponent : Nat) (bound : exponent ≤ 2098) : 2 ^ exponent ≤ overflow := by
  obtain ⟨top, power, least⟩ : ∃ top, overflow = 2 ^ top ∧ 2098 ≤ top := by
    unfold overflow
    generalize 2098 = top
    exact ⟨top, Nat.pow_eq, Nat.le_refl top⟩
  rw [power]
  exact Nat.pow_le_pow_right (by decide) (Nat.le_trans bound least)

theorem mark_not_above (decimal : Decimal) (shift : Nat) (nonzero : decimal.coefficient ≠ 0)
    (reaches : overflow ≤ 10 ^ shift * unit) (high : decimal.numerator < overflow * decimal.denominator) :
    ¬ (shift : Int) < (digits decimal.coefficient).length + decimal.exponent := by
  intro far
  refine Nat.lt_irrefl decimal.numerator ?_
  calc decimal.numerator
      < overflow * decimal.denominator := high
    _ ≤ 10 ^ shift * unit * decimal.denominator := Nat.mul_le_mul_right _ reaches
    _ = 10 ^ shift * decimal.denominator * unit := Nat.mul_right_comm _ _ _
    _ ≤ decimal.numerator := Nat.mul_le_mul_right unit (mark_above decimal shift nonzero far)

theorem mark_not_below (decimal : Decimal) (shift : Nat) (reaches : 2 * unit ≤ 10 ^ shift)
    (low : decimal.denominator ≤ 2 * decimal.numerator) :
    ¬ (digits decimal.coefficient).length + decimal.exponent < -(shift : Int) := by
  intro far
  refine Nat.lt_irrefl decimal.denominator ?_
  calc decimal.denominator
      ≤ 2 * decimal.numerator := low
    _ = decimal.coefficient * tenUp decimal.exponent * (2 * unit) := Nat.mul_left_comm _ _ _
    _ ≤ decimal.coefficient * tenUp decimal.exponent * 10 ^ shift := Nat.mul_le_mul_left _ reaches
    _ < decimal.denominator := mark_below decimal shift far

theorem to_float_of_ratio (negative : Bool) (decimal : Decimal)
    (low : decimal.denominator ≤ 2 * decimal.numerator)
    (high : decimal.numerator < overflow * decimal.denominator) :
    decimal.toFloat negative = ofRatio negative decimal.numerator decimal.denominator := by
  have positive : 0 < decimal.denominator := ten_down_positive decimal.exponent
  have nonzero : decimal.coefficient ≠ 0 := by
    intro zero
    rw [Decimal.numerator, zero, Nat.zero_mul, Nat.zero_mul] at low
    omega
  have inside : ¬ (310 : Int) < (digits decimal.coefficient).length + decimal.exponent :=
    mark_not_above decimal 310 nonzero (by decide +kernel) high
  have outside : ¬ (digits decimal.coefficient).length + decimal.exponent < (-330 : Int) :=
    mark_not_below decimal 330 (by decide +kernel) low
  simp only [Decimal.toFloat, if_neg nonzero, if_neg inside, if_neg outside]
  rfl

theorem leveled_ratio (decimal : Decimal) :
    decimal.leveled.numerator = decimal.numerator ∧ decimal.leveled.denominator = decimal.denominator := by
  rw [Decimal.leveled]
  split
  · rename_i nonnegative
    constructor
    · rw [Decimal.numerator, Decimal.numerator, show tenUp 0 = 1 from rfl, Nat.mul_one]
      rfl
    · rw [Decimal.denominator, Decimal.denominator, tenDown, tenDown,
        show (-decimal.exponent).toNat = 0 by omega]
      rfl
  · exact ⟨rfl, rfl⟩

theorem admitted_rounds (negative : Bool) (magnitude : Nat) (decimal : Decimal) (positive : 0 < magnitude)
    (finite : magnitude < infinityBits)
    (admitted : (Span.around (quantaOfBits magnitude)).Admits decimal) :
    decimal.leveled.toFloat negative = ofMagnitude negative magnitude := by
  obtain ⟨scale, significand, scaled⟩ := scaled_exists magnitude
  have some : 0 < decimal.denominator := ten_down_positive decimal.exponent
  have near := span_holds_near magnitude scale significand _ _ scaled admitted
  have low := near_positive scale significand _ _ (scaled_positive _ _ _ scaled positive) near
  have high : decimal.numerator < overflow * decimal.denominator := by
    have grid := scaled_finite _ _ _ scaled finite
    have limit := power_below_overflow (53 + scale) (by omega)
    rw [Nat.pow_add] at limit
    calc decimal.numerator
        < 2 ^ 53 * (decimal.denominator * 2 ^ scale) := near_above _ _ _ _ some scaled.bound near
      _ = 2 ^ 53 * 2 ^ scale * decimal.denominator := by rw [Nat.mul_comm decimal.denominator, Nat.mul_assoc]
      _ ≤ overflow * decimal.denominator := Nat.mul_le_mul_right _ limit
  obtain ⟨sameUp, sameDown⟩ := leveled_ratio decimal
  rw [to_float_of_ratio negative decimal.leveled (by rwa [sameUp, sameDown]) (by rwa [sameUp, sameDown]),
    sameUp, sameDown, ofRatio,
    bits_of_ratio_near magnitude scale significand _ _ scaled some finite near]

theorem shortest_rounds (negative : Bool) (tie : Tie) (magnitude : Nat) (finite : magnitude < infinityBits) :
    (shortest tie (quantaOfBits magnitude)).leveled.toFloat negative = ofMagnitude negative magnitude := by
  by_cases zero : magnitude = 0
  · subst zero
    rfl
  · obtain ⟨scale, significand, scaled⟩ := scaled_exists magnitude
    have positive := Nat.pos_of_ne_zero zero
    have nonzero : quantaOfBits magnitude ≠ 0 := by
      rw [scaled.quanta]
      exact Nat.ne_of_gt (Nat.mul_pos (scaled_positive _ _ _ scaled positive) (Nat.two_pow_pos scale))
    exact admitted_rounds negative magnitude _ positive finite (shortest_admitted tie _ nonzero)

theorem grid_point_low (span : Span) (tie : Tie) (exponent : Int) (point : Nat)
    (found : span.gridPoint tie exponent = some point) :
    point ≤ span.middle * tenDown exponent / (tenUp exponent * (4 * unit)) + 1 := by
  unfold Span.gridPoint at found
  dsimp only at found
  generalize span.middle * tenDown exponent / (tenUp exponent * (4 * unit)) = low at found ⊢
  repeat' split at found
  all_goals cases found
  all_goals omega

theorem grid_point_missed (span : Span) (tie : Tie) (exponent : Int) (step low : Nat)
    (missed : span.gridPoint tie exponent = none) (grid : tenUp exponent * (4 * unit) = step)
    (middle : span.middle * tenDown exponent / step = low) :
    (low ≠ 0 → span.holds (low * step) (tenDown exponent) = false) ∧
      span.holds ((low + 1) * step) (tenDown exponent) = false := by
  unfold Span.gridPoint at missed
  simp only [grid, middle] at missed
  clear grid middle
  cases lowHeld : span.holds (low * step) (tenDown exponent) <;>
    cases highHeld : span.holds ((low + 1) * step) (tenDown exponent) <;>
    simp only [lowHeld, highHeld, Bool.and_true, Bool.and_false, if_true, Bool.false_eq_true, if_false] at missed
  case false.false => exact ⟨fun _ => rfl, rfl⟩
  case true.false =>
    split at missed
    · contradiction
    · next nothing => exact ⟨fun some => absurd (bne_iff_ne.mpr some) nothing, rfl⟩
  case false.true => contradiction
  case true.true =>
    split at missed
    · split at missed
      · contradiction
      · contradiction
      · split at missed <;> contradiction
    · contradiction

theorem ten_step (exponent : Int) :
    tenUp (exponent + 1) * tenDown exponent = 10 * (tenUp exponent * tenDown (exponent + 1)) := by
  simp only [tenUp, tenDown, Nat.pow_eq]
  by_cases nonnegative : 0 ≤ exponent
  · rw [show (exponent + 1).toNat = exponent.toNat + 1 by omega, show (-exponent).toNat = 0 by omega,
      show (-(exponent + 1)).toNat = 0 by omega, Nat.pow_succ]
    omega
  · rw [show (exponent + 1).toNat = 0 by omega, show exponent.toNat = 0 by omega,
      show (-exponent).toNat = (-(exponent + 1)).toNat + 1 by omega, Nat.pow_succ]
    omega

theorem ten_up_positive (exponent : Int) : 0 < tenUp exponent := Nat.pow_pos (by decide)

theorem unit_power : ∃ places, unit = 2 ^ places ∧ places = 1074 := by
  unfold unit
  generalize 1074 = places
  exact ⟨places, Nat.pow_eq, rfl⟩

theorem unit_positive : 0 < unit := by
  obtain ⟨places, power, _⟩ := unit_power
  rw [power]
  exact Nat.two_pow_pos places

section

variable (tie : Tie) (magnitude scale significand : Nat) (scaled : Scaled magnitude scale significand)

include scaled in
theorem missed_coarse (exponent : Int)
    (missed : (Span.around (quantaOfBits magnitude)).gridPoint tie exponent = none) :
    2 ^ scale * tenDown exponent ≤ 2 * (tenUp exponent * unit) := by
  have outside := (grid_point_missed _ tie exponent _ _ missed rfl rfl).2
  rw [span_around magnitude scale significand scaled, Span.holds, Nat.mul_left_comm _ 4 unit] at outside
  dsimp only at outside
  have positive : 0 < 4 * (tenUp exponent * unit) :=
    Nat.mul_pos (by decide) (Nat.mul_pos (ten_up_positive exponent) unit_positive)
  generalize tenUp exponent * unit = grid at outside positive ⊢
  generalize 4 * (significand * 2 ^ scale) = middle at outside
  generalize (if significand = 2 ^ 52 ∧ 0 < scale then 1 else 2) * 2 ^ scale = below at outside
  generalize tenDown exponent = denominator at outside ⊢
  have inside : (middle - below) * denominator ≤ middle * denominator := Nat.mul_le_mul_right _ (Nat.sub_le _ _)
  have low := Nat.div_mul_le_self (middle * denominator) (4 * grid)
  have high := Nat.lt_div_mul_add (a := middle * denominator) positive
  rw [Nat.add_mul, Nat.add_mul, Nat.one_mul, Nat.mul_assoc 2] at outside
  split at outside <;>
    simp only [Bool.and_eq_false_iff, decide_eq_false_iff_not] at outside <;>
    rcases outside with outside | outside <;> omega

theorem finest_found (nonzero : quantaOfBits magnitude ≠ 0) :
    (Span.around (quantaOfBits magnitude)).gridPoint tie (-1074) ≠ none := by
  intro missed
  obtain ⟨fives, power⟩ : ∃ fives, tenDown (-1074) = fives * unit := ⟨_, fives_and_unit.symm⟩
  have positive := ten_down_positive (-1074)
  have grid : tenUp (-1074) * (4 * unit) = 4 * unit := by rw [show tenUp (-1074) = 1 from rfl, Nat.one_mul]
  have point : 4 * quantaOfBits magnitude * tenDown (-1074) = quantaOfBits magnitude * fives * (4 * unit) := by
    rw [power]
    ring
  have low : 4 * quantaOfBits magnitude * tenDown (-1074) / (4 * unit) = quantaOfBits magnitude * fives := by
    rw [point, Nat.mul_div_cancel _ (Nat.mul_pos (by decide) unit_positive)]
  have outside := (grid_point_missed _ tie (-1074) _ _ missed grid low).1
  have middle := around_holds_middle (quantaOfBits magnitude) (tenDown (-1074)) nonzero positive
  rw [← point, Nat.mul_assoc, middle] at outside
  have some : quantaOfBits magnitude * fives ≠ 0 := by
    rintro zero
    rw [zero, Nat.zero_mul] at point
    have whole := Nat.mul_pos (Nat.mul_pos (show 0 < 4 by decide) (Nat.pos_of_ne_zero nonzero)) positive
    omega
  exact absurd (outside some) (by decide)

include scaled in
theorem point_after_missed (exponent : Int) (point : Nat)
    (missed : (Span.around (quantaOfBits magnitude)).gridPoint tie (exponent + 1) = none)
    (found : (Span.around (quantaOfBits magnitude)).gridPoint tie exponent = some point) :
    point ≤ 20 * 2 ^ 53 := by
  have coarse := missed_coarse tie magnitude scale significand scaled (exponent + 1) missed
  have near := grid_point_low _ tie exponent point found
  have step := ten_step exponent
  have unitary := unit_positive
  have up := ten_up_positive exponent
  have down := ten_down_positive (exponent + 1)
  have bound := scaled.bound
  rw [span_around magnitude scale significand scaled] at near
  dsimp only at near
  refine Nat.le_trans near (Nat.succ_le_of_lt ((Nat.div_lt_iff_lt_mul ?_).mpr ?_))
  · exact Nat.mul_pos up (Nat.mul_pos (by decide) unitary)
  · refine Nat.lt_of_mul_lt_mul_right (a := tenDown (exponent + 1)) ?_
    calc 4 * (significand * 2 ^ scale) * tenDown exponent * tenDown (exponent + 1)
        = 4 * significand * tenDown exponent * (2 ^ scale * tenDown (exponent + 1)) := by ring
      _ ≤ 4 * significand * tenDown exponent * (2 * (tenUp (exponent + 1) * unit)) := Nat.mul_le_mul_left _ coarse
      _ = 8 * significand * unit * (tenUp (exponent + 1) * tenDown exponent) := by ring
      _ = significand * (80 * (tenUp exponent * tenDown (exponent + 1)) * unit) := by
        rw [step]
        ring
      _ < 2 ^ 53 * (80 * (tenUp exponent * tenDown (exponent + 1)) * unit) := by
        refine Nat.mul_lt_mul_of_pos_right bound ?_
        exact Nat.mul_pos (Nat.mul_pos (by decide) (Nat.mul_pos up down)) unitary
      _ = 20 * 2 ^ 53 * (tenUp exponent * (4 * unit)) * tenDown (exponent + 1) := by ring

end

theorem two_below_ten (places : Nat) : 2 ^ (13 * (places / 4)) ≤ 10 ^ places := by
  calc 2 ^ (13 * (places / 4))
      = (2 ^ 13) ^ (places / 4) := Nat.pow_mul _ _ _
    _ ≤ (10 ^ 4) ^ (places / 4) := Nat.pow_le_pow_left (by decide) _
    _ = 10 ^ (4 * (places / 4)) := (Nat.pow_mul _ _ _).symm
    _ ≤ 10 ^ places := Nat.pow_le_pow_right (by decide) (by omega)

theorem ten_below_two (places : Nat) : 10 ^ places ≤ 2 ^ (10 * ((places + 2) / 3)) := by
  calc 10 ^ places
      ≤ 10 ^ (3 * ((places + 2) / 3)) := Nat.pow_le_pow_right (by decide) (by omega)
    _ = (10 ^ 3) ^ ((places + 2) / 3) := Nat.pow_mul _ _ _
    _ ≤ (2 ^ 10) ^ ((places + 2) / 3) := Nat.pow_le_pow_left (by decide) _
    _ = 2 ^ (10 * ((places + 2) / 3)) := (Nat.pow_mul _ _ _).symm

theorem start_reaches (quanta : Nat) (bound : quanta.log2 ≤ 2097) :
    quanta * tenDown (startExponent quanta) < 2 ^ 62 * (tenUp (startExponent quanta) * unit) := by
  obtain ⟨places, power, count⟩ := unit_power
  rw [power]
  have below : quanta < 2 ^ (quanta.log2 + 1) := Nat.lt_log2_self
  have start : startExponent quanta = ((quanta.log2 : Int) - 1072) * 30103 / 100000 + 2 := rfl
  generalize startExponent quanta = exponent at start ⊢
  generalize quanta.log2 = log at start below bound
  by_cases nonnegative : 0 ≤ exponent
  · have down : tenDown exponent = 1 := by rw [tenDown, show (-exponent).toNat = 0 by omega]
    have up := two_below_ten exponent.toNat
    calc quanta * tenDown exponent
        = quanta := by rw [down, Nat.mul_one]
      _ < 2 ^ (log + 1) := below
      _ ≤ 2 ^ (62 + (13 * (exponent.toNat / 4) + places)) := Nat.pow_le_pow_right (by decide) (by omega)
      _ = 2 ^ 62 * (2 ^ (13 * (exponent.toNat / 4)) * 2 ^ places) := by rw [Nat.pow_add, Nat.pow_add]
      _ ≤ 2 ^ 62 * (tenUp exponent * 2 ^ places) := Nat.mul_le_mul_left _ (Nat.mul_le_mul_right _ up)
  · have up : tenUp exponent = 1 := by rw [tenUp, show exponent.toNat = 0 by omega]
    have down := ten_below_two (-exponent).toNat
    calc quanta * tenDown exponent
        < 2 ^ (log + 1) * tenDown exponent := Nat.mul_lt_mul_of_pos_right below (ten_down_positive exponent)
      _ ≤ 2 ^ (log + 1) * 2 ^ (10 * (((-exponent).toNat + 2) / 3)) := Nat.mul_le_mul_left _ down
      _ = 2 ^ (log + 1 + 10 * (((-exponent).toNat + 2) / 3)) := (Nat.pow_add _ _ _).symm
      _ ≤ 2 ^ (62 + places) := Nat.pow_le_pow_right (by decide) (by omega)
      _ = 2 ^ 62 * (tenUp exponent * 2 ^ places) := by rw [up, Nat.one_mul, Nat.pow_add]

theorem first_point_behind (fits : Decimal → Prop) (grid : Int → Option Nat) (last : Decimal)
    (behind : ∀ exponent point, grid (exponent + 1) = none → grid exponent = some point → fits ⟨point, exponent⟩)
    (fuel : Nat) (exponent : Int) (start : ∀ point, grid exponent = some point → fits ⟨point, exponent⟩)
    (ends : ∃ steps < fuel, grid (exponent - steps) ≠ none) : fits (firstPoint grid last fuel exponent) := by
  induction fuel generalizing exponent with
  | zero =>
      obtain ⟨steps, few, _⟩ := ends
      omega
  | succ fuel ih =>
      rw [firstPoint]
      split
      · next point found => exact start point found
      · next missed =>
          refine ih (exponent - 1) (fun point found => behind _ point (by rwa [Int.sub_add_cancel]) found) ?_
          obtain ⟨steps, few, found⟩ := ends
          cases steps with
          | zero => exact absurd (by simpa using missed) found
          | succ steps =>
              refine ⟨steps, by omega, ?_⟩
              rwa [show exponent - 1 - steps = exponent - (steps + 1 : Nat) by omega]

theorem shortest_fits (tie : Tie) (magnitude : Nat) (finite : magnitude < infinityBits) :
    (shortest tie (quantaOfBits magnitude)).coefficient < 2 ^ 63 := by
  obtain ⟨scale, significand, scaled⟩ := scaled_exists magnitude
  have grid := scaled_finite _ _ _ scaled finite
  by_cases zero : quantaOfBits magnitude = 0
  · rw [shortest, if_pos zero]
    decide
  · have log : (quantaOfBits magnitude).log2 ≤ 2097 := by
      have below : quantaOfBits magnitude < 2 ^ (53 + scale) := by
        rw [scaled.quanta, Nat.pow_add]
        exact Nat.mul_lt_mul_of_pos_right scaled.bound (Nat.two_pow_pos scale)
      have log := (Nat.log2_lt zero).mpr below
      omega
    rw [shortest, if_neg zero, coarsest_point_first]
    refine first_point_behind (fun decimal => decimal.coefficient < 2 ^ 63) _ _ ?_ _ _ ?_ ?_
    · intro exponent point missed found
      have few := point_after_missed tie magnitude scale significand scaled exponent point missed found
      dsimp only
      omega
    · intro point found
      have near := grid_point_low _ tie _ point found
      have low : (Span.around (quantaOfBits magnitude)).middle * tenDown (startExponent (quantaOfBits magnitude)) /
          (tenUp (startExponent (quantaOfBits magnitude)) * (4 * unit)) < 2 ^ 62 := by
        have reaches := start_reaches (quantaOfBits magnitude) log
        rw [Nat.div_lt_iff_lt_mul
          (Nat.mul_pos (ten_up_positive _) (Nat.mul_pos (by decide) unit_positive))]
        change 4 * quantaOfBits magnitude * _ < _
        rw [Nat.mul_left_comm _ 4 unit, Nat.mul_left_comm (2 ^ 62) 4, Nat.mul_assoc]
        exact Nat.mul_lt_mul_of_pos_left reaches (by decide)
      dsimp only
      omega
    · have start : startExponent (quantaOfBits magnitude) =
          (((quantaOfBits magnitude).log2 : Int) - 1072) * 30103 / 100000 + 2 := rfl
      refine ⟨(startExponent (quantaOfBits magnitude) + 1074).toNat, by omega, ?_⟩
      rw [show startExponent (quantaOfBits magnitude) - (startExponent (quantaOfBits magnitude) + 1074).toNat =
        -1074 by omega]
      exact finest_found tie magnitude zero

end Interlock.Number
