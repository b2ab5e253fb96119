import Mathlib.Algebra.Group.Nat.Defs
import Interlock.Number.Decimal

/-!
Rounding to nearest and the span around a number. Every quotient of quanta in the span rounds to the
magnitude in its middle.
-/

set_option autoImplicit false

namespace Interlock.Number

-- A magnitude as the count of its significand on the grid of its scale. Below the full significand
-- there is only the finest grid.
structure Scaled (magnitude scale significand : Nat) : Prop where
  quanta : quantaOfBits magnitude = significand * 2 ^ scale
  grid : scaleOf (quantaOfBits magnitude) = scale
  bits : magnitude = scale * 2 ^ 52 + significand
  bound : significand < 2 ^ 53
  normal : 0 < scale → 2 ^ 52 ≤ significand

theorem scale_of_small (quanta : Nat) (small : quanta < 2 ^ 53) : scaleOf quanta = 0 := by
  rw [scaleOf]
  by_cases zero : quanta = 0
  · subst zero
    rfl
  · have log := (Nat.log2_lt zero).mpr small
    omega

theorem scale_of_normal (quanta scale : Nat) (least : 2 ^ 52 * 2 ^ scale ≤ quanta)
    (most : quanta < 2 ^ 53 * 2 ^ scale) : scaleOf quanta = scale := by
  rw [← Nat.pow_add] at least most
  have nonzero : quanta ≠ 0 := by
    have positive := Nat.two_pow_pos (52 + scale)
    omega
  have log : quanta.log2 = 52 + scale := (Nat.log2_eq_iff nonzero).mpr ⟨least, by
    rwa [show 52 + scale + 1 = 53 + scale by omega]⟩
  rw [scaleOf, log, Nat.add_sub_cancel_left]

theorem scaled_exists (magnitude : Nat) : ∃ scale significand, Scaled magnitude scale significand := by
  have fraction : magnitude % 2 ^ 52 < 2 ^ 52 := Nat.mod_lt _ (Nat.two_pow_pos 52)
  have parts := Nat.div_add_mod magnitude (2 ^ 52)
  by_cases subnormal : magnitude / 2 ^ 52 = 0
  · have quanta : quantaOfBits magnitude = magnitude % 2 ^ 52 := by
      rw [quantaOfBits]
      exact if_pos subnormal
    refine ⟨0, magnitude % 2 ^ 52, by rw [quanta]; simp, ?_, ?_, by omega, by omega⟩
    · rw [quanta]
      exact scale_of_small _ (by omega)
    · rw [subnormal] at parts
      omega
  · obtain ⟨scale, field⟩ := Nat.exists_eq_succ_of_ne_zero subnormal
    have quanta : quantaOfBits magnitude = (2 ^ 52 + magnitude % 2 ^ 52) * 2 ^ scale := by
      rw [quantaOfBits]
      refine (if_neg subnormal).trans ?_
      show (2 ^ 52 + magnitude % 2 ^ 52) * 2 ^ (magnitude / 2 ^ 52 - 1) = _
      rw [field, Nat.succ_sub_one]
    refine ⟨scale, 2 ^ 52 + magnitude % 2 ^ 52, quanta, ?_, ?_, by omega, by omega⟩
    · rw [quanta]
      exact scale_of_normal _ scale (Nat.mul_le_mul_right _ (by omega))
        (Nat.mul_lt_mul_of_pos_right (by omega) (Nat.two_pow_pos scale))
    · rw [field] at parts
      omega

-- A half is rounded to the even neighbour, so at the bounds the result has to be even.
theorem round_half_even_nearest (numerator denominator whole : Nat) (positive : 0 < denominator)
    (low : 2 * (whole * denominator) ≤ 2 * numerator + denominator)
    (high : 2 * numerator ≤ 2 * (whole * denominator) + denominator)
    (tie : whole % 2 = 0 ∨ 2 * (whole * denominator) < 2 * numerator + denominator ∧
      2 * numerator < 2 * (whole * denominator) + denominator) :
    roundHalfEven numerator denominator = whole := by
  have parts := Nat.div_add_mod' numerator denominator
  have remainder := Nat.mod_lt numerator positive
  have least : numerator / denominator ≤ whole := by
    refine Nat.le_of_not_lt fun above => ?_
    have product := Nat.mul_le_mul_right denominator (show whole + 1 ≤ numerator / denominator by omega)
    rw [Nat.add_mul] at product
    omega
  have most : whole ≤ numerator / denominator + 1 := by
    refine Nat.le_of_not_lt fun below => ?_
    have product := Nat.mul_le_mul_right denominator (show numerator / denominator + 2 ≤ whole by omega)
    rw [Nat.add_mul] at product
    omega
  rw [roundHalfEven]
  rcases (show whole = numerator / denominator ∨ whole = numerator / denominator + 1 by omega) with
    same | next
  · subst same
    split
    · rfl
    · split
      · omega
      · rw [if_pos (by omega)]
  · subst next
    rw [Nat.add_mul] at low high tie
    split
    · omega
    · split
      · rfl
      · rw [if_neg (by omega)]

-- The span of a number reaches half a grid step up and down, or a quarter step down where the grid
-- below is finer.
structure Near (scale significand numerator denominator : Nat) : Prop where
  low : 2 * (significand * (denominator * 2 ^ scale)) ≤ 2 * numerator + denominator * 2 ^ scale
  high : 2 * numerator ≤ 2 * (significand * (denominator * 2 ^ scale)) + denominator * 2 ^ scale
  tie : significand % 2 = 0 ∨
    2 * (significand * (denominator * 2 ^ scale)) < 2 * numerator + denominator * 2 ^ scale ∧
      2 * numerator < 2 * (significand * (denominator * 2 ^ scale)) + denominator * 2 ^ scale
  lowest : significand = 2 ^ 52 → 0 < scale →
    4 * (significand * (denominator * 2 ^ scale)) ≤ 4 * numerator + denominator * 2 ^ scale

theorem span_around (magnitude scale significand : Nat) (scaled : Scaled magnitude scale significand) :
    Span.around (quantaOfBits magnitude) =
      { lower := 4 * (significand * 2 ^ scale) -
          (if significand = 2 ^ 52 ∧ 0 < scale then 1 else 2) * 2 ^ scale
        middle := 4 * (significand * 2 ^ scale)
        upper := 4 * (significand * 2 ^ scale) + 2 * 2 ^ scale
        closed := significand % 2 == 0 } := by
  have whole : quantaOfBits magnitude / 2 ^ scale = significand := by
    rw [scaled.quanta, Nat.mul_div_cancel _ (Nat.two_pow_pos scale)]
  have step : (if significand = 2 ^ 52 ∧ 0 < scale then 2 ^ scale else 2 * 2 ^ scale) =
      (if significand = 2 ^ 52 ∧ 0 < scale then 1 else 2) * 2 ^ scale := by
    split <;> simp
  simp only [Span.around, scaled.grid, Nat.pow_eq, whole, step]
  rw [scaled.quanta]

theorem span_holds_near (magnitude scale significand numerator denominator : Nat)
    (scaled : Scaled magnitude scale significand)
    (held : (Span.around (quantaOfBits magnitude)).holds (4 * numerator) denominator = true) :
    Near scale significand numerator denominator := by
  rw [span_around magnitude scale significand scaled, Span.holds] at held
  have step : 2 ^ scale * denominator = denominator * 2 ^ scale := Nat.mul_comm _ _
  simp only [Nat.sub_mul, Nat.add_mul, Nat.mul_assoc, step] at held
  by_cases lowest : significand = 2 ^ 52 ∧ 0 < scale
  · rw [if_pos lowest] at held
    split at held <;> simp only [Bool.and_eq_true, decide_eq_true_eq] at held
    · exact ⟨by omega, by omega, .inl (eq_of_beq (by assumption)), fun _ _ => by omega⟩
    · exact ⟨by omega, by omega, .inr ⟨by omega, by omega⟩, fun _ _ => by omega⟩
  · rw [if_neg lowest] at held
    split at held <;> simp only [Bool.and_eq_true, decide_eq_true_eq] at held
    · exact ⟨by omega, by omega, .inl (eq_of_beq (by assumption)), fun least coarse => absurd ⟨least, coarse⟩ lowest⟩
    · exact ⟨by omega, by omega, .inr ⟨by omega, by omega⟩,
        fun least coarse => absurd ⟨least, coarse⟩ lowest⟩

theorem scale_of_quotient (numerator denominator scale : Nat) (positive : 0 < denominator)
    (least : 0 < scale → 2 ^ 52 * (denominator * 2 ^ scale) ≤ numerator)
    (most : numerator < 2 ^ 53 * (denominator * 2 ^ scale)) :
    scaleOf (numerator / denominator) = scale := by
  have below : numerator / denominator < 2 ^ 53 * 2 ^ scale := by
    rwa [Nat.div_lt_iff_lt_mul positive, Nat.mul_assoc, Nat.mul_comm (2 ^ scale)]
  by_cases coarse : 0 < scale
  · refine scale_of_normal _ scale ?_ below
    rw [Nat.le_div_iff_mul_le positive, Nat.mul_assoc, Nat.mul_comm (2 ^ scale)]
    exact least coarse
  · obtain rfl : scale = 0 := by omega
    exact scale_of_small _ (by simpa using below)

theorem bits_of_rounded (magnitude scale whole numerator denominator : Nat)
    (bits : magnitude = scale * 2 ^ 52 + whole) (finite : magnitude < infinityBits)
    (grid : scaleOf (numerator / denominator) = scale)
    (rounded : roundHalfEven numerator (denominator * 2 ^ scale) = whole) :
    bitsOfRatio numerator denominator = magnitude := by
  simp only [bitsOfRatio, grid, Nat.pow_eq, rounded]
  rw [← bits, Nat.min_eq_left (Nat.le_of_lt finite)]

-- Only the least significand of a scale has quotients in its span that fall on the next finer grid.
theorem near_below_lowest (scale significand numerator denominator : Nat)
    (near : Near scale significand numerator denominator) (normal : 2 ^ 52 ≤ significand)
    (under : numerator < 2 ^ 52 * (denominator * 2 ^ scale)) : significand = 2 ^ 52 := by
  refine Nat.le_antisymm (Nat.le_of_not_lt fun more => ?_) normal
  have product := Nat.mul_le_mul_right (denominator * 2 ^ scale) (show 2 ^ 52 + 1 ≤ significand by omega)
  have low := near.low
  rw [Nat.add_mul] at product
  omega

theorem near_above (scale significand numerator denominator : Nat) (positive : 0 < denominator)
    (bound : significand < 2 ^ 53) (near : Near scale significand numerator denominator) :
    numerator < 2 ^ 53 * (denominator * 2 ^ scale) := by
  have most := Nat.mul_le_mul_right (denominator * 2 ^ scale) (show significand + 1 ≤ 2 ^ 53 by omega)
  have step := Nat.mul_pos positive (Nat.two_pow_pos scale)
  have high := near.high
  rw [Nat.add_mul] at most
  omega

theorem bits_of_ratio_near (magnitude scale significand numerator denominator : Nat)
    (scaled : Scaled magnitude scale significand) (positive : 0 < denominator)
    (finite : magnitude < infinityBits) (near : Near scale significand numerator denominator) :
    bitsOfRatio numerator denominator = magnitude := by
  have above := near_above scale significand _ _ positive scaled.bound near
  by_cases reached : 0 < scale → 2 ^ 52 * (denominator * 2 ^ scale) ≤ numerator
  · exact bits_of_rounded magnitude scale significand _ _ scaled.bits finite
      (scale_of_quotient _ _ scale positive reached above)
      (round_half_even_nearest _ _ _ (Nat.mul_pos positive (Nat.two_pow_pos scale)) near.low near.high
        near.tie)
  · obtain ⟨coarse, under⟩ := Classical.not_imp.mp reached
    have lowest := near_below_lowest scale significand _ _ near (scaled.normal coarse) (Nat.lt_of_not_le under)
    have least := near.lowest lowest coarse
    obtain ⟨finer, rfl⟩ := Nat.exists_eq_add_one_of_ne_zero (Nat.ne_of_gt coarse)
    have doubled : denominator * 2 ^ (finer + 1) = 2 * (denominator * 2 ^ finer) := by
      rw [Nat.pow_succ, ← Nat.mul_assoc, Nat.mul_comm]
    have step := Nat.mul_pos positive (Nat.two_pow_pos finer)
    rw [doubled] at under
    rw [doubled, lowest] at least
    refine bits_of_rounded magnitude finer (2 ^ 53) _ _ ?_ finite
      (scale_of_quotient _ _ finer positive (fun _ => by omega) (by omega))
      (round_half_even_nearest _ _ _ step (by omega) (by omega) (.inl rfl))
    rw [scaled.bits, lowest]
    omega

theorem near_positive (scale significand numerator denominator : Nat) (some : 0 < significand)
    (near : Near scale significand numerator denominator) : denominator ≤ 2 * numerator := by
  have low := near.low
  have least := Nat.mul_le_mul_right (denominator * 2 ^ scale) some
  have step := Nat.mul_le_mul_left denominator (Nat.two_pow_pos scale)
  omega

theorem scaled_positive (magnitude scale significand : Nat) (scaled : Scaled magnitude scale significand)
    (positive : 0 < magnitude) : 0 < significand := by
  have bits := scaled.bits
  have normal := scaled.normal
  omega

theorem scaled_finite (magnitude scale significand : Nat) (scaled : Scaled magnitude scale significand)
    (finite : magnitude < infinityBits) : scale ≤ 2045 := by
  have limit : infinityBits = 2047 * 2 ^ 52 := rfl
  have bits := scaled.bits
  have normal := scaled.normal
  omega

end Interlock.Number
