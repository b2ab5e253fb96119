import Interlock.Proofs.Number.Exactness

/-!
Products and quotients of finite numbers. They are computed on a mantissa and an exponent, with two bits for what
is shifted out, and rounded at the end. The result is the number nearest to the exact product or quotient.
-/

set_option autoImplicit false

namespace Interlock.Number

open Float.Model (Format UnpackedFloat totalExponent)
open Float.Model.UnpackedFloat (Accuracy ExtendedMantissa Sign accuracyOfFraction roundWithAccuracy
  shiftToTargetExponent unpackExponent_packComponents unpackMantissa_packComponents
  unpackSign_packComponents)

-- A mantissa and its two bits stand for a quotient: the whole part, whether the rest reaches one half, and
-- whether it is anything but zero and one half.
structure Extends (extended : ExtendedMantissa) (numerator denominator : Nat) : Prop where
  whole : extended.mantissa = numerator / denominator
  half : extended.roundBit = true ↔ denominator ≤ 2 * (numerator % denominator)
  rest : extended.stickyBit = true ↔
    numerator % denominator ≠ 0 ∧ 2 * (numerator % denominator) ≠ denominator

section

variable {numerator denominator : Nat} {extended : ExtendedMantissa}

theorem fraction_extends (numerator : Nat) (positive : 0 < denominator) :
    Extends (.ofMantissaAndAccuracy (numerator / denominator)
      (accuracyOfFraction (numerator % denominator) denominator)) numerator denominator := by
  unfold accuracyOfFraction
  split
  · next zero =>
      exact ⟨rfl, by simp [ExtendedMantissa.ofMantissaAndAccuracy, zero, Nat.ne_of_gt positive], by
        simp [ExtendedMantissa.ofMantissaAndAccuracy, zero]⟩
  · next nonzero =>
      cases side : compare (2 * (numerator % denominator)) denominator with
      | lt =>
          have below := Nat.compare_eq_lt.mp side
          exact ⟨rfl, by simp [ExtendedMantissa.ofMantissaAndAccuracy, below], by
            simp [ExtendedMantissa.ofMantissaAndAccuracy, nonzero, Nat.ne_of_lt below]⟩
      | eq =>
          have level := Nat.compare_eq_eq.mp side
          exact ⟨rfl, by simp [ExtendedMantissa.ofMantissaAndAccuracy, level], by
            simp [ExtendedMantissa.ofMantissaAndAccuracy, level]⟩
      | gt =>
          have above := Nat.compare_eq_gt.mp side
          exact ⟨rfl, by simp [ExtendedMantissa.ofMantissaAndAccuracy, Nat.le_of_lt above], by
            simp [ExtendedMantissa.ofMantissaAndAccuracy, nonzero, Nat.ne_of_gt above]⟩

theorem half_shift_extends (positive : 0 < denominator) (stands : Extends extended numerator denominator) :
    Extends extended.shiftRightOne numerator (denominator * 2) := by
  have below := Nat.mod_lt numerator positive
  have low : numerator % (denominator * 2) =
      numerator % denominator + denominator * (numerator / denominator % 2) := Nat.mod_mul
  have bit := Nat.mod_two_eq_zero_or_one (numerator / denominator)
  refine ⟨?_, ?_, ?_⟩
  · rw [ExtendedMantissa.shiftRightOne, stands.whole, Nat.div_div_eq_div_mul]
  · rw [ExtendedMantissa.shiftRightOne, stands.whole, bne_iff_ne, low]
    rcases bit with even | odd
    · rw [even]
      omega
    · rw [odd]
      omega
  · rw [ExtendedMantissa.shiftRightOne, Bool.or_eq_true, stands.half, stands.rest, low]
    rcases bit with even | odd
    · rw [even]
      omega
    · rw [odd]
      omega

theorem shift_extends (shift : Nat) (positive : 0 < denominator)
    (stands : Extends extended numerator denominator) :
    Extends (extended >>> shift) numerator (denominator * 2 ^ shift) := by
  induction shift with
  | zero => simpa [HShiftRight.hShiftRight, Nat.repeat] using stands
  | succ shift ih =>
      have next := half_shift_extends (Nat.mul_pos positive (Nat.two_pow_pos shift)) ih
      rwa [Nat.mul_assoc, ← Nat.pow_succ] at next

theorem extended_rounds (stands : Extends extended numerator denominator) :
    extended.roundedMantissa = roundHalfEven numerator denominator := by
  obtain ⟨whole, half, rest⟩ := stands
  obtain ⟨mantissa, roundBit, stickyBit⟩ := extended
  dsimp only at whole half rest
  subst whole
  cases roundBit <;> cases stickyBit <;>
    simp only [Bool.false_eq_true, false_iff, true_iff, not_le, not_and_or, not_not] at half rest <;>
    simp only [ExtendedMantissa.roundedMantissa, ExtendedMantissa.accuracy, Accuracy.roundToNearestEven,
      roundHalfEven]
  case false.false => rw [if_pos half]
  case false.true => rw [if_pos half]
  case true.false =>
    have bit := Nat.mod_two_eq_zero_or_one (numerator / denominator)
    rw [if_neg (by omega), if_neg (by omega)]
    split <;> omega
  case true.true => rw [if_neg (by omega), if_pos (by omega)]

end

def signOf (negative : Bool) : Sign := if negative then .negative else .positive

theorem components_value (negative : Bool) (exponent mantissa : Nat) :
    (UnpackedFloat.packComponents Format.binary64 (signOf negative) (.ofNat _ exponent)
      (.ofNat _ mantissa)).toNat =
        signBit negative + (exponent % 2 ^ 11 * 2 ^ 52 + mantissa % 2 ^ 52) := by
  have sign : (signOf negative).toBitVec.toNat * 2 ^ 11 * 2 ^ 52 = signBit negative := by
    cases negative <;> decide
  have field : exponent % 2 ^ 11 < 2 ^ 11 := Nat.mod_lt _ (Nat.two_pow_pos 11)
  have bound : mantissa % 2 ^ 52 < 2 ^ 52 := Nat.mod_lt _ (Nat.two_pow_pos 52)
  rw [UnpackedFloat.packComponents, BitVec.toNat_append, BitVec.toNat_append, BitVec.toNat_ofNat,
    BitVec.toNat_ofNat]
  change ((signOf negative).toBitVec.toNat <<< 11 ||| exponent % 2 ^ 11) <<< 52 ||| mantissa % 2 ^ 52 = _
  rw [← Nat.shiftLeft_add_eq_or_of_lt field, ← Nat.shiftLeft_add_eq_or_of_lt bound, Nat.shiftLeft_eq,
    Nat.shiftLeft_eq, Nat.add_mul, Nat.add_assoc, sign]

theorem infinity_value (negative : Bool) :
    (UnpackedFloat.packedInfinity Format.binary64 (signOf negative)).toNat = signBit negative + infinityBits := by
  cases negative <;> rfl

theorem zero_value (negative : Bool) :
    (UnpackedFloat.packedZero Format.binary64 (signOf negative)).toNat = signBit negative := by
  cases negative <;> rfl

theorem significand_full (significand : Nat) (bound : significand < 2 ^ 53) :
    significand.log2 + 1 = 53 ↔ 2 ^ 52 ≤ significand := by
  by_cases zero : significand = 0
  · subst zero
    decide
  · have log := Nat.log2_eq_iff (n := significand) (k := 52) zero
    omega

section

variable (negative : Bool) (scale significand : Nat) (positive : 0 < significand) (bound : significand < 2 ^ 53)
  (normal : 0 < scale → 2 ^ 52 ≤ significand)

include bound

theorem pack_parts :
    UnpackedFloat.pack Format.binary64 (.finite (signOf negative) significand (scale - 1074) positive) =
      if 2046 ≤ scale then UnpackedFloat.packedInfinity Format.binary64 (signOf negative)
      else
        UnpackedFloat.packComponents Format.binary64 (signOf negative)
          (.ofNat _ (if 2 ^ 52 ≤ significand then scale + 1 else 0)) (.ofNat _ significand) := by
  have full := significand_full significand bound
  have biased : ((scale : Int) - 1074 + Format.binary64.exponentBias +
      Format.binary64.mantissaBitsWithoutImplicit).toNat = scale + 1 := by
    change ((scale : Int) - 1074 + 1023 + 52).toNat = scale + 1
    omega
  have most : 2 ^ Format.binary64.exponentBits ≤ scale + 1 + 1 ↔ 2046 ≤ scale := by
    change 2048 ≤ scale + 1 + 1 ↔ 2046 ≤ scale
    omega
  have width : significand.log2 + 1 = Format.binary64.mantissaBits ↔ 2 ^ 52 ≤ significand := full
  simp only [UnpackedFloat.pack, biased, most, width]
  split
  · rfl
  · split <;> rfl

include normal

theorem pack_value :
    (UnpackedFloat.pack Format.binary64 (.finite (signOf negative) significand (scale - 1074) positive)).toNat =
      signBit negative + min (scale * 2 ^ 52 + significand) infinityBits := by
  have limit : infinityBits = 2047 * 2 ^ 52 := rfl
  rw [pack_parts negative scale significand positive bound]
  split
  · rw [infinity_value]
    omega
  · rw [components_value]
    split <;> omega

theorem unpack_packed (finite : scale ≤ 2045) :
    UnpackedFloat.unpack Format.binary64
        (UnpackedFloat.pack Format.binary64 (.finite (signOf negative) significand (scale - 1074) positive)) =
      .finite (signOf negative) significand (scale - 1074) positive := by
  rw [pack_parts negative scale significand positive bound, if_neg (by omega)]
  by_cases full : 2 ^ 52 ≤ significand
  · have field : (BitVec.ofNat 11 (scale + 1)).toNat = scale + 1 := by
      rw [BitVec.toNat_ofNat]
      omega
    have whole : (1#1 ++ BitVec.ofNat 52 significand).toNat = significand := by
      have rest : significand % 2 ^ 52 < 2 ^ 52 := Nat.mod_lt _ (Nat.two_pow_pos 52)
      rw [BitVec.toNat_append, BitVec.toNat_ofNat, BitVec.toNat_ofNat,
        ← Nat.shiftLeft_add_eq_or_of_lt rest, Nat.shiftLeft_eq]
      omega
    have unfull : BitVec.ofNat 11 (scale + 1) ≠ -1#11 := by
      intro same
      have value := congrArg BitVec.toNat same
      rw [field] at value
      change scale + 1 = 2047 at value
      omega
    have unempty : BitVec.ofNat 11 (scale + 1) ≠ 0#11 := by
      intro same
      have value := congrArg BitVec.toNat same
      rw [field] at value
      contradiction
    rw [if_pos full]
    simp only [UnpackedFloat.unpack, unpackMantissa_packComponents, unpackExponent_packComponents,
      unpackSign_packComponents, Sign.ofBitVec_toBitVec, unfull, unempty, if_false, field, whole,
      UnpackedFloat.finite.injEq, true_and]
    change ((scale + 1 : Nat) : Int) - (1023 + 52) = _
    omega
  · obtain rfl : scale = 0 := by omega
    have rest : (BitVec.ofNat 52 significand).toNat = significand := by
      rw [BitVec.toNat_ofNat]
      omega
    have unempty : BitVec.ofNat 52 significand ≠ 0#52 := by
      intro same
      have value := congrArg BitVec.toNat same
      rw [rest] at value
      change significand = 0 at value
      omega
    rw [if_neg full]
    simp only [UnpackedFloat.unpack, unpackMantissa_packComponents, unpackExponent_packComponents,
      unpackSign_packComponents, Sign.ofBitVec_toBitVec, unempty, rest]
    rw [if_neg (by decide), if_pos trivial, dif_neg not_false]
    rfl

end

theorem unpack_scaled (negative : Bool) (magnitude scale significand : Nat)
    (scaled : Scaled magnitude scale significand) (finite : magnitude < infinityBits) (positive : 0 < significand) :
    (ofMagnitude negative magnitude).toModel.unpack =
      .finite (signOf negative) significand (scale - 1074) positive := by
  have packed : (ofMagnitude negative magnitude).toBits.toBitVec =
      UnpackedFloat.pack Format.binary64 (.finite (signOf negative) significand (scale - 1074) positive) := by
    refine BitVec.eq_of_toNat_eq ?_
    rw [pack_value negative scale significand positive scaled.bound scaled.normal, ← scaled.bits,
      Nat.min_eq_left (Nat.le_of_lt finite)]
    exact of_magnitude_bits negative magnitude (Nat.le_of_lt finite)
  change UnpackedFloat.unpack Format.binary64 (ofMagnitude negative magnitude).toBits.toBitVec = _
  rw [packed]
  exact unpack_packed negative scale significand positive scaled.bound scaled.normal
    (scaled_finite magnitude scale significand scaled finite)

theorem packed_magnitude (negative : Bool) (unpacked : UnpackedFloat) (magnitude : Nat)
    (bound : magnitude ≤ infinityBits)
    (value : (UnpackedFloat.pack Format.binary64 unpacked).toNat = signBit negative + magnitude) :
    Float.ofModel (.pack unpacked) = ofMagnitude negative magnitude := by
  refine Float.toBits_inj.mp (UInt64.toNat_inj.mp ?_)
  rw [of_magnitude_bits negative magnitude bound]
  exact value

theorem unpack_nothing (negative : Bool) :
    (ofMagnitude negative 0).toModel.unpack = .zero (signOf negative) := by
  rw [← packed_magnitude negative (.zero (signOf negative)) 0 (Nat.zero_le _) (zero_value negative)]
  exact UnpackedFloat.unpack_packedZero

section

variable (numerator denominator : Nat)

theorem round_half_even_bounds : numerator / denominator ≤ roundHalfEven numerator denominator ∧
    roundHalfEven numerator denominator ≤ numerator / denominator + 1 := by
  unfold roundHalfEven
  dsimp only
  repeat' split
  all_goals omega

theorem round_half_even_multiple (factor : Nat) (positive : 0 < factor) :
    roundHalfEven (numerator * factor) (denominator * factor) = roundHalfEven numerator denominator := by
  have twice : 2 * (numerator % denominator * factor) = 2 * (numerator % denominator) * factor := by
    rw [Nat.mul_assoc]
  simp only [roundHalfEven, Nat.mul_div_mul_right _ _ positive, Nat.mul_mod_mul_right, twice,
    Nat.mul_lt_mul_right positive]

theorem bits_of_ratio_multiple (factor : Nat) (positive : 0 < factor) :
    bitsOfRatio (numerator * factor) (denominator * factor) = bitsOfRatio numerator denominator := by
  simp only [bitsOfRatio, Nat.mul_div_mul_right _ _ positive, Nat.mul_right_comm denominator factor,
    round_half_even_multiple _ _ factor positive]

end

theorem bits_of_ratio_shifted (numerator denominator up down raise lower : Nat)
    (apart : up + lower = raise + down) :
    bitsOfRatio (numerator * 2 ^ up) (denominator * 2 ^ down) =
      bitsOfRatio (numerator * 2 ^ raise) (denominator * 2 ^ lower) := by
  rw [← bits_of_ratio_multiple (numerator * 2 ^ up) _ (2 ^ lower) (Nat.two_pow_pos lower),
    ← bits_of_ratio_multiple (numerator * 2 ^ raise) _ (2 ^ down) (Nat.two_pow_pos down),
    Nat.mul_assoc, Nat.mul_assoc, Nat.mul_assoc, Nat.mul_assoc, ← Nat.pow_add, ← Nat.pow_add, ← Nat.pow_add,
    ← Nat.pow_add, apart, Nat.add_comm lower]

theorem scale_bounds (quanta : Nat) : quanta < 2 ^ 53 * 2 ^ scaleOf quanta ∧
    (0 < scaleOf quanta → 2 ^ 52 * 2 ^ scaleOf quanta ≤ quanta) := by
  rw [← Nat.pow_add, ← Nat.pow_add, scaleOf]
  constructor
  · calc quanta
        < 2 ^ (quanta.log2 + 1) := Nat.lt_log2_self
      _ ≤ 2 ^ (53 + (quanta.log2 - 52)) := Nat.pow_le_pow_right (by decide) (by omega)
  · intro coarse
    have nonzero : quanta ≠ 0 := by
      rintro rfl
      simp at coarse
    calc 2 ^ (52 + (quanta.log2 - 52))
        = 2 ^ quanta.log2 := by rw [Nat.add_sub_cancel' (by omega)]
      _ ≤ quanta := Nat.log2_self_le nonzero

section

variable (numerator more denominator : Nat) (below : numerator ≤ more)

include below

theorem round_half_even_monotone : roundHalfEven numerator denominator ≤ roundHalfEven more denominator := by
  have wholes := Nat.div_le_div_right (c := denominator) below
  have first := round_half_even_bounds numerator denominator
  have second := round_half_even_bounds more denominator
  by_cases same : numerator / denominator = more / denominator
  · have rests : numerator % denominator ≤ more % denominator := by
      have parts := Nat.div_add_mod numerator denominator
      have others := Nat.div_add_mod more denominator
      rw [same] at parts
      omega
    unfold roundHalfEven
    dsimp only
    rw [same]
    repeat' split
    all_goals omega
  · omega

theorem log_monotone : numerator.log2 ≤ more.log2 := by
  by_cases zero : numerator = 0
  · rw [zero, Nat.log2_zero]
    exact Nat.zero_le _
  · exact (Nat.le_log2 (by omega)).mpr (Nat.le_trans (Nat.log2_self_le zero) below)

theorem bits_of_ratio_monotone :
    bitsOfRatio numerator denominator ≤ bitsOfRatio more denominator := by
  have wholes := Nat.div_le_div_right (c := denominator) below
  have scales : scaleOf (numerator / denominator) ≤ scaleOf (more / denominator) :=
    Nat.sub_le_sub_right (log_monotone _ _ wholes) 52
  have most := (scale_bounds (numerator / denominator)).1
  have least := (scale_bounds (more / denominator)).2
  unfold bitsOfRatio
  dsimp only
  generalize scaleOf (numerator / denominator) = fine at scales most ⊢
  generalize scaleOf (more / denominator) = coarse at scales least ⊢
  refine min_le_min_right _ ?_
  rcases Nat.eq_or_lt_of_le scales with rfl | apart
  · exact Nat.add_le_add_left (round_half_even_monotone _ _ _ below) _
  · have first := (round_half_even_bounds numerator (denominator * 2 ^ fine)).2
    have second := (round_half_even_bounds more (denominator * 2 ^ coarse)).1
    rw [← Nat.div_div_eq_div_mul] at first second
    have high : numerator / denominator / 2 ^ fine < 2 ^ 53 :=
      (Nat.div_lt_iff_lt_mul (Nat.two_pow_pos fine)).mpr most
    have low : 2 ^ 52 ≤ more / denominator / 2 ^ coarse :=
      (Nat.le_div_iff_mul_le (Nat.two_pow_pos coarse)).mpr (least (by omega))
    simp only [Nat.pow_eq]
    omega

theorem quanta_monotone : quantaOfBits numerator ≤ quantaOfBits more := by
  obtain ⟨fine, significand, scaled⟩ := scaled_exists numerator
  obtain ⟨coarse, other, further⟩ := scaled_exists more
  have bits := scaled.bits
  have bound := scaled.bound
  have normal := scaled.normal
  have wider := further.bits
  have limit := further.bound
  rw [scaled.quanta, further.quanta]
  rcases Nat.lt_trichotomy fine coarse with finer | rfl | coarser
  · calc significand * 2 ^ fine
        ≤ 2 ^ 53 * 2 ^ fine := Nat.mul_le_mul_right _ (Nat.le_of_lt bound)
      _ = 2 ^ 52 * 2 ^ (fine + 1) := by ring
      _ ≤ other * 2 ^ coarse :=
        Nat.mul_le_mul (further.normal (by omega)) (Nat.pow_le_pow_right (by decide) finer)
  · exact Nat.mul_le_mul_right _ (by omega)
  · omega

end

theorem target_exponent (mantissa : Nat) (exponent : Int) :
    Format.binary64.targetExponent (totalExponent mantissa exponent) =
      max (mantissa.log2 + exponent - 52) (-1074) := by
  change max ((mantissa.log2 : Int) + 1 + exponent - 53) (3 - 2 ^ 10 - 53) = _
  omega

theorem shift_exact (mantissa : Nat) (exponent : Int) (shift : Nat)
    (reaches : max (mantissa.log2 + exponent - 52) (-1074) - exponent ≤ shift)
    (least : 0 < shift → max (mantissa.log2 + exponent - 52) (-1074) - exponent = shift) :
    (shiftToTargetExponent Format.binary64 mantissa exponent .exact).1.mantissa = mantissa / 2 ^ shift ∧
      (shiftToTargetExponent Format.binary64 mantissa exponent .exact).2 = exponent + shift := by
  have amount : (Format.binary64.targetExponent (totalExponent mantissa exponent) - exponent).toNat = shift := by
    rw [target_exponent]
    omega
  have stands := shift_extends shift Nat.one_pos (fraction_extends mantissa Nat.one_pos)
  rw [Nat.div_one, Nat.mod_one, accuracyOfFraction, if_pos rfl, Nat.one_mul] at stands
  simp only [shiftToTargetExponent, Float.Model.UnpackedFloat.shiftToExponent, amount, stands.whole, and_self]

theorem settled_value (negative : Bool) (scale rounded : Nat) (bound : rounded ≤ 2 ^ 53)
    (normal : 0 < scale → 2 ^ 52 ≤ rounded) (settled : ExtendedMantissa × Int)
    (shifted : shiftToTargetExponent Format.binary64 rounded (scale - 1074) .exact = settled) :
    (UnpackedFloat.pack Format.binary64
      (if empty : settled.1.mantissa = 0 then .zero (signOf negative)
        else .finite (signOf negative) settled.1.mantissa settled.2 (Nat.pos_of_ne_zero empty))).toNat =
      signBit negative + min (scale * 2 ^ 52 + rounded) infinityBits := by
  by_cases full : rounded = 2 ^ 53
  · have log : rounded.log2 = 53 := by rw [full, Nat.log2_two_pow]
    obtain ⟨mantissa, exponent⟩ := shift_exact rounded (scale - 1074) 1 (by omega) (by omega)
    have half : settled.1.mantissa = 2 ^ 52 := by
      rw [← shifted, mantissa, full]
      rfl
    have next : settled.2 = (scale + 1 : Nat) - 1074 := by
      rw [← shifted, exponent]
      omega
    simp only [half, next]
    rw [dif_neg (by decide), pack_value negative (scale + 1) (2 ^ 52) (by decide) (by decide) fun _ => Nat.le_refl _,
      Nat.succ_mul, Nat.add_assoc, ← Nat.two_pow_succ, full]
  · have log : rounded.log2 ≤ 52 := by
      by_cases zero : rounded = 0
      · subst zero
        decide
      · have below := (Nat.log2_lt zero).mpr (show rounded < 2 ^ 53 by omega)
        omega
    obtain ⟨mantissa, exponent⟩ := shift_exact rounded (scale - 1074) 0 (by omega) (by omega)
    rw [shifted, Nat.pow_zero, Nat.div_one] at mantissa
    rw [shifted, Int.natCast_zero, Int.add_zero] at exponent
    simp only [mantissa, exponent]
    split
    · next zero =>
        obtain rfl : scale = 0 := by omega
        rw [zero, Nat.zero_mul, Nat.zero_add, Nat.zero_min, Nat.add_zero]
        exact zero_value negative
    · next some => exact pack_value negative scale rounded (Nat.pos_of_ne_zero some) (by omega) normal

theorem log_shifted_out (quanta shift : Nat) : (quanta / 2 ^ shift).log2 = quanta.log2 - shift := by
  induction shift with
  | zero => simp
  | succ shift ih =>
      rw [Nat.pow_succ, ← Nat.div_div_eq_div_mul, Nat.log2_eq_log_two, Nat.log_div_base, ← Nat.log2_eq_log_two, ih,
        Nat.sub_sub]

theorem log_shifted_in (numerator denominator shift : Nat) (positive : 0 < denominator)
    (some : numerator / denominator ≠ 0) :
    (numerator * 2 ^ shift / denominator).log2 = (numerator / denominator).log2 + shift := by
  have power := Nat.two_pow_pos shift
  have low : numerator / denominator * 2 ^ shift ≤ numerator * 2 ^ shift / denominator := by
    rw [Nat.le_div_iff_mul_le positive, Nat.mul_right_comm]
    exact Nat.mul_le_mul_right _ (Nat.div_mul_le_self numerator denominator)
  have high : numerator * 2 ^ shift / denominator < (numerator / denominator + 1) * 2 ^ shift := by
    rw [Nat.div_lt_iff_lt_mul positive, Nat.mul_right_comm]
    exact Nat.mul_lt_mul_of_pos_right (Nat.lt_mul_of_div_lt (Nat.lt_succ_self _) positive) power
  refine (Nat.log2_eq_iff (Nat.ne_of_gt (Nat.lt_of_lt_of_le ?_ low))).mpr ⟨?_, ?_⟩
  · exact Nat.mul_pos (Nat.pos_of_ne_zero some) power
  · rw [Nat.pow_add]
    exact Nat.le_trans (Nat.mul_le_mul_right _ (Nat.log2_self_le some)) low
  · rw [Nat.add_right_comm, Nat.pow_add]
    exact Nat.lt_of_lt_of_le high (Nat.mul_le_mul_right _ Nat.lt_log2_self)

section

variable (negative : Bool) {numerator denominator : Nat} (positive : 0 < denominator) (exponent : Int)
  (ready : exponent ≤ -1074 ∨ 2 ^ 52 ≤ numerator / denominator)

include positive ready

theorem ratio_scale :
    max ((numerator / denominator).log2 + exponent - 52) (-1074) =
      (scaleOf (numerator * 2 ^ (exponent + 1074).toNat / (denominator * 2 ^ (-(exponent + 1074)).toNat)) : Int)
        - 1074 := by
  by_cases fine : exponent ≤ -1074
  · rw [show (exponent + 1074).toNat = 0 by omega, Nat.pow_zero, Nat.mul_one, ← Nat.div_div_eq_div_mul, scaleOf,
      log_shifted_out]
    omega
  · have full : 2 ^ 52 ≤ numerator / denominator := ready.resolve_left fine
    have log : 52 ≤ (numerator / denominator).log2 := (Nat.le_log2 (by omega)).mpr full
    rw [show (-(exponent + 1074)).toNat = 0 by omega, Nat.pow_zero, Nat.mul_one, scaleOf,
      log_shifted_in _ _ _ positive (by omega)]
    omega

theorem round_value :
    (UnpackedFloat.pack Format.binary64 (roundWithAccuracy Format.binary64 (signOf negative)
      (numerator / denominator) exponent (accuracyOfFraction (numerator % denominator) denominator))).toNat =
      signBit negative + bitsOfRatio (numerator * 2 ^ (exponent + 1074).toNat)
        (denominator * 2 ^ (-(exponent + 1074)).toNat) := by
  have target := ratio_scale positive exponent ready
  have reached : exponent ≤ max ((numerator / denominator).log2 + exponent - 52) (-1074) := by
    rcases ready with fine | full
    · omega
    · have log : 52 ≤ (numerator / denominator).log2 := (Nat.le_log2 (by omega)).mpr full
      omega
  simp only [bitsOfRatio, Nat.pow_eq]
  generalize quotient : numerator * 2 ^ (exponent + 1074).toNat /
    (denominator * 2 ^ (-(exponent + 1074)).toNat) = quanta at target ⊢
  obtain ⟨above, below⟩ := scale_bounds quanta
  generalize scaleOf quanta = scale at target above below ⊢
  obtain ⟨shift, amount⟩ : ∃ shift : Nat, scale - 1074 - exponent = shift :=
    ⟨_, (Int.toNat_of_nonneg (by omega)).symm⟩
  have stands := shift_extends shift positive (fraction_extends numerator positive)
  generalize accuracyOfFraction (numerator % denominator) denominator = accuracy at stands ⊢
  have first : shiftToTargetExponent Format.binary64 (numerator / denominator) exponent accuracy =
      (ExtendedMantissa.ofMantissaAndAccuracy (numerator / denominator) accuracy >>> shift, (scale : Int) - 1074) := by
    have amount : (max ((numerator / denominator).log2 + exponent - 52) (-1074) - exponent).toNat = shift := by
      omega
    simp only [shiftToTargetExponent, target_exponent, Float.Model.UnpackedFloat.shiftToExponent, amount,
      Prod.mk.injEq, true_and]
    omega
  have rounded := extended_rounds stands
  have same : roundHalfEven numerator (denominator * 2 ^ shift) =
      roundHalfEven (numerator * 2 ^ (exponent + 1074).toNat)
        (denominator * 2 ^ (-(exponent + 1074)).toNat * 2 ^ scale) := by
    rw [← round_half_even_multiple numerator _ _ (Nat.two_pow_pos (exponent + 1074).toNat), Nat.mul_assoc,
      Nat.mul_assoc, ← Nat.pow_add, ← Nat.pow_add]
    congr 3
    omega
  have whole : numerator * 2 ^ (exponent + 1074).toNat / (denominator * 2 ^ (-(exponent + 1074)).toNat * 2 ^ scale) =
      quanta / 2 ^ scale := by
    rw [← Nat.div_div_eq_div_mul, quotient]
  obtain ⟨least, most⟩ := round_half_even_bounds (numerator * 2 ^ (exponent + 1074).toNat)
    (denominator * 2 ^ (-(exponent + 1074)).toNat * 2 ^ scale)
  rw [whole] at least most
  rw [same] at rounded
  rw [← rounded] at least most ⊢
  have bound : quanta / 2 ^ scale < 2 ^ 53 := (Nat.div_lt_iff_lt_mul (Nat.two_pow_pos scale)).mpr above
  have normal : 0 < scale → 2 ^ 52 ≤ quanta / 2 ^ scale := fun coarse =>
    (Nat.le_div_iff_mul_le (Nat.two_pow_pos scale)).mpr (below coarse)
  have settled := settled_value negative scale _ (Nat.le_trans most bound)
    (fun coarse => Nat.le_trans (normal coarse) least) _ rfl
  rw [roundWithAccuracy, first]
  exact settled

end

theorem of_ratio_value (negative : Bool) (numerator denominator : Nat) (unpacked : UnpackedFloat)
    (value : (UnpackedFloat.pack Format.binary64 unpacked).toNat =
      signBit negative + bitsOfRatio numerator denominator) :
    Float.ofModel (.pack unpacked) = ofRatio negative numerator denominator :=
  packed_magnitude negative unpacked _ (Nat.min_le_right _ _) value

theorem bits_of_nothing (denominator : Nat) : bitsOfRatio 0 denominator = 0 := by
  simp [bitsOfRatio, roundHalfEven, scaleOf]

theorem unpack_finite (negative : Bool) (magnitude : Nat) (finite : magnitude < infinityBits) :
    magnitude = 0 ∨ ∃ (scale significand : Nat) (positive : 0 < significand),
      Scaled magnitude scale significand ∧
        (ofMagnitude negative magnitude).toModel.unpack =
          .finite (signOf negative) significand (scale - 1074) positive := by
  obtain ⟨scale, significand, scaled⟩ := scaled_exists magnitude
  by_cases zero : magnitude = 0
  · exact .inl zero
  · have positive := scaled_positive _ _ _ scaled (Nat.pos_of_ne_zero zero)
    exact .inr ⟨scale, significand, positive, scaled, unpack_scaled negative _ _ _ scaled finite positive⟩

theorem product_packed (x y : Float) :
    x * y = .ofModel (.pack (UnpackedFloat.mul Format.binary64 x.toModel.unpack y.toModel.unpack)) := rfl

theorem quotient_packed (x y : Float) :
    x / y = .ofModel (.pack (UnpackedFloat.div Format.binary64 x.toModel.unpack y.toModel.unpack)) := rfl

theorem negation_packed (x : Float) : -x = .ofModel (.pack x.toModel.unpack.neg) := rfl

theorem signs_multiply (s t : Bool) :
    signOf s * signOf t = signOf (s ^^ t) ∧ signOf s / signOf t = signOf (s ^^ t) := by
  cases s <;> cases t <;> exact ⟨rfl, rfl⟩

section

variable (s t : Bool) (left right : Nat) (leftFinite : left < infinityBits) (rightFinite : right < infinityBits)

include leftFinite rightFinite

theorem product_nearest : ofMagnitude s left * ofMagnitude t right =
    ofRatio (s ^^ t) (quantaOfBits left * quantaOfBits right) unit := by
  obtain ⟨places, power, count⟩ := unit_power
  have sign := (signs_multiply s t).1
  rw [product_packed]
  refine of_ratio_value _ _ _ _ ?_
  rcases unpack_finite s left leftFinite with
    rfl | ⟨leftScale, leftPart, leftPositive, leftScaled, leftUnpacked⟩
  · rw [unpack_nothing, show quantaOfBits 0 = 0 from rfl, Nat.zero_mul, bits_of_nothing, Nat.add_zero,
      ← zero_value, ← sign]
    rcases unpack_finite t right rightFinite with rfl | ⟨_, _, _, _, rightUnpacked⟩
    · rw [unpack_nothing, UnpackedFloat.mul, UnpackedFloat.pack]
    · rw [rightUnpacked, UnpackedFloat.mul, UnpackedFloat.pack]
  · rcases unpack_finite t right rightFinite with
      rfl | ⟨rightScale, rightPart, rightPositive, rightScaled, rightUnpacked⟩
    · rw [unpack_nothing, leftUnpacked, show quantaOfBits 0 = 0 from rfl, Nat.mul_zero, bits_of_nothing,
        Nat.add_zero, ← zero_value, ← sign, UnpackedFloat.mul, UnpackedFloat.pack]
    · have ready : (leftScale - 1074 + (rightScale - 1074) : Int) ≤ -1074 ∨
          2 ^ 52 ≤ leftPart * rightPart / 1 := by
        rw [Nat.div_one]
        by_cases leftCoarse : 0 < leftScale
        · exact .inr (Nat.le_trans (leftScaled.normal leftCoarse) (Nat.le_mul_of_pos_right _ rightPositive))
        · by_cases rightCoarse : 0 < rightScale
          · exact .inr (Nat.le_trans (rightScaled.normal rightCoarse) (Nat.le_mul_of_pos_left _ leftPositive))
          · exact .inl (by omega)
      have rounded := round_value (s ^^ t) Nat.one_pos _ ready
      rw [Nat.div_one, Nat.mod_one, accuracyOfFraction, if_pos rfl, ← sign] at rounded
      rw [leftUnpacked, rightUnpacked, leftScaled.quanta, rightScaled.quanta, power]
      refine Eq.trans rounded (congrArg (signBit (s ^^ t) + ·) ?_)
      rw [Nat.mul_mul_mul_comm, ← Nat.pow_add, ← Nat.one_mul (2 ^ places)]
      exact bits_of_ratio_shifted _ _ _ _ _ _ (by omega)

theorem quotient_nearest (positive : 0 < right) : ofMagnitude s left / ofMagnitude t right =
    ofRatio (s ^^ t) (quantaOfBits left * unit) (quantaOfBits right) := by
  obtain ⟨places, power, count⟩ := unit_power
  have sign := (signs_multiply s t).2
  rw [quotient_packed]
  refine of_ratio_value _ _ _ _ ?_
  rcases unpack_finite t right rightFinite with
    rfl | ⟨rightScale, rightPart, rightPositive, rightScaled, rightUnpacked⟩
  · exact absurd positive (Nat.lt_irrefl 0)
  · rcases unpack_finite s left leftFinite with
      rfl | ⟨leftScale, leftPart, leftPositive, leftScaled, leftUnpacked⟩
    · rw [unpack_nothing, rightUnpacked, show quantaOfBits 0 = 0 from rfl, Nat.zero_mul, bits_of_nothing,
        Nat.add_zero, ← zero_value, ← sign, UnpackedFloat.div, UnpackedFloat.pack]
    · rw [leftUnpacked, rightUnpacked, leftScaled.quanta, rightScaled.quanta, power, UnpackedFloat.div,
        UnpackedFloat.divCore]
      generalize aimed : min ((leftScale : Int) - 1074 - (rightScale - 1074))
        (Format.binary64.targetExponent (totalExponent leftPart (leftScale - 1074) -
          totalExponent rightPart (rightScale - 1074))) = exponent
      have target : exponent ≤ leftScale - rightScale ∧
          exponent ≤ max (leftPart.log2 + leftScale - (rightPart.log2 + rightScale) - 53 : Int) (-1074) := by
        change min ((leftScale : Int) - 1074 - (rightScale - 1074))
          (max (leftPart.log2 + 1 + (leftScale - 1074) - (rightPart.log2 + 1 + (rightScale - 1074)) - 53)
            (3 - 2 ^ 10 - 53)) = exponent at aimed
        omega
      obtain ⟨shift, amount⟩ : ∃ shift : Nat, (leftScale - 1074 - (rightScale - 1074) - exponent : Int) = shift :=
        ⟨_, (Int.toNat_of_nonneg (by omega)).symm⟩
      have ready : exponent ≤ -1074 ∨ 2 ^ 52 ≤ leftPart * 2 ^ shift / rightPart := by
        refine or_iff_not_imp_left.mpr fun coarse => (Nat.le_div_iff_mul_le rightPositive).mpr ?_
        calc 2 ^ 52 * rightPart
            ≤ 2 ^ 52 * 2 ^ (rightPart.log2 + 1) := Nat.mul_le_mul_left _ (Nat.le_of_lt Nat.lt_log2_self)
          _ = 2 ^ (52 + (rightPart.log2 + 1)) := (Nat.pow_add _ _ _).symm
          _ ≤ 2 ^ (leftPart.log2 + shift) := Nat.pow_le_pow_right (by decide) (by omega)
          _ = 2 ^ leftPart.log2 * 2 ^ shift := Nat.pow_add _ _ _
          _ ≤ leftPart * 2 ^ shift := Nat.mul_le_mul_right _ (Nat.log2_self_le (Nat.ne_of_gt leftPositive))
      rw [amount, Int.toNat_natCast, Nat.shiftLeft_eq, sign]
      refine Eq.trans (round_value (s ^^ t) rightPositive exponent ready) (congrArg (signBit (s ^^ t) + ·) ?_)
      rw [Nat.mul_assoc, Nat.mul_assoc, ← Nat.pow_add, ← Nat.pow_add]
      exact bits_of_ratio_shifted _ _ _ _ _ _ (by omega)

end

theorem negated (negative : Bool) (magnitude : Nat) (finite : magnitude < infinityBits) :
    -ofMagnitude negative magnitude = ofMagnitude (!negative) magnitude := by
  have sign : -signOf negative = signOf !negative := by cases negative <;> rfl
  rw [negation_packed]
  refine packed_magnitude _ _ _ (Nat.le_of_lt finite) ?_
  rcases unpack_finite negative magnitude finite with rfl | ⟨scale, significand, positive, scaled, unpacked⟩
  · rw [unpack_nothing, UnpackedFloat.neg, sign, Nat.add_zero]
    exact zero_value _
  · rw [unpacked, UnpackedFloat.neg, sign, pack_value _ _ _ positive scaled.bound scaled.normal, ← scaled.bits,
      Nat.min_eq_left (Nat.le_of_lt finite)]

end Interlock.Number
