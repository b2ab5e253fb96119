import Mathlib
import Interlock.Proofs.Number.Shortest

/-!
Numbers and their bits. A number is its sign and its magnitude bits, and what is read from decimal text
is never undefined.
-/

set_option autoImplicit false

namespace Interlock.Number

open Float.Model (Format)
open Float.Model.UnpackedFloat (isNaNBits unpackExponent_def unpackMantissa_def)

theorem magnitude_below (negative : Bool) (magnitude : Nat) (bound : magnitude ≤ infinityBits) :
    signBit negative + magnitude < 2 ^ 64 := by
  have limit : infinityBits = 2047 * 2 ^ 52 := rfl
  cases negative
  · show 0 + magnitude < 2 ^ 64
    omega
  · show 2 ^ 63 + magnitude < 2 ^ 64
    omega

theorem magnitude_not_nan (negative : Bool) (magnitude : Nat) (bound : magnitude ≤ infinityBits) :
    @isNaNBits Format.binary64 (UInt64.ofNat (signBit negative + magnitude)).toBitVec = false := by
  have value := UInt64.toNat_ofNat_of_lt' (magnitude_below negative magnitude bound)
  have limit : infinityBits = 2047 * 2 ^ 52 := rfl
  have sign : signBit negative = 0 ∨ signBit negative = 2 ^ 63 := by cases negative <;> simp [signBit]
  generalize UInt64.ofNat (signBit negative + magnitude) = bits at value ⊢
  rw [isNaNBits, decide_eq_false_iff_not]
  rintro ⟨full, fraction⟩
  refine fraction (BitVec.eq_of_toNat_eq ?_)
  have field := congrArg BitVec.toNat full
  rw [unpackExponent_def, BitVec.extractLsb'_toNat] at field
  rw [unpackMantissa_def, BitVec.extractLsb'_toNat]
  change bits.toNat >>> 52 % 2 ^ 11 = 2047 at field
  change bits.toNat >>> 0 % 2 ^ 52 = 0
  rw [Nat.shiftRight_eq_div_pow, value] at field
  rw [Nat.shiftRight_zero, value]
  omega

theorem of_bits_ordinary (bits : UInt64)
    (ordinary : @isNaNBits Format.binary64 bits.toBitVec = false) :
    (Float.ofBits bits).toBits = bits := by
  refine UInt64.toBitVec_inj.mp ?_
  have packed := @Float.Model.UnpackedFloat.pack_unpack Format.binary64 bits.toBitVec (by decide)
  rw [ordinary] at packed
  exact packed

theorem of_magnitude_bits (negative : Bool) (magnitude : Nat) (bound : magnitude ≤ infinityBits) :
    (ofMagnitude negative magnitude).toBits.toNat = signBit negative + magnitude := by
  rw [ofMagnitude, of_bits_ordinary _ (magnitude_not_nan negative magnitude bound),
    UInt64.toNat_ofNat_of_lt' (magnitude_below negative magnitude bound)]

theorem exact_of_magnitude (negative : Bool) (magnitude : Nat) (bound : magnitude ≤ infinityBits) :
    exact (ofMagnitude negative magnitude) =
      if magnitude < infinityBits then .finite negative (quantaOfBits magnitude) else .infinite negative := by
  have limit : infinityBits = 2047 * 2 ^ 52 := rfl
  have sign : decide (Nat.pow 2 63 ≤ signBit negative + magnitude) = negative ∧
      (signBit negative + magnitude) % Nat.pow 2 63 = magnitude := by
    simp only [Nat.pow_eq]
    cases negative
    · rw [show signBit false = 0 from rfl, decide_eq_false_iff_not]
      omega
    · rw [show signBit true = 2 ^ 63 from rfl, decide_eq_true_iff]
      omega
  rw [exact, of_magnitude_bits negative magnitude bound, sign.1, sign.2]
  split
  · rfl
  · rw [if_pos (by omega)]

theorem sign_and_magnitude (bits : Nat) (bound : bits < 2 ^ 64) :
    signBit (decide (Nat.pow 2 63 ≤ bits)) + bits % Nat.pow 2 63 = bits := by
  simp only [Nat.pow_eq, signBit]
  split
  · rename_i negative
    rw [decide_eq_true_iff] at negative
    omega
  · rename_i positive
    rw [decide_eq_true_iff] at positive
    omega

theorem magnitude_of_exact (x : Float) (negative : Bool) (quanta : Nat)
    (classified : exact x = .finite negative quanta) :
    ∃ magnitude < infinityBits, quantaOfBits magnitude = quanta ∧ ofMagnitude negative magnitude = x := by
  rw [exact] at classified
  split at classified
  · rename_i finite
    obtain ⟨rfl, rfl⟩ := Exact.finite.inj classified
    refine ⟨_, finite, rfl, ?_⟩
    rw [ofMagnitude, sign_and_magnitude x.toBits.toNat x.toBits.toNat_lt, UInt64.ofNat_toNat,
      Float.ofBits_toBits]
  · split at classified <;> contradiction

theorem to_float_magnitude (negative : Bool) (decimal : Decimal) :
    ∃ magnitude ≤ infinityBits, decimal.toFloat negative = ofMagnitude negative magnitude := by
  rw [Decimal.toFloat]
  split
  · exact ⟨_, Nat.min_le_right _ _, rfl⟩
  · split
    · exact ⟨_, Nat.le_refl _, rfl⟩
    · split <;> exact ⟨_, Nat.min_le_right _ _, rfl⟩

theorem to_float_defined (negative : Bool) (decimal : Decimal) :
    exact (decimal.toFloat negative) ≠ .undefined := by
  obtain ⟨magnitude, bound, same⟩ := to_float_magnitude negative decimal
  rw [same, exact_of_magnitude negative magnitude bound]
  split <;> simp

theorem plain_text_finite (x : Float) (negative : Bool) (quanta : Nat)
    (classified : exact x = .finite negative quanta) :
    ∃ cs decimal, (toPlainText x).toList = signText negative ++ cs ∧ Positional cs decimal ∧
      decimal.toFloat negative = x := by
  obtain ⟨magnitude, finite, rfl, same⟩ := magnitude_of_exact x negative quanta classified
  refine ⟨_, _, ?_, plain_positional (shortest .upward (quantaOfBits magnitude)), ?_⟩
  · rw [toPlainText, classified, String.toList_ofList]
  · rw [shortest_rounds negative .upward magnitude finite, same]

theorem plain_text_infinite (x : Float) (negative : Bool) (classified : exact x = .infinite negative) :
    (toPlainText x).toList = signText negative ++ ['i', 'n', 'f'] := by
  rw [toPlainText, classified, String.toList_ofList]
  rfl

theorem defined_equal (x : Float) (defined : exact x ≠ .undefined) : (x == x) = true := by
  refine Float.beq_self_iff.mpr ?_
  rintro rfl
  exact defined rfl

end Interlock.Number
