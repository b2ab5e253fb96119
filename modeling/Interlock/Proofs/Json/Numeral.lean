import Interlock.Json.Reader
import Interlock.Json.Writer
import Interlock.Proofs.Number.Arithmetic

/-!
Numbers in JSON texts. What is written for a finite number reads as its literal, and the digits of the literal
round to the number. The reader rounds them as a whole number first, and then once more for each scaling by a
power of ten, so what it finds is certain only where the digits are a number and the power is one.
-/

set_option autoImplicit false

namespace Interlock

namespace Number

theorem bits_of_ratio_equal (numerator denominator other divisor : Nat) (positive : 0 < denominator)
    (some : 0 < divisor) (same : numerator * divisor = other * denominator) :
    bitsOfRatio numerator denominator = bitsOfRatio other divisor := by
  rw [← bits_of_ratio_multiple numerator denominator divisor some,
    ← bits_of_ratio_multiple other divisor denominator positive, same, Nat.mul_comm denominator]

theorem shortest_ratio (tie : Tie) (magnitude : Nat) (finite : magnitude < infinityBits) :
    bitsOfRatio (shortest tie (quantaOfBits magnitude)).numerator
      (shortest tie (quantaOfBits magnitude)).denominator = magnitude := by
  by_cases zero : magnitude = 0
  · subst zero
    have nothing : shortest tie (quantaOfBits 0) = ⟨0, 0⟩ := rfl
    rw [nothing, Decimal.numerator, Nat.zero_mul, Nat.zero_mul, bits_of_nothing]
  · obtain ⟨scale, significand, scaled⟩ := scaled_exists magnitude
    have positive := scaled_positive _ _ _ scaled (Nat.pos_of_ne_zero zero)
    have nonzero : quantaOfBits magnitude ≠ 0 := by
      rw [scaled.quanta]
      exact Nat.ne_of_gt (Nat.mul_pos positive (Nat.two_pow_pos scale))
    exact bits_of_ratio_near magnitude scale significand _ _ scaled (ten_down_positive _) finite
      (span_holds_near magnitude scale significand _ _ scaled (shortest_admitted tie _ nonzero))

-- A whole number whose bits, from the first that is set to the last, are no more than a significand has.
def Fits (n : Nat) : Prop := ∃ part places, part < 2 ^ 53 ∧ n = part * 2 ^ places

theorem scaled_magnitude (scale significand : Nat) (least : 2 ^ 52 ≤ significand) (bound : significand < 2 ^ 53) :
    Scaled (scale * 2 ^ 52 + significand) scale significand := by
  obtain ⟨other, part, scaled⟩ := scaled_exists (scale * 2 ^ 52 + significand)
  have bits := scaled.bits
  have most := scaled.bound
  have normal := scaled.normal
  obtain ⟨rfl, rfl⟩ : other = scale ∧ part = significand := by omega
  exact scaled

theorem fits_exact (n : Nat) (fits : Fits n) (small : n < 2 ^ 64) :
    ∃ magnitude < infinityBits, quantaOfBits magnitude = n * unit ∧
      ofRatio false (n * unit) 1 = ofMagnitude false magnitude := by
  obtain ⟨part, places, bound, rfl⟩ := fits
  by_cases zero : part = 0
  · subst zero
    refine ⟨0, by decide, by simp [quantaOfBits], ?_⟩
    rw [Nat.zero_mul, Nat.zero_mul, ofRatio, bits_of_nothing]
  · obtain ⟨grid, power, count⟩ := unit_power
    have log := (Nat.log2_lt zero).mpr bound
    have whole : part * 2 ^ places * unit =
        part * 2 ^ (52 - part.log2) * 2 ^ (places + part.log2 + 1022) := by
      rw [power, Nat.mul_assoc, Nat.mul_assoc, ← Nat.pow_add, ← Nat.pow_add,
        show places + grid = 52 - part.log2 + (places + part.log2 + 1022) by omega]
    have least : 2 ^ 52 ≤ part * 2 ^ (52 - part.log2) := by
      calc 2 ^ 52
          = 2 ^ part.log2 * 2 ^ (52 - part.log2) := by rw [← Nat.pow_add, Nat.add_sub_cancel' (by omega)]
        _ ≤ part * 2 ^ (52 - part.log2) := Nat.mul_le_mul_right _ (Nat.log2_self_le zero)
    have most : part * 2 ^ (52 - part.log2) < 2 ^ 53 := by
      calc part * 2 ^ (52 - part.log2)
          < 2 ^ (part.log2 + 1) * 2 ^ (52 - part.log2) :=
            Nat.mul_lt_mul_of_pos_right Nat.lt_log2_self (Nat.two_pow_pos _)
        _ = 2 ^ 53 := by rw [← Nat.pow_add, show part.log2 + 1 + (52 - part.log2) = 53 by omega]
    have places64 : part.log2 + places < 64 := by
      refine (Nat.pow_lt_pow_iff_right (a := 2) (by decide)).mp (Nat.lt_of_le_of_lt ?_ small)
      rw [Nat.pow_add]
      exact Nat.mul_le_mul_right _ (Nat.log2_self_le zero)
    have scaled := scaled_magnitude (places + part.log2 + 1022) _ least most
    have finite : (places + part.log2 + 1022) * 2 ^ 52 + part * 2 ^ (52 - part.log2) < infinityBits := by
      have limit : infinityBits = 2047 * 2 ^ 52 := rfl
      omega
    refine ⟨_, finite, by rw [scaled.quanta, whole], ?_⟩
    rw [ofRatio, whole, bits_of_ratio_near _ _ _ _ _ scaled Nat.one_pos finite]
    have step := Nat.two_pow_pos (places + part.log2 + 1022)
    rw [← Nat.one_mul (2 ^ (places + part.log2 + 1022))] at step ⊢
    exact ⟨by omega, by omega, .inr ⟨by omega, by omega⟩, fun _ _ => by omega⟩

theorem ten_exact (places : Nat) (few : places ≤ 22) :
    exact (Decimal.toFloat false ⟨1, places⟩) = .finite false (10 ^ places * unit) := by
  have each : ∀ places ≤ 22, exact (Decimal.toFloat false ⟨1, (places : Nat)⟩) =
      .finite false (10 ^ places * unit) := by decide +kernel
  exact each places few

theorem finite_not_infinite (negative : Bool) (magnitude : Nat) (finite : magnitude < infinityBits) :
    (ofMagnitude negative magnitude).isInf = false := by
  change (ofMagnitude negative magnitude).toModel.unpack.isInf = false
  rcases unpack_finite negative magnitude finite with rfl | ⟨_, _, _, _, unpacked⟩
  · rw [unpack_nothing]
    rfl
  · rw [unpacked]
    rfl

def scaledUp (significand power : Nat) : Nat :=
  quantaOfBits (bitsOfRatio (significand * unit) 1) * quantaOfBits (bitsOfRatio (10 ^ power * unit) 1)

def highest : Nat := 2 ^ 1024 - 3 * 2 ^ 970

-- The greatest number and the factors below it, as far as a reader's roundings come near the end of the range.
structure Extremes : Prop where
  within : ∀ more ≤ 20,
    bitsOfRatio (scaledUp (min (2 ^ 64) (highest / 10 ^ (288 + more))) (288 + more)) unit < infinityBits
  room : 2 ^ 64 ≤ highest / 10 ^ 288
  reached : infinityBits - 1 ≤ bitsOfRatio ((highest + 1) * unit) 1
  exceeded : infinityBits ≤ bitsOfRatio (10 ^ 309 * unit) 1
  whole : bitsOfRatio (2 ^ 64 * unit) 1 < infinityBits
  ten : bitsOfRatio (10 ^ 308 * unit) 1 < infinityBits
  shortest : shortest .toEven (quantaOfBits (infinityBits - 1)) = ⟨17976931348623157, 292⟩
  finite : bitsOfRatio (scaledUp 17976931348623157 292) unit < infinityBits

theorem extremes : Extremes := by
  constructor <;> decide +kernel

theorem whole_finite (significand : Nat) (small : significand < 2 ^ 64) :
    bitsOfRatio (significand * unit) 1 < infinityBits :=
  Nat.lt_of_le_of_lt (bits_of_ratio_monotone _ _ 1 (Nat.mul_le_mul_right _ (Nat.le_of_lt small))) extremes.whole

theorem ten_finite (power : Nat) (few : power ≤ 308) : bitsOfRatio (10 ^ power * unit) 1 < infinityBits := by
  have all := extremes.ten
  generalize 308 = most at few all
  exact Nat.lt_of_le_of_lt
    (bits_of_ratio_monotone _ _ 1 (Nat.mul_le_mul_right _ (Nat.pow_le_pow_right (by decide) few))) all

theorem scaled_up_monotone (significand more power further : Nat) (below : significand ≤ more)
    (few : power ≤ further) : scaledUp significand power ≤ scaledUp more further :=
  Nat.mul_le_mul
    (quanta_monotone _ _ (bits_of_ratio_monotone _ _ 1 (Nat.mul_le_mul_right _ below)))
    (quanta_monotone _ _ (bits_of_ratio_monotone _ _ 1
      (Nat.mul_le_mul_right _ (Nat.pow_le_pow_right (by decide) few))))

theorem scaled_up_finite (significand power : Nat) (small : significand < 2 ^ 64) (few : power ≤ 308)
    (below : significand * 10 ^ power ≤ highest) : bitsOfRatio (scaledUp significand power) unit < infinityBits := by
  have within := extremes.within (power - 288) (by omega)
  refine Nat.lt_of_le_of_lt (bits_of_ratio_monotone _ _ unit (scaled_up_monotone _ _ _ _ ?_ (by omega))) within
  refine Nat.le_min.mpr ⟨Nat.le_of_lt small, ?_⟩
  by_cases least : power ≤ 288
  · have room := extremes.room
    rw [show 288 + (power - 288) = 288 by omega]
    omega
  · rw [show 288 + (power - 288) = power by omega]
    exact (Nat.le_div_iff_mul_le (Nat.pow_pos (by decide))).mpr below

end Number

namespace Json

open Interlock.Number (Decimal Fits bitsOfRatio digits infinityBits isDigit ofDigits ofMagnitude ofRatio
  quantaOfBits shortest signText tenDown tenUp)

theorem scale_exact (significand : Nat) (power : Int) (magnitude : Nat) (fits : Fits significand)
    (small : significand < 2 ^ 64) (few : power.natAbs ≤ 22) (finite : magnitude < infinityBits)
    (value : bitsOfRatio (significand * tenUp power * Number.unit) (tenDown power) = magnitude) :
    scaleByTen 4 (ofRatio false (significand * Number.unit) 1) power = some (ofMagnitude false magnitude) := by
  obtain ⟨base, baseFinite, baseQuanta, whole⟩ := Number.fits_exact significand fits small
  obtain ⟨ten, tenFinite, tenQuanta, tens⟩ := Number.magnitude_of_exact _ _ _ (Number.ten_exact power.natAbs few)
  have unit := Number.unit_positive
  have tenPositive : 0 < 10 ^ power.natAbs := Nat.pow_pos (by decide)
  rw [scaleByTen, if_pos (by omega), whole, ← tens]
  dsimp only
  by_cases negative : power < 0
  · have down : tenDown power = 10 ^ power.natAbs := by
      rw [tenDown, Nat.pow_eq, show (-power).toNat = power.natAbs by omega]
    have up : tenUp power = 1 := by rw [tenUp, show power.toNat = 0 by omega]
    have positive : 0 < ten := by
      refine Nat.pos_of_ne_zero fun zero => ?_
      rw [zero, show quantaOfBits 0 = 0 from rfl] at tenQuanta
      exact Nat.ne_of_lt (Nat.mul_pos tenPositive unit) tenQuanta
    have nearest : bitsOfRatio (significand * Number.unit * Number.unit) (10 ^ power.natAbs * Number.unit) =
        magnitude := by
      rw [← value, up, down]
      refine Number.bits_of_ratio_equal _ _ _ _ (Nat.mul_pos tenPositive unit) tenPositive ?_
      ring
    rw [if_pos negative, Number.quotient_nearest false false base ten baseFinite tenFinite positive, baseQuanta,
      tenQuanta, ofRatio, nearest]
    rfl
  · have down : tenDown power = 1 := by rw [tenDown, show (-power).toNat = 0 by omega]
    have up : tenUp power = 10 ^ power.natAbs := by
      rw [tenUp, Nat.pow_eq, show power.toNat = power.natAbs by omega]
    have nearest : bitsOfRatio (significand * Number.unit * (10 ^ power.natAbs * Number.unit)) Number.unit =
        magnitude := by
      rw [← value, up, down]
      refine Number.bits_of_ratio_equal _ _ _ _ unit Nat.one_pos ?_
      ring
    have product : ofMagnitude false base * ofMagnitude false ten = ofMagnitude false magnitude := by
      rw [Number.product_nearest false false base ten baseFinite tenFinite, baseQuanta, tenQuanta, ofRatio, nearest]
      rfl
    rw [if_neg negative, product, Number.finite_not_infinite false magnitude finite]
    rfl

theorem scale_down_found (fuel : Nat) (x : Float) (power : Int) (negative : power < 0) :
    ∃ y, scaleByTen fuel x power = some y := by
  induction fuel generalizing x power with
  | zero => exact ⟨x, rfl⟩
  | succ fuel ih =>
      rw [scaleByTen]
      by_cases near : power.natAbs ≤ 308
      · rw [if_pos near]
        exact ⟨_, if_pos negative⟩
      · rw [if_neg near]
        by_cases zero : (x == 0) = true
        · exact ⟨x, if_pos zero⟩
        · rw [if_neg zero, if_neg (by omega)]
          exact ih _ _ (by omega)

theorem scale_up_found (significand power : Nat) (small : significand < 2 ^ 64) (few : power ≤ 308)
    (within : bitsOfRatio (Number.scaledUp significand power) Number.unit < infinityBits) :
    ∃ x, scaleByTen 4 (ofRatio false (significand * Number.unit) 1) power = some x := by
  have ten : Decimal.toFloat false ⟨1, (power : Nat)⟩ = ofRatio false (10 ^ power * Number.unit) 1 := by
    have single : digits 1 = ['1'] := by rw [digits, if_pos (by decide)]; rfl
    have down : tenDown (power : Int) = 1 := by rw [tenDown, show (-(power : Int)).toNat = 0 by omega]
    have up : tenUp (power : Int) = 10 ^ power := rfl
    rw [Decimal.toFloat]
    dsimp only
    rw [single, List.length_singleton, if_neg Nat.one_ne_zero, if_neg (by omega), if_neg (by omega), Nat.one_mul,
      down, up]
  have product : ofRatio false (significand * Number.unit) 1 * ofRatio false (10 ^ power * Number.unit) 1 =
      ofMagnitude false (bitsOfRatio (Number.scaledUp significand power) Number.unit) := by
    rw [ofRatio, ofRatio, Number.product_nearest false false _ _ (Number.whole_finite significand small)
      (Number.ten_finite power few)]
    rfl
  rw [scaleByTen, if_pos (by omega), Int.natAbs_natCast, ten]
  dsimp only
  rw [product, if_neg (by omega), Number.finite_not_infinite false _ within]
  exact ⟨_, rfl⟩

theorem scale_found (significand : Nat) (power : Int) (magnitude : Nat) (small : significand < 2 ^ 64)
    (finite : magnitude < infinityBits)
    (value : bitsOfRatio (significand * tenUp power * Number.unit) (tenDown power) = magnitude)
    (greatest : magnitude = infinityBits - 1 → significand = 17976931348623157 ∧ power = 292) :
    ∃ x, scaleByTen 4 (ofRatio false (significand * Number.unit) 1) power = some x := by
  by_cases negative : power < 0
  · exact scale_down_found 4 _ power negative
  · obtain ⟨places, rfl⟩ := Int.eq_ofNat_of_zero_le (Int.not_lt.mp negative)
    have whole : bitsOfRatio (significand * 10 ^ places * Number.unit) 1 = magnitude := by
      have down : tenDown (places : Int) = 1 := by rw [tenDown, show (-(places : Int)).toNat = 0 by omega]
      rwa [down] at value
    by_cases few : places ≤ 308
    · refine scale_up_found significand places small few ?_
      by_cases below : significand * 10 ^ places ≤ Number.highest
      · exact Number.scaled_up_finite significand places small few below
      · have reached := Number.extremes.reached
        generalize Number.highest = limit at below reached
        replace reached := Nat.le_trans reached
          (Number.bits_of_ratio_monotone _ _ 1 (Nat.mul_le_mul_right Number.unit (Nat.lt_of_not_le below)))
        rw [whole] at reached
        obtain ⟨rfl, same⟩ := greatest (Nat.le_antisymm (Nat.le_sub_one_of_lt finite) reached)
        obtain rfl : places = 292 := by omega
        exact Number.extremes.finite
    · rw [scaleByTen, if_neg (by omega)]
      by_cases zero : significand = 0
      · subst zero
        rw [Nat.zero_mul]
        exact ⟨_, if_pos (by decide +kernel)⟩
      · have reached := Number.extremes.exceeded
        have above : 309 ≤ places := Nat.lt_of_not_le few
        generalize 309 = limit at above reached
        have more : 10 ^ limit ≤ significand * 10 ^ places :=
          Nat.le_trans (Nat.pow_le_pow_right (by decide) above)
            (Nat.le_mul_of_pos_left _ (Nat.pos_of_ne_zero zero))
        replace reached := Nat.le_trans reached
          (Number.bits_of_ratio_monotone _ _ 1 (Nat.mul_le_mul_right Number.unit more))
        rw [whole] at reached
        exact absurd finite (Nat.not_lt_of_le reached)

def fractionText (fraction : List Char) : List Char := if fraction = [] then [] else '.' :: fraction

def powerText : Option Int → List Char
  | none => []
  | some power => 'e' :: (if power < 0 then '-' else '+') :: digits power.natAbs

def Literal.spelling (literal : Literal) : List Char :=
  signText literal.negative ++
    (literal.whole ++ (fractionText literal.fraction ++ powerText literal.exponent))

structure Literal.Proper (literal : Literal) : Prop where
  whole : ∀ c ∈ literal.whole, isDigit c = true
  filled : literal.whole ≠ []
  canonical : ∀ d ds, literal.whole ≠ '0' :: d :: ds
  fraction : ∀ c ∈ literal.fraction, isDigit c = true

def Closes (rest : List Char) : Prop :=
  ∀ c ∈ rest.head?, isDigit c = false ∧ c ≠ '.' ∧ c ≠ 'e' ∧ c ≠ 'E'

section

variable (rest : List Char)

theorem read_power (exponent : Option Int) (closes : Closes rest) :
    readPower (powerText exponent ++ rest) = some (exponent, rest) := by
  cases exponent with
  | none =>
      cases rest with
      | nil => rfl
      | cons c rest =>
          obtain ⟨_, _, small, capital⟩ := closes c rfl
          simp [powerText, readPower, small, capital]
  | some power =>
      have ended : ∀ c ∈ rest.head?, isDigit c = false := fun c first => (closes c first).1
      obtain ⟨taken, dropped⟩ := Number.digit_run _ rest (Number.digits_are_digits power.natAbs) ended
      have value := Number.of_digits_digits power.natAbs
      have filled := Number.digits_filled power.natAbs
      by_cases negative : power < 0
      · have size : -(power.natAbs : Int) = power := by omega
        rw [powerText, if_pos negative, List.cons_append, List.cons_append, readPower]
        simp only [true_or, if_true, Number.splitSign, taken, dropped, value, List.isEmpty_eq_false_iff.mpr filled,
          size, Bool.false_eq_true, if_false]
      · have size : (power.natAbs : Int) = power := by omega
        rw [powerText, if_neg negative, List.cons_append, List.cons_append, readPower]
        simp only [true_or, if_true, Number.splitSign, taken, dropped, value, List.isEmpty_eq_false_iff.mpr filled,
          size, Bool.false_eq_true, if_false]

theorem read_fraction (fraction : List Char) (digits : ∀ c ∈ fraction, isDigit c = true)
    (ended : ∀ c ∈ rest.head?, isDigit c = false) (pointless : ∀ c ∈ rest.head?, c ≠ '.') :
    readFraction (fractionText fraction ++ rest) = some (fraction, rest) := by
  by_cases empty : fraction = []
  · rw [fractionText, if_pos empty, List.nil_append, readFraction, empty]
    rintro others rfl
    exact pointless '.' rfl rfl
  · obtain ⟨taken, dropped⟩ := Number.digit_run fraction rest digits ended
    rw [fractionText, if_neg empty, List.cons_append, readFraction]
    simp [taken, dropped, empty]

theorem read_whole (whole : List Char) (digits : ∀ c ∈ whole, isDigit c = true) (filled : whole ≠ [])
    (canonical : ∀ d ds, whole ≠ '0' :: d :: ds) (ended : ∀ c ∈ rest.head?, isDigit c = false) :
    readWhole (whole ++ rest) = some (whole, rest) := by
  by_cases zero : whole = ['0']
  · subst zero
    cases rest with
    | nil => rfl
    | cons c rest => simp [readWhole, ended c rfl]
  · obtain ⟨taken, dropped⟩ := Number.digit_run whole rest digits ended
    rw [readWhole]
    · simp [taken, dropped, filled]
    · intro others same
      obtain ⟨c, ds, rfl⟩ := List.exists_cons_of_ne_nil filled
      obtain ⟨rfl, _⟩ := List.cons.inj same
      cases ds with
      | nil => exact zero rfl
      | cons d ds => exact canonical d ds rfl

end

theorem fraction_opens (fraction rest : List Char) (plain : ∀ c ∈ rest.head?, isDigit c = false) :
    ∀ c ∈ (fractionText fraction ++ rest).head?, isDigit c = false := by
  unfold fractionText
  split
  · exact plain
  · rintro c ⟨rfl⟩
    rfl

theorem power_opens (exponent : Option Int) (rest : List Char) (closes : Closes rest) :
    ∀ c ∈ (powerText exponent ++ rest).head?, isDigit c = false ∧ c ≠ '.' := by
  cases exponent with
  | none => exact fun c first => ⟨(closes c first).1, (closes c first).2.1⟩
  | some power =>
      rintro c ⟨rfl⟩
      decide

theorem read_spelling (literal : Literal) (rest : List Char) (proper : literal.Proper) (closes : Closes rest) :
    readNumber (literal.spelling ++ rest) = some (literal, rest) := by
  obtain ⟨negative, whole, fraction, exponent⟩ := literal
  obtain ⟨digits, filled, canonical, behind⟩ := proper
  dsimp only at digits filled canonical behind
  have power := read_power rest exponent closes
  have opens := power_opens exponent rest closes
  have parts := read_fraction (powerText exponent ++ rest) fraction behind (fun c first => (opens c first).1)
    fun c first => (opens c first).2
  have ended := fraction_opens fraction (powerText exponent ++ rest) fun c first => (opens c first).1
  have front := read_whole (fractionText fraction ++ (powerText exponent ++ rest)) whole digits filled canonical ended
  simp only [Literal.spelling, List.append_assoc]
  cases negative with
  | true => simp [readNumber, signText, front, parts, power]
  | false =>
      obtain ⟨c, ds, rfl⟩ := List.exists_cons_of_ne_nil filled
      have unsigned := Number.digit_other c '-' (digits c (by simp)) rfl
      rw [List.cons_append] at front
      rw [signText, if_neg (by decide), List.nil_append, List.cons_append, readNumber]
      · simp [front, parts, power]
      · exact fun others same => unsigned (List.cons.inj same).1

def Literal.decimal (literal : Literal) : Decimal :=
  ⟨ofDigits (literal.whole ++ literal.fraction), literal.exponent.getD 0 - literal.fraction.length⟩

def Literal.ofDecimal (negative : Bool) (decimal : Decimal) : Literal :=
  let ds := digits decimal.coefficient
  let mark : Int := ds.length + decimal.exponent
  let places := (-decimal.exponent).toNat
  if 0 ≤ decimal.exponent ∧ mark ≤ 16 then ⟨negative, decimal.plain, ['0'], none⟩
  else if decimal.exponent < 0 ∧ -5 < mark ∧ mark ≤ 16 then
    if places < ds.length then ⟨negative, ds.take (ds.length - places), ds.drop (ds.length - places), none⟩
    else ⟨negative, ['0'], Number.zeros (places - ds.length) ++ ds, none⟩
  else ⟨negative, ds.take 1, ds.drop 1, some (mark - 1)⟩

section

variable (negative : Bool) (decimal : Decimal)

theorem of_decimal_negative : (Literal.ofDecimal negative decimal).negative = negative := by
  unfold Literal.ofDecimal
  dsimp only
  repeat' split
  all_goals rfl

theorem of_decimal_spelling :
    (Literal.ofDecimal negative decimal).spelling = signText negative ++ decimal.marked := by
  obtain ⟨coefficient, exponent⟩ := decimal
  have filled := Number.digits_filled coefficient
  simp only [Literal.ofDecimal, Decimal.marked]
  split
  · simp [Literal.spelling, fractionText, powerText]
  · split
    · next small =>
        have behind : ¬ 0 ≤ exponent := by omega
        simp only [Decimal.plain, if_neg behind]
        split
        · next inside =>
            have some : (digits coefficient).drop ((digits coefficient).length - (-exponent).toNat) ≠ [] := by
              rw [← List.length_pos_iff, List.length_drop]
              omega
            simp [Literal.spelling, fractionText, powerText, some]
        · simp [Literal.spelling, fractionText, powerText, filled]
    · generalize digits coefficient = ds at filled ⊢
      obtain ⟨d, ds, rfl⟩ := List.exists_cons_of_ne_nil filled
      cases ds with
      | nil => simp [Literal.spelling, fractionText, powerText]
      | cons e ds => simp [Literal.spelling, fractionText, powerText]

theorem of_decimal_proper : (Literal.ofDecimal negative decimal).Proper := by
  obtain ⟨coefficient, exponent⟩ := decimal
  have are := Number.digits_are_digits coefficient
  have filled := Number.digits_filled coefficient
  have value := Number.of_digits_digits coefficient
  have canonical := Number.digits_canonical coefficient
  simp only [Literal.ofDecimal, Decimal.plain]
  generalize digits coefficient = ds at *
  have front : ∀ count, 0 < count → ds.take count ≠ [] ∧ ∀ d rest, ds.take count ≠ '0' :: d :: rest := by
    intro count some
    constructor
    · rw [Ne, List.take_eq_nil_iff]
      exact fun none => none.elim (Nat.ne_of_gt some) filled
    · intro d rest same
      refine canonical d (rest ++ ds.drop count) ?_
      rw [← List.cons_append, ← List.cons_append, ← same, List.take_append_drop]
  have zeros := Number.zeros_are_digits
  split
  · next whole =>
    rw [if_pos whole.1]
    split
    · exact ⟨are, filled, canonical, by simp; rfl⟩
    · next nonzero =>
      refine ⟨List.forall_mem_append.mpr ⟨are, zeros _⟩, by simp [filled], ?_, by simp; rfl⟩
      intro d rest same
      obtain ⟨c, others, rfl⟩ := List.exists_cons_of_ne_nil filled
      obtain ⟨rfl, _⟩ := List.cons.inj same
      cases others with
      | nil => exact nonzero value.symm
      | cons e others => exact canonical e others rfl
  · split
    · split
      · next inside =>
        obtain ⟨some, first⟩ := front (ds.length - (-exponent).toNat) (by omega)
        exact ⟨fun c member => are c (List.mem_of_mem_take member), some, first,
          fun c member => are c (List.mem_of_mem_drop member)⟩
      · exact ⟨by simp; rfl, by simp, by simp, List.forall_mem_append.mpr ⟨zeros _, are⟩⟩
    · obtain ⟨some, first⟩ := front 1 Nat.one_pos
      exact ⟨fun c member => are c (List.mem_of_mem_take member), some, first,
        fun c member => are c (List.mem_of_mem_drop member)⟩

theorem of_decimal_value : (Literal.ofDecimal negative decimal).decimal = decimal ∨
    0 ≤ decimal.exponent ∧ (digits decimal.coefficient).length + decimal.exponent ≤ 16 ∧
      (Literal.ofDecimal negative decimal).decimal =
        ⟨decimal.coefficient * 10 ^ (decimal.exponent.toNat + 1), -1⟩ := by
  obtain ⟨coefficient, exponent⟩ := decimal
  have filled := List.length_pos_iff.mpr (Number.digits_filled coefficient)
  have value := Number.of_digits_digits coefficient
  simp only [Literal.ofDecimal]
  split
  · next whole =>
    refine .inr ⟨whole.1, whole.2, ?_⟩
    have places : ofDigits ((Decimal.plain ⟨coefficient, exponent⟩) ++ ['0']) =
        coefficient * 10 ^ (exponent.toNat + 1) := by
      rw [show ['0'] = Number.zeros 1 from rfl, Number.of_digits_zeros, Decimal.plain]
      dsimp only
      rw [if_pos whole.1]
      split
      · next zero => rw [zero, Number.of_digits_digits, Nat.zero_mul, Nat.zero_mul]
      · rw [Number.of_digits_zeros, value, Nat.mul_assoc, ← Nat.pow_add]
    rw [Literal.decimal, places]
    rfl
  · refine .inl ?_
    split
    · split
      · rw [Literal.decimal]
        dsimp only
        rw [List.take_append_drop, value, List.length_drop, Option.getD_none, Decimal.mk.injEq]
        omega
      · have led := (Number.of_zeros_digits
          ((-exponent).toNat - (digits coefficient).length + 1) (digits coefficient)).trans value
        rw [Literal.decimal]
        dsimp only
        rw [Option.getD_none, List.length_append, Number.zeros, List.length_replicate, Decimal.mk.injEq]
        exact ⟨led, by omega⟩
    · rw [Literal.decimal]
      dsimp only
      rw [List.take_append_drop, value, List.length_drop, Option.getD_some, Decimal.mk.injEq]
      omega

theorem of_decimal_ratio :
    bitsOfRatio (Literal.ofDecimal negative decimal).decimal.numerator
      (Literal.ofDecimal negative decimal).decimal.denominator = bitsOfRatio decimal.numerator decimal.denominator := by
  rcases of_decimal_value negative decimal with same | ⟨whole, _, longer⟩
  · rw [same]
  · have ten : tenUp decimal.exponent = 10 ^ decimal.exponent.toNat := rfl
    have one : tenDown decimal.exponent = 1 := by rw [tenDown, show (-decimal.exponent).toNat = 0 by omega]
    rw [longer]
    refine Number.bits_of_ratio_equal _ _ _ _ (Number.ten_down_positive _) (Number.ten_down_positive _) ?_
    simp only [Decimal.numerator, Decimal.denominator, ten, one]
    rw [show tenUp (-1) = 1 from rfl, show tenDown (-1) = 10 from rfl]
    ring

theorem of_decimal_fits (fits : decimal.coefficient < 2 ^ 63) :
    (Literal.ofDecimal negative decimal).decimal.coefficient < 2 ^ 64 := by
  rcases of_decimal_value negative decimal with same | ⟨whole, short, longer⟩
  · rw [same]
    exact Nat.lt_trans fits (by decide)
  · rw [longer]
    calc decimal.coefficient * 10 ^ (decimal.exponent.toNat + 1)
        < 10 ^ (digits decimal.coefficient).length * 10 ^ (decimal.exponent.toNat + 1) :=
          Nat.mul_lt_mul_of_pos_right (Number.digits_below _) (Nat.pow_pos (by decide))
      _ = 10 ^ ((digits decimal.coefficient).length + (decimal.exponent.toNat + 1)) := (Nat.pow_add _ _ _).symm
      _ ≤ 10 ^ 17 := Nat.pow_le_pow_right (by decide) (by omega)
      _ < 2 ^ 64 := by decide

end

-- The literal that is written for a finite number.
def Literal.ofQuanta (negative : Bool) (quanta : Nat) : Literal :=
  Literal.ofDecimal negative (shortest .toEven quanta)

section

variable (negative : Bool) (magnitude : Nat) (finite : magnitude < infinityBits)

include finite

theorem of_quanta_rounds : bitsOfRatio (Literal.ofQuanta negative (quantaOfBits magnitude)).decimal.numerator
    (Literal.ofQuanta negative (quantaOfBits magnitude)).decimal.denominator = magnitude :=
  (of_decimal_ratio _ _).trans (Number.shortest_ratio _ magnitude finite)

theorem of_quanta_distinct (sign : Bool) (other : Nat) (limited : other < infinityBits)
    (same : Literal.ofQuanta negative (quantaOfBits magnitude) = Literal.ofQuanta sign (quantaOfBits other)) :
    ofMagnitude negative magnitude = ofMagnitude sign other := by
  have signs := congrArg Literal.negative same
  have rounds := of_quanta_rounds negative magnitude finite
  rw [same, of_quanta_rounds sign other limited] at rounds
  rw [Literal.ofQuanta, Literal.ofQuanta, of_decimal_negative, of_decimal_negative] at signs
  rw [signs, rounds]

end

def gather (gathered : Nat) (ds : List Char) : Nat :=
  ds.foldl (fun n c => 10 * n + Number.digitValue c) gathered

theorem gathers_more (ds : List Char) (gathered : Nat) : gathered ≤ gather gathered ds := by
  induction ds generalizing gathered with
  | nil => exact Nat.le_refl _
  | cons c ds ih => exact Nat.le_trans (by omega) (ih (10 * gathered + Number.digitValue c))

theorem take_fitting_all (ds : List Char) (gathered : Nat) (fits : gather gathered ds < 2 ^ 64) :
    takeFitting gathered ds = (gather gathered ds, []) := by
  induction ds generalizing gathered with
  | nil => rfl
  | cons c ds ih =>
      have next : 10 * gathered + Number.digitValue c < Nat.pow 2 64 := Nat.lt_of_le_of_lt (gathers_more ds _) fits
      rw [takeFitting, if_pos next]
      exact ih _ fits

theorem to_float_scaled (literal : Literal) (fits : literal.decimal.coefficient < 2 ^ 64) :
    literal.toFloat? =
      (scaleByTen 4 (ofRatio false (literal.decimal.coefficient * Number.unit) 1) literal.decimal.exponent).map
        fun x => if literal.negative then -x else x := by
  obtain ⟨negative, whole, fraction, exponent⟩ := literal
  have split : ofDigits (whole ++ fraction) = gather (gather 0 whole) fraction := List.foldl_append
  have all : gather (gather 0 whole) fraction < 2 ^ 64 := split ▸ fits
  have front := take_fitting_all whole 0 (Nat.lt_of_le_of_lt (gathers_more fraction _) all)
  have behind := take_fitting_all fraction _ all
  simp only [Literal.toFloat?, front, behind, Literal.decimal, split, List.length_nil, Nat.cast_zero, Int.add_zero]
  split
  all_goals
    next scaled => rw [scaled]; rfl

-- The digits and the power of ten of a literal are numbers themselves, so the literal is read without loss.
structure Literal.Certain (literal : Literal) : Prop where
  digits : Fits literal.decimal.coefficient
  power : literal.decimal.exponent.natAbs ≤ 22

theorem of_quanta_greatest (negative : Bool) :
    (Literal.ofQuanta negative (quantaOfBits (infinityBits - 1))).decimal = ⟨17976931348623157, 292⟩ := by
  rw [Literal.ofQuanta, Number.extremes.shortest]
  rcases of_decimal_value negative ⟨17976931348623157, 292⟩ with same | ⟨_, short, _⟩
  · exact same
  · dsimp only at short
    omega

section

variable (negative : Bool) (magnitude : Nat) (finite : magnitude < infinityBits)

include finite

theorem of_quanta_fits : (Literal.ofQuanta negative (quantaOfBits magnitude)).decimal.coefficient < 2 ^ 64 :=
  of_decimal_fits _ _ (Number.shortest_fits _ magnitude finite)

theorem of_quanta_found : ∃ x, (Literal.ofQuanta negative (quantaOfBits magnitude)).toFloat? = some x := by
  have fits := of_quanta_fits negative magnitude finite
  obtain ⟨x, found⟩ := scale_found _ _ magnitude fits finite (of_quanta_rounds negative magnitude finite)
    fun greatest => by rw [greatest, of_quanta_greatest]; exact ⟨rfl, rfl⟩
  rw [to_float_scaled _ fits, found]
  exact ⟨_, rfl⟩

theorem of_quanta_exact (certain : (Literal.ofQuanta negative (quantaOfBits magnitude)).Certain) :
    (Literal.ofQuanta negative (quantaOfBits magnitude)).toFloat? = some (ofMagnitude negative magnitude) := by
  have fits := of_quanta_fits negative magnitude finite
  have signed : (Literal.ofQuanta negative (quantaOfBits magnitude)).negative = negative :=
    of_decimal_negative _ _
  rw [to_float_scaled _ fits, scale_exact _ _ magnitude certain.digits fits certain.power finite
    (of_quanta_rounds negative magnitude finite), signed, Option.map_some]
  cases negative with
  | false => rfl
  | true => exact congrArg some (Number.negated false magnitude finite)

end

end Json

end Interlock
