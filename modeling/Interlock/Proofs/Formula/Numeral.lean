import Interlock.Formula.Literal

/-!
The grammar of numerals, and that the number at the front of a text is a numeral exactly if it can be
read.
-/

set_option autoImplicit false

namespace Interlock.Formula

open Interlock.Number (isDigit)

def Digits (cs : List Char) : Prop := ∀ c ∈ cs, isDigit c = true

inductive Fraction : List Char → Prop where
  | absent : Fraction []
  | present (ds : List Char) (digits : Digits ds) : Fraction ('.' :: ds)

inductive Power : List Char → Prop where
  | absent : Power []
  | present (sign ds : List Char) (signed : sign = [] ∨ sign = ['+'] ∨ sign = ['-'])
      (digits : Digits ds) (complete : ds ≠ []) : Power ('e' :: (sign ++ ds))

inductive Numeral : List Char → Prop where
  | parts (whole fraction power : List Char) (digits : Digits whole) (marked : Fraction fraction)
      (raised : Power power) (mantissa : ∃ c ∈ whole ++ fraction, isDigit c = true) :
      Numeral (whole ++ fraction ++ power)

def Apart (rest : List Char) : Prop := ∀ c ∈ rest.head?, isDigit c = false ∧ c ≠ '.' ∧ c ≠ 'e'

theorem split_digits_complete (ds rest : List Char) (digits : Digits ds)
    (ended : ∀ c ∈ rest.head?, isDigit c = false) : splitDigits (ds ++ rest) = (ds, rest) := by
  have none : rest.takeWhile isDigit = [] ∧ rest.dropWhile isDigit = rest := by
    cases rest with
    | nil => exact ⟨rfl, rfl⟩
    | cons c others => simp [ended c (by simp)]
  rw [splitDigits, List.takeWhile_append_of_pos digits, List.dropWhile_append_of_pos digits, none.1,
    none.2, List.append_nil]

theorem split_fraction_complete (fraction rest : List Char) (marked : Fraction fraction)
    (ended : ∀ c ∈ rest.head?, isDigit c = false ∧ c ≠ '.') :
    splitFraction (fraction ++ rest) = (fraction, rest) := by
  cases marked with
  | absent =>
      cases rest with
      | nil => rfl
      | cons c others =>
          rw [List.nil_append, splitFraction]
          intro after same
          exact (ended c (by simp)).2 (List.cons.inj same).1
  | present ds digits =>
      have split := split_digits_complete ds rest digits fun c member => (ended c member).1
      simp only [List.cons_append, splitFraction, split]

theorem digit_unsigned (d : Char) (digit : isDigit d = true) : d ≠ '+' ∧ d ≠ '-' := by
  constructor <;> rintro rfl <;> exact absurd digit (by decide)

theorem split_power_sign_complete (sign ds rest : List Char)
    (signed : sign = [] ∨ sign = ['+'] ∨ sign = ['-']) (digits : Digits ds) (complete : ds ≠ []) :
    splitPowerSign (sign ++ (ds ++ rest)) = (sign, ds ++ rest) := by
  rcases signed with rfl | rfl | rfl
  · cases ds with
    | nil => contradiction
    | cons d others =>
        obtain ⟨noPlus, noMinus⟩ := digit_unsigned d (digits d (by simp))
        simp [splitPowerSign, noPlus, noMinus]
  · rfl
  · rfl

theorem split_power_complete (power rest : List Char) (raised : Power power)
    (ended : ∀ c ∈ rest.head?, isDigit c = false ∧ c ≠ 'e') :
    splitPower (power ++ rest) = (power, rest) := by
  cases raised with
  | absent =>
      cases rest with
      | nil => rfl
      | cons c others =>
          rw [List.nil_append, splitPower]
          intro after same
          exact (ended c (by simp)).2 (List.cons.inj same).1
  | present sign ds signed digits complete =>
      have first := split_power_sign_complete sign ds rest signed digits complete
      have second := split_digits_complete ds rest digits fun c member => (ended c member).1
      simp [splitPower, List.append_assoc, first, second, complete]

theorem power_head (power : List Char) (raised : Power power) (c : Char) (member : c ∈ power.head?) :
    c = 'e' := by
  cases raised with
  | absent => simp at member
  | present sign ds _ _ _ => simpa using member.symm

theorem head_append (first rest : List Char) (c : Char) (member : c ∈ (first ++ rest).head?) :
    c ∈ first.head? ∨ c ∈ rest.head? := by
  cases first with
  | nil => exact .inr member
  | cons d others => exact .inl member

theorem power_apart (power rest : List Char) (raised : Power power) (apart : Apart rest) (c : Char)
    (member : c ∈ (power ++ rest).head?) : isDigit c = false ∧ c ≠ '.' := by
  rcases head_append power rest c member with inPower | inRest
  · rw [power_head power raised c inPower]
    decide
  · exact ⟨(apart c inRest).1, (apart c inRest).2.1⟩

theorem fraction_apart (fraction rest : List Char) (marked : Fraction fraction)
    (ended : ∀ c ∈ rest.head?, isDigit c = false ∧ c ≠ '.') (c : Char)
    (member : c ∈ (fraction ++ rest).head?) : isDigit c = false := by
  cases marked with
  | absent => exact (ended c member).1
  | present ds _ =>
      have mark : '.' = c := by simpa using member
      rw [← mark]
      decide

theorem split_number_complete (literal rest : List Char) (numeral : Numeral literal)
    (apart : Apart rest) : splitNumber (literal ++ rest) = (literal, rest) := by
  cases numeral with
  | parts whole fraction power digits marked raised _ =>
      have powerEnds := power_apart power rest raised apart
      have first := split_digits_complete whole (fraction ++ (power ++ rest)) digits
        (fraction_apart fraction (power ++ rest) marked powerEnds)
      have second := split_fraction_complete fraction (power ++ rest) marked powerEnds
      have third := split_power_complete power rest raised fun c member =>
        ⟨(apart c member).1, (apart c member).2.2⟩
      simp [splitNumber, List.append_assoc, first, second, third]

theorem read_exponent_complete (power : List Char) (raised : Power power) :
    ∃ exponent, Number.readExponent power = some exponent := by
  cases raised with
  | absent => exact ⟨0, rfl⟩
  | present sign ds signed digits complete =>
      have all : ds.all isDigit = true := List.all_eq_true.mpr digits
      have behind : (Number.splitSign (sign ++ ds)).2 = ds := by
        rcases signed with rfl | rfl | rfl
        · cases ds with
          | nil => contradiction
          | cons d others =>
              obtain ⟨noPlus, noMinus⟩ := digit_unsigned d (digits d (by simp))
              simp [Number.splitSign, noPlus, noMinus]
        · rfl
        · rfl
      simp [Number.readExponent, behind, complete, all]

theorem read_decimal_complete (literal : List Char) (numeral : Numeral literal) :
    ∃ decimal, Number.readDecimal literal = some decimal := by
  cases numeral with
  | parts whole fraction power digits marked raised mantissa =>
      obtain ⟨exponent, read⟩ := read_exponent_complete power raised
      have powerEnds : ∀ c ∈ power.head?, isDigit c = false ∧ c ≠ '.' := fun c member => by
        rw [power_head power raised c member]
        decide
      have split := split_digits_complete whole (fraction ++ power) digits
        (fraction_apart fraction power marked powerEnds)
      simp only [splitDigits, Prod.mk.injEq] at split
      rw [List.append_assoc, Number.readDecimal, split.1, split.2]
      cases marked with
      | absent =>
          have some : whole ≠ [] := by
            rintro rfl
            obtain ⟨c, member, _⟩ := mantissa
            simp at member
          cases raised with
          | absent => simp [some, Number.readExponent]
          | present sign ds signed digits complete =>
              simp only [List.nil_append] at read ⊢
              simp [some, read]
      | present ds fractionDigits =>
          have inner := split_digits_complete ds power fractionDigits fun c member =>
            (powerEnds c member).1
          simp only [splitDigits, Prod.mk.injEq] at inner
          have some : ¬ (whole.isEmpty && ds.isEmpty) = true := by
            intro empty
            obtain ⟨c, member, digit⟩ := mantissa
            simp only [Bool.and_eq_true, List.isEmpty_iff] at empty
            obtain ⟨rfl, rfl⟩ := empty
            simp only [List.nil_append, List.mem_singleton] at member
            subst c
            exact absurd digit (by decide)
          simp only [List.cons_append, inner.1, inner.2, if_neg some, read]
          exact ⟨_, rfl⟩

theorem read_of_decimal (negative : Bool) (cs body : List Char) (decimal : Number.Decimal)
    (split : Number.splitSign cs = (negative, body)) (read : Number.readDecimal body = some decimal) :
    Number.read cs = some (decimal.toFloat negative) := by
  simp [Number.read, split, read]

theorem numeral_head (literal : List Char) (numeral : Numeral literal) :
    ∃ c rest, literal = c :: rest ∧ startsNumber c = true := by
  cases numeral with
  | parts whole fraction power digits marked raised mantissa =>
      cases whole with
      | cons d others =>
          have digit := digits d (by simp)
          exact ⟨d, others ++ fraction ++ power, by simp, by simp [startsNumber, digit]⟩
      | nil =>
          cases marked with
          | absent =>
              obtain ⟨c, member, _⟩ := mantissa
              simp at member
          | present ds _ => exact ⟨'.', ds ++ power, by simp, rfl⟩

theorem split_sign_number (c : Char) (rest : List Char) (starts : startsNumber c = true) :
    Number.splitSign (c :: rest) = (false, c :: rest) := by
  have noPlus : c ≠ '+' := by
    rintro rfl
    exact absurd starts (by decide)
  have noMinus : c ≠ '-' := by
    rintro rfl
    exact absurd starts (by decide)
  simp [Number.splitSign, noPlus, noMinus]

-- The value of a numeral with or without a minus in front. The alternative is never taken.
def valueOf (literal : List Char) : Float := (Number.read literal).getD Number.nan

theorem read_numeral (literal : List Char) (numeral : Numeral literal) :
    Number.read literal = some (valueOf literal) := by
  obtain ⟨decimal, read⟩ := read_decimal_complete literal numeral
  obtain ⟨c, rest, rfl, starts⟩ := numeral_head literal numeral
  have total := read_of_decimal false _ _ decimal (split_sign_number c rest starts) read
  rw [valueOf, total, Option.getD_some]

theorem read_negative_numeral (literal : List Char) (numeral : Numeral literal) :
    Number.read ('-' :: literal) = some (valueOf ('-' :: literal)) := by
  obtain ⟨decimal, read⟩ := read_decimal_complete literal numeral
  have total := read_of_decimal true ('-' :: literal) literal decimal rfl read
  rw [valueOf, total, Option.getD_some]

theorem split_digits_sound (cs : List Char) : Digits (splitDigits cs).1 :=
  List.all_eq_true.mp List.all_takeWhile

theorem split_fraction_sound (cs : List Char) : Fraction (splitFraction cs).1 := by
  unfold splitFraction
  split
  · exact .present _ (split_digits_sound _)
  · exact .absent

theorem split_power_sound (cs : List Char) : Power (splitPower cs).1 := by
  unfold splitPower
  split
  · rename_i rest
    dsimp only
    split
    · exact .absent
    · rename_i some
      refine .present _ _ ?_ (split_digits_sound _) (by simpa using some)
      unfold splitPowerSign
      split <;> simp
  · exact .absent

theorem read_lone_mark (power : List Char) (raised : Power power) :
    Number.readDecimal ('.' :: power) = none ∧ ∀ negative, Number.readNamed negative ('.' :: power) = none := by
  have ended : power.takeWhile isDigit = [] := by
    cases raised <;> rfl
  constructor
  · simp [Number.readDecimal, ended, show isDigit '.' = false by decide]
  · intro negative
    have head : Number.lowerAscii ('.' :: power) = '.' :: Number.lowerAscii power := rfl
    simp [Number.readNamed, head]

theorem numeral_of_read (c : Char) (rest : List Char) (starts : startsNumber c = true) (value : Float)
    (read : Number.read (splitNumber (c :: rest)).1 = some value ∨
      Number.read ('-' :: (splitNumber (c :: rest)).1) = some value) :
    Numeral (splitNumber (c :: rest)).1 := by
  have digits := split_digits_sound (c :: rest)
  have marked := split_fraction_sound (splitDigits (c :: rest)).2
  have raised := split_power_sound (splitFraction (splitDigits (c :: rest)).2).2
  refine .parts _ _ _ digits marked raised ?_
  by_cases digit : isDigit c = true
  · exact ⟨c, by simp [splitDigits, digit], digit⟩
  · have mark : c = '.' := by simpa [startsNumber, digit] using starts
    subst c
    have whole : splitDigits ('.' :: rest) = ([], '.' :: rest) := by
      simp [splitDigits, show isDigit '.' = false by decide]
    have fraction : splitFraction ('.' :: rest) = ('.' :: (splitDigits rest).1, (splitDigits rest).2) := rfl
    rw [whole, fraction]
    cases found : (splitDigits rest).1 with
    | cons d others =>
        have inner := split_digits_sound rest
        rw [found] at inner
        exact ⟨d, by simp, inner d (by simp)⟩
    | nil =>
        rw [whole, fraction] at raised
        have lone := read_lone_mark _ raised
        simp only [splitNumber, whole, fraction, found, List.nil_append, List.cons_append] at read
        rcases read with read | read
        · simp [Number.read, split_sign_number '.' _ rfl, lone] at read
        · simp [Number.read, Number.splitSign, lone] at read

end Interlock.Formula
