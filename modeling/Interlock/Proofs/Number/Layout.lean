import Mathlib.Algebra.Group.Nat.Defs
import Interlock.Number.Decimal

/-!
The decimal layout and its reader. Whatever decimal is laid out without an exponent, its text reads as
a decimal of the same value.
-/

set_option autoImplicit false

namespace Interlock.Number

theorem digit_code (c : Char) (digit : isDigit c = true) : 48 ≤ c.toNat ∧ c.toNat ≤ 57 := by
  simpa [isDigit, Char.le_def, UInt32.le_iff_toNat_le] using digit

theorem digit_other (c d : Char) (digit : isDigit c = true) (other : isDigit d = false) : c ≠ d := by
  rintro rfl
  rw [digit] at other
  contradiction

theorem digits_unsigned (c : Char) (rest : List Char) (digit : isDigit c = true) :
    splitSign (c :: rest) = (false, c :: rest) := by
  rw [splitSign]
  · exact fun _ same => digit_other c '+' digit rfl (List.cons.inj same).1
  · exact fun _ same => digit_other c '-' digit rfl (List.cons.inj same).1

theorem digit_char_value (digit : Nat) (bound : digit < 10) :
    isDigit (digitChar digit) = true ∧ digitValue (digitChar digit) = digit := by
  have each : ∀ digit < 10, isDigit (digitChar digit) = true ∧ digitValue (digitChar digit) = digit := by
    decide
  exact each digit bound

theorem digits_are_digits (n : Nat) : ∀ c ∈ digits n, isDigit c = true := by
  fun_induction digits n with
  | case1 n small => simpa using (digit_char_value n small).1
  | case2 n large ih =>
      intro c member
      rcases List.mem_append.mp member with front | last
      · exact ih c front
      · obtain rfl := List.mem_singleton.mp last
        exact (digit_char_value (n % 10) (Nat.mod_lt n (by decide))).1

theorem digits_filled (n : Nat) : digits n ≠ [] := by
  rw [digits]
  split <;> simp

theorem of_digits_snoc (ds : List Char) (c : Char) :
    ofDigits (ds ++ [c]) = 10 * ofDigits ds + digitValue c := by
  simp [ofDigits, List.foldl_append]

theorem of_digits_digits (n : Nat) : ofDigits (digits n) = n := by
  fun_induction digits n with
  | case1 n small => simpa [ofDigits] using (digit_char_value n small).2
  | case2 n large ih =>
      rw [of_digits_snoc, ih, (digit_char_value (n % 10) (Nat.mod_lt n (by decide))).2]
      omega

theorem digits_canonical (n : Nat) (d : Char) (ds : List Char) : digits n ≠ '0' :: d :: ds := by
  fun_induction digits n generalizing d ds with
  | case1 n small => simp
  | case2 n large ih =>
      intro same
      cases front : digits (n / 10) with
      | nil => exact digits_filled _ front
      | cons c cs =>
          rw [front, List.cons_append] at same
          obtain ⟨rfl, same⟩ := List.cons.inj same
          cases cs with
          | nil =>
              have value := of_digits_digits (n / 10)
              rw [front] at value
              have zero : ofDigits ['0'] = 0 := rfl
              omega
          | cons e cs => exact ih e cs front

theorem digits_below (n : Nat) : n < 10 ^ (digits n).length := by
  fun_induction digits n with
  | case1 n small => simpa using small
  | case2 n large ih =>
      rw [List.length_append, List.length_singleton, Nat.pow_succ]
      omega

theorem digits_reach (n : Nat) (positive : n ≠ 0) : 10 ^ ((digits n).length - 1) ≤ n := by
  fun_induction digits n with
  | case1 n small =>
      simp
      omega
  | case2 n large ih =>
      have reached := ih (by omega)
      have filled := List.length_pos_iff.mpr (digits_filled (n / 10))
      rw [List.length_append, List.length_singleton, Nat.add_sub_cancel,
        ← Nat.sub_add_cancel (Nat.one_le_of_lt filled), Nat.pow_succ]
      omega

theorem zeros_succ (count : Nat) : zeros (count + 1) = zeros count ++ ['0'] := List.replicate_succ'

theorem zeros_are_digits (count : Nat) : ∀ c ∈ zeros count, isDigit c = true := by
  intro c member
  rw [List.eq_of_mem_replicate member]
  rfl

theorem of_digits_zeros (ds : List Char) (count : Nat) :
    ofDigits (ds ++ zeros count) = ofDigits ds * 10 ^ count := by
  induction count with
  | zero => simp [zeros]
  | succ count ih =>
      rw [zeros_succ, ← List.append_assoc, of_digits_snoc, ih, Nat.pow_succ]
      have nothing : digitValue '0' = 0 := rfl
      rw [nothing, Nat.add_zero, Nat.mul_comm, Nat.mul_assoc]

theorem of_zeros_digits (count : Nat) (ds : List Char) : ofDigits (zeros count ++ ds) = ofDigits ds := by
  induction count with
  | zero => rfl
  | succ count ih => exact ih

inductive Positional : List Char → Decimal → Prop where
  | whole (ds : List Char) (digits : ∀ c ∈ ds, isDigit c = true) (filled : ds ≠ []) :
      Positional ds ⟨ofDigits ds, 0⟩
  | fraction (ds fs : List Char) (digits : ∀ c ∈ ds, isDigit c = true) (filled : ds ≠ [])
      (behind : ∀ c ∈ fs, isDigit c = true) :
      Positional (ds ++ '.' :: fs) ⟨ofDigits (ds ++ fs), -fs.length⟩

theorem digit_run (ds rest : List Char) (digits : ∀ c ∈ ds, isDigit c = true)
    (ended : ∀ c ∈ rest.head?, isDigit c = false) :
    (ds ++ rest).takeWhile isDigit = ds ∧ (ds ++ rest).dropWhile isDigit = rest := by
  rw [List.takeWhile_append_of_pos digits, List.dropWhile_append_of_pos digits]
  cases rest with
  | nil => simp
  | cons c others => simp [ended c (by simp)]

theorem positional_head (cs : List Char) (decimal : Decimal) (laid : Positional cs decimal) :
    ∃ c rest, cs = c :: rest ∧ isDigit c = true := by
  cases laid with
  | whole _ digits filled =>
      obtain ⟨c, rest, rfl⟩ := List.exists_cons_of_ne_nil filled
      exact ⟨c, rest, rfl, digits c (by simp)⟩
  | fraction ds fs digits filled _ =>
      obtain ⟨c, rest, rfl⟩ := List.exists_cons_of_ne_nil filled
      exact ⟨c, rest ++ '.' :: fs, rfl, digits c (by simp)⟩

theorem positional_read (cs : List Char) (decimal : Decimal) (laid : Positional cs decimal) :
    readDecimal cs = some decimal := by
  cases laid with
  | whole _ digits filled =>
      obtain ⟨taken, dropped⟩ := digit_run cs [] digits (by simp)
      rw [List.append_nil] at taken dropped
      simp [readDecimal, taken, dropped, filled, readExponent]
  | fraction ds fs digits filled behind =>
      obtain ⟨taken, dropped⟩ := digit_run ds ('.' :: fs) digits (by simp; rfl)
      obtain ⟨inner, rest⟩ := digit_run fs [] behind (by simp)
      rw [List.append_nil] at inner rest
      simp [readDecimal, taken, dropped, inner, rest, filled, readExponent]

def Decimal.leveled (decimal : Decimal) : Decimal :=
  if 0 ≤ decimal.exponent then ⟨decimal.coefficient * 10 ^ decimal.exponent.toNat, 0⟩ else decimal

theorem positional_fraction (ds fs : List Char) (coefficient : Nat) (exponent : Int)
    (digits : ∀ c ∈ ds, isDigit c = true) (filled : ds ≠ []) (behind : ∀ c ∈ fs, isDigit c = true)
    (value : ofDigits (ds ++ fs) = coefficient) (places : exponent = -fs.length) :
    Positional (ds ++ '.' :: fs) ⟨coefficient, exponent⟩ := by
  subst value places
  exact .fraction ds fs digits filled behind

theorem plain_positional (decimal : Decimal) : Positional decimal.plain decimal.leveled := by
  obtain ⟨coefficient, exponent⟩ := decimal
  have digits := digits_are_digits coefficient
  have filled := digits_filled coefficient
  have value := of_digits_digits coefficient
  simp only [Decimal.plain, Decimal.leveled]
  generalize Number.digits coefficient = ds at *
  by_cases nonnegative : 0 ≤ exponent
  · rw [if_pos nonnegative, if_pos nonnegative]
    by_cases zero : coefficient = 0
    · have whole := Positional.whole ds digits filled
      simpa [value, zero] using whole
    · have whole := Positional.whole (ds ++ zeros exponent.toNat)
        (List.forall_mem_append.mpr ⟨digits, zeros_are_digits _⟩) (by simp [filled])
      rw [of_digits_zeros, value] at whole
      simpa [zero] using whole
  · rw [if_neg nonnegative, if_neg nonnegative]
    by_cases inside : (-exponent).toNat < ds.length
    · rw [if_pos inside]
      refine positional_fraction _ _ coefficient exponent ?_ ?_ ?_ ?_ ?_
      · exact fun c member => digits c (List.mem_of_mem_take member)
      · rw [← List.length_pos_iff, List.length_take]
        omega
      · exact fun c member => digits c (List.mem_of_mem_drop member)
      · rw [List.take_append_drop, value]
      · rw [List.length_drop]
        omega
    · rw [if_neg inside]
      refine positional_fraction ['0'] _ coefficient exponent ?_ ?_ ?_ ?_ ?_
      · exact List.forall_mem_singleton.mpr rfl
      · simp
      · exact List.forall_mem_append.mpr ⟨zeros_are_digits _, digits⟩
      · exact (of_zeros_digits ((-exponent).toNat - ds.length + 1) ds).trans value
      · rw [List.length_append, zeros, List.length_replicate]
        omega

end Interlock.Number
