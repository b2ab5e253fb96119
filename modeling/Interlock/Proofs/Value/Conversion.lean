import Interlock.Proofs.Calendar.Spelling
import Interlock.Proofs.Formula.Recompilation
import Interlock.Proofs.Text.Casing
import Interlock.Value.Basic

/-!
Conversions of values. Whatever a value or a literal is converted from, the result has the kind that was
asked for. A truth value, a finite number and an instant are read back from the text that shows them, be it
as a literal of no given kind or by conversion to text and back; an instant comes back in whole
milliseconds.
-/

set_option autoImplicit false

namespace Interlock

open Interlock.Calendar
open Interlock.Number (isDigit Positional signText)

namespace Value

section

variable {now : Instant} {value stored : Value} {kind : Kind}

theorem read_as_kind {literal : String} (read : readAs now literal kind = some stored) : stored.kind = kind := by
  unfold readAs at read
  cases kind with
  | number | bool =>
    obtain ⟨_, _, rfl⟩ := Option.map_eq_some_iff.mp read
    rfl
  | timestamp =>
    dsimp only at read
    split at read
    · cases read
      rfl
    · obtain ⟨_, _, rfl⟩ := Option.map_eq_some_iff.mp read
      rfl
  | text =>
    cases read
    rfl

theorem coerce_kind (converts : value.coerce now kind = some stored) : stored.kind = kind := by
  unfold coerce at converts
  split at converts
  · next same =>
    cases converts
    exact same
  · split at converts
    · cases converts
      rfl
    · cases converts
      rfl
    · exact read_as_kind converts
    · cases converts
      rfl
    · contradiction

end

theorem digit_low (c : Char) (digit : isDigit c = true) : c.toNat < 65 := by
  have code := Number.digit_code c digit
  omega

theorem lower_low (c : Char) (low : c.toNat < 65) : c.toLower = c := by
  rcases Text.to_lower_cases c with same | ⟨i, bound, upper, _⟩
  · exact same
  · have letters : ∀ i < 26, 65 ≤ (Char.ofNat (65 + i)).toNat := by decide
    have large := letters i bound
    rw [← upper] at large
    omega

theorem read_bool_other (c : Char) (rest : List Char) (low : c.toNat < 65) :
    readBool (c :: rest) = none := by
  have same := lower_low c low
  have apart : ∀ d : Char, 65 ≤ d.toNat → c ≠ d := by
    rintro d large rfl
    omega
  have noTrue := apart 't' (by decide)
  have noFalse := apart 'f' (by decide)
  simp [readBool, Number.lowerAscii, same, noTrue, noFalse]

theorem read_number_unread (literal : List Char) (unread : Number.read literal = none) :
    readNumber literal = none := by
  unfold readNumber
  split
  · rfl
  · split
    · exact unread
    · rfl

theorem slash_unread (ds rest : List Char) (digits : ∀ c ∈ ds, isDigit c = true) (filled : ds ≠ []) :
    Number.readDecimal (ds ++ '/' :: rest) = none ∧
      ∀ negative, Number.readNamed negative (ds ++ '/' :: rest) = none := by
  constructor
  · obtain ⟨taken, dropped⟩ := Number.digit_run ds ('/' :: rest) digits (by simp; rfl)
    simp [Number.readDecimal, taken, dropped, filled, Number.readExponent]
  · intro negative
    have slash : '/' ∈ Number.lowerAscii (ds ++ '/' :: rest) :=
      List.mem_map.mpr ⟨'/', by simp, rfl⟩
    have apart : ∀ name : String, '/' ∉ name.toList →
        Number.lowerAscii (ds ++ '/' :: rest) ≠ name.toList := by
      intro name missing same
      exact missing (same ▸ slash)
    rw [Number.readNamed, if_neg, if_neg]
    · exact apart "nan" (by decide)
    · simp only [Bool.or_eq_true, decide_eq_true_eq, not_or]
      exact ⟨apart "inf" (by decide), apart "infinity" (by decide)⟩

theorem year_unread (year : Int) (rest : List Char) : Number.read (yearText year ++ '/' :: rest) = none := by
  have unread : ∀ negative width n literal,
      Number.splitSign literal = (negative, padded width n ++ '/' :: rest) → Number.read literal = none := by
    intro negative width n literal split
    obtain ⟨noDecimal, noName⟩ := slash_unread _ rest (padded_digits width n) (padded_filled width n)
    simp only [Number.read, split, noDecimal, noName]
  unfold yearText
  split
  · obtain ⟨c, others, split, digit⟩ := padded_head 4 year.toNat
    apply unread false 4 year.toNat
    rw [split]
    exact Number.digits_unsigned c _ digit
  · split
    · exact unread true 4 year.natAbs _ rfl
    · exact unread false 4 year.natAbs _ rfl

theorem year_no_bool (year : Int) (rest : List Char) : readBool (yearText year ++ rest) = none := by
  unfold yearText
  split
  · obtain ⟨c, others, split, digit⟩ := padded_head 4 year.toNat
    rw [split]
    exact read_bool_other c _ (digit_low c digit)
  · split
    · exact read_bool_other '-' _ (by decide)
    · exact read_bool_other '+' _ (by decide)

theorem number_text (x : Float) (negative : Bool) (quanta : Nat)
    (finite : Number.exact x = .finite negative quanta) :
    Text.trim (Number.toPlainText x).toList = (Number.toPlainText x).toList ∧
      readBool (Number.toPlainText x).toList = none ∧
      readNumber (Number.toPlainText x).toList = some x := by
  have verbatim := Formula.number_verbatim x (by simp [finite])
  obtain ⟨cs, decimal, text, laid, value⟩ := Number.plain_text_finite x negative quanta finite
  obtain ⟨c, rest, rfl, digit⟩ := Number.positional_head cs decimal laid
  have split : Number.splitSign (signText negative ++ c :: rest) = (negative, c :: rest) := by
    cases negative
    · exact Number.digits_unsigned c rest digit
    · rfl
  have read := Formula.read_of_decimal negative _ _ decimal split (Number.positional_read _ decimal laid)
  refine ⟨Text.trim_solid _ fun c member => (verbatim c member).2, ?_, ?_⟩
  · rw [text]
    cases negative
    · exact read_bool_other c rest (digit_low c digit)
    · exact read_bool_other '-' _ (by decide)
  · rw [text, readNumber, split]
    simp [digit, read, value]

theorem instant_text (instant : Instant) :
    Text.trim instant.display.toList = instant.display.toList ∧
      readBool instant.display.toList = none ∧ readNumber instant.display.toList = none := by
  have opens : ∃ rest, instant.display.toList = yearText instant.date.year ++ '/' :: rest := by
    simp [display_spelling, spelling, dateText]
  have solid : ∀ c ∈ instant.display.toList, Text.isBlank c = false := by
    rw [display_spelling]
    exact spelling_solid _ _
  refine ⟨Text.trim_solid _ solid, ?_⟩
  obtain ⟨rest, opens⟩ := opens
  rw [opens]
  exact ⟨year_no_bool _ _, read_number_unread _ (year_unread _ rest)⟩

-- The values that have a text of their own: truth values, finite numbers and instants.
inductive Spelled : Value → Prop where
  | bool (b : Bool) : Spelled (.bool b)
  | number (x : Float) (negative : Bool) (quanta : Nat)
      (finite : Number.exact x = .finite negative quanta) : Spelled (.number x)
  | timestamp (instant : Instant) (civil : instant.Civil) : Spelled (.timestamp instant)

theorem infer_spelled (literal : String) (instant : Instant)
    (denotes : infer literal = .timestamp instant) : (timestamp instant).Spelled := by
  unfold infer at denotes
  dsimp only at denotes
  split at denotes
  · contradiction
  · split at denotes
    · contradiction
    · split at denotes
      · next read =>
          cases denotes
          exact .timestamp _ (read_instant_civil _ _ read)
      · contradiction

theorem read_as_spelled (now : Instant) (literal : String) (value : Value)
    (read : readAs now literal .timestamp = some value) : value.Spelled := by
  unfold readAs at read
  dsimp only at read
  split at read
  · next instant direct =>
      cases read
      exact .timestamp _ (read_instant_civil _ _ direct)
  · obtain ⟨instant, counted, rfl⟩ := Option.map_eq_some_iff.mp read
    obtain ⟨seconds, _, later⟩ := Option.bind_eq_some_iff.mp counted
    unfold secondsFrom at later
    split at later
    · dsimp only at later
      split at later
      · next valid =>
          cases later
          exact .timestamp _ (add_millis_civil now _ valid)
      · contradiction
    · contradiction

-- What is left of a value in its text: all of it but the parts of a millisecond.
def remnant : Value → Value
  | timestamp instant => timestamp instant.wholeMillis
  | value => value

structure Yields (value back : Value) : Prop where
  inferred : infer value.display = back
  converted : ∀ now later, ∃ text, value.coerce now .text = some text ∧
    text.coerce later value.kind = some back

theorem remnant_spelled (value : Value) (spelled : value.Spelled) : value.remnant.Spelled := by
  cases spelled with
  | bool b => exact .bool b
  | number x negative quanta finite => exact .number x negative quanta finite
  | timestamp instant civil => exact .timestamp _ (whole_millis_civil instant civil)

theorem remnant_settled (value : Value) : value.remnant.remnant = value.remnant := by
  cases value with
  | timestamp instant => exact congrArg timestamp (whole_millis_twice instant)
  | number | bool | text => rfl

theorem yields_remnant (value : Value) (spelled : value.Spelled) : value.Yields value.remnant := by
  cases spelled with
  | bool b =>
      constructor
      · cases b <;> rfl
      · intro now later
        refine ⟨_, rfl, ?_⟩
        cases b <;> rfl
  | number x negative quanta finite =>
      obtain ⟨trimmed, noBool, read⟩ := number_text x negative quanta finite
      constructor
      · simp only [display, infer, trimmed, noBool, read, remnant]
      · intro now later
        refine ⟨_, rfl, ?_⟩
        simp [coerce, kind, readAs, display, trimmed, read, remnant]
  | timestamp instant civil =>
      obtain ⟨trimmed, noBool, noNumber⟩ := instant_text instant
      have read := display_reads instant civil
      constructor
      · simp only [display, infer, trimmed, noBool, noNumber, read, remnant]
      · intro now later
        refine ⟨_, rfl, ?_⟩
        simp [coerce, kind, readAs, display, trimmed, read, remnant]

theorem text_round_trip (value : Value) (spelled : value.Spelled) :
    value.Yields value.remnant ∧ value.remnant.Yields value.remnant := by
  have again := yields_remnant _ (remnant_spelled value spelled)
  rw [remnant_settled] at again
  exact ⟨yields_remnant value spelled, again⟩

-- In the leap second at the end of a year before the common era.
theorem leap_second_round_trip :
    let value := Value.timestamp ⟨-62198755201, 1999999999⟩
    value.display = "-0002/12/31T23:59:60.999" ∧ value.Yields (.timestamp ⟨-62198755201, 1999000000⟩) :=
  ⟨by decide +kernel, (text_round_trip _ (.timestamp _ (by decide +kernel))).1⟩

end Value

end Interlock
