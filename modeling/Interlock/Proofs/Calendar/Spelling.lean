import Mathlib.Data.List.Induction
import Mathlib.Data.List.TakeWhile
import Interlock.Calendar.Reader
import Interlock.Proofs.Calendar.Cycle
import Interlock.Proofs.Number.Layout
import Interlock.Proofs.Text.Lowering

/-!
The texts of an instant and their readers. What is written in messages and listings reads as the instant up
to its whole milliseconds, whatever its year is and also in a leap second; the interchange form loses nothing.
-/

set_option autoImplicit false

namespace Interlock.Calendar

open Interlock.Number (isDigit ofDigits digits zeros)

section

variable (width n : Nat)

theorem padded_digits : ∀ c ∈ padded width n, isDigit c = true :=
  List.forall_mem_append.mpr ⟨Number.zeros_are_digits _, Number.digits_are_digits n⟩

theorem padded_value : ofDigits (padded width n) = n :=
  (Number.of_zeros_digits _ _).trans (Number.of_digits_digits n)

theorem padded_filled : padded width n ≠ [] := by
  simp [padded, Number.digits_filled n]

theorem padded_length (positive : 0 < width) (fits : n < 10 ^ width) :
    (padded width n).length = width := by
  have short : (digits n).length ≤ width := by
    by_cases zero : n = 0
    · have single : (digits 0).length = 1 := by rw [digits, if_pos (by decide), List.length_singleton]
      rw [zero, single]
      exact positive
    · have reach := Number.digits_reach n zero
      have below : 10 ^ ((digits n).length - 1) < 10 ^ width := Nat.lt_of_le_of_lt reach fits
      have places := (Nat.pow_lt_pow_iff_right (by decide)).mp below
      omega
  rw [padded, List.length_append, zeros, List.length_replicate]
  omega

theorem read_padded (least : Nat) (rest : List Char) (positive : 0 < width) (fits : n < 10 ^ width)
    (reaches : least ≤ width) :
    readDigits least width (padded width n ++ rest) = some (padded width n, rest) := by
  have length := padded_length width n positive fits
  have taken : (padded width n ++ rest).take width = padded width n := by
    rw [List.take_append_of_le_length (Nat.le_of_eq length.symm), List.take_of_length_le (Nat.le_of_eq length)]
  have whole := (Number.digit_run _ [] (padded_digits width n) (by simp)).1
  rw [List.append_nil] at whole
  have left : (padded width n ++ rest).drop (padded width n).length = rest := List.drop_left
  rw [readDigits, taken, whole, left, if_neg (by omega)]

theorem read_all_padded (rest : List Char) (ended : ∀ c ∈ rest.head?, isDigit c = false) :
    readAllDigits (padded width n ++ rest) = some (padded width n, rest) := by
  obtain ⟨taken, dropped⟩ := Number.digit_run _ rest (padded_digits width n) ended
  rw [readAllDigits, taken, dropped, if_neg (by simp [padded_filled width n])]

end

theorem digit_solid (c : Char) (digit : isDigit c = true) : Text.isBlank c = false := by
  have code := Number.digit_code c digit
  exact Text.middle_not_blank c (by omega) (by omega)

theorem padded_head (width n : Nat) : ∃ c rest, padded width n = c :: rest ∧ isDigit c = true := by
  obtain ⟨c, rest, split⟩ := List.exists_cons_of_ne_nil (padded_filled width n)
  exact ⟨c, rest, split, padded_digits width n c (by simp [split])⟩

theorem padded_start (width n : Nat) (rest : List Char) :
    Text.trimStart (padded width n ++ rest) = padded width n ++ rest := by
  obtain ⟨c, others, split, digit⟩ := padded_head width n
  rw [split, List.cons_append, Text.trimStart, List.dropWhile_cons_of_neg (by simp [digit_solid c digit])]

section

variable (reading : Reading) (n : Nat) (rest : List Char)

theorem read_two_digits (part : Part) (fits : n < 100) :
    readItem reading (padded 2 n ++ rest) (.upTo part 2) = some (reading.set part n, rest) := by
  rw [readItem, padded_start, read_padded 2 n 1 rest (by decide) fits (by decide)]
  simp only [Option.map_some, padded_value]

theorem read_mark (c : Char) : readItem reading (c :: rest) (.mark c) = some (reading, rest) := by
  rw [readItem, if_pos rfl]

theorem read_parts (width : Nat) (positive : 0 < width) (least : width ≤ 9) (fits : n < 10 ^ width)
    (ended : ∀ c ∈ rest.head?, isDigit c = false) :
    readItem reading ('.' :: (padded width n ++ rest)) .fraction =
      some ({ reading with clock := { reading.clock with nano := n * 10 ^ (9 - width) } }, rest) := by
  have length := padded_length width n positive fits
  have scaled : nanosOfDigits (padded width n) = n * 10 ^ (9 - width) := by
    rw [nanosOfDigits, List.take_of_length_le (by omega), padded_value, length]
    rfl
  rw [readItem, readFraction, read_all_padded width n rest ended]
  simp only [Option.map_some, scaled]

theorem read_millis (fits : n < 1000) :
    readItem reading ('.' :: padded 3 n) .fraction =
      some ({ reading with clock := { reading.clock with nano := n * 1000000 } }, []) := by
  have read := read_parts reading n [] 3 (by decide) (by decide) fits (by simp)
  rwa [List.append_nil] at read

theorem read_nanos (fits : n < 1000000000) (ended : ∀ c ∈ rest.head?, isDigit c = false)
    (pointless : ∀ c ∈ rest.head?, c ≠ '.') :
    readItem reading (fractionText n ++ rest) .fraction =
      some ({ reading with clock := { reading.clock with nano := n } }, rest) := by
  unfold fractionText
  split
  · next zero =>
    have bare : readFraction rest = some (0, rest) := by
      cases rest with
      | nil => rfl
      | cons c rest =>
          have apart := pointless c rfl
          rw [readFraction]
          rintro others same
          exact apart (List.cons.inj same).1
    rw [List.nil_append, readItem, bare, Option.map_some, zero]
  · split
    · next millis =>
      rw [List.cons_append, read_parts _ _ _ 3 (by decide) (by decide) (by omega) ended,
        show n / 1000000 * 10 ^ (9 - 3) = n by omega]
    · split
      · next micros =>
        rw [List.cons_append, read_parts _ _ _ 6 (by decide) (by decide) (by omega) ended,
          show n / 1000 * 10 ^ (9 - 6) = n by omega]
      · rw [List.cons_append, read_parts _ _ _ 9 (by decide) (by decide) fits ended,
          show n * 10 ^ (9 - 9) = n by omega]

theorem read_no_blanks (c : Char) (solid : Text.isBlank c = false) :
    readItem reading (c :: rest) .blanks = some (reading, c :: rest) := by
  rw [readItem, Text.trimStart, List.dropWhile_cons_of_neg (by simp [solid])]

theorem read_unsigned (width : Nat) (c : Char) (digit : isDigit c = true) :
    readSigned width (c :: rest) =
      (readDigits 1 width (c :: rest)).map fun (ds, rest) => ((ofDigits ds : Int), rest) := by
  have noMinus := Number.digit_other c '-' digit rfl
  have noPlus := Number.digit_other c '+' digit rfl
  simp [readSigned, noMinus, noPlus]

theorem read_year (year : Int) (ended : ∀ c ∈ rest.head?, isDigit c = false) :
    readItem reading (yearText year ++ rest) (.signed .year 4) = some (reading.set .year year, rest) := by
  by_cases plain : 0 ≤ year ∧ year ≤ 9999
  · have digits := read_padded 4 year.toNat 1 rest (by decide) (by omega) (by decide)
    have start := padded_start 4 year.toNat rest
    have value := padded_value 4 year.toNat
    obtain ⟨c, others, split, digit⟩ := padded_head 4 year.toNat
    rw [yearText, if_pos plain, readItem, start]
    rw [split, List.cons_append] at digits ⊢
    rw [split] at value
    rw [read_unsigned _ 4 c digit, digits]
    simp only [Option.map_some, value, Int.toNat_of_nonneg plain.1]
  · have digits := read_all_padded 4 year.natAbs rest ended
    have value := padded_value 4 year.natAbs
    rw [yearText, if_neg plain]
    by_cases negative : year < 0
    · have signed : readSigned 4 ('-' :: (padded 4 year.natAbs ++ rest)) = some (year, rest) := by
        rw [readSigned, digits]
        simp only [Option.map_some, value, Int.ofNat_natAbs_of_nonpos (Int.le_of_lt negative), Int.neg_neg]
      rw [if_pos negative, readItem, List.cons_append, Text.trimStart,
        List.dropWhile_cons_of_neg (by decide), signed, Option.map_some]
    · have signed : readSigned 4 ('+' :: (padded 4 year.natAbs ++ rest)) = some (year, rest) := by
        rw [readSigned, digits]
        simp only [Option.map_some, value, Int.natAbs_of_nonneg (Int.not_lt.mp negative)]
      rw [if_neg negative, readItem, List.cons_append, Text.trimStart,
        List.dropWhile_cons_of_neg (by decide), signed, Option.map_some]

end

def spelling (date : Date) (clock : Clock) : List Char :=
  dateText '/' date ++ 'T' :: clockText clock ++ millisText clock

structure Spells (date : Date) (clock : Clock) : Prop where
  month : date.month < 100
  day : date.day < 100
  hour : clock.hour < 100
  minute : clock.minute < 100
  second : clock.second < 100
  nano : clock.nano < 1000000000

theorem display_spelling (instant : Instant) :
    instant.display.toList = spelling instant.date instant.clock := by
  rw [Instant.display, String.toList_ofList]
  rfl

section

variable (date : Date) (clock : Clock)

theorem spelling_read (spells : Spells date clock) :
    readTemplate (localTemplate '/' (.mark 'T')) .blank (spelling date clock) =
      some (⟨date.year, date.month, date.day,
        { clock with nano := clock.nano / 1000000 * 1000000 }⟩, []) := by
  have millis : clock.nano / 1000000 < 1000 := by
    have nano := spells.nano
    omega
  have parted : spelling date clock =
      yearText date.year ++ '/' :: (padded 2 date.month ++ '/' :: (padded 2 date.day ++ 'T' ::
        (padded 2 clock.hour ++ ':' :: (padded 2 clock.minute ++ ':' :: (padded 2 clock.second ++
          '.' :: padded 3 (clock.nano / 1000000)))))) := by
    simp [spelling, dateText, clockText, millisText]
  have slash : ∀ rest : List Char, ∀ c ∈ ('/' :: rest).head?, isDigit c = false := by
    intro rest c first
    cases first
    rfl
  rw [parted, localTemplate]
  simp only [readTemplate, read_year _ _ date.year (slash _), read_mark,
    read_two_digits _ _ _ _ spells.month, read_two_digits _ _ _ _ spells.day,
    read_two_digits _ _ _ _ spells.hour, read_two_digits _ _ _ _ spells.minute,
    read_two_digits _ _ _ _ spells.second, read_millis _ _ millis]
  simp only [Reading.set, Int.toNat_natCast]

theorem interchange_read (spells : Spells date clock) :
    readTemplate freeInterchangeTemplate .blank
        (dateText '-' date ++ 'T' :: clockText clock ++ fractionText clock.nano ++ ['Z']) =
      some (⟨date.year, date.month, date.day, clock⟩, ['Z']) := by
  have parted : dateText '-' date ++ 'T' :: clockText clock ++ fractionText clock.nano ++ ['Z'] =
      yearText date.year ++ '-' :: (padded 2 date.month ++ '-' :: (padded 2 date.day ++ 'T' ::
        (padded 2 clock.hour ++ ':' :: (padded 2 clock.minute ++ ':' :: (padded 2 clock.second ++
          (fractionText clock.nano ++ ['Z'])))))) := by
    simp [dateText, clockText]
  have dash : ∀ rest : List Char, ∀ c ∈ ('-' :: rest).head?, isDigit c = false := by
    rintro rest c ⟨rfl⟩
    rfl
  have between : ∀ reading rest, readItem reading ('T' :: rest) (.anyOf dateTimeMarks) = some (reading, rest) :=
    fun _ _ => rfl
  have nanos := fun reading => read_nanos reading clock.nano ['Z'] spells.nano (by simp; rfl) (by simp)
  rw [parted, freeInterchangeTemplate]
  simp only [readTemplate, read_year _ _ date.year (dash _), read_mark, read_no_blanks _ _ '-' (by decide),
    read_no_blanks _ _ ':' (by decide), read_no_blanks _ _ 'Z' (by decide), between, nanos,
    read_two_digits _ _ _ _ spells.month, read_two_digits _ _ _ _ spells.day,
    read_two_digits _ _ _ _ spells.hour, read_two_digits _ _ _ _ spells.minute,
    read_two_digits _ _ _ _ spells.second]
  simp only [Reading.set, Int.toNat_natCast]

theorem spelling_no_interchange : readInterchange (spelling date clock) = none := by
  have opens : ∃ rest, spelling date clock = yearText date.year ++ '/' :: rest := by
    simp [spelling, dateText]
  obtain ⟨rest, opens⟩ := opens
  rw [readInterchange, interchangeTemplate, opens]
  by_cases plain : 0 ≤ date.year ∧ date.year ≤ 9999
  · have digits := read_padded 4 date.year.toNat 4 ('/' :: rest) (by decide) (by omega) (Nat.le_refl 4)
    rw [yearText, if_pos plain, readTemplate, readItem, digits]
    simp [readTemplate, readItem]
  · have unread : ∀ c tail, isDigit c = false → readDigits 4 4 (c :: tail) = none := by
      intro c tail other
      simp [readDigits, other]
    rw [yearText, if_neg plain, readTemplate, readItem, List.cons_append, unread]
    · rfl
    · split <;> rfl

theorem spelling_solid : ∀ c ∈ spelling date clock, Text.isBlank c = false := by
  have solid : ∀ width n, ∀ c ∈ padded width n, Text.isBlank c = false := fun width n c member =>
    digit_solid c (padded_digits width n c member)
  have year : ∀ c ∈ yearText date.year, Text.isBlank c = false := by
    unfold yearText
    split
    · exact solid _ _
    · refine List.forall_mem_cons.mpr ⟨?_, solid _ _⟩
      split <;> decide
  simp only [spelling, dateText, clockText, millisText, List.forall_mem_append, List.forall_mem_cons]
  exact ⟨⟨⟨⟨year, by decide, solid _ _⟩, by decide, solid _ _⟩, by decide,
    ⟨solid _ _, by decide, solid _ _⟩, by decide, solid _ _⟩, by decide, solid _ _⟩

end

-- The instants that there are: of a year within the bounds, and of no more nanoseconds than a second has,
-- unless it is the last of a minute, which a leap second may follow.
structure Instant.Civil (instant : Instant) : Prop where
  dated : instant.isValid = true
  timed : instant.nano < nanosPerSecond ∨
    instant.second % 60 = 59 ∧ instant.nano < 2 * nanosPerSecond

instance (instant : Instant) : Decidable instant.Civil :=
  decidable_of_iff (instant.isValid = true ∧ (instant.nano < nanosPerSecond ∨
    instant.second % 60 = 59 ∧ instant.nano < 2 * nanosPerSecond))
    ⟨fun ⟨dated, timed⟩ => ⟨dated, timed⟩, fun civil => ⟨civil.dated, civil.timed⟩⟩

def Instant.wholeMillis (instant : Instant) : Instant :=
  ⟨instant.second, instant.nano / 1000000 * 1000000⟩

section

variable (instant : Instant) (civil : instant.Civil)

theorem whole_millis_twice : instant.wholeMillis.wholeMillis = instant.wholeMillis := by
  simp only [Instant.wholeMillis, Instant.mk.injEq, true_and]
  omega

include civil

theorem whole_millis_civil : instant.wholeMillis.Civil where
  dated := civil.dated
  timed := by
    have timed := civil.timed
    simp only [nanosPerSecond, Instant.wholeMillis] at timed ⊢
    omega

theorem clock_bounds : instant.clock.hour < 24 ∧ instant.clock.minute < 60 ∧
    instant.clock.second ≤ 60 ∧ instant.clock.nano < 1000000000 := by
  have timed := civil.timed
  simp only [Instant.clock, nanosPerSecond, secondsPerDay] at timed ⊢
  omega

theorem civil_spells : Spells instant.date instant.clock := by
  obtain ⟨hour, minute, second, nano⟩ := clock_bounds instant civil
  have valid : instant.date.isValid = true := civil.dated
  have longest : daysInMonth instant.date.year instant.date.month ≤ 31 := by
    unfold daysInMonth
    repeat' split
    all_goals omega
  simp only [Date.isValid, Bool.and_eq_true, decide_eq_true_eq] at valid
  obtain ⟨⟨⟨_, month⟩, _⟩, day⟩ := valid
  constructor
  all_goals omega

theorem of_parts_nano (nano : Nat) : Instant.ofParts instant.date { instant.clock with nano := nano } =
    ⟨instant.second, instant.nano / nanosPerSecond * nanosPerSecond + nano⟩ := by
  have timed := civil.timed
  have days : instant.date.toDays = instant.second / 86400 := to_days_of_days _
  simp only [Instant.ofParts, days, Instant.clock, nanosPerSecond, secondsPerDay] at timed ⊢
  have time : ((instant.second % 86400).toNat : Int) = instant.second % 86400 := by omega
  by_cases leap : (instant.second % 86400).toNat % 60 + instant.nano / 1000000000 = 60
  · rw [if_pos leap, Instant.mk.injEq]
    omega
  · rw [if_neg leap, Instant.mk.injEq]
    omega

theorem of_parts_civil :
    Instant.ofParts instant.date
      { instant.clock with nano := instant.clock.nano / 1000000 * 1000000 } = instant.wholeMillis := by
  rw [of_parts_nano instant civil]
  simp only [Instant.wholeMillis, Instant.clock, nanosPerSecond, Instant.mk.injEq, true_and]
  omega

theorem of_parts_exact : Instant.ofParts instant.date instant.clock = instant := by
  have parts := of_parts_nano instant civil instant.clock.nano
  have whole : instant.nano / nanosPerSecond * nanosPerSecond + instant.clock.nano = instant.nano :=
    Nat.div_add_mod' instant.nano nanosPerSecond
  rwa [whole] at parts

theorem display_reads : readInstant instant.display.toList = some instant.wholeMillis := by
  obtain ⟨hour, minute, second, _⟩ := clock_bounds instant civil
  have reading : Reading.toInstant? ⟨instant.date.year, instant.date.month, instant.date.day,
      { instant.clock with nano := instant.clock.nano / 1000000 * 1000000 }⟩ 0 =
        some instant.wholeMillis := by
    have valid : instant.date.isValid = true := civil.dated
    have whole : instant.wholeMillis.isValid = true := civil.dated
    have parts := of_parts_civil instant civil
    simp only [Reading.toInstant?]
    rw [parts, if_pos (by simp [valid, hour, minute, second])]
    simp [whole]
  rw [display_spelling, readInstant, spelling_no_interchange]
  simp only [localTemplates, List.findSome?_cons, readLocal,
    spelling_read _ _ (civil_spells instant civil), reading]

theorem interchange_reads : readFreeInterchange instant.interchange.toList = some instant := by
  obtain ⟨hour, minute, second, _⟩ := clock_bounds instant civil
  have reading : Reading.toInstant? ⟨instant.date.year, instant.date.month, instant.date.day, instant.clock⟩ 0 =
      some instant := by
    have valid : instant.date.isValid = true := civil.dated
    have whole : instant.isValid = true := civil.dated
    have parts := of_parts_exact instant civil
    simp only [Reading.toInstant?]
    rw [parts, if_pos (by simp [valid, hour, minute, second])]
    simp [whole]
  rw [readFreeInterchange, Instant.interchange, String.toList_ofList,
    interchange_read _ _ (civil_spells instant civil)]
  exact reading

end

theorem of_digits_below (ds : List Char) (digits : ∀ c ∈ ds, isDigit c = true) :
    ofDigits ds < 10 ^ ds.length := by
  induction ds using List.reverseRecOn with
  | nil => decide
  | append_singleton ds c ih =>
      rw [List.forall_mem_append] at digits
      have front := ih digits.1
      have code := Number.digit_code c (digits.2 c (by simp))
      have last : Number.digitValue c < 10 := by
        unfold Number.digitValue
        omega
      rw [Number.of_digits_snoc, List.length_append, List.length_singleton, Nat.pow_succ]
      omega

theorem nanos_below (ds : List Char) (digits : ∀ c ∈ ds, isDigit c = true) :
    nanosOfDigits ds < nanosPerSecond := by
  have few : (ds.take 9).length ≤ 9 := List.length_take_le 9 ds
  have below := of_digits_below (ds.take 9) fun c member => digits c (List.mem_of_mem_take member)
  calc nanosOfDigits ds
      < 10 ^ (ds.take 9).length * 10 ^ (9 - (ds.take 9).length) :=
        Nat.mul_lt_mul_of_pos_right below (Nat.pow_pos (by decide))
    _ = 10 ^ 9 := by rw [← Nat.pow_add, Nat.add_sub_cancel' few]
    _ = nanosPerSecond := rfl

theorem set_nano (reading : Reading) (part : Part) (value : Int) :
    (reading.set part value).clock.nano = reading.clock.nano := by
  cases part <;> rfl

theorem read_item_nano (reading next : Reading) (cs rest : List Char) (item : Item)
    (read : readItem reading cs item = some (next, rest)) (below : reading.clock.nano < nanosPerSecond) :
    next.clock.nano < nanosPerSecond := by
  cases item with
  | exactly | upTo | signed =>
      obtain ⟨_, _, same⟩ := Option.map_eq_some_iff.mp read
      cases same
      rwa [set_nano]
  | mark | anyOf =>
      cases cs with
      | nil => contradiction
      | cons d others =>
          dsimp only [readItem] at read
          split at read
          · cases read
            exact below
          · contradiction
  | blanks =>
      cases read
      exact below
  | fraction =>
      obtain ⟨⟨nano, _⟩, found, same⟩ := Option.map_eq_some_iff.mp read
      cases same
      unfold readFraction at found
      split at found
      · obtain ⟨⟨ds, _⟩, run, same⟩ := Option.map_eq_some_iff.mp found
        cases same
        refine nanos_below ds fun c member => ?_
        unfold readAllDigits at run
        dsimp only at run
        split at run
        · contradiction
        · cases run
          exact List.mem_takeWhile_imp member
      · cases found
        exact (by decide : 0 < nanosPerSecond)

theorem read_template_nano (template : Template) (reading next : Reading) (cs rest : List Char)
    (read : readTemplate template reading cs = some (next, rest))
    (below : reading.clock.nano < nanosPerSecond) : next.clock.nano < nanosPerSecond := by
  induction template generalizing reading cs with
  | nil =>
      cases read
      exact below
  | cons item items ih =>
      rw [readTemplate] at read
      split at read
      · next middle _ first => exact ih _ _ read (read_item_nano reading middle cs _ item first below)
      · contradiction

theorem to_instant_civil (reading : Reading) (offset : Int) (instant : Instant)
    (made : reading.toInstant? offset = some instant) (below : reading.clock.nano < nanosPerSecond)
    (whole : offset % 60 = 0) : instant.Civil := by
  rw [Reading.toInstant?] at made
  dsimp only at made
  split at made
  · split at made
    · next valid =>
        cases made
        refine ⟨valid, ?_⟩
        simp only [Instant.ofParts, nanosPerSecond, secondsPerDay] at below ⊢
        split
        · simp only
          omega
        · exact .inl below
    · contradiction
  · contradiction

theorem read_offset_whole (skip : List Char → Option (List Char)) (cs rest : List Char) (offset : Int)
    (read : readOffset skip cs = some (offset, rest)) : offset % 60 = 0 := by
  have signed : ∀ negative cs, readSignedOffset skip negative cs = some (offset, rest) → offset % 60 = 0 := by
    intro negative cs read
    unfold readSignedOffset at read
    split at read
    · contradiction
    · split at read
      · contradiction
      · split at read
        · contradiction
        · dsimp only at read
          split at read
          · cases read
            split <;> omega
          · contradiction
  unfold readOffset at read
  split at read
  · contradiction
  · split at read
    · cases read
      rfl
    · split at read
      · exact signed _ _ read
      · split at read
        · exact signed _ _ read
        · contradiction

theorem add_millis_civil (instant : Instant) (millis : Int)
    (valid : (instant.addMillis millis).isValid = true) : (instant.addMillis millis).Civil := by
  refine ⟨valid, .inl ?_⟩
  simp only [Instant.addMillis, nanosPerSecond]
  omega

theorem read_instant_civil (cs : List Char) (instant : Instant) (read : readInstant cs = some instant) :
    instant.Civil := by
  have blank : Reading.blank.clock.nano < nanosPerSecond := by decide
  unfold readInstant at read
  split at read
  · next strict =>
      cases read
      unfold readInterchange at strict
      split at strict
      · contradiction
      · next reading _ parts =>
          split at strict
          · next zone =>
              exact to_instant_civil reading _ instant strict
                (read_template_nano _ _ reading _ _ parts blank) (read_offset_whole _ _ _ _ zone)
          · contradiction
  · obtain ⟨template, _, found⟩ := List.exists_of_findSome?_eq_some read
    unfold readLocal at found
    split at found
    · next reading parts =>
        exact to_instant_civil reading 0 instant found (read_template_nano _ _ reading _ _ parts blank) rfl
    · contradiction

end Interlock.Calendar
