import Interlock.Calendar.Instant
import Interlock.Text.Blank

/-!
Readers of instants: the interchange form of RFC 3339, strict or with free blanks, and local forms
without an offset. Local time is universal time.
-/

set_option autoImplicit false

namespace Interlock.Calendar

open Interlock.Number (isDigit ofDigits)

inductive Part where
  | year
  | month
  | day
  | hour
  | minute
  | second
deriving DecidableEq, Repr

inductive Item where
  -- exactly so many digits
  | exactly (part : Part) (width : Nat)
  -- after any blanks, up to so many digits
  | upTo (part : Part) (width : Nat)
  -- as above; behind a sign any number of digits
  | signed (part : Part) (width : Nat)
  | mark (c : Char)
  | anyOf (cs : List Char)
  | blanks
  -- an optional point with at least one digit behind it
  | fraction
deriving DecidableEq, Repr

abbrev Template := List Item

structure Reading where
  year : Int
  month : Nat
  day : Nat
  clock : Clock
deriving DecidableEq, Repr

def Reading.blank : Reading := ⟨0, 0, 0, ⟨0, 0, 0, 0⟩⟩

def Reading.set (reading : Reading) (part : Part) (value : Int) : Reading :=
  match part with
  | .year => { reading with year := value }
  | .month => { reading with month := value.toNat }
  | .day => { reading with day := value.toNat }
  | .hour => { reading with clock := { reading.clock with hour := value.toNat } }
  | .minute => { reading with clock := { reading.clock with minute := value.toNat } }
  | .second => { reading with clock := { reading.clock with second := value.toNat } }

def readDigits (least most : Nat) (cs : List Char) : Option (List Char × List Char) :=
  let ds := (cs.take most).takeWhile isDigit
  if ds.length < least then none else some (ds, cs.drop ds.length)

def readAllDigits (cs : List Char) : Option (List Char × List Char) :=
  let ds := cs.takeWhile isDigit
  if ds.isEmpty then none else some (ds, cs.dropWhile isDigit)

def readSigned (width : Nat) : List Char → Option (Int × List Char)
  | '-' :: rest => (readAllDigits rest).map fun (ds, rest) => (-(ofDigits ds : Int), rest)
  | '+' :: rest => (readAllDigits rest).map fun (ds, rest) => ((ofDigits ds : Int), rest)
  | cs => (readDigits 1 width cs).map fun (ds, rest) => ((ofDigits ds : Int), rest)

-- Nanoseconds from the digits of a fraction; those behind the ninth are dropped.
def nanosOfDigits (ds : List Char) : Nat :=
  let kept := ds.take 9
  ofDigits kept * Nat.pow 10 (9 - kept.length)

def readFraction : List Char → Option (Nat × List Char)
  | '.' :: rest => (readAllDigits rest).map fun (ds, rest) => (nanosOfDigits ds, rest)
  | cs => some (0, cs)

def readItem (reading : Reading) (cs : List Char) : Item → Option (Reading × List Char)
  | .exactly part width =>
      (readDigits width width cs).map fun (ds, rest) => (reading.set part (ofDigits ds), rest)
  | .upTo part width =>
      (readDigits 1 width (Text.trimStart cs)).map fun (ds, rest) =>
        (reading.set part (ofDigits ds), rest)
  | .signed part width =>
      (readSigned width (Text.trimStart cs)).map fun (value, rest) => (reading.set part value, rest)
  | .mark c =>
      match cs with
      | d :: rest => if d = c then some (reading, rest) else none
      | [] => none
  | .anyOf options =>
      match cs with
      | d :: rest => if options.contains d then some (reading, rest) else none
      | [] => none
  | .blanks => some (reading, Text.trimStart cs)
  | .fraction =>
      (readFraction cs).map fun (nano, rest) =>
        ({ reading with clock := { reading.clock with nano := nano } }, rest)

def readTemplate : Template → Reading → List Char → Option (Reading × List Char)
  | [], reading, cs => some (reading, cs)
  | item :: items, reading, cs =>
      match readItem reading cs item with
      | some (next, rest) => readTemplate items next rest
      | none => none

def Reading.toInstant? (reading : Reading) (offset : Int) : Option Instant :=
  let date : Date := ⟨reading.year, reading.month, reading.day⟩
  let clock := reading.clock
  if date.isValid && clock.hour < 24 && clock.minute < 60 && clock.second ≤ 60 then
    let ahead := Instant.ofParts date clock
    let instant : Instant := ⟨ahead.second - offset, ahead.nano⟩
    if instant.isValid then some instant else none
  else none

def readSignedOffset (skipSeparator : List Char → Option (List Char)) (negative : Bool)
    (cs : List Char) : Option (Int × List Char) :=
  match readDigits 2 2 cs with
  | none => none
  | some (hours, rest) =>
      match skipSeparator rest with
      | none => none
      | some rest =>
          match readDigits 2 2 rest with
          | none => none
          | some (minutes, rest) =>
              let seconds : Int := ofDigits hours * 3600 + ofDigits minutes * 60
              if ofDigits minutes < 60 ∧ seconds < secondsPerDay then
                some (if negative then -seconds else seconds, rest)
              else none

-- An offset: the letter of universal time, or a sign, two digits of hours and two of minutes.
def readOffset (skipSeparator : List Char → Option (List Char)) :
    List Char → Option (Int × List Char)
  | [] => none
  | c :: rest =>
      if c = 'Z' ∨ c = 'z' then some (0, rest)
      else if c = '+' then readSignedOffset skipSeparator false rest
      else if c = '-' ∨ c = '−' then readSignedOffset skipSeparator true rest
      else none

def skipColon : List Char → Option (List Char)
  | ':' :: rest => some rest
  | _ => none

def skipColonsAndBlanks (cs : List Char) : Option (List Char) :=
  some (cs.dropWhile fun c => c == ':' || Text.isBlank c)

def dateTimeMarks : List Char := ['T', 't', ' ']

def interchangeTemplate : Template :=
  [.exactly .year 4, .mark '-', .exactly .month 2, .mark '-', .exactly .day 2, .anyOf dateTimeMarks,
    .exactly .hour 2, .mark ':', .exactly .minute 2, .mark ':', .exactly .second 2, .fraction]

def readInterchange (cs : List Char) : Option Instant :=
  match readTemplate interchangeTemplate .blank cs with
  | none => none
  | some (reading, rest) =>
      match readOffset skipColon rest with
      | some (offset, []) => reading.toInstant? offset
      | _ => none

-- The interchange form with blanks between its parts, unpadded numbers and signed years.
def freeInterchangeTemplate : Template :=
  [.signed .year 4, .blanks, .mark '-', .upTo .month 2, .blanks, .mark '-', .upTo .day 2,
    .anyOf dateTimeMarks, .upTo .hour 2, .blanks, .mark ':', .upTo .minute 2, .blanks, .mark ':',
    .upTo .second 2, .fraction, .blanks]

def readZone (cs : List Char) : Option (Int × List Char) :=
  if (cs.take 3).map Char.toUpper = ['U', 'T', 'C'] then some (0, cs.drop 3)
  else readOffset skipColonsAndBlanks cs

def readFreeInterchange (cs : List Char) : Option Instant :=
  match readTemplate freeInterchangeTemplate .blank cs with
  | none => none
  | some (reading, rest) =>
      match readZone rest with
      | none => none
      | some (offset, rest) =>
          if rest.all Text.isBlank then reading.toInstant? offset else none

def localTemplate (separator : Char) (between : Item) : Template :=
  [.signed .year 4, .mark separator, .upTo .month 2, .mark separator, .upTo .day 2, between,
    .upTo .hour 2, .mark ':', .upTo .minute 2, .mark ':', .upTo .second 2, .fraction]

def localTemplates : List Template :=
  [localTemplate '/' (.mark 'T'), localTemplate '-' (.mark 'T'), localTemplate '/' .blanks,
    localTemplate '-' .blanks]

def readLocal (template : Template) (cs : List Char) : Option Instant :=
  match readTemplate template .blank cs with
  | some (reading, []) => reading.toInstant? 0
  | _ => none

-- Reads a literal: the strict interchange form first, then the local forms in turn.
def readInstant (cs : List Char) : Option Instant :=
  match readInterchange cs with
  | some instant => some instant
  | none => localTemplates.findSome? fun template => readLocal template cs

end Interlock.Calendar
