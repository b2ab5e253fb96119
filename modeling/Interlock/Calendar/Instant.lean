import Interlock.Calendar.Date
import Interlock.Number.Decimal

/-!
Points in time: seconds of universal time since 1970 and nanoseconds. In a leap second the
nanoseconds run on past the end of the second before it.
-/

set_option autoImplicit false

namespace Interlock.Calendar

open Interlock.Number (digits zeros)

structure Instant where
  second : Int
  nano : Nat
deriving DecidableEq, Repr

def nanosPerSecond : Nat := 1000000000

def secondsPerDay : Int := 86400

def compareInstants (a b : Instant) : Ordering :=
  (compare a.second b.second).then (compare a.nano b.nano)

-- The hands of a clock; the second shows 60 in a leap second.
structure Clock where
  hour : Nat
  minute : Nat
  second : Nat
  nano : Nat
deriving DecidableEq, Repr

namespace Instant

def isValid (instant : Instant) : Bool :=
  (Date.ofDays (instant.second / secondsPerDay)).isValid

def date (instant : Instant) : Date := Date.ofDays (instant.second / secondsPerDay)

def clock (instant : Instant) : Clock :=
  let time := (instant.second % secondsPerDay).toNat
  { hour := time / 3600, minute := time / 60 % 60,
    second := time % 60 + instant.nano / nanosPerSecond, nano := instant.nano % nanosPerSecond }

-- The instant of a date and time of day; second 60 is the leap second after second 59.
def ofParts (date : Date) (clock : Clock) : Instant :=
  let time := 3600 * clock.hour + 60 * clock.minute
  let base := date.toDays * secondsPerDay + time
  if clock.second = 60 then ⟨base + 59, clock.nano + nanosPerSecond⟩
  else ⟨base + clock.second, clock.nano⟩

def addMillis (instant : Instant) (millis : Int) : Instant :=
  let total : Int := instant.nano + millis % 1000 * 1000000
  ⟨instant.second + millis / 1000 + total / nanosPerSecond, (total % nanosPerSecond).toNat⟩

def addNanos (instant : Instant) (nanos : Nat) : Instant :=
  ⟨instant.second + ((instant.nano + nanos) / nanosPerSecond : Nat),
    (instant.nano + nanos) % nanosPerSecond⟩

end Instant

def padded (width n : Nat) : List Char :=
  let ds := digits n
  zeros (width - ds.length) ++ ds

-- Years of four digits stand plain; all others carry their sign.
def yearText (year : Int) : List Char :=
  if 0 ≤ year ∧ year ≤ 9999 then padded 4 year.toNat
  else (if year < 0 then '-' else '+') :: padded 4 year.natAbs

def dateText (separator : Char) (date : Date) : List Char :=
  yearText date.year ++ separator :: padded 2 date.month ++ separator :: padded 2 date.day

def clockText (clock : Clock) : List Char :=
  padded 2 clock.hour ++ ':' :: padded 2 clock.minute ++ ':' :: padded 2 clock.second

def millisText (clock : Clock) : List Char := '.' :: padded 3 (clock.nano / 1000000)

-- The text of an instant in messages and listings: whole milliseconds, the rest cut off.
def Instant.display (instant : Instant) : String :=
  String.ofList
    (dateText '/' instant.date ++ 'T' :: clockText instant.clock ++ millisText instant.clock)

def Instant.timeText (instant : Instant) : String :=
  String.ofList (clockText instant.clock ++ millisText instant.clock)

def fractionText (nano : Nat) : List Char :=
  if nano = 0 then []
  else if nano % 1000000 = 0 then '.' :: padded 3 (nano / 1000000)
  else if nano % 1000 = 0 then '.' :: padded 6 (nano / 1000)
  else '.' :: padded 9 nano

def Instant.interchange (instant : Instant) : String :=
  String.ofList
    (dateText '-' instant.date ++ 'T' :: clockText instant.clock ++
      fractionText instant.clock.nano ++ ['Z'])

end Interlock.Calendar
