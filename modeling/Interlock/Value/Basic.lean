import Interlock.Calendar.Reader
import Interlock.Number.Rounding
import Interlock.Text.Blank

/-!
Values of channels, variables and comparisons: four kinds, their literals, conversions between kinds,
identity and order.
-/

set_option autoImplicit false

namespace Interlock

open Interlock.Calendar (Instant)
open Interlock.Number (isDigit)

inductive Kind where
  | number
  | bool
  | timestamp
  | text
deriving DecidableEq, Repr

def Kind.name : Kind → String
  | .number => "Number"
  | .bool => "Bool"
  | .timestamp => "Timestamp"
  | .text => "Text"

def Kind.all : List Kind := [.number, .bool, .timestamp, .text]

def Kind.ofName? (name : String) : Option Kind := Kind.all.find? fun kind => kind.name == name

inductive Value where
  | number (x : Float)
  | bool (b : Bool)
  | timestamp (instant : Instant)
  | text (content : String)
deriving DecidableEq, Repr

namespace Value

def kind : Value → Kind
  | number _ => .number
  | bool _ => .bool
  | timestamp _ => .timestamp
  | text _ => .text

def display : Value → String
  | number x => Number.toPlainText x
  | bool b => if b then "true" else "false"
  | timestamp instant => instant.display
  | text content => content

def readBool (literal : List Char) : Option Bool :=
  let word := Number.lowerAscii literal
  if word = "true".toList then some true
  else if word = "false".toList then some false
  else none

-- A number begins with a digit or a point behind an optional sign, so no name is one.
def readNumber (literal : List Char) : Option Float :=
  match (Number.splitSign literal).2 with
  | [] => none
  | c :: _ => if isDigit c || c == '.' then Number.read literal else none

-- The value that a literal denotes on its own: the first kind that can read it, or the text
-- itself.
def infer (literal : String) : Value :=
  let trimmed := Text.trim literal.toList
  match readBool trimmed with
  | some b => .bool b
  | none =>
      match readNumber trimmed with
      | some x => .number x
      | none =>
          match Calendar.readInstant trimmed with
          | some instant => .timestamp instant
          | none => .text literal

-- The nearest whole number; a half goes away from zero.
def roundAway (x : Float) : Option Int :=
  match Number.exact x with
  | .finite negative quanta =>
      let whole : Int := (2 * quanta + Number.unit) / (2 * Number.unit)
      some (if negative then -whole else whole)
  | .infinite _ | .undefined => none

-- An instant so many seconds after `now`, in whole milliseconds. A span too long for a number has
-- no end.
def secondsFrom (now : Instant) (seconds : Float) : Option Instant :=
  match roundAway (seconds * 1000) with
  | some millis =>
      let instant := now.addMillis millis
      if instant.isValid then some instant else none
  | none => none

-- Reads a literal as a value of one kind. A number read as a timestamp counts seconds from
-- `now`.
def readAs (now : Instant) (literal : String) (kind : Kind) : Option Value :=
  let trimmed := Text.trim literal.toList
  match kind with
  | .number => (readNumber trimmed).map .number
  | .bool => (readBool trimmed).map .bool
  | .timestamp =>
      match Calendar.readInstant trimmed with
      | some instant => some (.timestamp instant)
      | none => ((readNumber trimmed).bind (secondsFrom now)).map .timestamp
  | .text => some (.text literal)

-- Converts to another kind, if there is a conversion.
def coerce (now : Instant) (value : Value) (kind : Kind) : Option Value :=
  if value.kind = kind then some value
  else
    match value, kind with
    | .bool b, .number => some (.number (if b then 1 else 0))
    | .number x, .bool => some (.bool (!(x == 0)))
    | .text content, kind => readAs now content kind
    | value, .text => some (.text value.display)
    | _, _ => none

-- Identity, by which a change is told from a repetition. The two zeros differ; an undefined number
-- is itself.
def sameAs (a b : Value) : Bool := a == b

def compareNumbers (x y : Float) : Option Ordering :=
  if x < y then some .lt else if x == y then some .eq else if y < x then some .gt else none

def compareBools (a b : Bool) : Ordering := compare a.toNat b.toNat

-- The order within one kind; none between kinds, nor with an undefined number.
def compare? : Value → Value → Option Ordering
  | number x, number y => compareNumbers x y
  | bool a, bool b => some (compareBools a b)
  | timestamp a, timestamp b => some (Calendar.compareInstants a b)
  | text a, text b => some (compare a b)
  | _, _ => none

-- Equality of contents, by which an undefined number differs from itself and the two zeros agree.
def agrees : Value → Value → Bool
  | number x, number y => x == y
  | a, b => a == b

def asNumber : Value → Option Float
  | number x => some x
  | _ => none

def asBool : Value → Option Bool
  | bool b => some b
  | _ => none

end Value

end Interlock
