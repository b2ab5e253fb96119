import Interlock.Number.Binary

/-!
Decimal text of binary numbers: the shortest digits that read back, laid out plainly or with an
exponent, and a reader that rounds to nearest.
-/

set_option autoImplicit false

namespace Interlock.Number

structure Decimal where
  coefficient : Nat
  exponent : Int
deriving DecidableEq, Repr

inductive Tie where
  | upward
  | toEven
deriving DecidableEq, Repr

def tenUp (exponent : Int) : Nat := Nat.pow 10 exponent.toNat

def tenDown (exponent : Int) : Nat := Nat.pow 10 (-exponent).toNat

-- The decimals that read back as a given count of quanta lie between two bounds, given here in
-- quarter quanta. The bounds themselves belong to the span when the significand is even.
structure Span where
  lower : Nat
  middle : Nat
  upper : Nat
  closed : Bool
deriving DecidableEq, Repr

def Span.around (quanta : Nat) : Span :=
  let scale := scaleOf quanta
  let gap := Nat.pow 2 scale
  let significand := quanta / gap
  let below := if significand = Nat.pow 2 52 ∧ 0 < scale then gap else 2 * gap
  { lower := 4 * quanta - below, middle := 4 * quanta, upper := 4 * quanta + 2 * gap,
    closed := significand % 2 == 0 }

def Span.holds (span : Span) (point denominator : Nat) : Bool :=
  if span.closed then span.lower * denominator ≤ point && point ≤ span.upper * denominator
  else span.lower * denominator < point && point < span.upper * denominator

-- The point of the grid of multiples of `10 ^ exponent` that stands for the span: of the two
-- neighbours of the middle, the one inside, or the nearer one if both are.
def Span.gridPoint (span : Span) (tie : Tie) (exponent : Int) : Option Nat :=
  let step := tenUp exponent * (4 * unit)
  let denominator := tenDown exponent
  let middle := span.middle * denominator
  let low := middle / step
  let lowHolds := low != 0 && span.holds (low * step) denominator
  let highHolds := span.holds ((low + 1) * step) denominator
  let towardHigh := compare (2 * (middle % step)) step
  if lowHolds && highHolds then
    match towardHigh with
    | .lt => some low
    | .gt => some (low + 1)
    | .eq =>
        match tie with
        | .upward => some (low + 1)
        | .toEven => some (if low % 2 = 0 then low else low + 1)
  else if lowHolds then some low
  else if highHolds then some (low + 1)
  else none

-- Walks to finer grids. Every count of quanta is a multiple of `10 ^ (-1074)`, so the exact value
-- is there in the end.
def coarsestPoint (quanta : Nat) (tie : Tie) : Nat → Int → Decimal
  | 0, _ => ⟨quanta * Nat.pow 5 1074, -1074⟩
  | fuel + 1, exponent =>
      match (Span.around quanta).gridPoint tie exponent with
      | some point => ⟨point, exponent⟩
      | none => coarsestPoint quanta tie fuel (exponent - 1)

-- No smaller power of ten reaches past the span: 30103 / 100000 is just above the decimal
-- logarithm of two.
def startExponent (quanta : Nat) : Int :=
  ((quanta.log2 : Int) - 1072) * 30103 / 100000 + 2

def shortest (tie : Tie) (quanta : Nat) : Decimal :=
  if quanta = 0 then ⟨0, 0⟩
  else
    let start := startExponent quanta
    coarsestPoint quanta tie (start + 1075).toNat start

def digitChar (digit : Nat) : Char := Char.ofNat (48 + digit)

def digits (n : Nat) : List Char :=
  if n < 10 then [digitChar n] else digits (n / 10) ++ [digitChar (n % 10)]
termination_by n
decreasing_by omega

def zeros (count : Nat) : List Char := List.replicate count '0'

-- Positional layout: no exponent, no mark without a fraction.
def Decimal.plain (decimal : Decimal) : List Char :=
  let ds := digits decimal.coefficient
  if 0 ≤ decimal.exponent then
    if decimal.coefficient = 0 then ds else ds ++ zeros decimal.exponent.toNat
  else
    let places := (-decimal.exponent).toNat
    if places < ds.length then
      ds.take (ds.length - places) ++ '.' :: ds.drop (ds.length - places)
    else '0' :: '.' :: (zeros (places - ds.length) ++ ds)

-- Layout of data files: a fraction or an exponent with its sign always marks the number. Positional
-- while the decimal mark stands from five places before the digits to sixteen after their start.
def Decimal.marked (decimal : Decimal) : List Char :=
  let ds := digits decimal.coefficient
  let mark : Int := ds.length + decimal.exponent
  if 0 ≤ decimal.exponent ∧ mark ≤ 16 then decimal.plain ++ ['.', '0']
  else if decimal.exponent < 0 ∧ -5 < mark ∧ mark ≤ 16 then decimal.plain
  else
    let power := mark - 1
    let tail := (if power < 0 then '-' else '+') :: digits power.natAbs
    match ds with
    | [digit] => digit :: 'e' :: tail
    | digit :: rest => digit :: '.' :: (rest ++ 'e' :: tail)
    | [] => 'e' :: tail

def signText (negative : Bool) : List Char := if negative then ['-'] else []

def toPlainText (x : Float) : String :=
  match exact x with
  | .finite negative quanta => String.ofList (signText negative ++ (shortest .upward quanta).plain)
  | .infinite negative => String.ofList (signText negative ++ "inf".toList)
  | .undefined => "NaN"

def toMarkedText (x : Float) : Option String :=
  match exact x with
  | .finite negative quanta => some (String.ofList (signText negative ++ (shortest .toEven quanta).marked))
  | .infinite _ | .undefined => none

-- A decimal with more digits before its mark than any finite number, or smaller than half the
-- smallest one, is settled without computing its power of ten.
def Decimal.toFloat (negative : Bool) (decimal : Decimal) : Float :=
  let mark : Int := (digits decimal.coefficient).length + decimal.exponent
  if decimal.coefficient = 0 then ofQuanta negative 0
  else if 310 < mark then infinity negative
  else if mark < -330 then ofQuanta negative 0
  else
    ofRatio negative (decimal.coefficient * tenUp decimal.exponent * unit) (tenDown decimal.exponent)

def isDigit (c : Char) : Bool := '0' ≤ c && c ≤ '9'

def digitValue (c : Char) : Nat := c.toNat - 48

def ofDigits (ds : List Char) : Nat := ds.foldl (fun n c => 10 * n + digitValue c) 0

def splitSign : List Char → Bool × List Char
  | '+' :: rest => (false, rest)
  | '-' :: rest => (true, rest)
  | cs => (false, cs)

-- The exponent part: empty, or a mark, an optional sign and at least one digit.
def readExponent : List Char → Option Int
  | [] => some 0
  | c :: rest =>
      if c = 'e' || c = 'E' then
        let (negative, ds) := splitSign rest
        if ds.isEmpty || !ds.all isDigit then none
        else some (if negative then -(ofDigits ds : Int) else ofDigits ds)
      else none

-- Digits with an optional fraction and an optional exponent; at least one digit stands before
-- the exponent.
def readDecimal (cs : List Char) : Option Decimal :=
  let whole := cs.takeWhile isDigit
  let (fraction, rest) :=
    match cs.dropWhile isDigit with
    | '.' :: after => (after.takeWhile isDigit, after.dropWhile isDigit)
    | after => ([], after)
  if whole.isEmpty && fraction.isEmpty then none
  else
    (readExponent rest).map fun exponent => ⟨ofDigits (whole ++ fraction), exponent - fraction.length⟩

def lowerAscii (cs : List Char) : List Char := cs.map Char.toLower

def readNamed (negative : Bool) (cs : List Char) : Option Float :=
  let name := lowerAscii cs
  if name = "inf".toList || name = "infinity".toList then some (infinity negative)
  else if name = "nan".toList then some nan
  else none

def read (cs : List Char) : Option Float :=
  let (negative, body) := splitSign cs
  match readDecimal body with
  | some decimal => some (decimal.toFloat negative)
  | none => readNamed negative body

def readText (text : String) : Option Float := read text.toList

end Interlock.Number
