import Interlock.Calendar.Date
import Interlock.Toml.Lexeme
import Interlock.Toml.Tree

/-!
Numbers and dates of a TOML document.
-/

set_option autoImplicit false

namespace Interlock.Toml

open Interlock.Number (spanDigits ofDigits ofDigitsIn takeDigits isDigit)

-- A whole number without superfluous zeros in front.
def readWhole (cs : List Char) : Option (List Char × List Char) :=
  match spanDigits 10 cs with
  | ([], _) => none
  | ('0' :: _ :: _, _) => none
  | found => some found

def readRun (cs : List Char) : Option (List Char × List Char) :=
  match spanDigits 10 cs with
  | ([], _) => none
  | found => some found

def readFraction : List Char → Option (List Char × List Char)
  | '.' :: rest => readRun rest
  | cs => some ([], cs)

-- An exponent with its sign; zero without one.
def readExponent : List Char → Option (Int × List Char)
  | c :: rest =>
      if c = 'e' ∨ c = 'E' then
        let (negative, rest) := Number.splitSign rest
        (readRun rest).map fun (ds, rest) =>
          (if negative then -(ofDigits ds : Int) else ofDigits ds, rest)
      else some (0, c :: rest)
  | [] => some (0, [])

-- A number too large to be finite is refused; one too small is infinite.
def float? (x : Float) : Option Tree :=
  if x == Number.infinity false then none else some (.float x)

def integer? (n : Int) : Option Tree := if fits n then some (.integer n) else none

-- A decimal number. It is an integer unless a fraction or an exponent follows.
def readDecimal (negative : Bool) (cs : List Char) : Option (Tree × List Char) :=
  match readWhole cs with
  | none => none
  | some (whole, rest) =>
      match readFraction rest with
      | none => none
      | some (fraction, behind) =>
          match readExponent behind with
          | none => none
          | some (exponent, last) =>
              let tree :=
                if rest.length = last.length then
                  integer? (if negative then -(ofDigits whole : Int) else ofDigits whole)
                else
                  float? (Number.Decimal.toFloat negative
                    ⟨ofDigits (whole ++ fraction), exponent - fraction.length⟩)
              tree.map fun tree => (tree, last)

def readBased (base : Nat) (cs : List Char) : Option (Tree × List Char) :=
  match spanDigits base cs with
  | ([], _) => none
  | (ds, rest) => (integer? (ofDigitsIn base ds)).map fun tree => (tree, rest)

-- The names of the numbers that are not finite.
def readNamed (negative : Bool) : List Char → Option (Tree × List Char)
  | 'i' :: 'n' :: 'f' :: rest => some (.float (Number.infinity negative), rest)
  | 'n' :: 'a' :: 'n' :: rest => some (.float Number.nan, rest)
  | _ => none

def readNumber (cs : List Char) : Option (Tree × List Char) :=
  match cs with
  | '0' :: 'x' :: rest => readBased 16 rest
  | '0' :: 'o' :: rest => readBased 8 rest
  | '0' :: 'b' :: rest => readBased 2 rest
  | cs =>
      let (negative, body) := Number.splitSign cs
      match readNamed negative body with
      | some found => some found
      | none => readDecimal negative body

def readField (count least most : Nat) (cs : List Char) : Option (Nat × List Char) :=
  match takeDigits 10 count cs with
  | some (n, rest) => if least ≤ n ∧ n ≤ most then some (n, rest) else none
  | none => none

def skipMark (mark : Char) : List Char → Option (List Char)
  | c :: rest => if c = mark then some rest else none
  | [] => none

def skipSecondFraction : List Char → Option (List Char)
  | '.' :: rest =>
      if (rest.takeWhile isDigit).isEmpty then none else some (rest.dropWhile isDigit)
  | cs => some cs

def skipTime (cs : List Char) : Option (List Char) := do
  let (_, cs) ← readField 2 0 23 cs
  let cs ← skipMark ':' cs
  let (_, cs) ← readField 2 0 59 cs
  let cs ← skipMark ':' cs
  let (_, cs) ← readField 2 0 60 cs
  skipSecondFraction cs

def skipOffset (cs : List Char) : Option (List Char) :=
  match cs with
  | c :: rest =>
      if c = 'Z' ∨ c = 'z' then some rest
      else if c = '+' ∨ c = '-' then do
        let (_, cs) ← readField 2 0 23 rest
        let cs ← skipMark ':' cs
        let (_, cs) ← readField 2 0 59 cs
        return cs
      else some cs
  | [] => some []

def skipDay (cs : List Char) : Option (List Char) := do
  let (year, cs) ← readField 4 0 9999 cs
  let cs ← skipMark '-' cs
  let (month, cs) ← readField 2 1 12 cs
  let cs ← skipMark '-' cs
  let (_, cs) ← readField 2 1 (Calendar.daysInMonth year month) cs
  return cs

def skipDate (cs : List Char) : Option (List Char) :=
  match skipDay cs with
  | none => skipTime cs
  | some (c :: rest) =>
      if c = 'T' ∨ c = 't' ∨ c = ' ' then
        match skipTime rest with
        | some rest => skipOffset rest
        | none => some (c :: rest)
      else some (c :: rest)
  | some [] => some []

def readDate (cs : List Char) : Option (Tree × List Char) :=
  (skipDate cs).map fun rest =>
    (.date (String.ofList (cs.take (cs.length - rest.length))), rest)

end Interlock.Toml
