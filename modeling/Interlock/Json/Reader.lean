import Interlock.Number.Radix

/-!
A reader of JSON texts. Numbers keep the parts of their literal, and strings and names may hold
escapes that form no text, for both matter only where the value is used.
-/

set_option autoImplicit false

namespace Interlock.Json

open Interlock.Number (isDigit ofDigits)

-- The parts of a number: digits before and behind the point, and the exponent.
structure Literal where
  negative : Bool
  whole : List Char
  fraction : List Char
  exponent : Option Int
deriving DecidableEq, Repr

inductive Document where
  | null
  | bool (b : Bool)
  | number (literal : Literal)
  -- absent if an escape names half of a surrogate pair
  | text (content : Option String)
  | array (items : List Document)
  | object (members : List (Option String × Document))

def isSpace (c : Char) : Bool := c == ' ' || c == '\t' || c == '\n' || c == '\r'

def skipSpaces (cs : List Char) : List Char := cs.dropWhile isSpace

-- A code unit of a string: a character as it stands, or a sixteen-bit unit from an escape.
inductive Piece where
  | char (c : Char)
  | codeUnit (n : Nat)
deriving DecidableEq, Repr

def escaped (c : Char) : Option Char :=
  if c = '"' ∨ c = '\\' ∨ c = '/' then some c
  else if c = 'b' then some (Char.ofNat 8)
  else if c = 'f' then some (Char.ofNat 12)
  else if c = 'n' then some '\n'
  else if c = 'r' then some '\r'
  else if c = 't' then some '\t'
  else none

def readPieces : Nat → List Char → List Piece → Option (List Piece × List Char)
  | 0, _, _ => none
  | _, [], _ => none
  | fuel + 1, c :: rest, gathered =>
      if c = '"' then some (gathered.reverse, rest)
      else if c.toNat < 32 then none
      else if c = '\\' then
        match rest with
        | [] => none
        | e :: rest =>
            if e = 'u' then
              match Number.takeDigits 16 4 rest with
              | some (code, rest) => readPieces fuel rest (.codeUnit code :: gathered)
              | none => none
            else
              match escaped e with
              | some d => readPieces fuel rest (.char d :: gathered)
              | none => none
      else readPieces fuel rest (.char c :: gathered)

def isHigh (n : Nat) : Bool := 0xd800 ≤ n && n < 0xdc00

def isLow (n : Nat) : Bool := 0xdc00 ≤ n && n < 0xe000

-- Two escaped halves make one character; a half alone makes none.
def joinPieces : List Piece → Option (List Char)
  | [] => some []
  | .char c :: rest => (joinPieces rest).map (c :: ·)
  | .codeUnit high :: .codeUnit low :: rest =>
      if isHigh high && isLow low then
        (joinPieces rest).map (Char.ofNat (0x10000 + (high - 0xd800) * 1024 + (low - 0xdc00)) :: ·)
      else if isHigh high || isLow high then none
      else (joinPieces (.codeUnit low :: rest)).map (Char.ofNat high :: ·)
  | .codeUnit code :: rest =>
      if isHigh code || isLow code then none else (joinPieces rest).map (Char.ofNat code :: ·)

def readString (cs : List Char) : Option (Option String × List Char) :=
  (readPieces (cs.length + 1) cs []).map fun (pieces, rest) =>
    ((joinPieces pieces).map String.ofList, rest)

-- No zero stands in front of other digits.
def readWhole (cs : List Char) : Option (List Char × List Char) :=
  match cs with
  | '0' :: rest =>
      match rest with
      | d :: _ => if isDigit d then none else some (['0'], rest)
      | [] => some (['0'], [])
  | _ =>
      let ds := cs.takeWhile isDigit
      if ds.isEmpty then none else some (ds, cs.dropWhile isDigit)

def readFraction : List Char → Option (List Char × List Char)
  | '.' :: rest =>
      let ds := rest.takeWhile isDigit
      if ds.isEmpty then none else some (ds, rest.dropWhile isDigit)
  | cs => some ([], cs)

def readPower : List Char → Option (Option Int × List Char)
  | [] => some (none, [])
  | c :: rest =>
      if c = 'e' ∨ c = 'E' then
        let (negative, body) := Number.splitSign rest
        let ds := body.takeWhile isDigit
        if ds.isEmpty then none
        else
          let power : Int := ofDigits ds
          some (some (if negative then -power else power), body.dropWhile isDigit)
      else some (none, c :: rest)

def readNumber (cs : List Char) : Option (Literal × List Char) :=
  let (negative, body) :=
    match cs with
    | '-' :: rest => (true, rest)
    | _ => (false, cs)
  match readWhole body with
  | none => none
  | some (whole, rest) =>
      match readFraction rest with
      | none => none
      | some (fraction, rest) =>
          (readPower rest).map fun (exponent, rest) => (⟨negative, whole, fraction, exponent⟩, rest)

def readWord (word : String) (cs : List Char) : Option (List Char) :=
  let expected := word.toList
  if cs.take expected.length = expected then some (cs.drop expected.length) else none

mutual

def readDocument : Nat → List Char → Option (Document × List Char)
  | 0, _ => none
  | fuel + 1, cs =>
      match skipSpaces cs with
      | [] => none
      | c :: rest =>
          if c = '"' then (readString rest).map fun (content, rest) => (.text content, rest)
          else if c = '[' then
            match skipSpaces rest with
            | ']' :: rest => some (.array [], rest)
            | rest => (readItems fuel rest).map fun (items, rest) => (.array items, rest)
          else if c = '\x7b' then
            match skipSpaces rest with
            | '\x7d' :: rest => some (.object [], rest)
            | rest => (readMembers fuel rest).map fun (members, rest) => (.object members, rest)
          else if c = 'n' then (readWord "ull" rest).map fun rest => (.null, rest)
          else if c = 't' then (readWord "rue" rest).map fun rest => (.bool true, rest)
          else if c = 'f' then (readWord "alse" rest).map fun rest => (.bool false, rest)
          else (readNumber (c :: rest)).map fun (literal, rest) => (.number literal, rest)

def readItems : Nat → List Char → Option (List Document × List Char)
  | 0, _ => none
  | fuel + 1, cs =>
      match readDocument fuel cs with
      | none => none
      | some (item, rest) =>
          match skipSpaces rest with
          | ']' :: rest => some ([item], rest)
          | ',' :: rest => (readItems fuel rest).map fun (items, rest) => (item :: items, rest)
          | _ => none

def readMembers : Nat → List Char → Option (List (Option String × Document) × List Char)
  | 0, _ => none
  | fuel + 1, cs =>
      match skipSpaces cs with
      | '"' :: rest =>
          match readString rest with
          | some (name, rest) =>
              match skipSpaces rest with
              | ':' :: rest =>
                  match readDocument fuel rest with
                  | none => none
                  | some (member, rest) =>
                      match skipSpaces rest with
                      | '\x7d' :: rest => some ([(name, member)], rest)
                      | ',' :: rest =>
                          (readMembers fuel rest).map fun (members, rest) =>
                            ((name, member) :: members, rest)
                      | _ => none
              | _ => none
          | none => none
      | _ => none

end

def Document.read (text : String) : Option Document :=
  let cs := text.toList
  match readDocument (2 * cs.length + 2) cs with
  | some (document, rest) => if rest.all isSpace then some document else none
  | none => none

-- Scales by powers of ten in steps of at most 308, one rounding a step. A magnitude that leaves the
-- range has no number; one that vanishes is zero.
def scaleByTen : Nat → Float → Int → Option Float
  | 0, x, _ => some x
  | fuel + 1, x, exponent =>
      if exponent.natAbs ≤ 308 then
        let power := Number.Decimal.toFloat false ⟨1, exponent.natAbs⟩
        if exponent < 0 then some (x / power)
        else if (x * power).isInf then none
        else some (x * power)
      else if x == 0 then some x
      else if 0 < exponent then none
      else scaleByTen fuel (x / Number.Decimal.toFloat false ⟨1, 308⟩) (exponent + 308)

-- Appends digits to a number as long as it fits in 64 bits; gives the digits that are left over.
def takeFitting : Nat → List Char → Nat × List Char
  | gathered, [] => (gathered, [])
  | gathered, c :: rest =>
      let next := 10 * gathered + Number.digitValue c
      if next < Nat.pow 2 64 then takeFitting next rest else (gathered, c :: rest)

-- The number of a literal: a significand of the digits that fit, scaled by a power of ten. Left-over
-- digits before the point raise the power, those behind it are dropped. A magnitude below `2 ^ -64` of
-- the smallest quotient needs three steps at most.
def Literal.toFloat? (literal : Literal) : Option Float :=
  let (whole, left) := takeFitting 0 literal.whole
  let (significand, dropped) := takeFitting whole literal.fraction
  let exponent : Int :=
    (literal.exponent.getD 0) + left.length + dropped.length - literal.fraction.length
  let base := Number.ofRatio false (significand * Number.unit) 1
  match scaleByTen 4 base exponent with
  | some x => some (if literal.negative then -x else x)
  | none => none

end Interlock.Json
