import Interlock.Number.Decimal

/-!
Compact JSON text.
-/

set_option autoImplicit false

namespace Interlock.Json

inductive Tree where
  | null
  | bool (b : Bool)
  | count (n : Nat)
  | number (x : Float)
  | text (content : String)
  | object (members : List (String × Tree))

def hexDigit (n : Nat) : Char := if n < 10 then Char.ofNat (48 + n) else Char.ofNat (87 + n)

def escapeChar (c : Char) : List Char :=
  if c = '"' then ['\\', '"']
  else if c = '\\' then ['\\', '\\']
  else if c = '\n' then ['\\', 'n']
  else if c = '\r' then ['\\', 'r']
  else if c = '\t' then ['\\', 't']
  else if c.toNat = 8 then ['\\', 'b']
  else if c.toNat = 12 then ['\\', 'f']
  else if c.toNat < 32 then ['\\', 'u', '0', '0', hexDigit (c.toNat / 16), hexDigit (c.toNat % 16)]
  else [c]

def quote (content : String) : String :=
  String.ofList ('"' :: content.toList.flatMap escapeChar ++ ['"'])

-- A number always shows a fraction or an exponent; one that is not finite is absent.
def numberText (x : Float) : String := (Number.toMarkedText x).getD "null"

mutual

def Tree.render : Tree → String
  | .null => "null"
  | .bool b => if b then "true" else "false"
  | .count n => n.repr
  | .number x => numberText x
  | .text content => quote content
  | .object members => "\x7b" ++ renderMembers members ++ "\x7d"

def renderMembers : List (String × Tree) → String
  | [] => ""
  | [(name, member)] => quote name ++ ":" ++ member.render
  | (name, member) :: rest => quote name ++ ":" ++ member.render ++ "," ++ renderMembers rest

end

end Interlock.Json
