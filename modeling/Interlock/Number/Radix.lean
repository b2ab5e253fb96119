import Interlock.Number.Decimal

/-!
Digits of the bases up to sixteen, and runs of digits.
-/

set_option autoImplicit false

namespace Interlock.Number

def digitOf? (base : Nat) (c : Char) : Option Nat :=
  let value :=
    if isDigit c then c.toNat - 48
    else if 'a' ≤ c && c ≤ 'f' then c.toNat - 87
    else if 'A' ≤ c && c ≤ 'F' then c.toNat - 55
    else base
  if value < base then some value else none

def isDigitOf (base : Nat) (c : Char) : Bool := (digitOf? base c).isSome

def ofDigitsIn (base : Nat) (ds : List Char) : Nat :=
  ds.foldl (fun n c => base * n + (digitOf? base c).getD 0) 0

def takeDigits (base count : Nat) (cs : List Char) : Option (Nat × List Char) :=
  let ds := cs.take count
  if ds.length = count ∧ ds.all (isDigitOf base) then some (ofDigitsIn base ds, cs.drop count) else none

def charOf? (n : Nat) : Option Char := if n.isValidChar then some (Char.ofNat n) else none

def takeChar (count : Nat) (cs : List Char) : Option (Char × List Char) :=
  match takeDigits 16 count cs with
  | some (n, rest) => (charOf? n).map fun c => (c, rest)
  | none => none

-- The digits at the start of a text, and what follows. A single underscore may stand between two
-- digits.
def spanDigits (base : Nat) : List Char → List Char × List Char
  | [] => ([], [])
  | c :: rest =>
      if isDigitOf base c then
        match rest with
        | '_' :: d :: rest' =>
            if isDigitOf base d then
              let (ds, behind) := spanDigits base (d :: rest')
              (c :: ds, behind)
            else ([c], rest)
        | rest =>
            let (ds, behind) := spanDigits base rest
            (c :: ds, behind)
      else ([], c :: rest)

end Interlock.Number
