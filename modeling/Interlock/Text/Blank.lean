/-!
Character classes as ascending lists of code point ranges; blank characters (the Unicode property
White_Space), and texts without them.
-/

set_option autoImplicit false

namespace Interlock.Text

-- The ranges are ascending, so the search ends at the first one that starts above.
def inRanges (code : Nat) : List (Nat × Nat) → Bool
  | [] => false
  | (first, last) :: rest =>
      if code < first then false else if code ≤ last then true else inRanges code rest

def blankRanges : List (Nat × Nat) := [
  (9, 13), (32, 32), (133, 133), (160, 160), (5760, 5760), (8192, 8202), (8232, 8233),
  (8239, 8239), (8287, 8287), (12288, 12288)
]

def isBlank (c : Char) : Bool := inRanges c.toNat blankRanges

def stripBlanks (cs : List Char) : List Char := cs.filter fun c => !isBlank c

def trimStart (cs : List Char) : List Char := cs.dropWhile isBlank

def trimEnd (cs : List Char) : List Char := (cs.reverse.dropWhile isBlank).reverse

def trim (cs : List Char) : List Char := trimEnd (trimStart cs)

def trimText (text : String) : String := String.ofList (trim text.toList)

def isBlankText (text : String) : Bool := text.toList.all isBlank

end Interlock.Text
