import Interlock.Number.Binary

/-!
The data of a TOML document.
-/

set_option autoImplicit false

namespace Interlock.Toml

inductive Tree where
  | text (content : String)
  | integer (n : Int)
  | float (x : Float)
  | bool (b : Bool)
  -- a date, a time of day or both, as written
  | date (written : String)
  | array (items : List Tree)
  | table (entries : List (String × Tree))
deriving Repr

abbrev Table := List (String × Tree)

def fits (n : Int) : Bool := -9223372036854775808 ≤ n && n ≤ 9223372036854775807

mutual

-- Lays one tree over another: tables are joined key by key, all else is replaced.
def Tree.overlay : Tree → Tree → Tree
  | .table below, .table above => .table (overlayTables below above)
  | _, above => above

def overlayTables (below : Table) : Table → Table
  | [] => below
  | (key, above) :: rest => overlayTables (overlayEntry key above below) rest

def overlayEntry (key : String) (above : Tree) : Table → Table
  | [] => [(key, above)]
  | (other, below) :: rest =>
      if other = key then (other, below.overlay above) :: rest
      else (other, below) :: overlayEntry key above rest

end

end Interlock.Toml
