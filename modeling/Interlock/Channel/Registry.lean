import Interlock.Text.Blank
import Interlock.Text.Case

/-!
Maps from names to objects: the registry of channels under canonical paths, and tables of variables
under exact names. Entries are kept in the order of their keys.
-/

set_option autoImplicit false

namespace Interlock

namespace Path

def unifySeparator (c : Char) : Char := if c = ':' then '.' else c

def canonical (path : String) : String :=
  String.ofList ((Text.lower (Text.trim path.toList)).map unifySeparator)

end Path

abbrev Directory := List (String × Nat)

namespace Directory

def find? (directory : Directory) (key : String) : Option Nat := directory.lookup key

def insert (directory : Directory) (key : String) (id : Nat) : Directory :=
  match directory with
  | [] => [(key, id)]
  | (other, held) :: rest =>
      if key = other then (key, id) :: rest
      else if key < other then (key, id) :: (other, held) :: rest
      else (other, held) :: insert rest key id

def remove (directory : Directory) (key : String) : Directory :=
  directory.filter fun entry => entry.1 != key

def keys (directory : Directory) : List String := directory.map Prod.fst

def ids (directory : Directory) : List Nat := directory.map Prod.snd

end Directory

namespace Registry

def resolve? (registry : Directory) (path : String) : Option Nat :=
  registry.find? (Path.canonical path)

def register (registry : Directory) (path : String) (id : Nat) : Directory :=
  registry.insert (Path.canonical path) id

def unregister (registry : Directory) (path : String) : Directory :=
  registry.remove (Path.canonical path)

end Registry

end Interlock
