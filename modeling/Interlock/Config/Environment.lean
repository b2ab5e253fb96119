import Interlock.Config.Layout
import Interlock.Config.Setting
import Interlock.Text.Split

/-!
Environment variables laid over the configuration of a file. The name of a variable spells the path
of a key, its parts between two underscores each.
-/

set_option autoImplicit false

namespace Interlock.Config

open Interlock.Toml (Tree Table)

def environmentMark : String := "RUST_PROCEDURE_"

def joinPairs : List Char → List Char
  | [] => []
  | '_' :: '_' :: rest => '.' :: joinPairs rest
  | c :: rest => c :: joinPairs rest

-- The path that a name spells. Letter case does not matter, nor do blanks at the ends of the name
-- and of the path.
def pathOf? (name : String) : Option (List String) :=
  let cs := Number.lowerAscii (Text.trim name.toList)
  let mark := Number.lowerAscii environmentMark.toList
  if mark.isPrefixOf cs then
    let parts := Text.splitAll '.' (Text.trim (joinPairs (cs.drop mark.length)))
    if parts.any List.isEmpty then none else some (parts.map String.ofList)
  else none

def nest (tree : Tree) : List String → Tree
  | [] => tree
  | key :: rest => .table [(key, nest tree rest)]

def overlayOf (name value : String) : Table :=
  match pathOf? name with
  | some (key :: rest) => [(key, nest (Setting.read value) rest)]
  | _ => []

def environmentTable : List (String × String) → Table
  | [] => []
  | (name, value) :: rest => Toml.overlayTables (overlayOf name value) (environmentTable rest)

-- The configuration of a document, if there is one, under the variables of an environment.
def load (document : Option String) (environment : List (String × String)) : Except Refusal Config :=
  match Toml.read (document.getD "") with
  | some table => ofTable (Toml.overlayTables table (environmentTable environment))
  | none => .error .unreadable

end Interlock.Config
