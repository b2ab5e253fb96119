import Interlock.Json.Reader
import Interlock.Json.Writer
import Interlock.Value.Basic

/-!
Values as JSON: an object of the kind and the content, or an array of both.
-/

set_option autoImplicit false

namespace Interlock.Value

open Interlock.Json (Document Tree)

def content : Value → Tree
  | number x => .number x
  | bool b => .bool b
  | timestamp instant => .text instant.interchange
  | text content => .text content

def toJson (value : Value) : Tree :=
  .object [("kind", .text value.kind.name), ("value", value.content)]

def ofContent? (kind : Kind) (content : Document) : Option Value :=
  match kind, content with
  | .number, .number literal => literal.toFloat?.map .number
  | .bool, .bool b => some (.bool b)
  | .timestamp, .text (some written) =>
      (Calendar.readFreeInterchange written.toList).map .timestamp
  | .text, .text (some written) => some (.text written)
  | _, _ => none

-- The name of a kind, alone or as the only member of an object, without content there.
def kindName? : Document → Option String
  | .text name => name
  | .object [(name, .null)] => name
  | _ => none

def ofParts? (kind : Option String) (content : Document) : Option Value :=
  (kind.bind Kind.ofName?).bind fun kind => ofContent? kind content

def single? (name : String) (members : List (Option String × Document)) : Option Document :=
  match members.filter fun member => member.1 == some name with
  | [(_, document)] => some document
  | _ => none

-- An array has the kind in front, as a plain name; an object is refused if the name of a member
-- forms no text.
def ofDocument? : Document → Option Value
  | .object members =>
      if members.any fun member => member.1.isNone then none
      else
        match single? "kind" members, single? "value" members with
        | some kind, some content => ofParts? (kindName? kind) content
        | _, _ => none
  | .array [.text kind, content] => ofParts? kind content
  | _ => none

def ofJsonText? (text : String) : Option Value := (Document.read text).bind ofDocument?

end Interlock.Value
