import Interlock.Calendar.Instant
import Interlock.Json.Writer
import Interlock.Log.Level

/-!
Records of the log.
-/

set_option autoImplicit false

namespace Interlock.Log

open Interlock.Calendar (Instant)
open Interlock.Json (Tree)

structure Record where
  level : Level
  message : String
  details : List (String × Tree)
  target : String

inductive Part where
  | program
  | channel
  | registry
  | device
  | variable
  | comparison
  | trigger
  | scheduler
  | sequence
deriving DecidableEq, Repr

def Part.target : Part → String
  | .program => "rust_procedure"
  | .channel => "rust_procedure::channel"
  | .registry => "rust_procedure::registry"
  | .device => "rust_procedure::device"
  | .variable => "rust_procedure::reactive::variable"
  | .comparison => "rust_procedure::reactive::comparable"
  | .trigger => "rust_procedure::reactive::trigger"
  | .scheduler => "rust_procedure::schedule::scheduler"
  | .sequence => "rust_procedure::schedule::sequence"

def record (part : Part) (level : Level) (message : String) (details : List (String × Tree)) :
    Record :=
  ⟨level, message, details, part.target⟩

namespace Record

-- The message counts as one of the details.
def messageName : String := "message"

def fields (record : Record) : Tree :=
  .object ((messageName, .text record.message) :: record.details)

def toJson (record : Record) (time : Instant) : Tree :=
  .object [("timestamp", .text time.interchange), ("level", .text record.level.label),
    ("fields", record.fields), ("target", .text record.target)]

def detailText : String × Tree → String
  | (name, .text content) => name ++ "=" ++ content
  | (name, detail) => name ++ "=" ++ detail.render

def line (record : Record) (time : Instant) : String :=
  String.intercalate " "
    ([time.interchange, record.level.label, record.target ++ ":", record.message] ++
      record.details.map detailText)

end Record

end Interlock.Log
