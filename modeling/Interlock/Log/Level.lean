import Interlock.Text.Case

/-!
Levels of the log, from the most to the least talkative.
-/

set_option autoImplicit false

namespace Interlock.Log

inductive Level where
  | trace
  | debug
  | info
  | warn
  | error
deriving DecidableEq, Repr

namespace Level

def all : List Level := [.trace, .debug, .info, .warn, .error]

def name : Level → String
  | trace => "trace"
  | debug => "debug"
  | info => "info"
  | warn => "warn"
  | error => "error"

def label : Level → String
  | trace => "TRACE"
  | debug => "DEBUG"
  | info => "INFO"
  | warn => "WARN"
  | error => "ERROR"

def rank : Level → Nat
  | trace => 0
  | debug => 1
  | info => 2
  | warn => 3
  | error => 4

def ofName? (name : String) : Option Level :=
  all.find? fun level => level.name == Text.lowerText name

def unknownMessage (name : String) : String :=
  "Invalid log level '" ++ name ++ "'. Must be one of: trace, debug, info, warn, error"

def read (name : String) : Except String Level :=
  match ofName? name with
  | some level => .ok level
  | none => .error (unknownMessage name)

end Level

end Interlock.Log
