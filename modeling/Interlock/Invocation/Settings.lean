import Interlock.Config.Environment
import Interlock.Config.Validity
import Interlock.Invocation.Fault

/-!
Configurations as the command line reads and prints them.
-/

set_option autoImplicit false

namespace Interlock.Invocation

structure Surroundings where
  file : String → Option String
  environment : List (String × String)

def refusalText : Config.Refusal → String
  | .unreadable => "the file is no TOML document"
  | .wrongKind => "invalid type"
  | .outOfRange => "invalid value"
  | .tooShort => "invalid length"
  | .missing => "missing field"

-- A valid configuration; a file that is not there counts as empty.
def load (around : Surroundings) (path : String) : Except Fault Config :=
  match Config.load (around.file path) around.environment with
  | .error refusal =>
      .error (.within ("loading configuration from " ++ path)
        ("Configuration error: " ++ refusalText refusal))
  | .ok config =>
      match config.validate with
      | .error fault =>
          .error (.plain ("invalid configuration " ++ path ++ ": " ++ fault.message))
      | .ok () => .ok config

def checkText (around : Surroundings) (path : String) : Except Fault String :=
  match load around path with
  | .error fault => .error fault
  | .ok config =>
      match config.print? with
      | some text => .ok text
      | none =>
          .error (.plain ("Configuration validation error: " ++ Config.unprintable))

end Interlock.Invocation
