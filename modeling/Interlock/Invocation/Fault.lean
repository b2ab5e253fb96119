/-!
Faults that end the program, and how they are told.
-/

set_option autoImplicit false

namespace Interlock.Invocation

structure Fault where
  context : Option String
  cause : String
deriving DecidableEq, Repr

namespace Fault

def plain (cause : String) : Fault := ⟨none, cause⟩

def within (context cause : String) : Fault := ⟨some context, cause⟩

-- Every line of a cause stands four places in.
def indent (text : String) : String :=
  String.ofList
    ("    ".toList ++ text.toList.flatMap fun c => if c = '\n' then "\n    ".toList else [c])

def text (fault : Fault) : String :=
  match fault.context with
  | none => "Error: " ++ fault.cause ++ "\n"
  | some context => "Error: " ++ context ++ "\n\nCaused by:\n" ++ indent fault.cause ++ "\n"

end Fault

end Interlock.Invocation
