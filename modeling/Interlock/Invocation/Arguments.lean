import Interlock.Number.Decimal
import Interlock.Text.Split

/-!
The arguments of the command line.
-/

set_option autoImplicit false

namespace Interlock

namespace Invocation

inductive LogFormat where
  | pretty
  | compact
  | json
deriving DecidableEq, Repr

def LogFormat.ofName? (name : String) : Option LogFormat :=
  if name = "pretty" then some .pretty
  else if name = "compact" then some .compact
  else if name = "json" then some .json
  else none

inductive Topic where
  | program
  | eval
  | logic
  | check
  | run
  | help
deriving DecidableEq, Repr

structure RunOptions where
  path : String
  start : Bool
  json : Bool
  format : LogFormat
deriving DecidableEq, Repr

end Invocation

inductive Invocation where
  | help (topic : Invocation.Topic)
  | eval (expression : String) (x : Float) (parameters : List String)
  | logic (expression : String) (atoms : List String)
  | check (path : String)
  | run (options : Invocation.RunOptions)
deriving Repr

namespace Invocation

inductive Misuse where
  | noCommand
  | unknownCommand (name : String)
  | unexpected (argument : String)
  | missingValue (option : String)
  | invalidValue (option value : String)
  | repeated (option : String)
  | missing (argument : String)
deriving DecidableEq, Repr

def Misuse.message : Misuse → String
  | .noCommand => "a subcommand is required"
  | .unknownCommand name => "unrecognized subcommand '" ++ name ++ "'"
  | .unexpected argument => "unexpected argument '" ++ argument ++ "' found"
  | .missingValue option => "a value is required for '--" ++ option ++ "' but none was supplied"
  | .invalidValue option value => "invalid value '" ++ value ++ "' for '" ++ option ++ "'"
  | .repeated option => "the argument '--" ++ option ++ "' cannot be used multiple times"
  | .missing argument => "the required argument <" ++ argument ++ "> was not provided"

inductive OptionKind where
  -- stands alone
  | flag
  -- takes a value; may take a negative number as its value; may come more than once
  | valued (negative repeatable : Bool)
deriving DecidableEq, Repr

structure Form where
  argument : String
  accepts : String → Bool
  options : List (String × OptionKind)
  acceptsValue : String → String → Bool

structure Given where
  argument : Option String
  -- in order; flags come with an empty value
  options : List (String × String)
  help : Bool
deriving DecidableEq, Repr

namespace Given

def blank : Given := ⟨none, [], false⟩

def has (given : Given) (name : String) : Bool := given.options.any fun option => option.1 == name

def valuesOf (given : Given) (name : String) : List String :=
  (given.options.filter fun option => option.1 == name).map Prod.snd

end Given

def isNumeral : Bool → Bool → Bool → List Char → Bool
  | _, _, _, [] => true
  | first, point, mark, c :: rest =>
      if Number.isDigit c then isNumeral false point mark rest
      else if c = '.' then !first && !point && !mark && isNumeral false true mark rest
      else if c = 'e' || c = 'E' then !first && !mark && !rest.isEmpty && isNumeral false point true rest
      else false

def isValue (negative : Bool) (argument : String) : Bool :=
  match argument.toList with
  | '-' :: c :: rest => negative && c != '-' && isNumeral true false false (c :: rest)
  | _ => true

def takeArgument (form : Form) (given : Given) (argument : String) : Except Misuse Given :=
  if given.argument.isSome then .error (.unexpected argument)
  else if form.accepts argument then .ok { given with argument := some argument }
  else .error (.invalidValue form.argument argument)

def takeOption (form : Form) (given : Given) (name value : String) (repeatable : Bool) :
    Except Misuse Given :=
  if !repeatable && given.has name then .error (.repeated name)
  else if form.acceptsValue name value then
    .ok { given with options := given.options ++ [(name, value)] }
  else .error (.invalidValue name value)

def splitOption (argument : List Char) : String × Option String :=
  match Text.splitFirst '=' argument with
  | some (name, value) => (String.ofList name, some (String.ofList value))
  | none => (String.ofList argument, none)

def readPlain (form : Form) : Given → List String → Except Misuse Given
  | given, [] => .ok given
  | given, argument :: rest =>
      match takeArgument form given argument with
      | .ok given => readPlain form given rest
      | .error misuse => .error misuse

def readArguments (form : Form) : Given → List String → Except Misuse Given
  | given, [] => .ok given
  | given, argument :: rest =>
      match argument.toList with
      | ['-', '-'] => readPlain form given rest
      | '-' :: '-' :: name =>
          match splitOption name with
          | ("help", none) => .ok { given with help := true }
          | (name, attached) =>
              match form.options.lookup name, attached with
              | none, _ => .error (.unexpected argument)
              | some .flag, some _ => .error (.unexpected argument)
              | some .flag, none =>
                  match takeOption form given name "" false with
                  | .ok given => readArguments form given rest
                  | .error misuse => .error misuse
              | some (.valued _ repeatable), some value =>
                  match takeOption form given name value repeatable with
                  | .ok given => readArguments form given rest
                  | .error misuse => .error misuse
              | some (.valued negative repeatable), none =>
                  match rest with
                  | [] => .error (.missingValue name)
                  | value :: rest =>
                      if isValue negative value then
                        match takeOption form given name value repeatable with
                        | .ok given => readArguments form given rest
                        | .error misuse => .error misuse
                      else .error (.missingValue name)
      | '-' :: c :: _ =>
          if c = 'h' then .ok { given with help := true } else .error (.unexpected argument)
      | _ =>
          match takeArgument form given argument with
          | .ok given => readArguments form given rest
          | .error misuse => .error misuse

def evalForm : Form where
  argument := "EXPRESSION"
  accepts _ := true
  options := [("x", .valued true false), ("param", .valued false true)]
  acceptsValue name value := name != "x" || (Number.readText value).isSome

def logicForm : Form where
  argument := "EXPRESSION"
  accepts _ := true
  options := [("atom", .valued false true)]
  acceptsValue _ _ := true

def checkForm : Form where
  argument := "CONFIG"
  accepts path := !path.isEmpty
  options := []
  acceptsValue _ _ := true

def runForm : Form where
  argument := "CONFIG"
  accepts path := !path.isEmpty
  options := [("start", .flag), ("json", .flag), ("log-format", .valued false false)]
  acceptsValue name value := name != "log-format" || (LogFormat.ofName? value).isSome

def readForm (form : Form) (topic : Topic) (arguments : List String)
    (make : String → Given → Invocation) : Except Misuse Invocation :=
  match readArguments form .blank arguments with
  | .error misuse => .error misuse
  | .ok given =>
      if given.help then .ok (.help topic)
      else
        match given.argument with
        | none => .error (.missing form.argument)
        | some argument => .ok (make argument given)

def evalOf (expression : String) (given : Given) : Invocation :=
  .eval expression (((given.valuesOf "x").head?.bind Number.readText).getD 0) (given.valuesOf "param")

def logicOf (expression : String) (given : Given) : Invocation :=
  .logic expression (given.valuesOf "atom")

def runOf (path : String) (given : Given) : Invocation :=
  .run
    { path, start := given.has "start", json := given.has "json",
      format := ((given.valuesOf "log-format").head?.bind LogFormat.ofName?).getD .compact }

def topicOf? (name : String) : Option Topic :=
  if name = "eval" then some .eval
  else if name = "logic" then some .logic
  else if name = "check" then some .check
  else if name = "run" then some .run
  else if name = "help" then some .help
  else none

def readHelp : List String → Except Misuse Invocation
  | [] => .ok (.help .program)
  | [name] =>
      match topicOf? name with
      | some topic => .ok (.help topic)
      | none => .error (.unknownCommand name)
  | _ :: other :: _ => .error (.unknownCommand other)

-- Whether an argument in the place of the command asks for help: the short option counts also with
-- more letters behind it.
def asksHelp (argument : String) : Bool :=
  argument == "--help" || "-h".toList.isPrefixOf argument.toList

def read : List String → Except Misuse Invocation
  | [] => .error .noCommand
  | command :: rest =>
      match topicOf? command with
      | some .eval => readForm evalForm .eval rest evalOf
      | some .logic => readForm logicForm .logic rest logicOf
      | some .check => readForm checkForm .check rest fun path _ => .check path
      | some .run => readForm runForm .run rest runOf
      | some .help => readHelp rest
      | some .program | none =>
          if asksHelp command then .ok (.help .program) else .error (.unknownCommand command)

end Invocation

end Interlock
