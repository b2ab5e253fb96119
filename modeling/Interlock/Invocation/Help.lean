import Interlock.Invocation.Arguments

/-!
The help texts of the command line.
-/

set_option autoImplicit false

namespace Interlock.Invocation

def programHelp : List String := [
  "Expression evaluation and trigger-driven step sequencing",
  "",
  "Usage: rust-procedure <COMMAND>",
  "",
  "Commands:",
  "  eval   Compile and evaluate an arithmetic expression",
  "  logic  Compile and evaluate a logical expression over comparison atoms",
  "  check  Validate a configuration file and print the effective settings",
  "  run    Run the active sequence of a configuration file",
  "  help   Print this message or the help of the given subcommand(s)",
  "",
  "Options:",
  "  -h, --help  Print help"
]

def evalHelp : List String := [
  "Compile and evaluate an arithmetic expression",
  "",
  "Usage: rust-procedure eval [OPTIONS] <EXPRESSION>",
  "",
  "Arguments:",
  "  <EXPRESSION>  Expression, e.g. \"2*x+offset\"",
  "",
  "Options:",
  "      --x <X>               Abscissa value [default: 0]",
  "      --param <NAME=VALUE>  Parameter binding NAME=VALUE (repeatable)",
  "  -h, --help                Print help"
]

def logicHelp : List String := [
  "Compile and evaluate a logical expression over comparison atoms",
  "",
  "Usage: rust-procedure logic [OPTIONS] <EXPRESSION>",
  "",
  "Arguments:",
  "  <EXPRESSION>  Expression, e.g. \"(Level>=5|Temp<20)&!Door==0\"",
  "",
  "Options:",
  "      --atom <ATOM=BOOL>  Atom value ATOM=BOOL (repeatable); unbound atoms are false",
  "  -h, --help              Print help"
]

def checkHelp : List String := [
  "Validate a configuration file and print the effective settings",
  "",
  "Usage: rust-procedure check <CONFIG>",
  "",
  "Arguments:",
  "  <CONFIG>  Configuration file",
  "",
  "Options:",
  "  -h, --help  Print help"
]

def runHelp : List String := [
  "Run the active sequence of a configuration file",
  "",
  "Usage: rust-procedure run [OPTIONS] <CONFIG>",
  "",
  "Arguments:",
  "  <CONFIG>  Configuration file",
  "",
  "Options:",
  "      --start                    Activate the sequence even if AutoStart is false",
  "      --json                     Print lifecycle events as JSON lines",
  "      --log-format <LOG_FORMAT>  Log output format [default: compact] [possible values: pretty, compact, json]",
  "  -h, --help                     Print help"
]

def helpHelp : List String := [
  "Print this message or the help of the given subcommand(s)",
  "",
  "Usage: rust-procedure help [COMMAND]...",
  "",
  "Arguments:",
  "  [COMMAND]...  Print help for the subcommand(s)"
]

def helpLines : Topic → List String
  | .program => programHelp
  | .eval => evalHelp
  | .logic => logicHelp
  | .check => checkHelp
  | .run => runHelp
  | .help => helpHelp

end Interlock.Invocation
