import Interlock.Invocation.Response
import Std.Time.DateTime.Timestamp

/-!
The command line program: reads files, the environment and the clock, and prints.
-/

set_option autoImplicit false

namespace Interlock.Invocation

open Interlock.Calendar (Instant)

def readClock : IO Instant := do
  let nanos := (← Std.Time.Timestamp.now).toNanosecondsSinceUnixEpoch.val
  return ⟨nanos / 1000000000, (nanos % 1000000000).toNat⟩

def environmentPath : String := "/proc/self/environ"

def readEnvironment : IO (List (String × String)) := do
  try
    let content ← IO.FS.readFile environmentPath
    return (Text.splitAll '\x00' content.toList).filterMap fun entry =>
      (Text.splitFirst '=' entry).map fun (name, value) => (String.ofList name, String.ofList value)
  catch _ => return []

def readFile? (path : String) : IO (Option String) := do
  try return some (← IO.FS.readFile path)
  catch
    | .noFileOrDirectory _ _ _ | .inappropriateType _ _ _ => return none
    | error => throw error

-- A file that is not in this directory is sought in the directories above, so many levels up.
def seekFile? : Nat → String → IO (Option String)
  | 0, path => readFile? path
  | levels + 1, path => do
      match ← readFile? path with
      | some content => return some content
      | none => seekFile? levels ("../" ++ path)

-- The directories above are taken to be no more than these.
def levelsAbove : Nat := 256

def pathOf? : Invocation → Option String
  | .check path => some path
  | .run options => some options.path
  | .help _ | .eval _ _ _ | .logic _ _ => none

-- What the program finds around it, as far as an invocation asks for it.
def look (invocation : Invocation) : IO Surroundings := do
  let environment ← readEnvironment
  match pathOf? invocation with
  | none => return ⟨fun _ => none, environment⟩
  | some path =>
      let content ← seekFile? (if path.startsWith "/" then 0 else levelsAbove) path
      return ⟨fun _ => content, environment⟩

def printLine (format : LogFormat) : Line → IO Unit
  | .text content => IO.println content
  | .record record => do
      let time ← readClock
      match format with
      | .json => IO.println (record.toJson time).render
      | .pretty | .compact => IO.println (record.line time)

def printOutcome (format : LogFormat) (outcome : Outcome) : IO UInt32 := do
  for line in outcome.lines do printLine format line
  if let some fault := outcome.fault then IO.eprint fault.text
  (← IO.getStdout).flush
  return outcome.code.toUInt32

def printDrained (format : LogFormat) (execution : Execution) : IO Execution := do
  let (lines, execution) := execution.drain
  for line in lines do printLine format line
  (← IO.getStdout).flush
  return execution

-- Follows a run to its end; a run in which nothing is to come waits to be interrupted.
partial def follow (format : LogFormat) (origin : Nat) (execution : Execution) : IO UInt32 := do
  let execution ← printDrained format execution.advance
  if execution.isOver then
    let _ ← printDrained format execution.close
    return 0
  match execution.due?, execution.skip? with
  | some due, some next =>
      let elapsed := (← IO.monoMsNow) - origin
      IO.sleep (due - elapsed).toUInt32
      follow format origin next
  | _, _ =>
      IO.sleep 1000
      follow format origin execution

def carryOut (invocation : Invocation) : IO UInt32 := do
  let around ← look invocation
  let start ← readClock
  match invocation with
  | .run options =>
      match prepare around options start with
      | .error outcome => printOutcome options.format outcome
      | .ok execution => follow options.format (← IO.monoMsNow) execution
  | invocation => printOutcome .compact (invocation.answer around start)

end Interlock.Invocation

open Interlock in
def main (arguments : List String) : IO UInt32 := do
  match Invocation.read arguments with
  | .ok invocation => Invocation.carryOut invocation
  | .error misuse =>
      IO.eprintln ("error: " ++ misuse.message)
      return 2
