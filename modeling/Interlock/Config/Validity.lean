import Interlock.Channel.Registry
import Interlock.Config.Basic
import Interlock.Log.Level

/-!
Faults that reading a configuration does not find.
-/

set_option autoImplicit false

namespace Interlock.Config

inductive Fault where
  | logLevel (name : String)
  | pollInterval
  | deviceInterval (device : String)
  | duplicatePath (path : String)
  | duplicateVariable (name : String)
  | unknownChannel (name path : String)
  | unknownSequence (name : String)
deriving DecidableEq, Repr

def Fault.message : Fault → String
  | .logLevel name =>
      "Invalid log_level '" ++ name ++ "'. Must be one of: trace, debug, info, warn, error"
  | .pollInterval => "poll_interval_ms must be greater than 0"
  | .deviceInterval device => "Device '" ++ device ++ "' needs interval_ms > 0"
  | .duplicatePath path => "Duplicate channel path: " ++ path
  | .duplicateVariable name => "Duplicate variable name: " ++ name
  | .unknownChannel name path =>
      "Variable '" ++ name ++ "' follows unknown channel '" ++ path ++ "'"
  | .unknownSequence name => "Active sequence '" ++ name ++ "' is not defined"

-- The first path that names a channel named before, else the canonical forms of all.
def checkPaths (seen : List String) : List String → Except Fault (List String)
  | [] => .ok seen
  | path :: rest =>
      let form := Path.canonical path
      if seen.contains form then .error (.duplicatePath path) else checkPaths (form :: seen) rest

def checkDevices (seen : List String) : List Device → Except Fault (List String)
  | [] => .ok seen
  | device :: rest =>
      if device.interval = 0 then .error (.deviceInterval device.name)
      else
        match checkPaths seen device.paths with
        | .error fault => .error fault
        | .ok seen => checkDevices seen rest

def checkVariables (paths : List String) (seen : List String) : List Variable → Except Fault Unit
  | [] => .ok ()
  | var :: rest =>
      if seen.contains var.name then .error (.duplicateVariable var.name)
      else
        match var.channel with
        | none => checkVariables paths (var.name :: seen) rest
        | some path =>
            if paths.contains (Path.canonical path) then
              checkVariables paths (var.name :: seen) rest
            else .error (.unknownChannel var.name path)

def checkProcedure (procedure : Procedure) : Except Fault Unit :=
  if procedure.activeSequence?.isSome then .ok () else .error (.unknownSequence procedure.active)

def validate (config : Config) : Except Fault Unit :=
  if (Log.Level.ofName? config.application.logLevel).isNone then
    .error (.logLevel config.application.logLevel)
  else if config.scheduler.pollInterval = 0 then .error .pollInterval
  else
    match checkDevices [] config.devices with
    | .error fault => .error fault
    | .ok seen =>
        match checkPaths seen (config.channels.map (·.path)) with
        | .error fault => .error fault
        | .ok paths =>
            match checkVariables paths [] config.vars with
            | .error fault => .error fault
            | .ok () =>
                match config.procedure with
                | some procedure => checkProcedure procedure
                | none => .ok ()

end Interlock.Config
