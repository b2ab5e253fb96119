/-!
The configuration of the program: devices, channels and variables made at startup, and the procedure
to run.
-/

set_option autoImplicit false

namespace Interlock

namespace Config

structure Application where
  name : String
  logLevel : String
deriving DecidableEq, Repr

structure Scheduler where
  pollInterval : Nat
  verbose : Bool
deriving DecidableEq, Repr

structure Device where
  name : String
  driver : String
  interval : Nat
  channels : List String
deriving DecidableEq, Repr

structure Channel where
  path : String
  initial : Option String
  active : Bool
deriving DecidableEq, Repr

structure Variable where
  name : String
  initial : String
  channel : Option String
deriving DecidableEq, Repr

structure Step where
  action : Option String
  trigger : Option String
  description : Option String
deriving DecidableEq, Repr

structure Sequence where
  name : String
  steps : List Step
deriving DecidableEq, Repr

structure Procedure where
  active : String
  autoStart : Bool
  autoExit : Bool
  sequences : List Sequence
deriving DecidableEq, Repr

def Application.standard : Application := ⟨"rust-procedure", "info"⟩

def Scheduler.standard : Scheduler := ⟨100, false⟩

def Device.paths (device : Device) : List String :=
  device.channels.map fun channel => device.name ++ "." ++ channel

-- The sequence that a procedure runs: the first one of the active name.
def Procedure.activeSequence? (procedure : Procedure) : Option Sequence :=
  procedure.sequences.find? fun sequence => sequence.name == procedure.active

end Config

structure Config where
  application : Config.Application
  scheduler : Config.Scheduler
  devices : List Config.Device
  channels : List Config.Channel
  vars : List Config.Variable
  procedure : Option Config.Procedure
deriving DecidableEq, Repr

def Config.standard : Config := ⟨.standard, .standard, [], [], [], none⟩

end Interlock
