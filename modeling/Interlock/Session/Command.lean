import Interlock.Config.Basic
import Interlock.Value.Basic

/-!
Commands of a session. Objects are named by the texts under which the session keeps them.
-/

set_option autoImplicit false

namespace Interlock.Session

inductive VariableCommand where
  | make (name : String) (value : Value) (verbose : Bool)
  | set (name : String) (value : Value)
  | get (name : String)
  | list (name : Option String)
  | follow (id name channel : String)

inductive ComparisonCommand where
  | make (id expression : String)
  | activate (id : String)
  | deactivate (id : String)
  | refresh (id : String)
  | state (id : String)
  | drop (id : String)

inductive TriggerCommand where
  | make (id expression : String) (times : Int) (verbose : Bool)
  | activate (id : String)
  | deactivate (id : String)
  | rearm (id : String)
  | evaluate (id : String)
  | state (id : String)
  | drop (id : String)
  -- keeps a receiver of the value, and looks at it
  | watch (id : String)
  | look (id : String)

inductive ChannelCommand where
  | make (id : String) (active : Bool) (value : Option Value) (path : Option String) (verbose : Bool)
  | register (id path : String)
  | unregister (path : String)
  | resolve (path : String)
  | read (id : String)
  | list
  | write (id : String) (value : Value)
  | setActive (id : String) (active : Bool)
  | rename (id name : String)
  | clear (id : String)
  | notify (id source command : String) (value : Option Value) (description : String)
  | state (id : String)

inductive DeviceCommand where
  | make (id driver : String) (values : List Value) (interval : Nat)
  | add (id channel : String)
  | remove (id channel : String)
  | atIndex (id : String) (index : Nat)
  | byName (id channel : String)
  | register (id : String)
  | poll (id : String)
  | activate (id : String)
  | deactivate (id : String)
  | dispose (id : String)
  | state (id : String)

inductive SequenceCommand where
  | make (id : String) (pollInterval : Nat)
  | step (id action : String) (trigger : Option String) (description : String)
  | stepOf (id : String) (config : Config.Step)
  | push (id step : String) (count : Nat)
  | activate (id : String)
  | deactivate (id : String)
  | setPaused (id : String) (paused : Bool)
  | dispose (id : String)
  | state (id : String)

inductive WorkspaceCommand where
  | make (document : String)
  | start
  | shutdown
  | schedule (id : String) (config : Config.Procedure) (pollInterval : Nat)
  | startSchedule

inductive Source where
  | var
  | comparison
  | trigger
  | channel
  | sequence
deriving DecidableEq, Repr

inductive Command where
  | var (command : VariableCommand)
  | comparison (command : ComparisonCommand)
  | trigger (command : TriggerCommand)
  | channel (command : ChannelCommand)
  | device (command : DeviceCommand)
  | sequence (command : SequenceCommand)
  | workspace (command : WorkspaceCommand)
  -- a new handler that runs a script in its first deliveries, or the handler of another subscription
  | subscribe (id : String) (source : Source) (name : String) (handler : Option String) (sendNow : Bool)
      (times : Nat) (script : List Command)
  | unsubscribe (id : String)

end Interlock.Session
