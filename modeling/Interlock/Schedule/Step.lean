import Interlock.Graph.Subscription
import Interlock.Text.Split
import Interlock.Value.Basic

/-!
Steps of a sequence and their actions: assignments `path = literal` between commas. A path alone marks a
place and writes nothing.
-/

set_option autoImplicit false

namespace Interlock

structure Action where
  path : String
  literal : Option String
deriving DecidableEq, Repr

namespace Action

def trimmed (cs : List Char) : String := String.ofList (Text.trim cs)

def ofEntry (entry : List Char) : Action :=
  match Text.splitFirst '=' entry with
  | some (path, literal) => ⟨trimmed path, some (trimmed literal)⟩
  | none => ⟨trimmed entry, none⟩

-- The entries between commas; blank ones do not count.
def ofList (cs : List Char) : List Action :=
  (((Text.splitAll ',' cs).map Text.trim).filter fun entry => !entry.isEmpty).map ofEntry

def readList (text : String) : List Action := ofList text.toList

def value (action : Action) : Option Value := action.literal.map Value.infer

def display (action : Action) : String :=
  match action.literal with
  | some literal => action.path ++ "=" ++ literal
  | none => action.path

end Action

end Interlock

namespace Interlock.Schedule

open Interlock.Graph (TriggerId)

structure Step where
  source : String
  actions : List Action
  trigger : Option TriggerId
  description : String
deriving DecidableEq, Repr

def Step.create (actions : String) (trigger : Option TriggerId) (description : String) : Step :=
  ⟨Text.trimText actions, Action.readList actions, trigger, description⟩

end Interlock.Schedule
