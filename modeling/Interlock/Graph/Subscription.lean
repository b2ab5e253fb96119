/-!
Subscriptions: who listens to an object, in which order.
-/

set_option autoImplicit false

namespace Interlock.Graph

abbrev VariableId := Nat

abbrev ComparisonId := Nat

abbrev TriggerId := Nat

abbrev ObserverId := Nat

abbrev Ticket := Nat

inductive Listener where
  -- a handler from outside
  | observer (id : ObserverId)
  | comparison (id : ComparisonId)
  | trigger (id : TriggerId)
  -- a variable that takes over the values of the channel named `source`
  | follower (id : VariableId) (source : String)
deriving DecidableEq, Repr

structure Subscriber where
  ticket : Ticket
  listener : Listener
deriving DecidableEq, Repr

abbrev Subscribers := List Subscriber

-- Every subscription from inside has a handler of its own; only an observer can come twice.
def Listener.isShared : Listener → Bool
  | .observer _ => true
  | _ => false

def Subscribers.refuses (subscribers : Subscribers) (listener : Listener) : Bool :=
  listener.isShared && subscribers.any fun subscriber => subscriber.listener == listener

def Subscribers.add (subscribers : Subscribers) (ticket : Ticket) (listener : Listener) : Subscribers :=
  subscribers ++ [⟨ticket, listener⟩]

def Subscribers.remove (subscribers : Subscribers) (ticket : Ticket) : Subscribers :=
  subscribers.filter fun subscriber => subscriber.ticket != ticket

def Subscribers.holds (subscribers : Subscribers) (ticket : Ticket) : Bool :=
  subscribers.any fun subscriber => subscriber.ticket == ticket

end Interlock.Graph
