import Mathlib.Data.List.Forall2
import Interlock.Proofs.Plant.Roster
import Interlock.Proofs.Plant.Station

/-!
The delivery of messages. A book keeps what was published, and for each call of a handler the publication
that it belongs to: every publication calls whoever stood on the list of an active channel at its start, in
the order of the list and once each, whatever the handlers do to that list or publish meanwhile.
-/

set_option autoImplicit false

namespace Interlock

open Interlock.Graph
open Interlock.Session

abbrev Call := Listener × Event

-- A publication is known by the calls that it asks for.
structure Book where
  publications : List (List Call)
  -- beside each job of the agenda the publication that it is a call of
  owners : List (Option Nat)
  -- the calls that were made, each with its publication
  calls : List (Nat × Call)

namespace Book

def blank : Book := ⟨[], [], []⟩

def made (book : Book) (number : Nat) : List Call :=
  book.calls.filterMap fun entry => if entry.1 = number then some entry.2 else none

def due (book : Book) (number : Nat) (agenda : List Job) : List Call :=
  (agenda.zip book.owners).filterMap fun entry => if entry.2 = some number then entry.1.call? else none

def work (book : Book) (job : Job) : Book :=
  let made := book.owners.head?.join.bind fun number => job.call?.map fun call => (number, call)
  { book with owners := book.owners.tail, calls := book.calls ++ made.toList }

-- Jobs are listed in front of the agenda. The calls among them are one publication.
def list (book : Book) (jobs : List Job) : Book :=
  let calls := jobs.filterMap Job.call?
  { book with
    publications := book.publications ++ if calls = [] then [] else [calls]
    owners := (jobs.map fun job => job.call?.map fun _ => book.publications.length) ++ book.owners }

def rested (book : Book) (plant : Plant) (deed : Deed) : Book :=
  match plant.worked? deed with
  | some job => book.work job
  | none => book

def follow (book : Book) (plant : Plant) (deed : Deed) (next : Plant) : Book :=
  (book.rested plant deed).list
    (next.agenda.take (next.agenda.length - (plant.rested deed).agenda.length))

section

variable {book : Book} {agenda : List Job}

end

end Book

-- Who hears a message that is published now: all subscribers of an active channel.
def Channel.audience (channel : Channel) (event : Event) : List Job :=
  if channel.active then channel.calls event else []

def Channel.repeats (channel : Channel) (stamp : Calendar.Instant) : List Job :=
  match channel.value with
  | some value => channel.audience (channel.valueEvent stamp value)
  | none => []

def Channel.join (channel : Channel) (ticket : Ticket) (listener : Listener) : Channel :=
  { channel with subscribers := channel.subscribers.add ticket listener }

namespace Plant

section

variable {plant next : Plant} {book : Book}

theorem calls_heard (channel : Channel) (event : Event) :
    (channel.calls event).filterMap Job.call? =
      channel.subscribers.map fun subscriber => (subscriber.listener, event) := by
  rw [Channel.calls, List.filterMap_map]
  exact List.filterMap_eq_map_iff_forall_eq_some.mpr fun _ _ => rfl

theorem publishes_once_published (once : PublishesOnce plant next) :
    ∃ jobs, next.agenda = jobs ++ plant.agenda ∧
      (jobs.filterMap Job.call? = [] ∨
        ∃ (id : ChannelId) (channel : Channel) (event : Event),
      next.channels[id]? = some channel ∧ channel.active = true ∧
          jobs.filterMap Job.call? =
            channel.subscribers.map fun subscriber => (subscriber.listener, event)) := by
  cases once with
  | silent nothing =>
      obtain ⟨jobs, grown, hushed⟩ := nothing.agenda
      exact ⟨jobs, grown, .inl (List.filterMap_eq_nil_iff.mpr hushed)⟩
  | publishes id channel event behind _ _ there active hushed agenda =>
      refine ⟨channel.calls event ++ behind, agenda, .inr ⟨id, channel, event, there, active, ?_⟩⟩
      rw [List.filterMap_append, calls_heard, List.filterMap_eq_nil_iff.mpr hushed, List.append_nil]

theorem notify_audience (plant : Plant) (id : ChannelId) (channel : Channel) (event : Event)
    (there : plant.channels[id]? = some channel) :
    (plant.notify id event).1 = channel.active ∧
      (plant.notify id event).2.channels = plant.channels ∧
      (plant.notify id event).2.agenda = channel.audience event ++ plant.agenda := by
  rw [Channel.audience]
  by_cases active : channel.active = true
  · obtain ⟨reply, channels, _, _, agenda⟩ := notify_active plant id channel event there active
    rw [if_pos active]
    exact ⟨reply.trans active.symm, channels, agenda⟩
  · obtain ⟨reply, same⟩ := notify_inactive plant id event fun other known => by
      cases there.symm.trans known
      simpa using active
    simp only [airwaves, Prod.mk.injEq] at same
    rw [if_neg active]
    exact ⟨by simpa [reply] using active, same.1, same.2.2.2⟩

theorem write_audience (plant : Plant) (id : ChannelId) (channel : Channel) (value : Value)
    (there : plant.channels[id]? = some channel) :
    (plant.write id value).channels = plant.channels.set id { channel with value := some value } ∧
      (plant.write id value).agenda =
        channel.audience (channel.valueEvent plant.readClock.1 value) ++ plant.agenda := by
  obtain ⟨inside, _⟩ := List.getElem?_eq_some_iff.mp there
  have held : (plant.readClock.2.setChannel id { channel with value := some value }).channels[id]? =
      some { channel with value := some value } := List.getElem?_set_self inside
  obtain ⟨_, channels, agenda⟩ := notify_audience _ id _
    (channel.valueEvent plant.readClock.1 value) held
  rw [write, there]
  exact ⟨channels, agenda⟩

theorem repeat_audience (plant : Plant) (id : ChannelId) (channel : Channel)
    (there : plant.channels[id]? = some channel) :
    (plant.repeatValue id).channels = plant.channels ∧
      (plant.repeatValue id).agenda = channel.repeats plant.readClock.1 ++ plant.agenda := by
  rw [repeatValue, Channel.repeats, there]
  dsimp only
  cases channel.value with
  | none => exact ⟨rfl, rfl⟩
  | some value =>
      exact (notify_audience plant.readClock.2 id channel
        (channel.valueEvent plant.readClock.1 value) there).2

end

end Plant

end Interlock
