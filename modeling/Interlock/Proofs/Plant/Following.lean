import Interlock.Proofs.Plant.Storing
import Interlock.Proofs.Plant.Utterance

/-!
Variables that follow a channel. A publication puts its value on the way to the variable in front of whatever
is still on the way there, so the value that arrives last is that of the latest publication that found
nothing on the way.
-/

set_option autoImplicit false

namespace Interlock

open Interlock.Calendar (Instant)
open Interlock.Graph
open Interlock.Session

def Graph.Listener.follower? : Listener → Option VariableId
  | .follower id _ => some id
  | _ => none

-- What a job brings to a variable from the channel that it follows.
def Job.brings? (v : VariableId) : Job → Option Value
  | .tell listener event => if listener.follower? = some v then event.value else none
  | _ => none

def underway (v : VariableId) (agenda : List Job) : List Value := agenda.filterMap (Job.brings? v)

-- A publication that a variable is told of, and whether an earlier one is then still on its way to it.
structure Issue where
  value : Value
  waits : Bool
deriving DecidableEq, Repr

-- The publication that arrives last.
def Issue.arriving? (issues : List Issue) : Option Issue := (issues.filter fun issue => !issue.waits).getLast?

namespace Plant

-- The channel is active, and the variable follows it and no other.
structure Trails (plant : Plant) (c : ChannelId) (v : VariableId) : Prop where
  active : ∃ channel ∈ plant.channels[c]?, channel.active = true
  only : ∀ entry ∈ plant.channels.zipIdx,
    (∃ s ∈ entry.1.subscribers, s.listener.follower? = some v) ↔ entry.2 = c

-- The command assigns the variable.
def reassigns (plant : Plant) (v : VariableId) : Command → Bool
  | .var (.set name _) => (plant.namedVar? name).any fun found => found.1 == v
  | _ => false

def Accepts (plant : Plant) (v : VariableId) (value : Value) : Prop :=
  plant.variableInUse v = true ∧ ∃ var ∈ plant.vars[v]?, (value.coerce plant.readClock.1 var.kind).isSome = true

-- The variable gets its values from the channel alone, the channel its messages with values from being
-- written, and none of these is declined.
structure Lets (c : ChannelId) (v : VariableId) (plant : Plant) (deed : Deed) (next : Plant) : Prop where
  unstaged : plant.Unstaged c
  plain : ∀ command ∈ plant.order? deed, plant.handmade c command = false
  unset : ∀ command ∈ plant.order? deed, plant.reassigns v command = false
  accepts : ∀ value ∈ (plant.worked? deed).bind (Job.brings? v), (plant.rested deed).Accepts v value
  trails : next.Trails c v

def written? (plant : Plant) (c : ChannelId) (deed : Deed) : Option Value :=
  (plant.writes? deed).bind fun written => if written.1 = c then some written.2 else none

def issued? (plant : Plant) (v : VariableId) (deed : Deed) (next : Plant) : Option Issue :=
  let jobs := next.agenda.take (next.agenda.length - (plant.rested deed).agenda.length)
  (underway v jobs).head?.map fun value => ⟨value, !(underway v (plant.rested deed).agenda).isEmpty⟩

-- A run with what is written on the channel and what is issued to the variable.
inductive Tracks (c : ChannelId) (v : VariableId) (start : Plant) : List Value → List Issue → Plant → Prop where
  | start (trails : start.Trails c v) (nothing : underway v start.agenda = []) : Tracks c v start [] [] start
  | move (writes : List Value) (issues : List Issue) (plant next : Plant) (deed : Deed)
      (earlier : Tracks c v start writes issues plant) (move : Move plant deed next)
      (lets : Lets c v plant deed next) :
      Tracks c v start (writes ++ (plant.written? c deed).toList) (issues ++ (plant.issued? v deed next).toList) next

-- The variable holds a value as it was converted when it arrived.
structure Arrived (start earlier plant : Plant) (v : VariableId) (value : Value) : Prop where
  begins : Moves start earlier
  brings : earlier.agenda.head?.bind (Job.brings? v) = some value
  goes : Moves (earlier.after .job) plant
  holds : ∃ var, plant.vars[v]? = some var ∧ value.coerce earlier.readClock.1 var.kind = some var.value

-- What a run comes to, by its latest publication and by the latest that did not wait.
structure Settles (c : ChannelId) (v : VariableId) (start : Plant) (issues : List Issue) (plant : Plant)
    (latest direct : Issue) : Prop where
  last : issues.getLast? = some latest
  arriving : Issue.arriving? issues = some direct
  channel : plant.holding c = some (some latest.value)
  held : ∃ earlier, Arrived start earlier plant v direct.value
  agrees : latest.waits = false → direct = latest

instance (plant : Plant) (c : ChannelId) (v : VariableId) : Decidable (plant.Trails c v) :=
  decidable_of_iff ((∃ channel ∈ plant.channels[c]?, channel.active = true) ∧
      ∀ entry ∈ plant.channels.zipIdx, (∃ s ∈ entry.1.subscribers, s.listener.follower? = some v) ↔ entry.2 = c)
    ⟨fun both => ⟨both.1, both.2⟩, fun trails => ⟨trails.active, trails.only⟩⟩

instance (plant : Plant) (v : VariableId) (value : Value) : Decidable (plant.Accepts v value) :=
  inferInstanceAs (Decidable (_ ∧ ∃ var ∈ plant.vars[v]?, (value.coerce plant.readClock.1 var.kind).isSome = true))

instance (c : ChannelId) (v : VariableId) (plant : Plant) (deed : Deed) (next : Plant) :
    Decidable (Lets c v plant deed next) :=
  decidable_of_iff ((∀ s ∈ plant.sequences, s.channel ≠ c) ∧
      (∀ command ∈ plant.order? deed, plant.handmade c command = false) ∧
      (∀ command ∈ plant.order? deed, plant.reassigns v command = false) ∧
      (∀ value ∈ (plant.worked? deed).bind (Job.brings? v), (plant.rested deed).Accepts v value) ∧ next.Trails c v)
    ⟨fun all => ⟨all.1, all.2.1, all.2.2.1, all.2.2.2.1, all.2.2.2.2⟩,
      fun lets => ⟨lets.unstaged, lets.plain, lets.unset, lets.accepts, lets.trails⟩⟩

section

variable {c : ChannelId} {v : VariableId} {start plant next : Plant} {deed : Deed} {value : Value}

theorem underway_append (v : VariableId) (jobs agenda : List Job) :
    underway v (jobs ++ agenda) = underway v jobs ++ underway v agenda := List.filterMap_append

theorem underway_nil (jobs : List Job) (none : ∀ job ∈ jobs, job.brings? v = none) : underway v jobs = [] :=
  List.filterMap_eq_nil_iff.mpr none

theorem follower_brings (v : VariableId) (source : String) (event : Event) :
    (Job.tell (.follower v source) event).brings? v = event.value := if_pos rfl

theorem brings_call {job : Job} (brings : job.brings? v = some value) :
    ∃ source event, job = .tell (.follower v source) event ∧ event.value = some value := by
  cases job with
  | tell listener event =>
    rw [Job.brings?] at brings
    split at brings
    · next follows =>
      cases listener with
      | follower id source =>
        cases follows
        exact ⟨source, event, rfl, brings⟩
      | observer | comparison | trigger => contradiction
    · contradiction
  | _ => contradiction

theorem hushed_brings {job : Job} (hushed : job.call? = none) : job.brings? v = none := by
  cases brings : job.brings? v with
  | none => rfl
  | some value =>
    obtain ⟨source, event, rfl, _⟩ := brings_call brings
    contradiction

theorem underway_calls (channel : Channel) (event : Event) (given : event.value = some value)
    (heard : ∃ s ∈ channel.subscribers, s.listener.follower? = some v) :
    ∃ count, underway v (channel.calls event) = List.replicate (count + 1) value := by
  obtain ⟨s, subscribed, follows⟩ := heard
  have brings : (Job.tell s.listener event).brings? v = some value := by rw [Job.brings?, if_pos follows, given]
  have member : value ∈ underway v (channel.calls event) :=
    List.mem_filterMap.mpr ⟨_, List.mem_map.mpr ⟨s, subscribed, rfl⟩, brings⟩
  have all : ∀ other ∈ underway v (channel.calls event), other = value := by
    intro other found
    obtain ⟨job, called, brought⟩ := List.mem_filterMap.mp found
    obtain ⟨_, _, rfl⟩ := List.mem_map.mp called
    obtain ⟨_, _, same, told⟩ := brings_call brought
    rw [← (Job.tell.inj same).2, given] at told
    exact (Option.some.inj told).symm
  refine ⟨(underway v (channel.calls event)).length - 1, ?_⟩
  rw [Nat.sub_add_cancel (List.length_pos_of_mem member)]
  exact List.eq_replicate_iff.mpr ⟨rfl, all⟩

theorem trails_joined (trails : plant.Trails c v) (channel : Channel) (there : plant.channels[c]? = some channel) :
    ∃ s ∈ channel.subscribers, s.listener.follower? = some v :=
  (trails.only (channel, c) (List.mem_zipIdx_iff_getElem?.mpr there)).mpr rfl

theorem trails_aside (trails : plant.Trails c v) (listener : Listener) (elsewhere : Elsewhere c plant listener) :
    listener.follower? ≠ some v := by
  obtain ⟨d, other, s, subscribed, rfl⟩ := elsewhere
  intro follows
  cases there : plant.channels[d]? with
  | none => simp [subscribersOf, there] at subscribed
  | some channel =>
    rw [subscribersOf, there] at subscribed
    exact other ((trails.only (channel, d) (List.mem_zipIdx_iff_getElem?.mpr there)).mp ⟨s, subscribed, follows⟩)

theorem trails_active (trails : plant.Trails c v) : plant.Active c := by
  intro channel there
  obtain ⟨other, found, active⟩ := trails.active
  cases there.symm.trans found
  exact active

inductive Puts (c : ChannelId) (v : VariableId) (plant : Plant) (deed : Deed) (next : Plant) :
    Option Issue → Prop where
  | nothing (underway : underway v next.agenda = underway v (plant.rested deed).agenda)
      (preserves : Preserves c plant next) : Puts c v plant deed next none
  | issue (value : Value) (count : Nat)
      (underway : underway v next.agenda = List.replicate (count + 1) value ++ underway v (plant.rested deed).agenda)
      (holds : next.holding c = some (some value)) :
      Puts c v plant deed next (some ⟨value, !(Interlock.underway v (plant.rested deed).agenda).isEmpty⟩)

theorem issued_added (jobs : List Job) (added : next.agenda = jobs ++ (plant.rested deed).agenda) :
    plant.issued? v deed next =
      (underway v jobs).head?.map fun value => ⟨value, !(underway v (plant.rested deed).agenda).isEmpty⟩ := by
  rw [issued?, added, List.length_append, Nat.add_sub_cancel, List.take_left' rfl]

theorem voices_puts (voices : Voices c value (plant.rested deed) next) (trails : next.Trails c v) :
    plant.issued? v deed next = some ⟨value, !(underway v (plant.rested deed).agenda).isEmpty⟩ ∧
      Puts c v plant deed next (plant.issued? v deed next) := by
  obtain ⟨channel, stamp, behind, there, _, holds, hushed, agenda⟩ := voices
  obtain ⟨count, calls⟩ := underway_calls (v := v) channel (channel.valueEvent stamp value) rfl
    (trails_joined trails channel there)
  have told : underway v (channel.calls (channel.valueEvent stamp value) ++ behind) =
      List.replicate (count + 1) value := by
    rw [underway_append, calls, underway_nil behind fun job member => hushed_brings (hushed job member),
      List.append_nil]
  have issued : plant.issued? v deed next = some ⟨value, !(underway v (plant.rested deed).agenda).isEmpty⟩ := by
    rw [issued_added _ agenda, told]
    rfl
  refine ⟨issued, issued ▸ .issue value count ?_ ?_⟩
  · rw [agenda, underway_append, told]
  · rw [holding, there, Option.map_some, holds]

theorem move_puts (move : Move plant deed next) (trails : plant.Trails c v) (lets : Lets c v plant deed next) :
    Puts c v plant deed next (plant.issued? v deed next) := by
  cases utters_move move (trails_active trails) lets.unstaged lets.plain with
  | elsewhere preserves jobs agenda aside =>
    have silent : underway v jobs = [] := underway_nil jobs fun job member => by
      cases brings : job.brings? v with
      | none => rfl
      | some value =>
        obtain ⟨source, event, rfl, given⟩ := brings_call brings
        rcases aside _ member _ rfl with valueless | elsewhere
        · exact absurd (valueless.symm.trans given) (by simp)
        · exact absurd rfl (trails_aside lets.trails _ elsewhere)
    rw [issued_added jobs agenda, silent]
    refine .nothing (by rw [agenda, underway_append, silent, List.nil_append]) (Preserves.behind preserves ?_)
    cases deed <;> rfl
  | here value voices => exact (voices_puts voices lets.trails).2

theorem writes_issued (move : Move plant deed next) (trails : plant.Trails c v) (lets : Lets c v plant deed next) :
    (plant.written? c deed).toList.Sublist ((plant.issued? v deed next).toList.map Issue.value) := by
  cases written : plant.written? c deed with
  | none => exact List.nil_sublist _
  | some value =>
    obtain ⟨⟨d, given⟩, writes, own⟩ := Option.bind_eq_some_iff.mp written
    split at own
    · next same =>
      cases same
      cases own
      obtain ⟨channel, there, active⟩ := trails.active
      rw [(voices_puts (written_voices move writes there active) lets.trails).1]
      exact List.Sublist.refl _
    · contradiction

theorem arrival {job : Job} {rest : List Job} (agenda : plant.agenda = job :: rest)
    (brings : job.brings? v = some value) (move : Move plant .job next)
    (accepts : Accepts { plant with agenda := rest } v value) :
    underway v next.agenda = underway v rest ∧
      ∃ var, next.vars[v]? = some var ∧ value.coerce plant.readClock.1 var.kind = some var.value := by
  obtain ⟨source, event, rfl, given⟩ := brings_call brings
  obtain ⟨used, var, there, converts⟩ := accepts
  obtain ⟨stored, converts⟩ := Option.isSome_iff_exists.mp converts
  have stores := assigning_stores (.followed source event rest agenda there given used) move converts
  refine ⟨?_, ?_⟩
  · rw [stores.agenda, underway_append, underway_nil, List.nil_append]
    intro job member
    rcases List.mem_append.mp member with call | leave
    · obtain ⟨_, _, rfl⟩ := List.mem_map.mp call
      rfl
    · rw [List.mem_singleton.mp leave]
      rfl
  · have held : next.valueOf v = some stored := by rw [stores.values, Function.update_self]
    obtain ⟨after, known, same⟩ := Option.map_eq_some_iff.mp held
    refine ⟨after, known, ?_⟩
    rw [same, Variable.kind, same, stores.kind]
    exact converts

theorem unassigned_keeps (move : Move plant deed next) (lets : Lets c v plant deed next)
    (brings : (plant.worked? deed).bind (Job.brings? v) = none) {var : Variable} (there : plant.vars[v]? = some var) :
    ∃ after, next.vars[v]? = some after ∧ after.kind = var.kind ∧ after.value = var.value := by
  have held : plant.valueOf v = some var.value := by rw [valueOf, there]; rfl
  have kept := move_endures move held fun other given base assigning => by
    cases assigning with
    | called name named =>
      have unset := lets.unset _ rfl
      simp [reassigns, named] at unset
    | ordered label name rest agenda named =>
      have unset := lets.unset (.var (.set name given)) (by rw [order?, agenda]; rfl)
      simp [reassigns, named] at unset
    | followed source event rest agenda _ told _ =>
      rw [worked?, agenda, List.head?_cons, Option.bind_some, follower_brings, told] at brings
      contradiction
  obtain ⟨after, known, same⟩ := Option.map_eq_some_iff.mp kept
  obtain ⟨other, found, kind⟩ := move_kind move there
  cases known.symm.trans found
  exact ⟨after, known, kind, same⟩

theorem arriving_direct (issues : List Issue) (issue : Issue) (direct : issue.waits = false) :
    Issue.arriving? (issues ++ [issue]) = some issue := by
  rw [Issue.arriving?, List.filter_append, List.filter_singleton, direct]
  exact List.getLast?_concat

theorem arriving_waits (issues : List Issue) (issue : Issue) (waits : issue.waits = true) :
    Issue.arriving? (issues ++ [issue]) = Issue.arriving? issues := by
  rw [Issue.arriving?, List.filter_append, List.filter_singleton, waits]
  exact congrArg List.getLast? (List.append_nil _)

inductive ArrivalProgress (start plant : Plant) (v : VariableId) (issues : List Issue) : Prop where
  | nowhere (none : issues = []) (nothing : underway v plant.agenda = []) : ArrivalProgress start plant v issues
  | coming (issue : Issue) (arriving : Issue.arriving? issues = some issue)
      (last : (underway v plant.agenda).getLast? = some issue.value) : ArrivalProgress start plant v issues
  | there (issue : Issue) (earlier : Plant) (arriving : Issue.arriving? issues = some issue)
      (nothing : underway v plant.agenda = []) (arrived : Arrived start earlier plant v issue.value) :
      ArrivalProgress start plant v issues

theorem arrived_keeps {earlier : Plant} (arrived : Arrived start earlier plant v value) (move : Move plant deed next)
    (lets : Lets c v plant deed next) (brings : (plant.worked? deed).bind (Job.brings? v) = none) :
    Arrived start earlier next v value := by
  obtain ⟨var, there, converts⟩ := arrived.holds
  obtain ⟨after, known, kind, same⟩ := unassigned_keeps move lets brings there
  exact ⟨arrived.begins, arrived.brings, arrived.goes.tail ⟨deed, move⟩, after, known, by rw [kind, same, converts]⟩

theorem rested_underway (deed : Deed) (brings : (plant.worked? deed).bind (Job.brings? v) = none) :
    underway v (plant.rested deed).agenda = underway v plant.agenda := by
  cases deed with
  | job =>
    rw [rested]
    cases agenda : plant.agenda with
    | nil => rfl
    | cons job rest =>
      rw [worked?, agenda, List.head?_cons, Option.bind_some] at brings
      rw [underway, underway, List.tail_cons, List.filterMap_cons_none brings]
  | call | turn | dispatch => rfl

theorem brings_first (brings : (plant.worked? deed).bind (Job.brings? v) = some value) :
    deed = .job ∧ ∃ job rest, plant.agenda = job :: rest ∧ job.brings? v = some value := by
  obtain ⟨job, worked, brought⟩ := Option.bind_eq_some_iff.mp brings
  cases deed with
  | job =>
    obtain ⟨rest, agenda⟩ := List.head?_eq_some_iff.mp worked
    exact ⟨rfl, job, rest, agenda, brought⟩
  | call | turn | dispatch => contradiction

theorem arrival_proceeds {issues : List Issue} (moves : Moves start plant)
    (progress : ArrivalProgress start plant v issues)
    (move : Move plant deed next) (lets : Lets c v plant deed next)
    (brings : (plant.worked? deed).bind (Job.brings? v) = some value) :
    underway v next.agenda = underway v (plant.rested deed).agenda ∧ ArrivalProgress start next v issues := by
  have accepts := lets.accepts value brings
  obtain ⟨rfl, job, rest, agenda, brought⟩ := brings_first brings
  have here : underway v plant.agenda = value :: underway v rest := by
    rw [agenda, underway, List.filterMap_cons_some brought, ← underway]
  rw [rested, agenda, List.tail_cons] at accepts ⊢
  obtain ⟨same, holds⟩ := arrival agenda brought move accepts
  refine ⟨same, ?_⟩
  cases progress with
  | nowhere none nothing => simp [nothing] at here
  | there issue earlier arriving nothing arrived => simp [nothing] at here
  | coming issue arriving last =>
    rw [here] at last
    cases behind : underway v rest with
    | nil =>
      rw [behind, List.getLast?_singleton, Option.some.injEq] at last
      have goes : Moves (plant.after .job) next := by
        cases move with
        | job _ stepped =>
          rw [after, stepped]
          exact .refl
      exact .there issue plant arriving (same.trans behind) ⟨moves, last ▸ brings, goes, last ▸ holds⟩
    | cons other more =>
      rw [behind, List.getLast?_cons_cons] at last
      exact .coming issue arriving (by rw [same, behind, last])

theorem quiet_arrival_progress {issues : List Issue} (progress : ArrivalProgress start plant v issues)
    (move : Move plant deed next)
    (lets : Lets c v plant deed next) (brings : (plant.worked? deed).bind (Job.brings? v) = none)
    (same : underway v next.agenda = underway v plant.agenda) : ArrivalProgress start next v issues := by
  cases progress with
  | nowhere none nothing => exact .nowhere none (same.trans nothing)
  | coming issue arriving last => exact .coming issue arriving (by rw [same, last])
  | there issue earlier arriving nothing arrived =>
    exact .there issue earlier arriving (same.trans nothing) (arrived_keeps arrived move lets brings)

theorem issue_arrival_progress {issues : List Issue} (progress : ArrivalProgress start plant v issues) (count : Nat)
    (added : underway v next.agenda = List.replicate (count + 1) value ++ underway v plant.agenda) :
    ArrivalProgress start next v (issues ++ [⟨value, !(underway v plant.agenda).isEmpty⟩]) := by
  cases waiting : underway v plant.agenda with
  | nil =>
    refine .coming _ (arriving_direct issues _ rfl) ?_
    rw [added, waiting, List.append_nil, List.getLast?_replicate, if_neg (Nat.succ_ne_zero count)]
  | cons other more =>
    cases progress with
    | nowhere none nothing => simp [nothing] at waiting
    | there issue earlier arriving nothing arrived => simp [nothing] at waiting
    | coming issue arriving last =>
      refine .coming issue ((arriving_waits issues _ rfl).trans arriving) ?_
      rw [added, List.getLast?_append, last, Option.some_or]

theorem arrival_progress_move {issues : List Issue} (moves : Moves start plant)
    (progress : ArrivalProgress start plant v issues)
    (move : Move plant deed next) (lets : Lets c v plant deed next) {issued : Option Issue}
    (puts : Puts c v plant deed next issued) : ArrivalProgress start next v (issues ++ issued.toList) := by
  cases brings : (plant.worked? deed).bind (Job.brings? v) with
  | some value =>
    obtain ⟨same, progress⟩ := arrival_proceeds moves progress move lets brings
    cases puts with
    | nothing => rwa [Option.toList_none, List.append_nil]
    -- nothing is published while a value arrives
    | issue value count added => simp [same] at added
  | none =>
    have still := rested_underway deed brings
    cases puts with
    | nothing same =>
      rw [Option.toList_none, List.append_nil]
      exact quiet_arrival_progress progress move lets brings (same.trans still)
    | issue value count added =>
      rw [still] at added ⊢
      exact issue_arrival_progress progress count added

theorem puts_holds {issues : List Issue} {issued : Option Issue} (puts : Puts c v plant deed next issued)
    (holds : ∀ issue ∈ issues.getLast?, plant.holding c = some (some issue.value)) :
    ∀ issue ∈ (issues ++ issued.toList).getLast?, next.holding c = some (some issue.value) := by
  intro issue last
  cases puts with
  | nothing _ preserves =>
    rw [Option.toList_none, List.append_nil] at last
    exact preserves _ (holds issue last)
  | issue value count _ holds =>
    rw [Option.toList_some, List.getLast?_concat] at last
    cases last
    exact holds

structure Trailing (c : ChannelId) (v : VariableId) (start : Plant) (writes : List Value) (issues : List Issue)
    (plant : Plant) : Prop where
  moves : Moves start plant
  trails : plant.Trails c v
  written : writes.Sublist (issues.map Issue.value)
  holds : ∀ issue ∈ issues.getLast?, plant.holding c = some (some issue.value)
  progress : ArrivalProgress start plant v issues

theorem tracks_trailing {writes : List Value} {issues : List Issue} (tracks : Tracks c v start writes issues plant) :
    Trailing c v start writes issues plant := by
  induction tracks with
  | start trails nothing => exact ⟨.refl, trails, .slnil, by simp, .nowhere rfl nothing⟩
  | move writes issues plant next deed _ move lets ih =>
    have puts := move_puts move ih.trails lets
    refine ⟨ih.moves.tail ⟨deed, move⟩, lets.trails, ?_, puts_holds puts ih.holds,
      arrival_progress_move ih.moves ih.progress move lets puts⟩
    rw [List.map_append]
    exact ih.written.append (writes_issued move ih.trails lets)

theorem follower_settles {writes : List Value} {issues : List Issue} (tracks : Tracks c v start writes issues plant)
    (rest : plant.agenda = []) (written : writes ≠ []) :
    writes.Sublist (issues.map Issue.value) ∧ ∃ latest direct, Settles c v start issues plant latest direct := by
  have trailing := tracks_trailing tracks
  refine ⟨trailing.written, ?_⟩
  cases last : issues.getLast? with
  | none =>
    have none := trailing.written
    rw [List.getLast?_eq_none_iff.mp last, List.map_nil, List.sublist_nil] at none
    contradiction
  | some latest =>
    cases trailing.progress with
    | nowhere none => simp [none] at last
    | coming issue arriving last => simp [rest, underway] at last
    | there issue earlier arriving nothing arrived =>
      refine ⟨latest, issue, last, arriving, trailing.holds latest last, ⟨earlier, arrived⟩, fun direct => ?_⟩
      obtain ⟨before, split⟩ := List.getLast?_eq_some_iff.mp last
      rw [split, arriving_direct before latest direct] at arriving
      exact (Option.some.inj arriving).symm

end

def account (c : ChannelId) (v : VariableId) : Plant → List Deed → List Value × List Issue
  | _, [] => ([], [])
  | plant, deed :: rest =>
      let later := account c v (plant.after deed) rest
      ((plant.written? c deed).toList ++ later.1, (plant.issued? v deed (plant.after deed)).toList ++ later.2)

theorem tracks_after (c : ChannelId) (v : VariableId) (start plant : Plant) (writes : List Value)
    (issues : List Issue) (deeds : List Deed) (earlier : Tracks c v start writes issues plant)
    (passed : follows (fun plant deed next => decide (Lets c v plant deed next)) plant deeds = true) :
    Tracks c v start (writes ++ (account c v plant deeds).1) (issues ++ (account c v plant deeds).2)
      (deeds.foldl after plant) := by
  induction deeds generalizing plant writes issues with
  | nil => rwa [account, List.append_nil, List.append_nil]
  | cons deed rest ih =>
    simp only [follows, Bool.and_eq_true, decide_eq_true_eq] at passed
    have first := Tracks.move writes issues plant _ deed earlier (after_orderly plant deed passed.1.1).move passed.1.2
    rw [account, List.foldl_cons, ← List.append_assoc, ← List.append_assoc]
    exact ih _ _ _ first passed.2

-- A handler that stands in front of a follower answers the first message by writing on the channel.
def relay : Plant :=
  (blank ⟨0, 0⟩ true).runAll
    [.channel (.make "c" true none none false),
      .subscribe "h" .channel "c" none false 1 [.channel (.write "c" (.bool false))],
      .var (.make "x" (.bool false) false), .var (.follow "f" "x" "c")]

def relaying : List Deed := .call (.channel (.write "c" (.bool true))) :: List.replicate 8 .job

def relayed : Plant := relaying.foldl after relay

theorem relay_reached : relay.Reached :=
  ⟨⟨0, 0⟩, true, run_all_runs (fun _ _ _ => true) (fun _ _ _ done _ => done.move) _ _ (by decide +kernel)⟩

theorem relayed_tracks :
    Tracks 0 0 relay [.bool true, .bool false] [⟨.bool true, false⟩, ⟨.bool false, true⟩] relayed := by
  have tracks := tracks_after 0 0 relay relay [] [] relaying (.start (by decide +kernel) (by decide +kernel))
    (by decide +kernel)
  rwa [show account 0 0 relay relaying = ([.bool true, .bool false], [⟨.bool true, false⟩, ⟨.bool false, true⟩])
    by decide +kernel] at tracks

theorem relayed_settles : relayed.holding 0 = some (some (.bool false)) ∧ relayed.valueOf 0 = some (.bool true) := by
  obtain ⟨_, latest, direct, settles⟩ := follower_settles relayed_tracks
    (List.isEmpty_iff.mp (by decide +kernel)) (by simp)
  obtain rfl : ⟨.bool false, true⟩ = latest := Option.some.inj settles.last
  obtain rfl : ⟨.bool true, false⟩ = direct := Option.some.inj settles.arriving
  obtain ⟨earlier, arrived⟩ := settles.held
  obtain ⟨var, there, converts⟩ := arrived.holds
  have kind : (relayed.vars[0]?).map Variable.kind = some .bool := by decide +kernel
  rw [there, Option.map_some, Option.some.injEq] at kind
  have same : (Value.bool true).coerce earlier.readClock.1 .bool = some (.bool true) := rfl
  rw [kind, same] at converts
  exact ⟨settles.channel, by rw [valueOf, there, Option.map_some, converts]⟩

theorem relayed_behind : ¬ ∀ (c : ChannelId) (v : VariableId) (start plant : Plant) (writes : List Value)
    (issues : List Issue), start.Reached → Tracks c v start writes issues plant → plant.agenda = [] → writes ≠ [] →
      ∃ (value : Value) (var : Variable) (stamp : Instant), plant.holding c = some (some value) ∧
        plant.vars[v]? = some var ∧ value.coerce stamp var.kind = some var.value := by
  intro always
  obtain ⟨value, var, stamp, holds, there, converts⟩ := always 0 0 relay relayed _ _ relay_reached relayed_tracks
    (List.isEmpty_iff.mp (by decide +kernel)) (by simp)
  have shows : relayed.holding 0 = some (some (.bool false)) ∧
      (relayed.vars[0]?).map (fun var => var.value) = some (.bool true) := by decide +kernel
  rw [shows.1] at holds
  cases holds
  rw [there, Option.map_some, Option.some.injEq] at shows
  rw [Variable.kind, shows.2] at converts
  exact absurd converts (by simp [Value.coerce, Value.kind])

end Plant

end Interlock
