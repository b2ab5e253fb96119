import Interlock.Proofs.Plant.Delivery
import Interlock.Proofs.Plant.Endurance
import Interlock.Proofs.Value.Conversion

/-!
Assignments. A variable keeps its kind: it takes a value over as it converts to that kind and tells each of
its subscribers once, in order, or it keeps what it holds and nobody hears of it.
-/

set_option autoImplicit false

namespace Interlock.Plant

open Interlock.Calendar (Instant)
open Interlock.Graph
open Interlock.Session

-- What was worked off of a block of jobs that was listed at once in front of the rest. Whatever these jobs
-- cause stands above those of the block that are left.
inductive Worked (block base : List Job) : List Job → Plant → Prop where
  | listed (plant : Plant) (agenda : plant.agenda = block ++ base) : Worked block base [] plant
  | above (done : List Job) (plant next : Plant) (deed : Deed) (earlier : Worked block base done plant)
      (move : Move plant deed next)
      (stands : (block.drop done.length ++ base).length ≤ (plant.rested deed).agenda.length) :
      Worked block base done next
  | down (done : List Job) (plant next : Plant) (job : Job) (rest : List Job)
      (earlier : Worked block base done plant) (move : Move plant .job next)
      (agenda : plant.agenda = job :: rest) (stays : base.length ≤ rest.length)
      (falls : rest.length < (block.drop done.length ++ base).length) :
      Worked block base (done ++ [job]) next

section

variable {plant next : Plant} {block base done : List Job} {deed : Deed}

theorem move_grows (move : Move plant deed next) : ∃ jobs, next.agenda = jobs ++ (plant.rested deed).agenda := by
  obtain ⟨jobs, grown, _⟩ := publishes_once_published (publishes_once_move plant next deed move)
  exact ⟨jobs, grown⟩

theorem move_works {left front : List Job} (move : Move plant deed next) (agenda : plant.agenda = front ++ left)
    (stands : left.length ≤ (plant.rested deed).agenda.length) : ∃ more, next.agenda = more ++ left := by
  obtain ⟨jobs, grown⟩ := move_grows move
  suffices ∃ kept, (plant.rested deed).agenda = kept ++ left by
    obtain ⟨kept, same⟩ := this
    exact ⟨jobs ++ kept, by rw [grown, same, List.append_assoc]⟩
  cases deed with
  | job =>
    rw [rested, agenda] at stands ⊢
    cases front with
    | nil =>
      cases left with
      | nil => exact ⟨[], rfl⟩
      | cons job rest => simp at stands
    | cons job rest => exact ⟨rest, rfl⟩
  | call | turn | dispatch => exact ⟨front, agenda⟩

theorem front_falls {left front rest : List Job} {job : Job} (agenda : front ++ left = job :: rest)
    (falls : rest.length < left.length) : front = [] := by
  cases front with
  | nil => rfl
  | cons first more =>
    cases agenda
    simp at falls

theorem worked_block (worked : Worked block base done plant) :
    ∃ left front, block = done ++ left ∧ plant.agenda = front ++ (left ++ base) := by
  induction worked with
  | listed plant agenda => exact ⟨block, [], rfl, agenda⟩
  | above done plant next deed _ move stands ih =>
    obtain ⟨left, front, rfl, agenda⟩ := ih
    rw [List.drop_left] at stands
    obtain ⟨more, grown⟩ := move_works move agenda stands
    exact ⟨left, more, rfl, grown⟩
  | down done plant next job rest _ move agenda stays falls ih =>
    obtain ⟨left, front, rfl, known⟩ := ih
    rw [List.drop_left] at falls
    obtain rfl := front_falls (known.symm.trans agenda) falls
    obtain ⟨jobs, grown⟩ := move_grows move
    rw [rested, agenda, List.tail_cons] at grown
    rw [known, List.nil_append] at agenda
    cases left with
    | nil =>
      rw [List.nil_append] at agenda
      rw [agenda, List.length_cons] at stays
      omega
    | cons first left =>
      cases agenda
      exact ⟨left, jobs, List.append_cons _ _ _, grown⟩

theorem worked_whole (worked : Worked block base done plant) :
    done <+: block ∧ (plant.agenda = base → done = block) := by
  obtain ⟨left, front, rfl, agenda⟩ := worked_block worked
  refine ⟨List.prefix_append _ _, fun rest => ?_⟩
  rw [rest, ← List.append_assoc, eq_comm, List.append_left_eq_self, List.append_eq_nil_iff] at agenda
  rw [agenda.2, List.append_nil]

theorem worked_move (worked : Worked block base done plant) (move : Move plant deed next)
    (above : deed = .job → plant.agenda ≠ base) : ∃ more, Worked block base more next := by
  obtain ⟨left, front, rfl, agenda⟩ := worked_block worked
  by_cases stands : (left ++ base).length ≤ (plant.rested deed).agenda.length
  · exact ⟨done, .above done plant next deed worked move (by rwa [List.drop_left])⟩
  · cases deed with
    | job =>
      cases known : plant.agenda with
      | nil =>
        cases move with
        | job _ stepped =>
          rw [stepJob?, known] at stepped
          contradiction
      | cons job rest =>
        rw [rested, known, List.tail_cons, not_le] at stands
        refine ⟨done ++ [job], .down done plant next job rest worked move known ?_ (by rwa [List.drop_left])⟩
        obtain rfl := front_falls (agenda.symm.trans known) stands
        cases left with
        | nil => exact absurd agenda (above rfl)
        | cons first left =>
          rw [known] at agenda
          cases agenda
          simp
    | call | turn | dispatch =>
      refine absurd ?_ stands
      simp only [rested, agenda, List.length_append]
      omega

end

def told (v : VariableId) (var : Variable) (stored : Value) (stamp : Instant) : List Job :=
  (var.subscribers.map fun subscriber => .deliver subscriber.listener
    ⟨var.name, .ofSame (stored.sameAs var.value), stored, stamp⟩) ++ [.leave (.var v)]

-- Behind an assignment that the variable accepts. Each subscriber is told once, in order, whatever those
-- before it do when they are told.
structure Stores (v : VariableId) (var : Variable) (stored : Value) (base : List Job) (plant next : Plant) :
    Prop where
  kind : stored.kind = var.kind
  values : next.valueOf = Function.update plant.valueOf v (some stored)
  agenda : next.agenda = told v var stored plant.readClock.1 ++ base
  works : ∀ done later, Worked (told v var stored plant.readClock.1) base done later →
    done <+: told v var stored plant.readClock.1 ∧
      (later.agenda = base → done = told v var stored plant.readClock.1) ∧
      ∀ deed last, Move later deed last → (deed = .job → later.agenda ≠ base) →
        ∃ more, Worked (told v var stored plant.readClock.1) base more last

-- Behind one that it declines. What the rest of the agenda still has to deliver is as it was.
structure Declines (base : List Job) (plant next : Plant) : Prop where
  values : next.valueOf = plant.valueOf
  agenda : next.agenda = base
  heard : ∀ label, next.heard label = plant.heard label

section

variable {plant next : Plant} {v : VariableId} {var : Variable} {value stored : Value} {deed : Deed}
  {base : List Job}

theorem assign_stored {stamp : Instant} (converts : value.coerce stamp var.kind = some stored) :
    var.assign stamp value = .ok (.ofSame (stored.sameAs var.value), { var with value := stored }) := by
  rw [Variable.assign, converts]

theorem assign_declined {stamp : Instant} (fails : value.coerce stamp var.kind = none) :
    var.assign stamp value = .error ⟨value, var.kind, var.name⟩ := by
  rw [Variable.assign, fails]

theorem assigning_stores (assigning : Assigning plant v var value deed base) (move : Move plant deed next)
    (converts : value.coerce plant.readClock.1 var.kind = some stored) : Stores v var stored base plant next := by
  obtain ⟨done, rfl, announces⟩ := assigning_starts assigning next move (assign_stored converts)
  have still := still_retire done
  refine ⟨Value.coerce_kind converts, still.values.trans announces.values, ?_, fun done later worked => ?_⟩
  · rw [still.agenda, announces.agenda, told, List.append_assoc, ← listeners_var v var (assigning_there assigning)]
    rfl
  · obtain ⟨ordered, whole⟩ := worked_whole worked
    exact ⟨ordered, whole, fun deed last move above => worked_move worked move above⟩

theorem assigning_declines (assigning : Assigning plant v var value deed base) (move : Move plant deed next)
    (fails : value.coerce plant.readClock.1 var.kind = none) : Declines base plant next := by
  obtain ⟨done, rfl, agenda, _, hushed⟩ := assigning_refused assigning next move _ (assign_declined fails)
  have still := still_retire done
  exact ⟨still.values.trans hushed.values, still.agenda.trans agenda,
    fun label => by rw [(hushed_retire done).heard, hushed.heard]⟩

theorem move_kind (move : Move plant deed next) (there : plant.vars[v]? = some var) :
    ∃ after, next.vars[v]? = some after ∧ after.kind = var.kind := by
  suffices ∃ value : Value, next.valueOf v = some value ∧ value.kind = var.kind by
    obtain ⟨value, held, kind⟩ := this
    obtain ⟨after, known, same⟩ := Option.map_eq_some_iff.mp held
    exact ⟨after, known, by rw [Variable.kind, same, kind]⟩
  have held : plant.valueOf v = some var.value := by rw [valueOf, there]; rfl
  by_cases assigned : ∃ var value base, Assigning plant v var value deed base
  · obtain ⟨other, value, base, assigning⟩ := assigned
    cases there.symm.trans (assigning_there assigning)
    cases converts : value.coerce plant.readClock.1 var.kind with
    | some stored =>
      have stores := assigning_stores assigning move converts
      exact ⟨stored, by rw [stores.values, Function.update_self], stores.kind⟩
    | none =>
      have declines := assigning_declines assigning move converts
      exact ⟨var.value, by rw [declines.values, held], rfl⟩
  · exact ⟨var.value, move_endures move held fun other value base assigning =>
      assigned ⟨other, value, base, assigning⟩, rfl⟩

end

-- A text is on its way to a flag that follows the channel, and behind it to a handler.
def sent (text : String) : Plant :=
  ((blank ⟨0, 0⟩ true).runAll
    [.channel (.make "c" true none none false), .var (.make "x" (.bool false) false),
      .var (.follow "f" "x" "c"), .subscribe "h" .channel "c" none false 0 [],
      .subscribe "g" .var "x" none false 0 []]).after (.call (.channel (.write "c" (.text text))))

end Interlock.Plant
