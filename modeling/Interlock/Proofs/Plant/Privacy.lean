import Interlock.Proofs.Plant.Balance
import Interlock.Proofs.Plant.Dealing
import Interlock.Proofs.Plant.Gating
import Interlock.Proofs.Plant.Ledger
import Interlock.Proofs.Plant.Provenance

/-!
The triggers of a schedule. Nobody but its sequence has a step that waits for one of them and no name leads
to it, so it listens only while the sequence is at it. Whatever ends the step, the variables are then left
with the subscribers that they have apart from the sequence.
-/

set_option autoImplicit false

namespace Interlock

open Interlock.Graph
open Interlock.Schedule
open Interlock.Session (Command)

def Course.Expects (c : Course) (t : TriggerId) : Prop :=
  ∃ s, c.sequence = some s ∧ ∃ step ∈ s.steps, step.trigger = some t

section

variable {id : SequenceId} {c after : Course} {t : TriggerId}

theorem holds_expects (holds : c.Holds t) : c.Expects t := by
  obtain ⟨task, busy, waits⟩ := holds
  obtain ⟨s, held, running⟩ := Option.bind_eq_some_iff.mp busy
  have same : s.task = some task := running
  exact ⟨s, held, task.step, by simp [Sequence.steps, same], waits⟩

theorem expects_fewer (s next : Sequence) (held : c.sequence = some s) (now : after.sequence = some next)
    (task : next.task.map Task.step = s.task.map Task.step ∨ next.task = none)
    (queue : ∀ step ∈ next.queue, step ∈ s.queue) (expects : after.Expects t) : c.Expects t := by
  obtain ⟨other, found, step, member, waits⟩ := expects
  cases now.symm.trans found
  refine ⟨s, held, step, ?_, waits⟩
  rw [Sequence.steps] at member ⊢
  rcases List.mem_append.mp member with current | queued
  · rcases task with same | gone
    · exact List.mem_append_left _ (same ▸ current)
    · rw [gone] at current
      contradiction
  · exact List.mem_append_right _ (queue step queued)

theorem expects_same (same : after.sequence = c.sequence) (expects : after.Expects t) : c.Expects t := by
  obtain ⟨s, found, rest⟩ := expects
  exact ⟨s, same ▸ found, rest⟩

theorem proceeds_expects (s ready next : Sequence) (held : c.sequence = some s)
    (now : after.sequence = some next) (endings : Nat) (told : List Progress)
    (proceeds : Proceeds ready endings told next) (task : ready.task = s.task)
    (queue : ready.queue = s.queue) (expects : after.Expects t) : c.Expects t := by
  have stays : next.task = ready.task → next.queue = ready.queue → c.Expects t := fun same kept =>
    expects_fewer s next held now (.inl (by rw [same, task]))
      (fun _ member => by rwa [kept, queue] at member) expects
  cases proceeds with
  | stays | pauses | ends => exact stays rfl rfl
  | hands step rest _ _ _ filled =>
      obtain ⟨_, found, other, member, waits⟩ := expects
      cases now.symm.trans found
      refine ⟨s, held, other, List.mem_append_right _ ?_, waits⟩
      rw [← queue, filled]
      exact member

theorem works_expects (stroke : Stroke id c after) (relists : Relists c after) (expects : after.Expects t) :
    c.Expects t := by
  have keeps : ∀ s next : Sequence, c.sequence = some s → after.sequence = some next →
      next.task.map Task.step = s.task.map Task.step ∨ next.task = none →
        (∀ step ∈ next.queue, step ∈ s.queue) → c.Expects t :=
    fun s next held now task queue => expects_fewer s next held now task queue expects
  cases stroke with
  | create | enqueue => exact absurd relists (not_relists _ _ rfl (Nat.le_refl _))
  | pause s held | withdraw s held | begin s _ _ held | stop s _ held | drain s _ held | halt s _ held
  | complete s _ held => exact keeps s _ held rfl (.inl rfl) fun _ member => member
  | resume s next endings told held _ _ _ proceeds =>
      exact proceeds_expects s _ next held rfl endings told proceeds rfl rfl expects
  | activate s next endings told held _ proceeds =>
      exact proceeds_expects s _ next held rfl endings told proceeds rfl rfl expects
  | deactivate s held | clear s held => exact keeps s _ held rfl (.inl rfl) (by simp [Sequence.stopped])
  | take s step held task | release s step held task =>
      exact keeps s _ held rfl (.inl (by rw [task]; rfl)) fun _ member => member
  | await s step _ _ held _ task => exact keeps s _ held rfl (.inl task.symm) fun _ member => member
  | refuse s _ held => exact keeps s _ held rfl (.inr rfl) (by simp [Sequence.stopped, Sequence.free])
  | leave s _ _ held | satisfied s _ _ held => exact keeps s _ held rfl (.inr rfl) fun _ member => member
  | lost | announce | written | placeholder | apply | skip | engage | awaited | passed =>
      exact expects_same rfl expects
  | step s step queue _ held _ filled =>
      obtain ⟨_, found, other, member, waits⟩ := expects
      cases found
      exact ⟨s, held, other, List.mem_append_right _ (filled ▸ member), waits⟩

theorem deals_expects (summons : Option Summons) (deals : Deals id summons c after)
    (expects : after.Expects t) :
    c.Expects t ∨ ∃ asked, summons = some asked ∧ ∃ step ∈ asked.steps, step.trigger = some t := by
  cases deals with
  | stays => exact .inl expects
  | works _ _ stroke relists => exact .inl (works_expects stroke relists expects)
  | answers asked _ _ answers =>
      cases answers with
      | create _ _ _ _ _ queue absent =>
          obtain ⟨_, found, step, member, waits⟩ := expects
          cases found
          exact .inr ⟨_, rfl, step, member, waits⟩
      | push _ s steps held =>
          obtain ⟨_, found, step, member, waits⟩ := expects
          cases found
          rw [Sequence.steps, ← List.append_assoc] at member
          rcases List.mem_append.mp member with old | new
          · exact .inl ⟨s, held, step, old, waits⟩
          · exact .inr ⟨_, rfl, step, new, waits⟩
      | activate _ s next endings told held _ proceeds =>
          exact .inl (proceeds_expects s _ next held rfl endings told proceeds rfl rfl expects)
      | resume _ s next endings told held _ _ _ proceeds =>
          exact .inl (proceeds_expects s _ next held rfl endings told proceeds rfl rfl expects)
      | pause _ s held | withdraw _ s held =>
          refine .inl (expects_fewer s _ held rfl ?_ ?_ expects)
          · exact .inl rfl
          · exact fun _ member => member
      | stop _ _ s _ held | clear _ s held =>
          refine .inl (expects_fewer s _ held rfl ?_ ?_ expects)
          · exact .inl rfl
          · simp [Sequence.stopped]
      | vain => exact .inl expects

end

namespace Plant

section

variable {plant start later next : Plant} {deed : Deed} {id : SequenceId} {t : TriggerId}
  {steps : List Step}

theorem led_retire (plant : Plant) (led : plant.retire.desk.Leads t) : plant.desk.Leads t := by
  revert led
  refine retire_keeps (fun next => next.desk.Leads t → plant.desk.Leads t) ?_ ?_ ?_ plant id
  · intro next other kept _ led
    have desk : (next.deactivateTrigger other).desk = next.desk :=
      congrArg Prod.fst (deactivated_trigger next other).1
    exact kept (desk ▸ led)
  · intro next other kept led
    have desk : (next.deactivateComparison other).desk = next.desk :=
      congrArg Prod.fst (deactivated_comparison next other).1
    exact kept (desk ▸ led)
  · exact fun next other kept led => kept ((calm_deactivate_device next other).led t led)

theorem schedule_summons (name : String) (config : Config.Procedure) (pollInterval : Nat) (asked : Summons)
    (summons : plant.summons? id (.workspace (.schedule name config pollInterval)) = some asked) :
    plant.sequences.length = id ∧
      (∀ t, (plant.execute (.workspace (.schedule name config pollInterval))).2.desk.Leads t →
        plant.desk.Leads t) ∧
      ∀ step ∈ asked.steps, ∀ t, step.trigger = some t → plant.triggers.length ≤ t ∧
        t < (plant.execute (.workspace (.schedule name config pollInterval))).2.triggers.length := by
  rw [summons?] at summons
  split at summons
  · next place =>
      rw [execute, onWorkspace]
      cases made : plant.makeSchedule plant.desk.table plant.desk.registry config pollInterval with
      | error failure =>
          have created := schedule_created plant config pollInterval id
          rw [made] at created
          dsimp only at created
          rw [created] at summons
          contradiction
      | ok found =>
          obtain ⟨_, desk, part, steps, between, chosen, stepped, new⟩ :=
            make_schedule_reflects _ _ config pollInterval found.1 made
          rw [scheduledSteps?, chosen] at summons
          dsimp only at summons
          rw [stepped] at summons
          cases summons
          dsimp only
          split <;> exact ⟨place, fun t led => desk ▸ led, new⟩
  · contradiction

theorem aimed_same {name : String} {call asked : Summons}
    (aimed : plant.aimed id name call = some asked) : asked = call := by
  rw [Plant.aimed] at aimed
  split at aimed
  · split at aimed
    · exact (Option.some.inj aimed).symm
    · contradiction
  · contradiction

theorem summons_steps (command : Command) (asked : Summons) (summons : plant.summons? id command = some asked)
    (step : Step) (member : step ∈ asked.steps) (waits : step.trigger = some t) :
    plant.desk.Leads t ∨ plant.triggers.length ≤ t ∧ t < (plant.execute command).2.triggers.length := by
  have bare : ∀ name (call : Summons), plant.aimed id name call = some asked → call.steps = [] →
      plant.desk.Leads t := by
    intro name call aimed none
    rw [aimed_same aimed, none] at member
    contradiction
  cases command with
  | sequence command =>
      cases command with
      | push name title count =>
          rw [summons?] at summons
          split at summons
          · next pushed known =>
              rw [aimed_same summons] at member
              have same : step = pushed := List.eq_of_mem_replicate member
              obtain ⟨before, after, entries, _⟩ := List.lookup_eq_some_iff.mp known
              refine .inl (.inr ⟨(title, pushed), ?_, same ▸ waits⟩)
              rw [entries]
              exact List.mem_append_right _ List.mem_cons_self
          · contradiction
      | make name pollInterval =>
          rw [summons?] at summons
          split at summons
          · cases summons
            contradiction
          · contradiction
      | activate name | deactivate name | dispose name => exact .inl (bare name _ summons rfl)
      | setPaused name paused => exact .inl (bare name _ summons (by cases paused <;> rfl))
      | step | stepOf | state => contradiction
  | workspace command =>
      cases command with
      | schedule name config pollInterval =>
          exact .inr ((schedule_summons name config pollInterval asked summons).2.2 step member t waits)
      | startSchedule =>
          rw [summons?] at summons
          split at summons
          · split at summons
            · cases summons
              contradiction
            · contradiction
          · contradiction
      | make | start | shutdown => contradiction
  | var | comparison | trigger | channel | device | subscribe | unsubscribe => contradiction

theorem asks_ordered (asked : Summons) (asks : plant.asks? id deed = some asked) :
    ∃ command, command ∈ plant.order? deed := by
  cases deed with
  | call command => exact ⟨command, rfl⟩
  | job =>
      rw [asks?] at asks
      split at asks
      · next job rest agenda =>
          cases job with
          | command label command => exact ⟨command, by rw [order?, agenda]; rfl⟩
          | deliver | tell | leave | exhaust | conclude | write | settleDown | keepSubscription
          | closeRun | announce | begin | act | arm | wait | disarm | next | complete => contradiction
      · contradiction
  | turn | dispatch => contradiction

theorem ordered_next (move : Move plant deed next) (command : Command) (ordered : command ∈ plant.order? deed) :
    ∃ ready : Plant, ready.desk = plant.desk ∧ ready.triggers = plant.triggers ∧
      (∀ id, plant.asks? id deed = ready.summons? id command) ∧
      (∀ t, next.desk.Leads t → (ready.execute command).2.desk.Leads t) ∧
      (ready.execute command).2.triggers.length ≤ next.triggers.length := by
  cases move with
  | call other =>
      cases ordered
      exact ⟨plant, rfl, rfl, fun _ => rfl, fun _ => led_retire _, (reflects_retire _).triggers⟩
  | job next stepped =>
      obtain ⟨job, rest, agenda, rfl⟩ := worked_off stepped
      rw [order?, agenda] at ordered
      split at ordered
      · next label other _ listed =>
          cases ordered
          cases listed
          obtain ⟨jobs, _, _, same⟩ := run_command_next { plant with agenda := rest } label command
          refine ⟨{ plant with agenda := rest }, rfl, rfl, fun id => ?_, fun t led => ?_, ?_⟩
          · rw [asks?, agenda]
            rfl
          · have before := led_retire _ led
            rw [perform, same] at before
            exact before
          · refine Nat.le_trans (Nat.le_of_eq ?_) (reflects_retire _).triggers
            rw [perform, same]
      · contradiction
  | turn | dispatch => contradiction

theorem asks_steps (move : Move plant deed next) (asked : Summons) (asks : plant.asks? id deed = some asked)
    (step : Step) (member : step ∈ asked.steps) (waits : step.trigger = some t) :
    plant.desk.Leads t ∨ plant.triggers.length ≤ t ∧ t < next.triggers.length := by
  obtain ⟨command, ordered⟩ := asks_ordered asked asks
  obtain ⟨ready, desk, triggers, summons, _, grown⟩ := ordered_next move command ordered
  rw [summons] at asks
  rw [← desk, ← triggers]
  exact (summons_steps command asked asks step member waits).imp_right fun ⟨new, inside⟩ =>
    ⟨new, Nat.lt_of_lt_of_le inside grown⟩

theorem move_expects (move : Move plant deed next) (expects : (next.course id).Expects t) :
    (plant.course id).Expects t ∨ plant.desk.Leads t ∨
      plant.triggers.length ≤ t ∧ t < next.triggers.length := by
  refine (deals_expects _ (move_deals plant next deed move id) expects).imp_right ?_
  rintro ⟨asked, asks, step, member, waits⟩
  exact asks_steps move asked asks step member waits

theorem reached_inside (reached : plant.Reached) :
    (∀ t, plant.desk.Leads t → t < plant.triggers.length) ∧
      ∀ id t, (plant.course id).Expects t → t < plant.triggers.length := by
  obtain ⟨start, hasRuntime, moves⟩ := reached
  refine runs_invariant (fun plant : Plant => (∀ t, plant.desk.Leads t → t < plant.triggers.length) ∧
    ∀ id t, (plant.course id).Expects t → t < plant.triggers.length) ?_ _ plant ⟨?_, ?_⟩ moves
  · rintro plant deed next ⟨named, expected⟩ move
    have reflects := reflects_move deed move
    have stays : ∀ t, t < plant.triggers.length → t < next.triggers.length := fun t inside =>
      Nat.lt_of_lt_of_le inside reflects.triggers
    refine ⟨fun t led => ?_, fun id t expects => ?_⟩
    · exact (reflects.led t led).elim (fun before => stays t (named t before)) And.right
    · rcases move_expects move expects with before | led | made
      · exact stays t (expected id t before)
      · exact stays t (named t led)
      · exact made.2
  · rintro t (named | ⟨entry, listed, _⟩) <;> contradiction
  · rintro id t ⟨s, held, _⟩
    have none_held : (blank start hasRuntime).sequences[id]? = none := rfl
    cases none_held.symm.trans held

structure Private (plant : Plant) (id : SequenceId) (t : TriggerId) : Prop where
  inside : t < plant.triggers.length
  unled : ¬ plant.desk.Leads t
  only : ∀ other, (plant.course other).Expects t → other = id

theorem private_move (move : Move plant deed next) (own : plant.Private id t) : next.Private id t := by
  have reflects := reflects_move deed move
  have old : ¬ (plant.triggers.length ≤ t ∧ t < next.triggers.length) := fun made =>
    Nat.not_le.mpr own.inside made.1
  refine ⟨Nat.lt_of_lt_of_le own.inside reflects.triggers, fun led => ?_, fun other expects => ?_⟩
  · exact (reflects.led t led).elim own.unled old
  · rcases move_expects move expects with before | led | made
    · exact own.only other before
    · exact absurd led own.unled
    · exact absurd made old

theorem unled_undriven (unled : ¬ plant.desk.Leads t) (command : Command) : ¬ plant.Drives t command := by
  have unreached : ∀ name, ¬ plant.Reaches t name := by
    rintro name ⟨trigger, found⟩
    exact unled (.inl (found_known _ _ name t trigger found))
  cases command with
  | trigger command =>
      cases command with
      | activate name | deactivate name | rearm name | evaluate name => exact unreached name
      | make | state | drop | watch | look => exact id
  | var | comparison | channel | device | sequence | workspace | subscribe | unsubscribe => exact id

theorem private_serves (orderly : OrderlyMove plant deed next) (own : plant.Private id t) :
    Serves id t plant deed next :=
  ⟨orderly, fun command _ => unled_undriven own.unled command,
    fun other holds => own.only other (holds_expects holds)⟩

structure Guarded (plant : Plant) (id : SequenceId) (t : TriggerId) : Prop where
  own : plant.Private id t
  settled : Settled t plant
  attended : plant.Attended id t

theorem guarded_moves (run : OrderlyMoves start later) (guarded : start.Guarded id t) :
    later.Guarded id t := by
  refine runs_invariant (fun plant : Plant => plant.Guarded id t) ?_ start later guarded run
  rintro plant deed next ⟨own, settled, attended⟩ orderly
  have serves := private_serves orderly own
  exact ⟨private_move orderly.move own,
    settled_unspoiled t plant next deed settled (serves_unspoiled id t plant deed next serves),
    attended_move id t plant next deed settled serves attended⟩

-- A call that builds a schedule, with the sequence and the steps that it builds.
structure Builds (plant : Plant) (deed : Deed) (start : Plant) (id : SequenceId) (steps : List Step) :
    Prop where
  orderly : OrderlyMove plant deed start
  order : ∃ name config pollInterval,
    Command.workspace (.schedule name config pollInterval) ∈ plant.order? deed
  asks : plant.asks? id deed = some (.create steps)

theorem builds_apart (builds : Builds plant deed start id steps) :
    (∀ t, start.desk.Leads t → plant.desk.Leads t) ∧
      (∀ other t, (start.course other).Expects t → (plant.course other).Expects t ∨ other = id) ∧
      ∀ step ∈ steps, ∀ t, step.trigger = some t →
        plant.triggers.length ≤ t ∧ t < start.triggers.length := by
  obtain ⟨name, config, pollInterval, ordered⟩ := builds.order
  have move := builds.orderly.move
  obtain ⟨ready, desk, triggers, summons, kept, grown⟩ := ordered_next move _ ordered
  have asks := builds.asks
  rw [summons] at asks
  obtain ⟨place, named, new⟩ := schedule_summons name config pollInterval _ asks
  refine ⟨fun t led => ?_, fun other t expects => ?_, fun step member t waits => ?_⟩
  · exact desk ▸ named t (kept t led)
  · rcases deals_expects _ (move_deals plant start deed move other) expects with before | ⟨asked, calls, _⟩
    · exact .inl before
    · rw [summons] at calls
      exact .inr ((schedule_summons name config pollInterval _ calls).1.symm.trans place)
  · obtain ⟨beyond, inside⟩ := new step member t waits
    exact ⟨triggers ▸ beyond, Nat.lt_of_lt_of_le inside grown⟩

theorem reached_settled (reached : plant.Reached) (t : TriggerId) : Settled t plant :=
  ⟨fun id => reached_sound plant reached id, (reached_poised reached).joined t⟩

theorem builds_guarded (reached : plant.Reached) (builds : Builds plant deed start id steps) (step : Step)
    (member : step ∈ steps) (waits : step.trigger = some t) : start.Guarded id t := by
  obtain ⟨named, expected, new⟩ := builds_apart builds
  obtain ⟨beyond, inside⟩ := new step member t waits
  obtain ⟨led_inside, expects_inside⟩ := reached_inside reached
  have unled : ¬ plant.desk.Leads t := fun led => Nat.not_lt.mpr beyond (led_inside t led)
  have unexpected : ∀ other, ¬ (plant.course other).Expects t := fun other expects =>
    Nat.not_lt.mpr beyond (expects_inside other t expects)
  have missing : plant.triggers[t]? = none := List.getElem?_eq_none_iff.mpr beyond
  have serves : Serves id t plant deed start :=
    ⟨builds.orderly, fun command _ => unled_undriven unled command,
      fun other holds => absurd (holds_expects holds) (unexpected other)⟩
  refine ⟨⟨inside, fun led => unled (named t led), fun other expects => ?_⟩, ?_, ?_⟩
  · exact (expected other t expects).resolve_left (unexpected other)
  · exact settled_unspoiled t plant start deed (reached_settled reached t)
      (serves_unspoiled id t plant deed start serves)
  · intro trigger there active
    rw [missing_move id t plant start deed serves missing trigger there] at active
    contradiction

theorem builds_queue (builds : Builds plant deed start id steps) :
    ∃ s, start.sequences[id]? = some s ∧ s.queue = steps ∧ s.task = none := by
  have deals := move_deals plant start deed builds.orderly.move id
  rw [builds.asks] at deals
  generalize plant.course id = c at deals
  generalize after : start.course id = found at deals
  cases deals with
  | answers _ _ _ answers =>
      cases answers with
      | create _ name registry channel pollInterval queue absent =>
          exact ⟨_, congrArg Course.sequence after, rfl, rfl⟩
      | stop _ _ _ stops => rcases stops with stops | stops <;> contradiction
      | vain _ _ idle => rcases idle with idle | idle | idle <;> contradiction

-- Between two moments the comparison is a child of a trigger that one of the steps waits for.
def Bred (start later : Plant) (steps : List Step) (c : ComparisonId) : Prop :=
  ∃ middle, OrderlyMoves start middle ∧ OrderlyMoves middle later ∧ ∃ step ∈ steps, ∃ t trigger,
    step.trigger = some t ∧ middle.triggers[t]? = some trigger ∧ c ∈ trigger.children

theorem orderly_run (run : OrderlyMoves start later) : Moves start later :=
  Relation.ReflTransGen.mono (fun _ _ ⟨deed, orderly⟩ => ⟨deed, orderly.move⟩) _ _ run

theorem reached_later (reached : start.Reached) (run : OrderlyMoves start later) : later.Reached := by
  obtain ⟨first, hasRuntime, moves⟩ := reached
  exact ⟨first, hasRuntime, moves.trans (orderly_run run)⟩

theorem child_idle (reached : start.Reached) (run : OrderlyMoves start later) (t : TriggerId)
    (trigger : Trigger) (there : start.triggers[t]? = some trigger) (c : ComparisonId)
    (member : c ∈ trigger.children) (dormant : later.Dormant t) (comparison : Comparison)
    (found : later.comparisons[c]? = some comparison) : comparison.isActive = false := by
  have own := (reached_poised reached).consistent.tuned.own t trigger there c member
  have reflects := reflects_moves (orderly_run run)
  refine Bool.eq_false_iff.mpr fun active => ?_
  rcases reflects.active c comparison found active own.inside with
    ⟨other, owner, held, child⟩ | named | ⟨unowned, _⟩
  · obtain ⟨origin, before, was⟩ := reflects.children other owner held c child own.inside
    cases own.apart other origin before was
    have empty := (reached_matched (reached_later reached run)).asleep t owner held (by simp)
      (dormant owner held) c child comparison found
    simp [Comparison.isActive, empty] at active
  · exact own.unnamed named
  · exact unowned ⟨t, trigger, there, member⟩

-- The schedule listens to nothing: its triggers are inactive, and the subscribers of a variable are
-- handlers and comparisons of others, each of which has all of its subscriptions.
structure Released (plant start later : Plant) (steps : List Step) : Prop where
  inactive : ∀ step ∈ steps, ∀ t, step.trigger = some t →
    ∃ trigger, later.triggers[t]? = some trigger ∧ trigger.active = false
  foreign : ∀ v, ∀ s ∈ later.listeners (.var v), s.listener.isShared = true ∨ ∃ c comparison,
    s.listener = .comparison c ∧ later.comparisons[c]? = some comparison ∧ comparison.isActive = true ∧
      ¬ Bred start later steps c
  others : ∀ c comparison, later.comparisons[c]? = some comparison → ¬ Bred start later steps c → ∀ v,
    (later.listeners (.var v)).countP (fun s => s.listener == .comparison c) = comparison.sides v
  earlier : ∀ c < plant.comparisons.length, ¬ Bred start later steps c
  owned : later.agenda = [] → ∀ (c : ComparisonId) (comparison : Comparison),
    later.comparisons[c]? = some comparison → comparison.isActive = true →
      c ∈ later.desk.comparisons.ids ∨ ∃ t trigger, later.triggers[t]? = some trigger ∧
        trigger.active = true ∧ c ∈ trigger.children ∧ ∀ step ∈ steps, step.trigger ≠ some t

theorem builds_released (reached : plant.Reached) (builds : Builds plant deed start id steps)
    (run : OrderlyMoves start later)
    (away : ∀ step ∈ steps, ∀ t, step.trigger = some t → ¬ later.IsAtTrigger id t) :
    Released plant start later steps := by
  have began : start.Reached := reached_later reached (.single ⟨deed, builds.orderly⟩)
  have ended : later.Reached := reached_later began run
  have matched := reached_matched ended
  have guarded : ∀ step ∈ steps, ∀ t, step.trigger = some t → later.Guarded id t :=
    fun step member t waits => guarded_moves run (builds_guarded reached builds step member waits)
  have dormant : ∀ step ∈ steps, ∀ t, step.trigger = some t → later.Dormant t :=
    fun step member t waits trigger there => Bool.eq_false_iff.mpr fun active =>
      away step member t waits ((guarded step member t waits).attended trigger there active)
  have idle : ∀ c, Bred start later steps c → ∀ comparison, later.comparisons[c]? = some comparison →
      comparison.isActive = false := by
    rintro c ⟨middle, before, after, step, member, t, trigger, waits, there, child⟩ comparison found
    exact child_idle (reached_later began before) after t trigger there c child
      (dormant step member t waits) comparison found
  refine ⟨fun step member t waits => ?_, fun v s member => ?_, fun c comparison found _ v => ?_,
    fun c old bred => ?_, fun rest c comparison found active => ?_⟩
  · have there := List.getElem?_eq_getElem (guarded step member t waits).own.inside
    exact ⟨_, there, dormant step member t waits _ there⟩
  · by_cases shared : s.listener.isShared = true
    · exact .inl shared
    · obtain ⟨c, inside, known⟩ := inside_comparison matched (reached_poised ended).consistent.linked v s
        member (Bool.eq_false_iff.mpr shared)
      have found := List.getElem?_eq_getElem inside
      have active : later.comparisons[c].isActive = true := by
        by_contra silent
        have none := sides_subscribed matched c _ found v
        rw [Comparison.sides, if_neg silent, List.countP_eq_zero] at none
        exact none s member (by simp [known])
      refine .inr ⟨c, _, known, found, active, fun bred => ?_⟩
      rw [idle c bred _ found] at active
      contradiction
  · exact sides_subscribed matched c comparison found v
  · obtain ⟨middle, before, _, step, member, t, trigger, waits, there, child⟩ := bred
    have reflects := (reflects_move deed builds.orderly.move).trans (reflects_moves (orderly_run before))
    obtain ⟨origin, was, _⟩ := reflects.children t trigger there c child old
    exact Nat.not_lt.mpr ((builds_apart builds).2.2 step member t waits).1
      (List.getElem?_eq_some_iff.mp was).1
  · refine (active_owned ended matched rest c comparison found active).imp_right ?_
    rintro ⟨t, trigger, there, listens, child⟩
    refine ⟨t, trigger, there, listens, child, fun step member waits => ?_⟩
    rw [dormant step member t waits trigger there] at listens
    contradiction

-- A trigger of a schedule listens only between its activation and the end of the step that waits for it,
-- so nothing of the schedule listens while its task is not there, nor when it is done with its step.
theorem schedule_releases (reached : plant.Reached) (builds : Builds plant deed start id steps)
    (run : OrderlyMoves start later) :
    (∃ s, start.sequences[id]? = some s ∧ s.queue = steps ∧ s.task = none) ∧
    (∀ step ∈ steps, ∀ t, step.trigger = some t → ∀ trigger, later.triggers[t]? = some trigger →
      trigger.active = true → later.IsAtTrigger id t) ∧
    ((∀ step ∈ steps, ∀ t, step.trigger = some t → ¬ later.IsAtTrigger id t) →
      Released plant start later steps) ∧
    ((later.course id).task? = none → Released plant start later steps) := by
  refine ⟨builds_queue builds, fun step member t waits => ?_, builds_released reached builds run,
    fun done => builds_released reached builds run fun step member t waits here => ?_⟩
  · exact (guarded_moves run (builds_guarded reached builds step member waits)).attended
  · obtain ⟨task, busy, _⟩ := at_trigger_holds id t _ here
    rw [done] at busy
    contradiction

end

-- The sequence goes on to its second step and is cancelled while it waits there.
def beforeRamp : Plant :=
  (blank ⟨0, 0⟩ true).runAll
    [.var (.make "x" (.number 0) false), .subscribe "h" .var "x" none false 1 [],
      .trigger (.make "u" "x<9" 3 false), .trigger (.activate "u")]

def rampUp : Config.Procedure where
  active := "Ramp"
  autoStart := false
  autoExit := false
  sequences := [⟨"Ramp", [⟨none, some "x>2", none⟩, ⟨none, some "x>3 || x<0", none⟩]⟩]

def rampCall : Command := .workspace (.schedule "s" rampUp 100)

def rampBuilt : Plant := beforeRamp.after (.call rampCall)

def atFirstStep : Plant := settle 20 ((rampBuilt.runAll [.sequence (.activate "s")]).turn (.sequence 0)).retire

def atSecondStep : Plant :=
  settle 20 ((atFirstStep.runAll [.var (.set "x" (.number 3))]).turn (.sequence 0)).retire

def rampCancelled : Plant :=
  settle 20 ((atSecondStep.runAll [.sequence (.deactivate "s")]).turn (.sequence 0)).retire

theorem cancelled_schedule_released : ∃ steps, (∃ step ∈ steps, step.trigger = some 2) ∧
    (∃ trigger ∈ atSecondStep.triggers[2]?, trigger.active = true) ∧
    (∃ var ∈ atSecondStep.vars[0]?, var.subscribers.length = 4) ∧
    (∃ var ∈ rampCancelled.vars[0]?, var.subscribers.length = 2) ∧
    Released beforeRamp rampBuilt rampCancelled steps := by
  have reached : beforeRamp.Reached :=
    ⟨⟨0, 0⟩, true, run_all_runs (fun _ _ _ => true) (fun _ _ _ done _ => done.move) _ _
      (by decide +kernel)⟩
  have asked : ∃ steps, beforeRamp.asks? 0 (.call rampCall) = some (.create steps) ∧
      ∃ step ∈ steps, step.trigger = some 2 := by
    refine ⟨(beforeRamp.scheduledSteps? rampUp).getD [], ?_⟩
    decide +kernel
  obtain ⟨steps, asks, waits⟩ := asked
  have builds : Builds beforeRamp (.call rampCall) rampBuilt 0 steps :=
    ⟨after_orderly beforeRamp _ (by decide +kernel), ⟨"s", rampUp, 100, rfl⟩, asks⟩
  have commands : ∀ plant commands, passes (fun _ _ _ => true) plant commands = true →
      OrderlyMoves plant (plant.runAll commands) :=
    run_all_runs (fun _ _ _ => true) (fun _ _ _ done _ => done)
  have turns : ∀ plant, plant.agenda = [] →
      settles (fun _ _ _ => true) 20 (plant.turn (.sequence 0)).retire = true →
        OrderlyMoves plant (settle 20 (plant.turn (.sequence 0)).retire) := fun plant rest =>
    turn_runs (fun _ _ _ => true) (fun _ _ _ done _ => done) 20 plant (.sequence 0) rest rfl
  have first : OrderlyMoves rampBuilt atFirstStep :=
    (commands _ _ (by decide +kernel)).trans (turns _ (by decide +kernel) (by decide +kernel))
  have second : OrderlyMoves atFirstStep atSecondStep :=
    (commands _ _ (by decide +kernel)).trans (turns _ (by decide +kernel) (by decide +kernel))
  have last : OrderlyMoves atSecondStep rampCancelled :=
    (commands _ _ (by decide +kernel)).trans (turns _ (by decide +kernel) (by decide +kernel))
  obtain ⟨_, _, _, released⟩ := schedule_releases reached builds (first.trans (second.trans last))
  exact ⟨steps, waits, by decide +kernel, by decide +kernel, by decide +kernel,
    released (by decide +kernel)⟩

end Plant

end Interlock
