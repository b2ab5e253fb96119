import Interlock.Proofs.Plant.Budget

/-!
Waiting for a trigger. A step waits for a trigger that listens or is true, until a move strands it: the
transitions end at a false value, or another task takes the trigger away.
-/

set_option autoImplicit false

namespace Interlock.Plant

open Interlock.Graph
open Interlock.Schedule
open Interlock.Session (Command)

-- A trigger that a wait for it can end with.
def Lives (plant : Plant) (t : TriggerId) : Prop :=
  ∃ trigger, plant.triggers[t]? = some trigger ∧ (trigger.active = true ∨ trigger.latest = true)

def WaitsFor (plant : Plant) (id : SequenceId) (t : TriggerId) : Prop :=
  ∃ s step, plant.sequences[id]? = some s ∧ s.task = some (.waiting step) ∧ step.trigger = some t

-- What takes the trigger away from the task of a sequence at it.
inductive Strands (plant : Plant) (id : SequenceId) (t : TriggerId) : Deed → Prop where
  -- its transitions have been used up and left it false
  | exhausts (trigger : Trigger) (rest : List Job) (there : plant.triggers[t]? = some trigger)
      (agenda : plant.agenda = .exhaust t :: rest) (low : trigger.latest = false) :
      Strands plant id t .job
  -- another task that holds it is done with it
  | disarms (trigger : Trigger) (other : SequenceId) (rest : List Job)
      (there : plant.triggers[t]? = some trigger) (agenda : plant.agenda = .disarm other :: rest)
      (apart : other ≠ id) (holds : plant.Holds other t) (low : trigger.latest = false) :
      Strands plant id t .job
  -- another task that holds it forgets its value and cannot activate it
  | refuses (trigger : Trigger) (other : SequenceId) (rest : List Job)
      (there : plant.triggers[t]? = some trigger) (agenda : plant.agenda = .arm other :: rest)
      (apart : other ≠ id) (holds : plant.Holds other t) (idle : trigger.active = false)
      (stated : trigger.condition ≠ none)
      (refuses : { plant with agenda := rest }.Refuses other t) : Strands plant id t .job

instance (plant : Plant) (t : TriggerId) : Decidable (plant.Lives t) :=
  decidable_of_iff (∃ trigger ∈ plant.triggers[t]?, trigger.active = true ∨ trigger.latest = true)
    Iff.rfl

instance (plant : Plant) (id : SequenceId) (t : TriggerId) : Decidable (plant.WaitsFor id t) :=
  match held : plant.sequences[id]? with
  | none => .isFalse fun ⟨_, _, found, _⟩ => by simp [held] at found
  | some s =>
      match task : s.task with
      | some (.waiting step) =>
          decidable_of_iff (step.trigger = some t)
            ⟨fun waits => ⟨s, step, held, task, waits⟩, fun ⟨_, _, found, same, waits⟩ => by
              cases held.symm.trans found
              cases task.symm.trans same
              exact waits⟩
      | none | some (.fresh _) | some (.busy _) =>
          .isFalse fun ⟨_, _, found, same, _⟩ => by
            cases held.symm.trans found
            simp [task] at same

theorem waits_at_trigger (plant : Plant) (id : SequenceId) (t : TriggerId)
    (sound : (plant.course id).Sound id) (waits : plant.WaitsFor id t) : plant.IsAtTrigger id t := by
  obtain ⟨s, step, held, waiting, there⟩ := waits
  have found : (plant.course id).sequence = some s := held
  rw [sound_held id _ s found, waiting] at sound
  rw [IsAtTrigger, task_held _ s found, waiting, (station_waiting sound).2]
  exact .waiting step there

theorem dead_there (plant : Plant) (t : TriggerId) (after : Trigger)
    (there : plant.triggers[t]? = some after) (idle : after.active = false)
    (low : after.latest = false) : ¬ plant.Lives t := by
  rintro ⟨found, again, alive⟩
  cases there.symm.trans again
  simp [idle, low] at alive

theorem disarm_next (plant : Plant) (id : SequenceId) (t : TriggerId) (trigger : Trigger)
    (there : plant.triggers[t]? = some trigger) (holds : plant.Holds id t) :
    Job.next id ∈ (plant.disarm id).agenda := by
  obtain ⟨s, task, held, busy, waits⟩ := holds_found t plant id holds
  unfold disarm
  rw [current_held t plant id s task trigger held busy waits there]
  dsimp only
  have kept : (plant.deactivateTrigger t).sequences[id]? = some s := by
    rw [(quiet_deactivate_trigger plant t).sequences, held]
  split
  · exact leave_step_next _ id s kept
  · exact leave_step_next _ id s kept

theorem job_next (plant next : Plant) (job : Job) (rest : List Job) (move : Move plant .job next)
    (agenda : plant.agenda = job :: rest) :
    next = ({ plant with agenda := rest }.perform job).retire := by
  cases move with
  | job _ stepped =>
      rw [stepJob?, agenda] at stepped
      exact (Option.some.inj stepped).symm

theorem stays_at_trigger (plant next : Plant) (id : SequenceId) (t : TriggerId) (job : Job)
    (rest : List Job) (move : Move plant .job next) (agenda : plant.agenda = job :: rest)
    (sound : (plant.course id).Sound id) (here : plant.IsAtTrigger id t)
    (other : job ≠ .wait id ∧ job ≠ .disarm id) : next.IsAtTrigger id t := by
  rcases move_from_trigger plant next .job move id t sound here with
    there | ⟨_, _, found, behind, again, kind⟩
  · exact there
  · rw [agenda] at again
    cases again
    exact absurd kind (by simp [other])

theorem disarmed_apart (t : TriggerId) (plant next : Plant) (id other : SequenceId) (rest : List Job)
    (trigger : Trigger) (move : Move plant .job next) (agenda : plant.agenda = .disarm other :: rest)
    (there : plant.triggers[t]? = some trigger) (holds : plant.Holds other t)
    (still : next.IsAtTrigger id t) : other ≠ id := by
  rintro rfl
  have stays := at_trigger_stays next other t still
  rw [job_next plant next _ rest move agenda, (still_retire _).agenda] at stays
  exact stays (disarm_next { plant with agenda := rest } other t trigger there holds)

theorem armed_apart (t : TriggerId) (plant : Plant) (id other : SequenceId) (rest : List Job)
    (agenda : plant.agenda = .arm other :: rest) (here : plant.IsAtTrigger id t) : other ≠ id := by
  rintro rfl
  rcases at_trigger_jobs plant other t here (.arm other) rfl (by simp [agenda]) with
    same | same <;> contradiction

theorem dead_strands (t : TriggerId) (plant next : Plant) (deed : Deed) (move : Move plant deed next)
    (id : SequenceId) (sound : (next.course id).Sound id) (joined : plant.JoinedAt t)
    (unspoiled : ∀ command ∈ plant.order? deed, ¬ plant.Spoils t command)
    (here : plant.IsAtTrigger id t) (lives : plant.Lives t) (still : next.IsAtTrigger id t)
    (dead : ¬ next.Lives t) : plant.Strands id t deed := by
  obtain ⟨trigger, there, alive⟩ := lives
  obtain ⟨after, found, fate⟩ := held_fate t plant next deed move trigger there
    (joined trigger there) unspoiled id sound (at_trigger_holds id t _ still)
  have idle : after.active = true → plant.Strands id t deed := fun active =>
    absurd ⟨after, found, .inl active⟩ dead
  have low : after.latest = trigger.latest → trigger.latest = false := by
    intro same
    cases latest : trigger.latest with
    | true => exact absurd ⟨after, found, .inr (same.trans latest)⟩ dead
    | false => rfl
  cases fate with
  | same core =>
      have alike := core_alike core
      rw [← alike.active, ← alike.latest] at alive
      exact absurd ⟨after, found, alive⟩ dead
  | heard _ active _ => exact idle active
  | armed _ _ _ _ active _ _ => exact idle active
  | driven _ _ _ active => exact idle active
  | exhausted performs ended =>
      obtain ⟨rfl, rest, agenda⟩ := performs
      exact .exhausts trigger rest there agenda (low ended.latest)
  | disarmed other performs holds ended =>
      obtain ⟨rfl, rest, agenda⟩ := performs
      have apart := disarmed_apart t plant next id other rest trigger move agenda there holds still
      exact .disarms trigger other rest there agenda apart holds (low ended.latest)
  | refused other rest performs holds unused refuses core =>
      obtain ⟨rfl, agenda⟩ := performs
      have apart := armed_apart t plant id other rest agenda here
      refine .refuses trigger other rest there agenda apart holds unused ?_ refuses
      intro blank
      have latest := (core_alike core).latest
      rw [(rearmed_idle trigger unused).2.1, blank] at latest
      exact dead ⟨after, found, .inr latest⟩

theorem strands_dead (t : TriggerId) (plant next : Plant) (deed : Deed) (move : Move plant deed next)
    (id : SequenceId) (sound : (plant.course id).Sound id) (sound_next : (next.course id).Sound id)
    (here : plant.IsAtTrigger id t) (strands : plant.Strands id t deed) :
    next.IsAtTrigger id t ∧ ¬ next.Lives t := by
  -- once the job is done the trigger is dead, and the task holds it over what the move retires
  have dies : ∀ (job : Job) (rest : List Job) (after : Trigger), deed = .job →
      plant.agenda = job :: rest → (job ≠ .wait id ∧ job ≠ .disarm id) →
      ({ plant with agenda := rest }.perform job).triggers[t]? = some after →
      after.active = false → after.latest = false → next.IsAtTrigger id t ∧ ¬ next.Lives t := by
    rintro job rest after rfl agenda other found idle low
    have still := stays_at_trigger plant next id t job rest move agenda sound here other
    refine ⟨still, ?_⟩
    cases job_next plant next job rest move agenda
    have spares := retire_spares _ id t sound_next (at_trigger_holds id t _ still)
    obtain ⟨later, last, core⟩ := spares.kept after found
    have alike := core_alike core
    exact dead_there _ t later last (alike.active.trans idle) (alike.latest.trans low)
  cases strands with
  | exhausts trigger rest there agenda low =>
      obtain ⟨after, found, ended⟩ := exhaust_fate { plant with agenda := rest } t trigger there
      exact dies _ rest after rfl agenda (by simp) found ended.idle (ended.latest.trans low)
  | disarms trigger other rest there agenda apart holds low =>
      obtain ⟨s, task, held, busy, waits⟩ := holds_found t plant other holds
      obtain ⟨after, found, ended⟩ := disarm_fate { plant with agenda := rest } other t s task trigger
        held busy waits there
      exact dies _ rest after rfl agenda (by simp [apart]) found ended.idle (ended.latest.trans low)
  | refuses trigger other rest there agenda apart holds idle stated refuses =>
      obtain ⟨s, task, held, busy, waits⟩ := holds_found t plant other holds
      obtain ⟨after, found, core⟩ := refused_rearms { plant with agenda := rest } other t s task
        trigger held busy waits there idle refuses
      have alike := core_alike core
      obtain ⟨off, low, _, _⟩ := rearmed_idle trigger idle
      refine dies _ rest after rfl agenda (by simp) found (alike.active.trans off) ?_
      obtain ⟨condition, known⟩ := Option.ne_none_iff_exists'.mp stated
      rw [alike.latest, low, known]
      rfl

-- A move with which nobody but the tasks ends, rearms or evaluates the trigger.
structure UnspoiledMove (t : TriggerId) (plant : Plant) (deed : Deed) (next : Plant) : Prop where
  move : Move plant deed next
  commands : ∀ command ∈ plant.order? deed, ¬ plant.Spoils t command

-- One that also strands no task.
structure StrandlessMove (t : TriggerId) (plant : Plant) (deed : Deed) (next : Plant) : Prop where
  unspoiled : UnspoiledMove t plant deed next
  strandless : ∀ id, plant.IsAtTrigger id t → ¬ plant.Strands id t deed

def Sole (plant : Plant) (t : TriggerId) : Prop :=
  ∀ id other, plant.Holds id t → plant.Holds other t → id = other

-- One that may strand, but only by using up the transitions: no other task holds the trigger, and it
-- does not turn over between its last transition and the end of its activity.
structure SoleHolderMove (t : TriggerId) (plant : Plant) (deed : Deed) (next : Plant) : Prop where
  unspoiled : UnspoiledMove t plant deed next
  order : plant.Orderly deed
  sole : plant.Sole t
  steady : Steady t plant next

section

variable (t : TriggerId) {start : Calendar.Instant} {hasRuntime : Bool} {plant : Plant}

structure Settled (t : TriggerId) (plant : Plant) : Prop where
  sound : ∀ id, (plant.course id).Sound id
  joined : plant.JoinedAt t

theorem settled_blank : Settled t (blank start hasRuntime) :=
  ⟨fun id => sound_blank start hasRuntime id, fun _ there => nomatch there⟩

theorem settled_unspoiled (plant next : Plant) (deed : Deed) (settled : Settled t plant)
    (unspoiled : UnspoiledMove t plant deed next) : Settled t next := by
  have move := unspoiled.move
  refine ⟨fun id => ?_, joined_move t plant next deed move settled.joined unspoiled.commands⟩
  exact sound_moves plant next (.single ⟨deed, move⟩) id (settled.sound id)

theorem settled_runs (run : Runs (UnspoiledMove t) (blank start hasRuntime) plant) : Settled t plant :=
  runs_invariant (Settled t) (fun plant deed next => settled_unspoiled t plant next deed) _ plant
    (settled_blank t) run

def Found (property : Trigger → Prop) (plant : Plant) : Prop :=
  ∀ id, plant.IsAtTrigger id t → ∃ trigger, plant.triggers[t]? = some trigger ∧ property trigger

theorem found_blank (property : Trigger → Prop) : Found t property (blank start hasRuntime) := by
  intro id here
  have holds := at_trigger_holds id t _ here
  obtain ⟨task, busy, _⟩ := holds
  contradiction

theorem found_move (property : Trigger → Prop)
    (active : ∀ trigger : Trigger, trigger.active = true → property trigger) (plant next : Plant)
    (deed : Deed) (settled : Settled t plant) (unspoiled : UnspoiledMove t plant deed next)
    (keeps : ∀ id trigger, plant.IsAtTrigger id t → next.IsAtTrigger id t →
      plant.triggers[t]? = some trigger → property trigger →
        ∃ after, next.triggers[t]? = some after ∧ property after)
    (found : Found t property plant) : Found t property next := by
  intro id there
  have move := unspoiled.move
  have sound := (settled_unspoiled t plant next deed settled unspoiled).sound id
  rcases move_to_trigger plant next deed move id t (settled.sound id) there with
    here | ⟨arming, rfl, rest, agenda⟩
  · obtain ⟨trigger, known, held⟩ := found id here
    exact keeps id trigger here there known held
  · obtain ⟨after, known, listens⟩ :=
      arrival_active t plant next id rest move agenda sound settled.joined arming there
    exact ⟨after, known, active after listens⟩

theorem strandless_lives (run : Runs (StrandlessMove t) (blank start hasRuntime) plant) (id : SequenceId)
    (waits : plant.WaitsFor id t) : plant.Lives t := by
  have kept := runs_invariant (fun plant => Settled t plant ∧
    Found t (fun trigger => trigger.active = true ∨ trigger.latest = true) plant) ?_ _ plant
    ⟨settled_blank t, found_blank t _⟩ run
  · obtain ⟨settled, found⟩ := kept
    exact found id (waits_at_trigger plant id t (settled.sound id) waits)
  · rintro plant deed next ⟨settled, found⟩ ⟨unspoiled, strandless⟩
    have later := settled_unspoiled t plant next deed settled unspoiled
    refine ⟨later, found_move t _ (fun _ active => .inl active) plant next deed settled unspoiled ?_ found⟩
    intro id trigger here there known alive
    by_contra dead
    exact strandless id here (dead_strands t plant next deed unspoiled.move id (later.sound id)
      settled.joined unspoiled.commands here ⟨trigger, known, alive⟩ there dead)

theorem sole_holder_counts (run : Runs (SoleHolderMove t) (blank start hasRuntime) plant) :
    Settled t plant ∧ plant.Bottomed ∧ Metered t plant ∧
      Found t (fun trigger => trigger.active = true ∨ trigger.remaining = 0) plant := by
  refine runs_invariant (fun plant => Settled t plant ∧ plant.Bottomed ∧ Metered t plant ∧
    Found t (fun trigger => trigger.active = true ∨ trigger.remaining = 0) plant) ?_ _ plant ?_ run
  · rintro plant deed next ⟨settled, bottomed, metered, found⟩ ⟨unspoiled, order, sole, steady⟩
    have orderly : OrderlyMove plant deed next := ⟨unspoiled.move, order⟩
    have later := settled_unspoiled t plant next deed settled unspoiled
    refine ⟨later, bottomed_orderly plant next deed orderly bottomed,
      metered_move t plant next deed orderly bottomed metered unspoiled.commands steady, ?_⟩
    refine found_move t _ (fun _ active => .inl active) plant next deed settled unspoiled ?_ found
    intro id trigger here there known listens
    obtain ⟨after, still, fate⟩ := held_fate t plant next deed orderly.move trigger known
      (settled.joined trigger known) unspoiled.commands id (later.sound id) (at_trigger_holds id t _ there)
    have holds : plant.Holds id t := at_trigger_holds id t _ here
    refine ⟨after, still, ?_⟩
    cases fate with
    | same core =>
        have alike := core_alike core
        rw [alike.active, alike.remaining]
        exact listens
    | heard _ active _ => exact .inl active
    | armed _ _ _ _ active _ _ => exact .inl active
    | driven _ _ _ active => exact .inl active
    | exhausted performs ended =>
        obtain ⟨_, rest, agenda⟩ := performs
        obtain ⟨same, again, none_left⟩ := metered.drained ⟨.exhaust t, by simp [agenda], rfl⟩
        cases known.symm.trans again
        exact .inr (ended.remaining.trans none_left)
    | disarmed other performs others ended =>
        obtain ⟨rfl, rest, agenda⟩ := performs
        have apart := disarmed_apart t plant next id other rest trigger orderly.move agenda known others
          there
        exact absurd (sole other id others holds) apart
    | refused other rest performs others _ _ _ =>
        exact absurd (sole other id others holds) (armed_apart t plant id other rest performs.2 here)
  · refine ⟨settled_blank t, List.Pairwise.nil, ?_, found_blank t _⟩
    refine ⟨(settled_blank t).joined, ?_, ?_, ?_⟩
    · exact fun _ there => nomatch there
    · exact fun _ there => nomatch there
    · rintro ⟨job, member, _⟩
      contradiction

-- All transitions are used up, and an even number of them leaves the value false.
def Spent (trigger : Trigger) : Prop :=
  trigger.remaining = 0 ∧ trigger.limit % 2 = 0 ∧ trigger.condition ≠ none

instance (trigger : Trigger) : Decidable (Spent trigger) :=
  inferInstanceAs (Decidable (_ ∧ _ ∧ _))

theorem counted_spent (trigger : Trigger) (counted : Counted trigger) (none_left : trigger.remaining = 0) :
    trigger.latest = true ↔ ¬ (trigger.limit % 2 = 0 ∧ trigger.condition ≠ none) := by
  by_cases blank : trigger.condition = none
  · simp [blank, counted.blank blank]
  · rw [counted.parity blank, none_left]
    simp [blank]

theorem sole_holder_lives (run : Runs (SoleHolderMove t) (blank start hasRuntime) plant) (id : SequenceId)
    (waits : plant.WaitsFor id t) : ∃ trigger, plant.triggers[t]? = some trigger ∧
      (plant.Lives t ∨ Spent trigger) ∧ (plant.agenda = [] → (plant.Lives t ↔ ¬ Spent trigger)) := by
  obtain ⟨settled, _, metered, found⟩ := sole_holder_counts t run
  obtain ⟨trigger, there, listens⟩ :=
    found id (waits_at_trigger plant id t (settled.sound id) waits)
  have counted := metered.counted trigger there
  have lives : plant.Lives t ↔ trigger.active = true ∨ trigger.latest = true := by
    constructor
    · rintro ⟨same, again, alive⟩
      cases there.symm.trans again
      exact alive
    · exact fun alive => ⟨trigger, there, alive⟩
  have either : plant.Lives t ∨ Spent trigger := by
    rw [lives]
    rcases listens with active | none_left
    · exact .inl (.inl active)
    · by_cases even : trigger.limit % 2 = 0 ∧ trigger.condition ≠ none
      · exact .inr ⟨none_left, even⟩
      · exact .inl (.inr ((counted_spent trigger counted none_left).mpr even))
  refine ⟨trigger, there, either, fun rests => ⟨?_, either.resolve_right⟩⟩
  rintro alive ⟨none_left, even⟩
  rcases lives.mp alive with active | latest
  · obtain ⟨job, member, _⟩ := metered.spent trigger there active none_left
    rw [rests] at member
    contradiction
  · exact (counted_spent trigger counted none_left).mp latest even

-- A step that waits for a trigger can be released as long as no move has stranded it, and those are all
-- the moves after which it cannot. If its task alone holds the trigger, and the trigger does not turn
-- over while its end is due, it is stranded in the end exactly by an even number of transitions.
theorem waiting_trigger_lives (start : Calendar.Instant) (hasRuntime : Bool) :
    (∀ plant id, Runs (StrandlessMove t) (blank start hasRuntime) plant → plant.WaitsFor id t →
      plant.Lives t) ∧
    (∀ plant next deed id, Runs (UnspoiledMove t) (blank start hasRuntime) plant →
      UnspoiledMove t plant deed next →
      plant.IsAtTrigger id t → plant.Lives t →
        ((next.IsAtTrigger id t ∧ ¬ next.Lives t) ↔ plant.Strands id t deed)) ∧
    (∀ plant id, Runs (SoleHolderMove t) (blank start hasRuntime) plant → plant.WaitsFor id t →
      ∃ trigger, plant.triggers[t]? = some trigger ∧ (plant.Lives t ∨ Spent trigger) ∧
        (plant.agenda = [] → (plant.Lives t ↔ ¬ Spent trigger))) := by
  refine ⟨fun plant id run waits => strandless_lives t run id waits, ?_,
    fun plant id run waits => sole_holder_lives t run id waits⟩
  intro plant next deed id run unspoiled here lives
  have settled := settled_runs t run
  have later := settled_unspoiled t plant next deed settled unspoiled
  have move := unspoiled.move
  constructor
  · rintro ⟨there, dead⟩
    exact dead_strands t plant next deed move id (later.sound id) settled.joined unspoiled.commands here
      lives there dead
  · exact strands_dead t plant next deed move id (settled.sound id) (later.sound id) here

end

def quiets : Command → Bool
  | .trigger (.deactivate _) | .trigger (.rearm _) | .trigger (.evaluate _) => false
  | _ => true

def checksSoleHolder (t : TriggerId) (plant : Plant) (deed : Deed) (next : Plant) : Bool :=
  (plant.order? deed).all quiets && decide (plant.sequences.length ≤ 1) &&
    (!plant.agenda.any (fun job => job.exhausted? == some t) ||
      plant.triggers[t]?.map (fun trigger => trigger.latest) ==
        next.triggers[t]?.map fun trigger => trigger.latest)

theorem checks_sole_holder_sound (t : TriggerId) (plant : Plant) (deed : Deed) (next : Plant)
    (orderly : OrderlyMove plant deed next) (test : checksSoleHolder t plant deed next = true) :
    SoleHolderMove t plant deed next := by
  simp only [checksSoleHolder, Bool.and_eq_true, decide_eq_true_eq, Bool.or_eq_true, Bool.not_eq_true'] at test
  obtain ⟨⟨quiet, few⟩, still⟩ := test
  refine ⟨⟨orderly.move, ?_⟩, orderly.orderly, ?_, ?_⟩
  · intro command ordered spoils
    rw [Option.mem_def.mp ordered] at quiet
    cases command with
    | trigger command => cases command <;> contradiction
    | var | comparison | channel | device | sequence | workspace | subscribe | unsubscribe =>
        exact spoils
  · have first : ∀ id, plant.Holds id t → id = 0 := by
      intro id holds
      obtain ⟨s, _, held, _⟩ := holds_found t plant id holds
      have inside := (List.getElem?_eq_some_iff.mp held).1
      exact Nat.lt_one_iff.mp (Nat.lt_of_lt_of_le inside few)
    intro id other one two
    rw [first id one, first other two]
  · rintro ⟨job, member, last⟩ trigger after there found
    rcases still with undue | same
    · simp only [List.any_eq_false, beq_iff_eq] at undue
      exact absurd last (undue job member)
    · simpa [there, found] using (beq_iff_eq.mp same).symm

def checksStrandless (t : TriggerId) (plant : Plant) (deed : Deed) (next : Plant) : Bool :=
  checksSoleHolder t plant deed next && (plant.agenda.head?).all fun job => job.exhausted? != some t

theorem checks_strandless_sound (t : TriggerId) (plant : Plant) (deed : Deed) (next : Plant)
    (orderly : OrderlyMove plant deed next) (test : checksStrandless t plant deed next = true) :
    StrandlessMove t plant deed next := by
  simp only [checksStrandless, Bool.and_eq_true] at test
  have soleHolder := checks_sole_holder_sound t plant deed next orderly test.1
  refine ⟨soleHolder.unspoiled, fun id here strands => ?_⟩
  have holds : plant.Holds id t := at_trigger_holds id t _ here
  cases strands with
  | exhausts trigger rest there agenda low =>
      rw [agenda] at test
      simp [Job.exhausted?] at test
  | disarms trigger other rest there agenda apart others low =>
      exact apart (soleHolder.sole other id others holds)
  | refuses trigger other rest there agenda apart others idle stated refuses =>
      exact apart (soleHolder.sole other id others holds)

def pulsing : Plant :=
  (blank ⟨0, 0⟩ true).runAll
    [.var (.make "x" (.bool false) false), .trigger (.make "t" "x==true" 2 false),
      .sequence (.make "s" 100), .sequence (.step "p" "Bath.Pump" (some "t") ""),
      .sequence (.push "s" "p" 1), .sequence (.activate "s")]

def pulseAwaited : Plant := settle 20 (pulsing.turn (.sequence 0)).retire

def pulsed : Plant :=
  pulseAwaited.runAll [.var (.set "x" (.bool true)), .var (.set "x" (.bool false))]

theorem pulsed_trigger_dead : pulseAwaited.WaitsFor 0 0 ∧ pulseAwaited.Lives 0 ∧
    pulsed.WaitsFor 0 0 ∧ ¬ pulsed.Lives 0 := by
  obtain ⟨lives, _, spent⟩ := waiting_trigger_lives 0 ⟨0, 0⟩ true
  have awaited : pulseAwaited.WaitsFor 0 0 := by decide +kernel
  have waits : pulsed.WaitsFor 0 0 := by decide +kernel
  have strandless : Runs (StrandlessMove 0) (blank ⟨0, 0⟩ true) pulseAwaited :=
    (run_all_runs (checksStrandless 0) (checks_strandless_sound 0) (blank ⟨0, 0⟩ true) _
        (by decide +kernel)).trans
      (turn_runs (checksStrandless 0) (checks_strandless_sound 0) 20 pulsing (.sequence 0) (by decide +kernel)
        (by decide +kernel) (by decide +kernel))
  have soleHolder : Runs (SoleHolderMove 0) (blank ⟨0, 0⟩ true) pulsed :=
    ((run_all_runs (checksSoleHolder 0) (checks_sole_holder_sound 0) (blank ⟨0, 0⟩ true) _
        (by decide +kernel)).trans
      (turn_runs (checksSoleHolder 0) (checks_sole_holder_sound 0) 20 pulsing (.sequence 0) (by decide +kernel)
        (by decide +kernel) (by decide +kernel))).trans
      (run_all_runs (checksSoleHolder 0) (checks_sole_holder_sound 0) pulseAwaited _ (by decide +kernel))
  refine ⟨awaited, lives pulseAwaited 0 strandless awaited, waits, ?_⟩
  obtain ⟨trigger, there, _, exact_when⟩ := spent pulsed 0 soleHolder waits
  have used : ∀ trigger ∈ pulsed.triggers[0]?, Spent trigger := by decide +kernel
  exact fun alive => (exact_when (by decide +kernel)).mp alive (used trigger there)

end Interlock.Plant
