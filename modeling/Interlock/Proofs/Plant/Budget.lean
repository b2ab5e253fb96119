import Interlock.Proofs.Plant.Fate

/-!
The transitions of a trigger. What is left of them tells its value, and when none is left the end of
its activity is on the agenda.
-/

set_option autoImplicit false

namespace Interlock.Plant

open Interlock.Graph
open Interlock.Schedule
open Interlock.Session (Command)

-- From the value that rearming gives, every transition turns the value over.
structure Counted (trigger : Trigger) : Prop where
  blank : trigger.condition = none → trigger.latest = true
  within : trigger.remaining ≤ trigger.limit
  parity : trigger.condition ≠ none →
    (trigger.latest = true ↔ (trigger.limit - trigger.remaining) % 2 = 1)

theorem counted_alike (trigger after : Trigger) (condition : after.condition = trigger.condition)
    (latest : after.latest = trigger.latest) (remaining : after.remaining = trigger.remaining)
    (limit : after.limit = trigger.limit) (counted : Counted trigger) : Counted after := by
  refine ⟨?_, ?_, ?_⟩
  · rw [condition, latest]
    exact counted.blank
  · rw [remaining, limit]
    exact counted.within
  · rw [condition, latest, remaining, limit]
    exact counted.parity

theorem counted_core (trigger after : Trigger) (core : after.core = trigger.core)
    (counted : Counted trigger) : Counted after := by
  have alike := core_alike core
  exact counted_alike trigger after alike.condition alike.latest alike.remaining alike.limit counted

theorem counted_full (trigger : Trigger) (latest : trigger.latest = trigger.condition.isNone)
    (full : trigger.remaining = trigger.limit) : Counted trigger := by
  refine ⟨?_, Nat.le_of_eq full, ?_⟩
  · intro blank
    rw [latest, blank]
    rfl
  · intro stated
    obtain ⟨condition, there⟩ := Option.ne_none_iff_exists'.mp stated
    simp [latest, there, full]

theorem bind_children_none (trigger : Trigger) (truths : List (String × Bool)) :
    (trigger.bindChildren truths).condition = none ↔ trigger.condition = none := by
  simp [Trigger.bindChildren]

theorem counted_evaluated (trigger : Trigger) (truths : List (String × Bool))
    (found : Trigger.Evaluation) (active : trigger.active = true) (counted : Counted trigger)
    (evaluated : trigger.evaluate truths = .ok found)
    (ready : trigger.remaining ≠ 0 ∨ found.trigger.latest = trigger.latest) :
    Counted found.trigger ∧
      (found.exhausted = true ↔ trigger.remaining ≠ 0 ∧ found.trigger.remaining = 0) := by
  obtain ⟨value, truth, ⟨same, rfl⟩ | ⟨moved, rfl⟩⟩ := evaluate_found trigger truths found evaluated
  · refine ⟨⟨?_, counted.within, ?_⟩, ?_⟩
    · intro blank
      exact counted.blank ((bind_children_none trigger truths).mp blank)
    · intro stated
      exact counted.parity fun blank => stated ((bind_children_none trigger truths).mpr blank)
    · simp [Trigger.send, Trigger.bindChildren]
  · have left : trigger.remaining ≠ 0 := by
      rcases ready with left | kept
      · exact left
      · exact absurd kept moved
    have stated : trigger.condition ≠ none := by
      intro blank
      have always : (trigger.bindChildren truths).truth = .ok true := by
        simp [Trigger.truth, Trigger.bindChildren, blank]
      rw [always] at truth
      cases truth
      exact moved (counted.blank blank).symm
    have parity := counted.parity stated
    have within := counted.within
    refine ⟨⟨?_, ?_, ?_⟩, ?_⟩
    · intro blank
      exact absurd ((bind_children_none trigger truths).mp blank) stated
    · simp only [Trigger.send, Trigger.bindChildren, active, if_true]
      omega
    · intro _
      simp only [Trigger.send, Trigger.bindChildren, active, if_true]
      have turned : (value = true) ↔ ¬ trigger.latest = true := by
        cases value <;> cases latest : trigger.latest <;> simp_all
      rw [turned, parity]
      omega
    · simp [Trigger.send, Trigger.bindChildren, active, left]

structure Metered (t : TriggerId) (plant : Plant) : Prop where
  joined : plant.JoinedAt t
  counted : ∀ trigger, plant.triggers[t]? = some trigger → Counted trigger
  spent : ∀ trigger, plant.triggers[t]? = some trigger → trigger.active = true →
    trigger.remaining = 0 → Due t plant
  drained : Due t plant → ∃ trigger, plant.triggers[t]? = some trigger ∧ trigger.remaining = 0

theorem due_evaluated (t : TriggerId) (plant next : Plant) (trigger : Trigger)
    (found : Trigger.Evaluation) (evaluated : Evaluated t plant next trigger found) :
    Due t next ↔ Due t plant ∨ found.exhausted = true := by
  obtain ⟨jobs, grown, foreign⟩ := evaluated.agenda
  constructor
  · rintro ⟨job, member, last⟩
    rw [grown] at member
    rcases List.mem_append.mp member with new | old
    · exact .inr (foreign job new last)
    · exact .inl ⟨job, old, last⟩
  · rintro (⟨job, member, last⟩ | exhausted)
    · exact ⟨job, by rw [grown]; exact List.mem_append_right jobs member, last⟩
    · exact evaluated.last exhausted

theorem metered_evaluated (t : TriggerId) (plant next : Plant) (trigger : Trigger)
    (found : Trigger.Evaluation) (metered : Metered t plant)
    (there : plant.triggers[t]? = some trigger) (active : trigger.active = true)
    (ready : trigger.remaining ≠ 0 ∨ found.trigger.latest = trigger.latest)
    (evaluated : Evaluated t plant next trigger found) : Metered t next := by
  obtain ⟨counted, exhausted⟩ := counted_evaluated trigger _ found active
    (metered.counted trigger there) evaluated.evaluated ready
  have due := due_evaluated t plant next trigger found evaluated
  have fewer : trigger.remaining = 0 → found.trigger.remaining = 0 := by
    intro none_left
    obtain ⟨_, _, ⟨_, rfl⟩ | ⟨_, rfl⟩⟩ := evaluate_found trigger _ found evaluated.evaluated
    · exact none_left
    · simp [Trigger.send, active, none_left]
  refine ⟨joined_evaluated t plant next trigger found metered.joined there evaluated, ?_, ?_, ?_⟩
  · intro after still
    cases still.symm.trans evaluated.after
    exact counted
  · intro after still _ none_left
    cases still.symm.trans evaluated.after
    by_cases left : trigger.remaining = 0
    · exact due.mpr (.inl (metered.spent trigger there active left))
    · exact due.mpr (.inr (exhausted.mpr ⟨left, none_left⟩))
  · intro last
    refine ⟨found.trigger, evaluated.after, ?_⟩
    rcases due.mp last with before | now
    · obtain ⟨same, again, none_left⟩ := metered.drained before
      cases there.symm.trans again
      exact fewer none_left
    · exact (exhausted.mp now).2

theorem metered_sets (t : TriggerId) (plant next : Plant) (trigger after : Trigger)
    (metered : Metered t plant) (there : plant.triggers[t]? = some trigger)
    (sets : Sets t plant after next) (joined : next.JoinedAt t) (counted : Counted after)
    (idle : after.active = true → after.remaining ≠ 0)
    (drained : trigger.remaining = 0 → Due t plant → after.remaining = 0) : Metered t next := by
  have still := sets_there plant next t trigger after there sets
  have due := due_sets t plant next after sets
  refine ⟨joined, ?_, ?_, ?_⟩
  · intro other found
    cases found.symm.trans still
    exact counted
  · intro other found active none_left
    cases found.symm.trans still
    exact absurd none_left (idle active)
  · intro last
    obtain ⟨same, again, none_left⟩ := metered.drained (due.mp last)
    cases there.symm.trans again
    exact ⟨after, still, drained none_left (due.mp last)⟩

theorem metered_spares (t : TriggerId) (plant next : Plant) (metered : Metered t plant)
    (spares : Spares t plant next) : Metered t next := by
  have due := due_adds t plant next spares.agenda
  refine ⟨joined_spares t plant next metered.joined spares, ?_, ?_, ?_⟩
  · intro after found
    cases there : plant.triggers[t]? with
    | none =>
        have made := spares.made there after found
        exact counted_full after made.latest made.full
    | some trigger =>
        obtain ⟨same, still, core⟩ := spares.kept trigger there
        cases found.symm.trans still
        exact counted_core trigger after core (metered.counted trigger there)
  · intro after found active none_left
    cases there : plant.triggers[t]? with
    | none =>
        rw [(spares.made there after found).inactive] at active
        contradiction
    | some trigger =>
        obtain ⟨same, still, core⟩ := spares.kept trigger there
        cases found.symm.trans still
        have alike := core_alike core
        exact due.mpr (metered.spent trigger there (alike.active.symm.trans active)
          (alike.remaining.symm.trans none_left))
  · intro last
    obtain ⟨trigger, there, none_left⟩ := metered.drained (due.mp last)
    obtain ⟨after, still, core⟩ := spares.kept trigger there
    exact ⟨after, still, (core_alike core).remaining.trans none_left⟩

theorem metered_relists (t : TriggerId) (plant : Plant) (agenda : List Job) (metered : Metered t plant)
    (due : Due t { plant with agenda := agenda } ↔ Due t plant) :
    Metered t { plant with agenda := agenda } where
  joined := (joined_kept t).relists plant agenda metered.joined due
  counted := metered.counted
  spent trigger there active none_left := due.mpr (metered.spent trigger there active none_left)
  drained last := metered.drained (due.mp last)

theorem metered_kept (t : TriggerId) : KeptBy t (Metered t) where
  joined _ metered := metered.joined
  spares := metered_spares t
  halts plant next trigger metered there sets :=
    metered_sets t plant next trigger _ metered there sets
      (joined_halts t plant next trigger metered.joined there sets)
      (counted_alike trigger _ rfl rfl rfl rfl (metered.counted trigger there))
      (fun active => by contradiction) (fun none_left _ => none_left)
  starts plant next trigger children links metered there left wired sets :=
    metered_sets t plant next trigger _ metered there sets
      ((joined_kept t).starts plant next trigger children links metered.joined there left wired sets)
      (counted_alike trigger _ rfl rfl rfl rfl (metered.counted trigger there))
      (fun _ => left) (fun none_left _ => none_left)
  evaluates plant next trigger found metered there active left evaluated :=
    metered_evaluated t plant next trigger found metered there active (.inl left) evaluated
  relists := metered_relists t

-- While the end of its transitions is still to come the trigger does not turn over.
def Steady (t : TriggerId) (plant next : Plant) : Prop :=
  Due t plant → ∀ trigger after, plant.triggers[t]? = some trigger → next.triggers[t]? = some after →
    after.latest = trigger.latest

theorem due_popped (t : TriggerId) (plant : Plant) (job : Job) (rest : List Job)
    (agenda : plant.agenda = job :: rest) (other : job.exhausted? ≠ some t) :
    Due t { plant with agenda := rest } ↔ Due t plant := by
  simp only [Due, agenda, List.mem_cons]
  constructor
  · rintro ⟨behind, member, last⟩
    exact ⟨behind, .inr member, last⟩
  · rintro ⟨behind, rfl | member, last⟩
    · exact absurd last other
    · exact ⟨behind, member, last⟩

theorem metered_exhaust (t : TriggerId) (plant : Plant) (rest : List Job)
    (agenda : plant.agenda = .exhaust t :: rest) (metered : Metered t plant) :
    Metered t ({ plant with agenda := rest }.exhaust t) := by
  obtain ⟨trigger, there, none_left⟩ := metered.drained ⟨.exhaust t, by simp [agenda], rfl⟩
  have joined : JoinedAt { plant with agenda := rest } t := fun trigger there =>
    joined_agenda plant rest trigger (metered.joined trigger there)
  have counted := metered.counted trigger there
  generalize popped : { plant with agenda := rest } = ready at joined ⊢
  have found : ready.triggers[t]? = some trigger := by rw [← popped]; exact there
  have kept := exhaust_keeps (joined_kept t) ready joined
  have ends : ∀ after, (ready.exhaust t).triggers[t]? = some after → after.active = false ∧
      after.remaining = 0 ∧ Counted after := by
    intro after still
    rcases exhaust_own t ready trigger found with ⟨idle, inert⟩ | sets
    · obtain ⟨same, again, core⟩ := (inert.spares t).kept trigger found
      cases still.symm.trans again
      have alike := core_alike core
      exact ⟨alike.active.trans idle, alike.remaining.trans none_left,
        counted_core trigger after core counted⟩
    · cases still.symm.trans (sets_there ready _ t trigger _ found sets)
      exact ⟨rfl, none_left, counted_alike trigger _ rfl rfl rfl rfl counted⟩
  obtain ⟨after, still, _⟩ := exhaust_fate ready t trigger found
  refine ⟨kept, ?_, ?_, fun _ => ⟨after, still, (ends after still).2.1⟩⟩
  · exact fun other there => (ends other there).2.2
  · intro other there active _
    rw [(ends other there).1] at active
    contradiction

theorem metered_move (t : TriggerId) (plant next : Plant) (deed : Deed)
    (orderly : OrderlyMove plant deed next) (bottomed : plant.Bottomed) (metered : Metered t plant)
    (unspoiled : ∀ command ∈ plant.order? deed, ¬ plant.Spoils t command)
    (steady : Steady t plant next) : Metered t next := by
  have keeps := metered_kept t
  obtain ⟨move, _⟩ := orderly
  cases move with
  | job _ stepped =>
      obtain ⟨job, rest, agenda, rfl⟩ := worked_off stepped
      apply retire_keeps_trigger keeps
      by_cases last : job = .exhaust t
      · subst last
        exact metered_exhaust t plant rest agenda metered
      · have other : job.exhausted? ≠ some t := by
          intro same
          cases job <;> simp_all [Job.exhausted?]
        have due := due_popped t plant job rest agenda other
        have popped := metered_relists t plant rest metered due
        refine perform_keeps keeps _ job popped ?_ ?_ ?_
        · rintro label command rfl
          exact unspoiled command (by simp [order?, agenda])
        · rintro id trigger after rfl there idle sets
          have undue : ¬ Due t { plant with agenda := rest } := by
            rintro ⟨behind, member, ending⟩
            have clear := bottomed_behind plant _ rest agenda (by simp [Job.partOf?]) bottomed
            rw [clear behind member] at ending
            contradiction
          obtain ⟨off, latest, condition, remaining⟩ := rearmed_idle trigger idle
          refine metered_sets t _ after trigger _ popped there sets
            (joined_rearms t _ after trigger popped.joined there idle sets) ?_ ?_ ?_
          · refine counted_full _ (by rw [latest, condition]) ?_
            rw [remaining, Trigger.rearm, if_neg (by simp [idle])]
            rfl
          · intro active
            rw [off] at active
            contradiction
          · exact fun _ due => absurd due undue
        · intro notification trigger found _ there active evaluated
          refine metered_evaluated t _ _ trigger found popped there active ?_ evaluated
          by_cases left : trigger.remaining = 0
          · right
            obtain ⟨after, still, kept⟩ := retire_fate _ t found.trigger evaluated.after
            have same : after.latest = found.trigger.latest := by
              rcases kept with core | ended
              · exact (core_alike core).latest
              · exact ended.latest
            rw [← same]
            exact steady (due.mp (popped.spent trigger there active left)) trigger after there still
          · exact .inl left
  | call command =>
      exact retire_keeps_trigger keeps _
        (execute_keeps keeps plant command metered (unspoiled command rfl))
  | turn runner =>
      exact retire_keeps_trigger keeps _ (metered_spares t plant _ metered (spares_turn t plant runner))
  | dispatch change => exact metered_spares t plant _ metered ((inert_dispatch plant change).spares t)

end Interlock.Plant
