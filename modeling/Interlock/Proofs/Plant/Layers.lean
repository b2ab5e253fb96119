import Interlock.Proofs.Plant.Drift
import Interlock.Proofs.Plant.Retiring

/-!
The order of the agenda. The end of the transitions of a trigger never waits behind a part of a step.
-/

set_option autoImplicit false

namespace Interlock.Plant

open Interlock.Graph
open Interlock.Schedule
open Interlock.Session (Command)

def Lists (plant next : Plant) : Prop := Adds (fun job => job.exhausted? = none) plant next

theorem Lists.refl (plant : Plant) : Lists plant plant := adds_refl _ plant

theorem Lists.trans {plant middle next : Plant} (first : Lists plant middle)
    (second : Lists middle next) : Lists plant next := adds_trans _ _ _ _ first second

theorem Detached.lists {plant next : Plant} (detached : Detached plant next) : Lists plant next :=
  adds_weaken _ _ (fun _ apart => apart.2) _ _ detached.agenda

theorem Inert.lists {plant next : Plant} (inert : Inert plant next) : Lists plant next :=
  inert.detached.lists

theorem lists_same (plant next : Plant) (same : next.agenda = plant.agenda) : Lists plant next :=
  ⟨[], same, by simp⟩

def Layered (plant next : Plant) : Prop :=
  ∃ front back, next.agenda = front ++ back ++ plant.agenda ∧
    (∀ job ∈ front, job.partOf? = none) ∧ ∀ job ∈ back, job.exhausted? = none

theorem Lists.layered {plant middle next : Plant} (lists : Lists plant middle)
    (partless : ListsNoPart middle next) : Layered plant next := by
  obtain ⟨back, grown, each⟩ := lists
  obtain ⟨front, regrown, every⟩ := partless
  exact ⟨front, back, by rw [regrown, grown, List.append_assoc], every, each⟩

theorem lists_leave_step (plant : Plant) (id : SequenceId) : Lists plant (plant.leaveStep id) := by
  unfold leaveStep
  split
  · exact .refl plant
  · exact ⟨[.next id], rfl, by simp [Job.exhausted?]⟩

theorem lists_rearm_trigger (plant : Plant) (t : TriggerId) : Lists plant (plant.rearmTrigger t) := by
  unfold rearmTrigger
  split
  · exact .refl plant
  · rename_i trigger there
    split
    · exact .refl plant
    · exact (lists_same plant (plant.setTrigger t trigger.rearm) rfl).trans
        (inert_wake_waiting _ t).lists

theorem layered_begin (plant : Plant) (id : SequenceId) : Layered plant (plant.beginStep id) := by
  unfold beginStep
  split
  · exact (Lists.refl plant).layered (.refl plant)
  · rename_i s step found
    refine Lists.layered ?_ (detached_tell_stage _ s _ _ _).lists_no_part
    exact ⟨[.announce id (.stepStarted (s.executed + 1) step.source step.description),
      .act id step.actions], rfl, by simp [Job.exhausted?]⟩

theorem layered_act (plant : Plant) (id : SequenceId) (actions : List Action) :
    Layered plant (plant.actNext id actions) := by
  cases actions with
  | nil => exact Lists.layered ⟨[.arm id], rfl, by simp [Job.exhausted?]⟩ (.refl _)
  | cons action rest =>
      rw [actNext]
      split
      · exact (Lists.refl plant).layered (.refl plant)
      · have after : Lists plant (plant.push [.act id rest]) :=
          ⟨[.act id rest], rfl, by simp [Job.exhausted?]⟩
        unfold act
        dsimp only
        split
        · exact after.layered (inert_log _ _ _ _ _).detached.lists_no_part
        · rename_i value given
          split
          · have told : Lists (plant.push [.act id rest]) ((plant.push [.act id rest]).push
                [.announce id (.actionApplied action.path value)]) :=
              ⟨[.announce id (.actionApplied action.path value)], rfl, by simp [Job.exhausted?]⟩
            exact (after.trans told).layered
              ((inert_log _ _ _ _ _).trans (inert_write _ _ value)).detached.lists_no_part
          · exact after.layered ((inert_log _ _ _ _ _).detached.lists_no_part.trans
              (detached_announce _ id _).lists_no_part)

theorem layered_arm (plant : Plant) (id : SequenceId) : Layered plant (plant.arm id) := by
  have rearmed (t : TriggerId) := lists_rearm_trigger plant t
  have taken := plant.arm_case id
  generalize plant.arm id = next at taken ⊢
  cases taken with
  | leave => exact (lists_leave_step plant id).layered (.refl _)
  | refuse s t =>
      have stopped (plant : Plant) : Lists plant ((plant.deactivateSequence id).leaveStep id) :=
        (detached_deactivate plant id).lists.trans (lists_leave_step _ id)
      exact ((rearmed t).trans ((inert_log _ _ _ _ _).lists.trans (stopped _))).layered (.refl _)
  | engage s t trigger started next _ _ _ _ activated =>
      have waits : Lists (plant.rearmTrigger t) ((plant.rearmTrigger t).push [.wait id]) :=
        ⟨[.wait id], rfl, by simp [Job.exhausted?]⟩
      exact ((rearmed t).trans waits).layered (quiet_activate_trigger _ t _ _ activated).lists_no_part

theorem lists_wait (plant : Plant) (id : SequenceId) : Lists plant (plant.waitForTrigger id) := by
  unfold waitForTrigger
  split
  · exact lists_leave_step plant id
  · dsimp only
    split
    · exact ⟨[.disarm id], rfl, by simp [Job.exhausted?]⟩
    · exact lists_same _ _ rfl

theorem lists_disarm (plant : Plant) (id : SequenceId) : Lists plant (plant.disarm id) := by
  have ended (t : TriggerId) := lists_same plant (plant.deactivateTrigger t) (still_deactivate_trigger plant t).agenda
  have taken := plant.disarm_case id
  generalize plant.disarm id = next at taken ⊢
  cases taken with
  | leave => exact lists_leave_step plant id
  | unmet s t => exact (ended t).trans (lists_leave_step _ id)
  | satisfied s t => exact (ended t).trans ((lists_same _ _ (by rfl)).trans (lists_leave_step _ id))

theorem lists_next (plant : Plant) (id : SequenceId) : Lists plant (plant.nextStep id) := by
  unfold nextStep
  split
  · exact .refl plant
  · rename_i s held
    dsimp only
    split
    · exact lists_same _ _ rfl
    · split
      · have idle := detached_set_sequence plant id { s with inFlight := false }
        exact (idle.trans (detached_finish _ id { s with inFlight := false })).lists
      · split
        · exact (detached_enter_pause plant id { s with inFlight := false }).lists
        · exact ⟨[.begin id], rfl, by simp [Job.exhausted?]⟩

theorem lists_turn (plant : Plant) (runner : Runner) : Lists plant (plant.turn runner) := by
  cases runner with
  | sequence id =>
      rw [turn, turnSequence]
      split
      · exact .refl plant
      · split
        · exact ⟨[.begin id], rfl, by simp [Job.exhausted?]⟩
        · split
          · exact .refl plant
          · split
            · exact ⟨[.disarm id], rfl, by simp [Job.exhausted?]⟩
            · exact lists_same _ _ rfl
        · exact .refl plant
  | device id => exact (inert_turn_device plant id).lists
  | stopped => exact .refl plant

theorem lists_no_part_perform (plant : Plant) (job : Job) (other : job.partOf? = none) :
    ListsNoPart plant (plant.perform job) := by
  cases job with
  | deliver listener notification => exact (quiet_deliver plant listener notification).lists_no_part
  | tell listener event => exact (inert_tell plant listener event).detached.lists_no_part
  | leave node => exact .refl plant
  | exhaust t => exact (quiet_exhaust plant t).lists_no_part
  | command label command =>
      obtain ⟨jobs, _, apart, same⟩ := run_command_next plant label command
      refine ⟨jobs ++ [.conclude label (plant.execute command).1], ?_, ?_⟩
      · rw [perform, same]
        simp
      · intro job member
        rcases List.mem_append.mp member with caused | reply
        · exact apart job caused
        · rw [List.mem_singleton.mp reply]
          rfl
  | conclude label reply => exact (inert_note plant _ rfl).detached.lists_no_part
  | write channel value => exact (inert_write plant channel value).detached.lists_no_part
  | settleDown device => exact (inert_settle_down plant device).detached.lists_no_part
  | keepSubscription name subscription =>
      exact (inert_keep_subscription plant name subscription).detached.lists_no_part
  | closeRun => exact (inert_dispatch plant _).detached.lists_no_part
  | complete id => exact (detached_complete plant id).lists_no_part
  | announce | begin | act | arm | wait | disarm | next => contradiction

theorem layered_perform (plant : Plant) (job : Job) : Layered plant (plant.perform job) := by
  cases part : job.partOf? with
  | none => exact (Lists.refl plant).layered (lists_no_part_perform plant job part)
  | some owner =>
      cases job with
      | announce id progress => exact (detached_announce plant id progress).lists.layered (.refl _)
      | begin id => exact layered_begin plant id
      | act id actions => exact layered_act plant id actions
      | arm id => exact layered_arm plant id
      | wait id => exact (lists_wait plant id).layered (.refl _)
      | disarm id => exact (lists_disarm plant id).layered (.refl _)
      | next id => exact (lists_next plant id).layered (.refl _)
      | deliver | tell | leave | exhaust | command | conclude | write | settleDown
      | keepSubscription | closeRun | complete => contradiction

theorem perform_grows (plant : Plant) (job : Job) :
    ∃ jobs, (plant.perform job).agenda = jobs ++ plant.agenda := by
  obtain ⟨front, back, grown, _, _⟩ := layered_perform plant job
  exact ⟨front ++ back, grown⟩

def Bottomed (plant : Plant) : Prop :=
  plant.agenda.Pairwise fun before behind => before.partOf? ≠ none → behind.exhausted? = none

theorem bottomed_lists_no_part (plant next : Plant) (partless : ListsNoPart plant next)
    (bottomed : plant.Bottomed) :
    next.Bottomed := by
  obtain ⟨jobs, grown, each⟩ := partless
  rw [Bottomed, grown, List.pairwise_append]
  refine ⟨List.pairwise_of_forall_mem_list ?_, bottomed, ?_⟩
  · intro before member _ _ part
    exact absurd (each before member) part
  · intro before member _ _ part
    exact absurd (each before member) part

theorem bottomed_clear (plant next : Plant) (layered : Layered plant next)
    (clear : ∀ job ∈ plant.agenda, job.exhausted? = none) : next.Bottomed := by
  obtain ⟨front, back, grown, parts, ends⟩ := layered
  rw [Bottomed, grown, List.append_assoc, List.pairwise_append]
  refine ⟨List.pairwise_of_forall_mem_list ?_, List.pairwise_of_forall_mem_list ?_, ?_⟩
  · intro before member _ _ part
    exact absurd (parts before member) part
  · intro before _ behind member _
    rcases List.mem_append.mp member with new | old
    · exact ends behind new
    · exact clear behind old
  · intro before member _ _ part
    exact absurd (parts before member) part

theorem bottomed_orderly (plant next : Plant) (deed : Deed) (orderly : OrderlyMove plant deed next)
    (bottomed : plant.Bottomed) : next.Bottomed := by
  obtain ⟨move, order⟩ := orderly
  have retired : ∀ after : Plant, after.Bottomed → after.retire.Bottomed := by
    intro after kept
    rw [Bottomed, (still_retire after).agenda]
    exact kept
  cases move with
  | job _ stepped =>
      obtain ⟨job, rest, agenda, rfl⟩ := worked_off stepped
      apply retired
      rw [Bottomed, agenda, List.pairwise_cons] at bottomed
      cases part : job.partOf? with
      | none => exact bottomed_lists_no_part _ _ (lists_no_part_perform _ job part) bottomed.2
      | some owner =>
          exact bottomed_clear _ _ (layered_perform _ job)
            fun behind member => bottomed.1 behind member (by rw [part]; simp)
  | call command => exact retired _ (bottomed_lists_no_part plant _ (lists_no_part_execute plant command) bottomed)
  | turn runner =>
      have empty : plant.agenda = [] := order
      apply retired
      exact bottomed_clear plant _ ((lists_turn plant runner).layered (.refl _)) (by simp [empty])
  | dispatch change => exact bottomed

theorem bottomed_behind (plant : Plant) (job : Job) (rest : List Job)
    (agenda : plant.agenda = job :: rest) (part : job.partOf? ≠ none) (bottomed : plant.Bottomed) :
    ∀ behind ∈ rest, behind.exhausted? = none := by
  rw [Bottomed, agenda, List.pairwise_cons] at bottomed
  exact fun behind member => bottomed.1 behind member part

end Interlock.Plant
