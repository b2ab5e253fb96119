import Interlock.Proofs.Plant.Lifecycle
import Interlock.Proofs.Plant.Station

/-!
The numbers of the steps. Within a run the steps that are started count up from one.
-/

set_option autoImplicit false

namespace Interlock

open Interlock.Schedule

def Schedule.Progress.index? : Progress → Option Nat
  | .stepStarted index _ _ => some index
  | _ => none

def Schedule.Progress.opens : Progress → Bool
  | .started _ => true
  | _ => false

inductive Numbered : Nat → List Progress → Prop where
  | blank : Numbered 0 []
  | start (name : String) (count : Nat) (said : List Progress) (earlier : Numbered count said) :
      Numbered 0 (.started name :: said)
  | step (count : Nat) (source description : String) (said : List Progress)
      (earlier : Numbered count said) :
      Numbered (count + 1) (.stepStarted (count + 1) source description :: said)
  | plain (count : Nat) (progress : Progress) (said : List Progress)
      (uncounted : progress.index? = none) (opens : progress.opens = false)
      (earlier : Numbered count said) : Numbered count (progress :: said)

theorem numbered_earlier (count : Nat) (later said : List Progress)
    (numbered : Numbered count (later ++ said)) : ∃ earlier, Numbered earlier said := by
  induction later generalizing count with
  | nil => exact ⟨count, numbered⟩
  | cons progress later ih => cases numbered <;> exact ih _ ‹_›

theorem numbered_run (count : Nat) (name : String) (within said : List Progress)
    (numbered : Numbered count (within ++ .started name :: said))
    (one : ∀ progress ∈ within, progress.opens = false) :
    within.reverse.filterMap Progress.index? = List.range' 1 count := by
  induction within generalizing count with
  | nil =>
      cases numbered with
      | start => rfl
      | plain _ _ _ _ opens => contradiction
  | cons progress within ih =>
      have rest := fun count numbered =>
        ih count numbered fun progress member => one progress (List.mem_cons_of_mem _ member)
      rw [List.reverse_cons, List.filterMap_append]
      cases numbered with
      | start => exact absurd (one _ List.mem_cons_self) (by simp [Progress.opens])
      | step count source description _ earlier =>
          rw [rest count earlier, List.range'_concat, Nat.one_mul, Nat.add_comm 1 count]
          rfl
      | plain _ _ _ uncounted _ earlier =>
          rw [rest count earlier, List.filterMap_cons_none uncounted, List.filterMap_nil,
            List.append_nil]

def Course.executed (c : Course) : Nat := (c.sequence.map fun s => s.executed).getD 0

inductive Voices (c after : Course) : Prop where
  | counts (source description : String) (executed : after.executed = c.executed + 1)
      (voiced : after.voiced = c.voiced ++ [.stepStarted (c.executed + 1) source description])
  | plain (executed : after.executed = c.executed) (voice : List Progress)
      (uncounted : ∀ progress ∈ voice, progress.index? = none ∧ progress.opens = false)
      (voiced : after.voiced = c.voiced ++ voice)

theorem voices_silently (c after : Course) (executed : after.executed = c.executed)
    (voiced : after.voiced = c.voiced) : Voices c after :=
  .plain executed [] (by simp) (by rw [voiced, List.append_nil])

theorem voices_one (c after : Course) (executed : after.executed = c.executed) (progress : Progress)
    (uncounted : progress.index? = none) (opens : progress.opens = false)
    (voiced : after.voiced = c.voiced ++ [progress]) : Voices c after :=
  .plain executed [progress] (by simp [uncounted, opens]) voiced

theorem executed_held (c : Course) (s : Sequence) (held : c.sequence = some s) :
    c.executed = s.executed := by
  rw [Course.executed, held]
  rfl

theorem works_voices (id : SequenceId) (c after : Course) (stroke : Stroke id c after)
    (relists : Relists c after) (sound : c.Sound id) (ending : c.endings ≠ 0 → c.jobs = []) :
    Voices c after := by
  have same := fun s held => (executed_held c s held).symm
  cases stroke with
  | take s step held task =>
      exact voices_silently c _ (same s held) (by simp [Course.voiced, List.filterMap_cons, Job.message?])
  | release s step held task =>
      exact voices_silently c _ (same s held) (by simp [Course.voiced, List.filterMap_cons, Job.message?])
  | lost job rest jobs missing =>
      exact absurd missing (sound_unlost id c job rest jobs sound)
  | announce progress rest jobs =>
      obtain ⟨_, _, actions, _, _, _, rfl⟩ := sound_announce id c progress rest jobs sound
      exact voices_silently c _ rfl (by simp [Course.voiced, List.filterMap_cons, Job.message?, jobs])
  | begin s task rest held busy jobs =>
      obtain ⟨_, _, _, _, _, rfl⟩ := sound_work id c _ rest rfl jobs sound
      have count := executed_held c s held
      exact .counts task.step.source task.step.description (by rw [count]; rfl)
        (by simp [Course.voiced, List.filterMap_cons, Job.message?, jobs, count])
  | written rest jobs =>
      exact voices_silently c _ rfl (by simp [Course.voiced, List.filterMap_cons, Job.message?, jobs])
  | placeholder action more rest bare jobs =>
      exact voices_silently c _ rfl (by simp [Course.voiced, List.filterMap_cons, Job.message?, jobs])
  | apply action value more rest given jobs =>
      obtain ⟨_, _, _, _, _, rfl⟩ := sound_work id c _ rest rfl jobs sound
      exact voices_one c _ rfl (.actionApplied action.path value) rfl rfl
        (by simp [Course.voiced, List.filterMap_cons, Job.message?, jobs])
  | skip action value more rest given jobs =>
      obtain ⟨_, _, _, _, _, rfl⟩ := sound_work id c _ rest rfl jobs sound
      exact voices_one c _ rfl (.actionSkipped action.path) rfl rfl
        (by simp [Course.voiced, List.filterMap_cons, Job.message?, jobs])
  | engage s rest held active jobs =>
      exact voices_silently c _ rfl (by simp [Course.voiced, List.filterMap_cons, Job.message?, jobs])
  | refuse s rest held active jobs =>
      obtain ⟨_, _, _, _, _, rfl⟩ := sound_work id c _ rest rfl jobs sound
      exact voices_one c _ (same s held) .cancelled rfl rfl
        (by simp [Course.voiced, List.filterMap_cons, Job.message?, jobs])
  | await s step expression rest held active task jobs =>
      obtain ⟨_, _, _, _, _, rfl⟩ := sound_work id c _ rest rfl jobs sound
      exact voices_one c _ (same s held) (.waitingOnTrigger expression) rfl rfl
        (by simp [Course.voiced, List.filterMap_cons, Job.message?, jobs])
  | awaited expression rest jobs =>
      obtain ⟨_, _, _, _, _, rfl⟩ := sound_work id c _ rest rfl jobs sound
      exact voices_one c _ rfl (.waitingOnTrigger expression) rfl rfl
        (by simp [Course.voiced, List.filterMap_cons, Job.message?, jobs])
  | leave s job rest held jobs last =>
      refine voices_silently c _ (same s held) ?_
      obtain rfl | rfl | rfl := last <;> simp [Course.voiced, List.filterMap_cons, Job.message?, jobs]
  | satisfied s expression rest held jobs =>
      obtain ⟨_, _, _, _, _, rfl⟩ := sound_work id c _ rest rfl jobs sound
      exact voices_one c _ (same s held) (.triggerSatisfied expression) rfl rfl
        (by simp [Course.voiced, List.filterMap_cons, Job.message?, jobs])
  | stop s rest held inactive jobs =>
      exact voices_silently c _ (same s held)
        (by simp [Course.voiced, List.filterMap_cons, Job.message?, jobs])
  | drain s rest held active empty jobs =>
      exact voices_silently c _ (same s held)
        (by simp [Course.voiced, List.filterMap_cons, Job.message?, jobs])
  | halt s rest held active filled paused jobs =>
      obtain ⟨_, rfl, _⟩ := sound_next id c s rest held jobs sound
      exact voices_one c _ (same s held) .paused rfl rfl
        (by simp [Course.voiced, List.filterMap_cons, Job.message?, jobs])
  | step s step queue rest held active filled unpaused jobs =>
      exact voices_silently c _ (same s held)
        (by simp [Course.voiced, List.filterMap_cons, Job.message?, jobs])
  | complete s endings held active pending =>
      exact voices_one c _ (same s held) .completed rfl rfl
        (by simp [Course.voiced, ending (by rw [pending]; exact Nat.succ_ne_zero _)])
  | passed endings pending inactive => exact voices_silently c _ rfl rfl
  | create | enqueue | pause | withdraw | deactivate | clear =>
      exact absurd relists (not_relists _ _ rfl (Nat.le_refl _))
  | resume | activate =>
      exact absurd relists (not_relists _ _ rfl (Nat.le_add_left _ _))

theorem regular_ending (id : SequenceId) (c : Course) (regular : Regular id c) (sound : c.Sound id)
    (pending : c.endings ≠ 0) : c.jobs = [] := by
  cases held : c.sequence with
  | none => exact absurd (regular.absent held).1 pending
  | some s =>
      obtain ⟨phase, stands, _⟩ := regular.held s held
      rw [sound_held id c s held] at sound
      generalize c.endings = endings at stands pending
      cases stands with
      | ending _ _ free _ =>
          rw [free] at sound
          exact (station_idle sound).2
      | out | busy | resting => exact absurd rfl pending

def Course.Counting (c : Course) : Prop := Numbered c.executed c.voiced.reverse

theorem counting_voices (c after : Course) (voices : Voices c after) (counting : c.Counting) :
    after.Counting := by
  cases voices with
  | counts source description executed voiced =>
      rw [Course.Counting, executed, voiced, List.reverse_append]
      exact .step _ source description _ counting
  | plain executed voice uncounted voiced =>
      rw [Course.Counting, executed, voiced, List.reverse_append]
      have plain := fun progress member => uncounted progress (List.mem_reverse.mp member)
      generalize voice.reverse = news at plain
      induction news with
      | nil => exact counting
      | cons progress news ih =>
          obtain ⟨first, rest⟩ := List.forall_mem_cons.mp plain
          exact .plain _ progress _ first.1 first.2 (ih rest)

theorem counting_proceeds (s after : Sequence) (endings : Nat) (news said : List Progress)
    (proceeds : Proceeds s endings news after) (numbered : Numbered s.executed said) :
    Numbered after.executed (news ++ said) := by
  cases proceeds with
  | stays => exact numbered
  | pauses => exact .plain _ .paused _ rfl rfl numbered
  | ends => exact numbered
  | hands => exact numbered

theorem counting_answers (summons : Summons) (c after : Course) (answers : Answers summons c after)
    (rests : c.jobs = []) (blank : c.sequence = none → c.told = []) (counting : c.Counting) :
    after.Counting := by
  have told : Numbered c.executed c.told := by simpa [Course.Counting, Course.voiced, rests] using counting
  have goal : Numbered after.executed after.told → after.Counting := by
    intro numbered
    have jobs : after.jobs = [] := by cases answers <;> exact rests
    simpa [Course.Counting, Course.voiced, jobs] using numbered
  apply goal
  cases answers with
  | create _ name registry channel pollInterval queue absent =>
      rw [blank absent]
      exact .blank
  | push _ s steps held => rwa [executed_held c s held] at told
  | activate _ s next endings news held inactive proceeds =>
      exact counting_proceeds _ next endings news _ proceeds (.start s.name _ _ told)
  | pause _ s held => rwa [executed_held c s held] at told
  | withdraw _ s held => rwa [executed_held c s held] at told
  | resume _ s next endings news held paused active reached proceeds =>
      rw [executed_held c s held] at told
      exact counting_proceeds _ next endings news _ proceeds (.plain _ .resumed _ rfl rfl told)
  | stop _ _ s stops held =>
      rw [executed_held c s held] at told
      exact .plain _ .cancelled _ rfl rfl told
  | clear _ s held => rwa [executed_held c s held] at told
  | vain => exact told

namespace Plant

section

variable {start : Calendar.Instant} {hasRuntime : Bool} {plant : Plant} {id : SequenceId}

theorem counting_unbidden (run : Runs (Unbidden id) (blank start hasRuntime) plant) :
    (plant.course id).Counting := by
  induction run with
  | refl => exact .blank
  | @tail plant next earlier last ih =>
      obtain ⟨deed, unbidden⟩ := last
      have regular := regular_unbidden earlier
      have sound := reached_sound plant (unbidden_reached earlier) id
      have deals := move_deals plant next deed unbidden.move id
      have rests := unbidden.rests
      generalize plant.asks? id deed = summons at deals rests
      generalize next.course id = after at deals
      cases deals with
      | stays => exact ih
      | answers summons _ _ answers =>
          exact counting_answers summons _ _ answers (rests (by simp)).1
            (fun absent => (regular.absent absent).2) ih
      | works _ _ stroke relists =>
          exact counting_voices _ _
            (works_voices id _ _ stroke relists sound (regular_ending id _ regular sound)) ih

theorem indices_count_up (run : Runs (Unbidden id) (blank start hasRuntime) plant)
    (before within after : List Progress) (name : String)
    (order : (plant.course id).told.reverse = before ++ .started name :: within ++ after)
    (one : ∀ progress ∈ within, progress.opens = false) :
    within.filterMap Progress.index? =
      List.range' 1 (within.filterMap Progress.index?).length := by
  have counting := counting_unbidden run
  have said : (plant.course id).voiced.reverse =
      ((plant.course id).jobs.filterMap Job.message?).reverse ++ after.reverse ++
        (within.reverse ++ .started name :: before.reverse) := by
    rw [Course.voiced, order]
    simp
  rw [Course.Counting, said] at counting
  obtain ⟨count, numbered⟩ := numbered_earlier _ _ _ counting
  have run := numbered_run count name within.reverse before.reverse numbered (by simpa using one)
  rw [List.reverse_reverse] at run
  rw [run, List.length_range']

end

end Plant

end Interlock
