import Mathlib.Computability.Language
import Interlock.Proofs.Plant.Dealing

/-!
The life of a sequence. As long as no handler calls back into what the sequence is doing, its runs
follow one grammar of events, and its state says what it is about.
-/

set_option autoImplicit false

namespace Interlock

open Interlock.Schedule

-- The events that mark the runs of a sequence.
inductive Mark where
  | started
  | paused
  | resumed
  | completed
  | cancelled
deriving DecidableEq, Repr

def Schedule.Progress.mark? : Progress → Option Mark
  | .started _ => some .started
  | .paused => some .paused
  | .resumed => some .resumed
  | .completed => some .completed
  | .cancelled => some .cancelled
  | _ => none

-- A run is started, then paused and resumed at will.
def opening : Language Mark := {[.started]} * KStar.kstar {[.paused, .resumed]}

-- It is completed or cancelled, the latter also while it is paused.
def closing : Language Mark := {[.completed]} + {[.cancelled]} + {[.paused, .cancelled]}

def lifecycle : Language Mark := KStar.kstar (opening * closing)

inductive Phase where
  | out
  | running
  | resting
deriving DecidableEq, Repr

-- What was told, the latest first, and the phase that it leads to.
inductive Chronicle : Phase → List Progress → Prop where
  | blank : Chronicle .out []
  | start (name : String) (told : List Progress) (earlier : Chronicle .out told) :
      Chronicle .running (.started name :: told)
  | pause (told : List Progress) (earlier : Chronicle .running told) :
      Chronicle .resting (.paused :: told)
  | resume (told : List Progress) (earlier : Chronicle .resting told) :
      Chronicle .running (.resumed :: told)
  | complete (told : List Progress) (earlier : Chronicle .running told) :
      Chronicle .out (.completed :: told)
  | cancel (phase : Phase) (told : List Progress) (going : phase ≠ .out)
      (earlier : Chronicle phase told) : Chronicle .out (.cancelled :: told)
  -- what a step tells
  | work (phase : Phase) (progress : Progress) (told : List Progress)
      (unmarked : progress.mark? = none) (busy : phase ≠ .resting) (earlier : Chronicle phase told) :
      Chronicle phase (progress :: told)

def marks (told : List Progress) : List Mark := told.reverse.filterMap Progress.mark?

theorem marks_cons (progress : Progress) (told : List Progress) :
    marks (progress :: told) = marks told ++ progress.mark?.toList := by
  rw [marks, List.reverse_cons, List.filterMap_append, marks, List.append_cancel_left_eq]
  cases mark : progress.mark? with
  | none => rw [List.filterMap_cons_none mark]; rfl
  | some mark => rw [List.filterMap_cons_some ‹_›]; rfl

-- How far the marks of a phase have come.
def Phase.word : Phase → Language Mark
  | .out => lifecycle
  | .running => lifecycle * opening
  | .resting => lifecycle * opening * {[.paused]}

theorem kstar_more (language : Language Mark) (words word : List Mark)
    (earlier : words ∈ KStar.kstar language) (more : word ∈ language) :
    words ++ word ∈ KStar.kstar language :=
  Set.mem_of_mem_of_subset (Language.append_mem_mul earlier more) (kstar_mul_le_kstar (a := language))

theorem opening_resumed (word : List Mark) (opened : word ∈ opening) :
    word ++ [.paused, .resumed] ∈ opening := by
  obtain ⟨start, started, pauses, each, rfl⟩ := Language.mem_mul.mp opened
  rw [List.append_assoc]
  exact Language.append_mem_mul started (kstar_more _ pauses _ each rfl)

theorem lifecycle_closed (runs word close : List Mark) (earlier : runs ∈ lifecycle)
    (opened : word ∈ opening) (closes : close ∈ closing) : runs ++ word ++ close ∈ lifecycle := by
  rw [List.append_assoc]
  exact kstar_more _ runs _ earlier (Language.append_mem_mul opened closes)

theorem word_closed (phase : Phase) (word : List Mark) (going : phase ≠ .out)
    (reached : word ∈ phase.word) : word ++ [.cancelled] ∈ lifecycle := by
  cases phase with
  | out => exact absurd rfl going
  | running =>
      obtain ⟨runs, earlier, word, opened, rfl⟩ := Language.mem_mul.mp reached
      exact lifecycle_closed runs word _ earlier opened (.inl (.inr rfl))
  | resting =>
      obtain ⟨before, begun, _, rfl, rfl⟩ := Language.mem_mul.mp reached
      obtain ⟨runs, earlier, word, opened, rfl⟩ := Language.mem_mul.mp begun
      rw [List.append_assoc]
      exact lifecycle_closed runs word _ earlier opened (.inr rfl)

theorem chronicle_word (phase : Phase) (told : List Progress) (chronicle : Chronicle phase told) :
    marks told ∈ phase.word := by
  induction chronicle with
  | blank => exact Language.nil_mem_kstar _
  | start name told _ ih =>
      have opened : [Mark.started] ∈ opening := by
        have pauses := Language.nil_mem_kstar ({[.paused, .resumed]} : Language Mark)
        exact Language.mem_mul.mpr ⟨[.started], rfl, [], pauses, rfl⟩
      rw [marks_cons]
      exact Language.append_mem_mul ih opened
  | pause told _ ih =>
      rw [marks_cons]
      exact Language.append_mem_mul ih rfl
  | resume told _ ih =>
      obtain ⟨_, reached, _, rfl, same⟩ := Language.mem_mul.mp ih
      obtain ⟨runs, earlier, word, opened, rfl⟩ := Language.mem_mul.mp reached
      rw [marks_cons, ← same, List.append_assoc, List.append_assoc]
      exact Language.append_mem_mul earlier (opening_resumed word opened)
  | complete told _ ih =>
      obtain ⟨runs, earlier, word, opened, same⟩ := Language.mem_mul.mp ih
      rw [marks_cons, ← same]
      exact lifecycle_closed runs word _ earlier opened (.inl (.inl rfl))
  | cancel phase told going _ ih =>
      rw [marks_cons]
      exact word_closed phase _ going ih
  | work phase progress told unmarked _ _ ih =>
      rw [marks_cons, unmarked]
      simpa using ih

theorem chronicle_extends (phase : Phase) (told : List Progress) (chronicle : Chronicle phase told) :
    ∃ rest, marks told ++ rest ∈ lifecycle := by
  have reached := chronicle_word phase told chronicle
  by_cases out : phase = .out
  · subst out
    exact ⟨[], by rwa [List.append_nil]⟩
  · exact ⟨[.cancelled], word_closed phase _ out reached⟩

theorem chronicle_rests (phase : Phase) (between before : List Progress)
    (chronicle : Chronicle phase (between ++ .paused :: before)) :
    phase = .resting ∨ .resumed ∈ between ∨ .cancelled ∈ between := by
  induction between generalizing phase with
  | nil =>
      cases chronicle with
      | pause => exact .inl rfl
      | work _ _ _ unmarked => contradiction
  | cons progress between ih =>
      cases chronicle with
      | start name _ earlier =>
          rcases ih _ earlier with resting | ended
          · contradiction
          · exact .inr (ended.imp (List.mem_cons_of_mem _) (List.mem_cons_of_mem _))
      | pause _ earlier => exact .inl rfl
      | resume => simp
      | complete _ earlier =>
          rcases ih _ earlier with resting | ended
          · contradiction
          · exact .inr (ended.imp (List.mem_cons_of_mem _) (List.mem_cons_of_mem _))
      | cancel => simp
      | work _ _ _ unmarked busy earlier =>
          rcases ih _ earlier with resting | ended
          · exact .inl resting
          · exact .inr (ended.imp (List.mem_cons_of_mem _) (List.mem_cons_of_mem _))

theorem chronicle_earlier (phase : Phase) (later told : List Progress)
    (chronicle : Chronicle phase (later ++ told)) : ∃ earlier, Chronicle earlier told := by
  induction later generalizing phase with
  | nil => exact ⟨phase, chronicle⟩
  | cons progress later ih => cases chronicle <;> exact ih _ ‹_›

theorem chronicle_step (phase : Phase) (told before between after : List Progress) (index : Nat)
    (source description : String) (chronicle : Chronicle phase told)
    (order : told.reverse =
      before ++ .paused :: between ++ .stepStarted index source description :: after) :
    .resumed ∈ between ∨ .cancelled ∈ between := by
  have latest : told = after.reverse ++
      .stepStarted index source description :: (between.reverse ++ .paused :: before.reverse) := by
    rw [← List.reverse_reverse told, order]
    simp
  rw [latest] at chronicle
  obtain ⟨earlier, stepped⟩ := chronicle_earlier phase _ _ chronicle
  cases stepped with
  | work _ _ _ unmarked busy before =>
      rcases chronicle_rests _ _ _ before with resting | ended
      · exact absurd resting busy
      · simpa using ended

-- What a sequence is about, with the endings of runs that are still to be told.
inductive InPhase (s : Sequence) : Nat → Phase → Prop where
  | out (inactive : s.active = false) (state : s.state ≠ .running ∧ s.state ≠ .paused) : InPhase s 0 .out
  | busy (active : s.active = true) (state : s.state = .running) (flies : s.inFlight = true) :
      InPhase s 0 .running
  | resting (active : s.active = true) (state : s.state = .paused) (paused : s.paused = true)
      (free : s.inFlight = false) : InPhase s 0 .resting
  | ending (active : s.active = true) (state : s.state = .running) (free : s.inFlight = false)
      (empty : s.queue = []) : InPhase s 1 .running

theorem in_phase_flies (s : Sequence) (endings : Nat) (phase : Phase) (stands : InPhase s endings phase)
    (flies : s.inFlight = true) :
    endings = 0 ∧ (phase = .out ∧ s.active = false ∨ phase = .running ∧ s.active = true) := by
  cases stands with
  | out inactive state => exact ⟨rfl, .inl ⟨rfl, inactive⟩⟩
  | busy active state flies => exact ⟨rfl, .inr ⟨rfl, active⟩⟩
  | resting _ _ _ free => exact absurd (flies.symm.trans free) (by decide)
  | ending _ _ free _ => exact absurd (flies.symm.trans free) (by decide)

theorem in_phase_inactive (s : Sequence) (endings : Nat) (phase : Phase) (stands : InPhase s endings phase)
    (inactive : s.active = false) :
    endings = 0 ∧ phase = .out ∧ s.state ≠ .running ∧ s.state ≠ .paused := by
  cases stands with
  | out _ state => exact ⟨rfl, rfl, state⟩
  | busy active | resting active | ending active =>
      exact absurd (active.symm.trans inactive) (by decide)

theorem in_phase_going (s : Sequence) (endings : Nat) (phase : Phase) (stands : InPhase s endings phase)
    (active : s.active = true) : phase ≠ .out := by
  rintro rfl
  cases stands with
  | out inactive => exact absurd (active.symm.trans inactive) (by decide)

theorem in_phase_proceeds (s after : Sequence) (endings : Nat) (news told : List Progress)
    (proceeds : Proceeds s endings news after) (active : s.active = true) (state : s.state = .running)
    (chronicle : Chronicle .running told) :
    ∃ phase, InPhase after endings phase ∧ Chronicle phase (news ++ told) := by
  cases proceeds with
  | stays held =>
      have flies : s.inFlight = true := by simpa [active] using held
      exact ⟨.running, .busy active state flies, chronicle⟩
  | pauses _ free paused => exact ⟨.resting, .resting active rfl paused free, .pause _ chronicle⟩
  | ends _ free unpaused empty => exact ⟨.running, .ending active state free empty, chronicle⟩
  | hands step rest _ free unpaused queue => exact ⟨.running, .busy active state rfl, chronicle⟩

structure Regular (id : SequenceId) (c : Course) : Prop where
  unmarked : ∀ progress, .announce id progress ∈ c.jobs → progress.mark? = none
  absent : c.sequence = none → c.endings = 0 ∧ c.told = []
  held : ∀ s, c.sequence = some s → ∃ phase, InPhase s c.endings phase ∧ Chronicle phase c.told

theorem regular_held (id : SequenceId) (c after : Course) (s : Sequence) (phase : Phase)
    (regular : Regular id c) (jobs : after.jobs = c.jobs) (held : after.sequence = some s)
    (stands : InPhase s after.endings phase) (chronicle : Chronicle phase after.told) :
    Regular id after := by
  refine ⟨by rw [jobs]; exact regular.unmarked, fun absent => ?_, fun other there => ?_⟩
  · rw [held] at absent
    contradiction
  · cases held.symm.trans there
    exact ⟨phase, stands, chronicle⟩

theorem regular_answers (id : SequenceId) (summons : Summons) (c after : Course)
    (answers : Answers summons c after) (ended : c.endings = 0) (regular : Regular id c) :
    Regular id after := by
  cases answers with
  | create _ name registry channel pollInterval queue absent =>
      obtain ⟨none_left, silent⟩ := regular.absent absent
      refine regular_held id c _ _ .out regular rfl rfl ?_ ?_
      · rw [none_left]
        exact .out rfl (by simp [Sequence.create])
      · rw [silent]
        exact .blank
  | push _ s steps held =>
      obtain ⟨phase, stands, chronicle⟩ := regular.held s held
      refine regular_held id c _ _ phase regular rfl rfl ?_ chronicle
      rw [ended] at stands ⊢
      cases stands with
      | out inactive state => exact .out inactive state
      | busy active state flies => exact .busy active state flies
      | resting active state paused free => exact .resting active state paused free
  | activate _ s next endings told held inactive proceeds =>
      obtain ⟨phase, stands, chronicle⟩ := regular.held s held
      obtain ⟨_, rfl, _⟩ := in_phase_inactive s _ phase stands inactive
      rw [ended]
      obtain ⟨phase, bears, told⟩ :=
        in_phase_proceeds _ next endings told _ proceeds rfl rfl (.start s.name _ chronicle)
      exact regular_held id c _ next phase regular rfl rfl bears told
  | pause _ s held =>
      obtain ⟨phase, stands, chronicle⟩ := regular.held s held
      refine regular_held id c _ _ phase regular rfl rfl ?_ chronicle
      rw [ended] at stands ⊢
      cases stands with
      | out inactive state => exact .out inactive state
      | busy active state flies => exact .busy active state flies
      | resting active state paused free => exact .resting active state rfl free
  | withdraw _ s held paused unreached =>
      obtain ⟨phase, stands, chronicle⟩ := regular.held s held
      refine regular_held id c _ _ phase regular rfl rfl ?_ chronicle
      rw [ended] at stands ⊢
      cases stands with
      | out inactive state => exact .out inactive state
      | busy active state flies => exact .busy active state flies
      | resting active state => simp [active, state] at unreached
  | resume _ s next endings told held paused active reached proceeds =>
      obtain ⟨phase, stands, chronicle⟩ := regular.held s held
      rw [ended] at stands ⊢
      cases stands with
      | out inactive => exact absurd (active.symm.trans inactive) (by decide)
      | busy _ state => exact absurd (reached.symm.trans state) (by decide)
      | resting =>
          obtain ⟨phase, bears, told⟩ :=
            in_phase_proceeds _ next endings told _ proceeds active rfl (.resume _ chronicle)
          exact regular_held id c _ next phase regular rfl rfl bears told
  | stop _ _ s stops held active =>
      obtain ⟨phase, stands, chronicle⟩ := regular.held s held
      have going := in_phase_going s _ phase stands active
      refine regular_held id c _ s.stopped .out regular rfl rfl ?_ (.cancel phase _ going chronicle)
      rw [ended]
      exact .out rfl (by simp [Sequence.stopped])
  | clear _ s held inactive =>
      obtain ⟨phase, stands, chronicle⟩ := regular.held s held
      obtain ⟨_, rfl, state⟩ := in_phase_inactive s _ phase stands inactive
      refine regular_held id c _ _ .out regular rfl rfl ?_ chronicle
      rw [ended]
      exact .out inactive state
  | vain => exact regular

structure TellsInFlight (c after : Course) (s next : Sequence) : Prop where
  held : c.sequence = some s
  flies : s.inFlight = true
  now : after.sequence = some next
  active : next.active = s.active
  state : next.state = s.state
  flying : next.inFlight = true
  endings : after.endings = c.endings
  told : after.told = c.told ∨ ∃ progress, progress.mark? = none ∧ after.told = progress :: c.told

theorem regular_tells_in_flight (id : SequenceId) (c after : Course) (s next : Sequence)
    (tells : TellsInFlight c after s next) (regular : Regular id c)
    (unmarked : ∀ progress, .announce id progress ∈ after.jobs → progress.mark? = none) :
    Regular id after := by
  refine ⟨unmarked, fun absent => ?_, fun other there => ?_⟩
  · rw [tells.now] at absent
    contradiction
  · cases tells.now.symm.trans there
    obtain ⟨phase, stands, chronicle⟩ := regular.held s tells.held
    obtain ⟨ended, place⟩ := in_phase_flies s _ phase stands tells.flies
    rw [ended] at stands
    refine ⟨phase, ?_, ?_⟩
    · rw [tells.endings, ended]
      cases stands with
      | out inactive state =>
          exact .out (tells.active.trans inactive) (by rw [tells.state]; exact state)
      | busy active state =>
          exact .busy (tells.active.trans active) (tells.state.trans state) tells.flying
      | resting _ _ _ free => exact absurd (tells.flies.symm.trans free) (by decide)
    · have busy : phase ≠ .resting := by
        rcases place with ⟨rfl, _⟩ | ⟨rfl, _⟩ <;> decide
      rcases tells.told with same | ⟨progress, mark, more⟩
      · rwa [same]
      · rw [more]
        exact .work phase progress _ mark busy chronicle

theorem unmarked_stroke (id : SequenceId) (c after : Course) (stroke : Stroke id c after)
    (unmarked : ∀ progress, .announce id progress ∈ c.jobs → progress.mark? = none) :
    ∀ progress, .announce id progress ∈ after.jobs → progress.mark? = none := by
  intro progress listed
  cases stroke with
  | begin s task rest held busy jobs =>
      rw [jobs] at unmarked
      simp only [List.mem_cons, Job.announce.injEq, true_and, reduceCtorEq, false_or] at listed
      rcases listed with rfl | later
      · rfl
      · exact unmarked progress (List.mem_cons_of_mem _ later)
  | apply action value more rest given jobs =>
      rw [jobs] at unmarked
      simp only [List.mem_cons, Job.announce.injEq, true_and, reduceCtorEq, false_or] at listed
      rcases listed with rfl | later
      · rfl
      · exact unmarked progress (List.mem_cons_of_mem _ later)
  | create | enqueue | pause | withdraw | resume | activate | deactivate | clear | complete
  | passed => exact unmarked progress listed
  | _ => exact unmarked progress (by simp_all)

theorem regular_works (id : SequenceId) (c after : Course) (stroke : Stroke id c after)
    (relists : Relists c after) (sound : c.Sound id) (regular : Regular id c) : Regular id after := by
  have unmarked := unmarked_stroke id c after stroke regular.unmarked
  have flies := fun job rest jobs => sound_flies id c job rest jobs sound
  cases stroke with
  | take s step held task =>
      rw [sound_held id c s held, task] at sound
      have flight := (station_fresh sound).1
      exact regular_tells_in_flight id c _ s _ ⟨held, flight, rfl, rfl, rfl, flight, rfl, .inl rfl⟩ regular unmarked
  | release s step held task =>
      rw [sound_held id c s held, task] at sound
      have flight := (station_waiting sound).1
      exact regular_tells_in_flight id c _ s _ ⟨held, flight, rfl, rfl, rfl, flight, rfl, .inl rfl⟩ regular unmarked
  | lost job rest jobs missing =>
      exact absurd missing (sound_unlost id c job rest jobs sound)
  | announce progress rest jobs =>
      obtain ⟨s, held, flight⟩ := flies _ _ jobs
      have mark := regular.unmarked progress (by simp [jobs])
      exact regular_tells_in_flight id c _ s s
        ⟨held, flight, held, rfl, rfl, flight, rfl, .inr ⟨progress, mark, rfl⟩⟩ regular unmarked
  | begin s task rest held busy jobs =>
      obtain ⟨_, same, flight⟩ := flies _ _ jobs
      cases held.symm.trans same
      exact regular_tells_in_flight id c _ s _ ⟨held, flight, rfl, rfl, rfl, flight, rfl, .inl rfl⟩ regular unmarked
  | written rest jobs =>
      obtain ⟨s, held, flight⟩ := flies _ _ jobs
      exact regular_tells_in_flight id c _ s s ⟨held, flight, held, rfl, rfl, flight, rfl, .inl rfl⟩ regular unmarked
  | placeholder action more rest bare jobs =>
      obtain ⟨s, held, flight⟩ := flies _ _ jobs
      exact regular_tells_in_flight id c _ s s ⟨held, flight, held, rfl, rfl, flight, rfl, .inl rfl⟩ regular unmarked
  | apply action value more rest given jobs =>
      obtain ⟨s, held, flight⟩ := flies _ _ jobs
      exact regular_tells_in_flight id c _ s s ⟨held, flight, held, rfl, rfl, flight, rfl, .inl rfl⟩ regular unmarked
  | skip action value more rest given jobs =>
      obtain ⟨s, held, flight⟩ := flies _ _ jobs
      exact regular_tells_in_flight id c _ s s
        ⟨held, flight, held, rfl, rfl, flight, rfl, .inr ⟨_, rfl, rfl⟩⟩ regular unmarked
  | engage s rest held active jobs =>
      obtain ⟨_, same, flight⟩ := flies _ _ jobs
      cases held.symm.trans same
      exact regular_tells_in_flight id c _ s s ⟨held, flight, held, rfl, rfl, flight, rfl, .inl rfl⟩ regular unmarked
  | refuse s rest held active jobs =>
      obtain ⟨_, same, flight⟩ := flies _ _ jobs
      cases held.symm.trans same
      obtain ⟨phase, stands, chronicle⟩ := regular.held s held
      obtain ⟨ended, _⟩ := in_phase_flies s _ phase stands flight
      have going := in_phase_going s _ phase stands active
      refine ⟨unmarked, fun absent => (by contradiction), fun other there => ?_⟩
      cases there
      refine ⟨.out, ?_, .cancel phase _ going chronicle⟩
      rw [ended]
      exact .out rfl (by simp [Sequence.stopped, Sequence.free])
  | await s step expression rest held active task jobs =>
      obtain ⟨_, same, flight⟩ := flies _ _ jobs
      cases held.symm.trans same
      exact regular_tells_in_flight id c _ s _
        ⟨held, flight, rfl, rfl, rfl, flight, rfl, .inr ⟨_, rfl, rfl⟩⟩ regular unmarked
  | awaited expression rest jobs =>
      obtain ⟨s, held, flight⟩ := flies _ _ jobs
      exact regular_tells_in_flight id c _ s s
        ⟨held, flight, held, rfl, rfl, flight, rfl, .inr ⟨_, rfl, rfl⟩⟩ regular unmarked
  | leave s job rest held jobs last =>
      obtain ⟨_, same, flight⟩ := flies _ _ jobs
      cases held.symm.trans same
      exact regular_tells_in_flight id c _ s s.free ⟨held, flight, rfl, rfl, rfl, flight, rfl, .inl rfl⟩
        regular unmarked
  | satisfied s expression rest held jobs =>
      obtain ⟨_, same, flight⟩ := flies _ _ jobs
      cases held.symm.trans same
      exact regular_tells_in_flight id c _ s s.free
        ⟨held, flight, rfl, rfl, rfl, flight, rfl, .inr ⟨_, rfl, rfl⟩⟩ regular unmarked
  | stop s rest held inactive jobs =>
      obtain ⟨_, same, flight⟩ := flies _ _ jobs
      cases held.symm.trans same
      obtain ⟨phase, stands, chronicle⟩ := regular.held s held
      obtain ⟨ended, rfl, state⟩ := in_phase_inactive s _ phase stands inactive
      refine ⟨unmarked, fun absent => (by contradiction), fun other there => ?_⟩
      cases there
      refine ⟨.out, ?_, chronicle⟩
      rw [ended]
      exact .out inactive state
  | drain s rest held active empty jobs =>
      obtain ⟨_, same, flight⟩ := flies _ _ jobs
      cases held.symm.trans same
      obtain ⟨phase, stands, chronicle⟩ := regular.held s held
      obtain ⟨ended, _⟩ := in_phase_flies s _ phase stands flight
      rw [ended] at stands
      refine ⟨unmarked, fun absent => (by contradiction), fun other there => ?_⟩
      cases there
      refine ⟨phase, ?_, chronicle⟩
      rw [ended]
      cases stands with
      | out inactive => exact absurd (active.symm.trans inactive) (by decide)
      | busy _ state _ => exact .ending active state rfl empty
      | resting _ _ _ free => exact absurd (flight.symm.trans free) (by decide)
  | halt s rest held active filled paused jobs =>
      obtain ⟨_, same, flight⟩ := flies _ _ jobs
      cases held.symm.trans same
      obtain ⟨phase, stands, chronicle⟩ := regular.held s held
      obtain ⟨ended, place⟩ := in_phase_flies s _ phase stands flight
      refine ⟨unmarked, fun absent => (by contradiction), fun other there => ?_⟩
      cases there
      rcases place with ⟨_, inactive⟩ | ⟨rfl, _⟩
      · exact absurd (active.symm.trans inactive) (by decide)
      · refine ⟨.resting, ?_, .pause _ chronicle⟩
        rw [ended]
        exact .resting active rfl paused rfl
  | step s step queue rest held active filled unpaused jobs =>
      obtain ⟨_, same, flight⟩ := flies _ _ jobs
      cases held.symm.trans same
      exact regular_tells_in_flight id c _ s _ ⟨held, flight, rfl, rfl, rfl, flight, rfl, .inl rfl⟩ regular unmarked
  | complete s endings held active pending =>
      obtain ⟨phase, stands, chronicle⟩ := regular.held s held
      rw [pending] at stands
      cases stands with
      | ending _ state free empty =>
          refine ⟨unmarked, fun absent => (by contradiction), fun other there => ?_⟩
          cases there
          exact ⟨.out, .out rfl (by simp), .complete _ chronicle⟩
  | passed endings pending inactive =>
      cases held : c.sequence with
      | none =>
          have ended := (regular.absent held).1
          rw [pending] at ended
          contradiction
      | some s =>
          obtain ⟨phase, stands, _⟩ := regular.held s held
          obtain ⟨ended, _⟩ := in_phase_inactive s _ phase stands (inactive s held)
          rw [pending] at ended
          contradiction
  | create | enqueue | pause | withdraw | deactivate | clear =>
      exact absurd relists (not_relists _ _ rfl (Nat.le_refl _))
  | resume | activate =>
      exact absurd relists (not_relists _ _ rfl (Nat.le_add_left _ _))

theorem regular_deals (id : SequenceId) (summons : Option Summons) (c after : Course)
    (deals : Deals id summons c after) (ended : summons ≠ none → c.endings = 0) (sound : c.Sound id)
    (regular : Regular id c) : Regular id after := by
  cases deals with
  | stays => exact regular
  | answers summons c after answers =>
      exact regular_answers id summons c after answers (ended (by simp)) regular
  | works c after stroke relists => exact regular_works id c after stroke relists sound regular

theorem stroke_completed (id : SequenceId) (c after : Course) (stroke : Stroke id c after)
    (s next : Sequence) (held : c.sequence = some s) (now : after.sequence = some next)
    (earlier : s.state ≠ .completed) (completed : next.state = .completed) :
    c.endings ≠ 0 ∧ s.active = true ∧ next.queue = s.queue := by
  cases stroke with
  | complete s' endings held' active pending =>
      cases held.symm.trans held'
      cases now
      exact ⟨by rw [pending]; exact Nat.succ_ne_zero _, active, rfl⟩
  | create name registry channel pollInterval queue absent =>
      rw [absent] at held
      contradiction
  | resume s' after endings told held' paused active reached proceeds =>
      cases now
      cases proceeds <;> contradiction
  | activate s' after endings told held' inactive proceeds =>
      cases now
      cases proceeds <;> contradiction
  | lost | announce | written | placeholder | apply | skip | engage | awaited | passed =>
      cases held.symm.trans now
      exact absurd completed earlier
  | deactivate | refuse | halt =>
      cases now
      contradiction
  | enqueue s' | pause s' | withdraw s' | clear s' | take s' | release s' | begin s' | await s'
  | leave s' | satisfied s' | stop s' | drain s' | step s' =>
      cases held.symm.trans (by assumption : c.sequence = some s')
      cases now
      exact absurd completed earlier

namespace Plant

def Rests (plant : Plant) (id : SequenceId) : Prop :=
  (plant.course id).jobs = [] ∧ (plant.course id).endings = 0

instance (plant : Plant) (id : SequenceId) : Decidable (plant.Rests id) :=
  decidable_of_iff ((plant.course id).jobs.isEmpty = true ∧ (plant.course id).endings = 0)
    (by rw [Rests, List.isEmpty_iff])

-- A move with which no handler calls back into what the sequence is doing.
structure Unbidden (id : SequenceId) (plant : Plant) (deed : Deed) (next : Plant) : Prop where
  move : Move plant deed next
  rests : plant.asks? id deed ≠ none → plant.Rests id

section

variable {start : Calendar.Instant} {hasRuntime : Bool} {plant : Plant} {id : SequenceId}

theorem unbidden_reached (run : Runs (Unbidden id) (blank start hasRuntime) plant) : plant.Reached := by
  refine ⟨start, hasRuntime, Relation.ReflTransGen.mono ?_ _ _ run⟩
  rintro plant next ⟨deed, unbidden⟩
  exact ⟨deed, unbidden.move⟩

theorem regular_unbidden (run : Runs (Unbidden id) (blank start hasRuntime) plant) :
    Regular id (plant.course id) := by
  induction run with
  | refl =>
      exact ⟨fun _ listed => absurd listed (by simp [course, blank]), fun _ => ⟨rfl, rfl⟩,
        fun _ held => absurd held (by simp [course, blank])⟩
  | tail earlier last ih =>
      obtain ⟨deed, unbidden⟩ := last
      exact regular_deals id _ _ _ (move_deals _ _ deed unbidden.move id)
        (fun asked => (unbidden.rests asked).2) (reached_sound _ (unbidden_reached earlier) id) ih

theorem regular_chronicle (regular : Regular id (plant.course id)) :
    ∃ phase, Chronicle phase (plant.course id).told := by
  cases held : (plant.course id).sequence with
  | none =>
      rw [(regular.absent held).2]
      exact ⟨.out, .blank⟩
  | some s =>
      obtain ⟨phase, _, chronicle⟩ := regular.held s held
      exact ⟨phase, chronicle⟩

theorem in_phase_state (s : Sequence) (phase : Phase) (stands : InPhase s 0 phase) :
    (s.active = true ↔ s.state = .running ∨ s.state = .paused) ∧
      (s.state = .paused → s.paused = true ∧ s.inFlight = false) ∧
      (s.state = .running → s.inFlight = true) := by
  cases stands with
  | out inactive state => simp [inactive, state.1, state.2]
  | busy active state flies => simp [active, state, flies]
  | resting active state paused free => simp [active, state, paused, free]

theorem completed_queue (regular : Regular id (plant.course id)) (deed : Deed) (next : Plant)
    (move : Move plant deed next) (s after : Sequence) (held : plant.sequences[id]? = some s)
    (now : next.sequences[id]? = some after) (earlier : s.state ≠ .completed)
    (completed : after.state = .completed) : s.queue = [] ∧ after.queue = [] := by
  obtain same | stroke := drift_move plant next deed move id
  · cases held.symm.trans ((congrArg Course.sequence same).symm.trans now)
    exact absurd completed earlier
  · obtain ⟨pending, active, queue⟩ := stroke_completed id _ _ stroke s after held now earlier completed
    obtain ⟨phase, stands, _⟩ := regular.held s held
    generalize (plant.course id).endings = endings at stands pending
    cases stands with
    | ending _ _ _ empty => exact ⟨empty, queue.trans empty⟩
    | out | busy | resting => exact absurd rfl pending

theorem sequence_lifecycle (run : Runs (Unbidden id) (blank start hasRuntime) plant) :
    (∃ rest, (plant.course id).told.reverse.filterMap Progress.mark? ++ rest ∈ lifecycle) ∧
      (∀ before between index source description after,
        (plant.course id).told.reverse =
          before ++ .paused :: between ++ .stepStarted index source description :: after →
        .resumed ∈ between ∨ .cancelled ∈ between) ∧
      (∀ s, plant.sequences[id]? = some s → plant.Rests id →
        (s.active = true ↔ s.state = .running ∨ s.state = .paused) ∧
        (s.state = .paused → s.paused = true ∧ s.inFlight = false) ∧
        (s.state = .running → s.inFlight = true)) ∧
      (∀ deed next s after, Unbidden id plant deed next → plant.sequences[id]? = some s →
        next.sequences[id]? = some after → s.state ≠ .completed → after.state = .completed →
        s.queue = [] ∧ after.queue = []) := by
  have regular := regular_unbidden run
  obtain ⟨phase, chronicle⟩ := regular_chronicle regular
  refine ⟨chronicle_extends phase _ chronicle, ?_, ?_, ?_⟩
  · intro before between index source description after order
    exact chronicle_step phase _ before between after index source description chronicle order
  · intro s held rests
    obtain ⟨phase, stands, _⟩ := regular.held s held
    rw [rests.2] at stands
    exact in_phase_state s phase stands
  · intro deed next s after unbidden held now earlier completed
    exact completed_queue regular deed next unbidden.move s after held now earlier completed

end

def unbids (id : SequenceId) (plant : Plant) (deed : Deed) (_ : Plant) : Bool :=
  (plant.asks? id deed).isNone || decide (plant.Rests id)

theorem unbids_sound (id : SequenceId) (plant : Plant) (deed : Deed) (next : Plant)
    (orderly : OrderlyMove plant deed next) (unbid : unbids id plant deed next = true) :
    Unbidden id plant deed next := by
  refine ⟨orderly.move, fun asked => ?_⟩
  cases summons : plant.asks? id deed with
  | none => exact absurd summons asked
  | some summons' =>
      rw [unbids, summons] at unbid
      exact of_decide_eq_true unbid

-- A pause is asked for during the first of two steps and reached behind it.
def pauseAsked : Plant :=
  (blank ⟨0, 0⟩ true).runAll
    [.sequence (.make "s" 100), .sequence (.step "p" "Bath.Pump=1" none ""),
      .sequence (.push "s" "p" 2), .sequence (.activate "s"), .sequence (.setPaused "s" true)]

def pausedMidway : Plant := settle 9 (pauseAsked.turn (.sequence 0)).retire

theorem paused_midway_lifecycle :
    Runs (Unbidden 0) (blank ⟨0, 0⟩ true) pausedMidway ∧
      (∃ rest, [.started, .paused] ++ rest ∈ lifecycle) ∧
      ∃ s, pausedMidway.sequences[0]? = some s ∧ s.state = .paused ∧ s.active = true ∧
        s.paused = true ∧ s.inFlight = false := by
  have asked : Runs (Unbidden 0) (blank ⟨0, 0⟩ true) pauseAsked :=
    run_all_runs (unbids 0) (unbids_sound 0) _ _ (by decide +kernel)
  have run : Runs (Unbidden 0) (blank ⟨0, 0⟩ true) pausedMidway :=
    asked.trans (turn_runs (unbids 0) (unbids_sound 0) 9 pauseAsked _ (by decide +kernel)
      (by decide +kernel) (by decide +kernel))
  obtain ⟨⟨rest, member⟩, _, states, _⟩ := sequence_lifecycle run
  have marks : (pausedMidway.course 0).told.reverse.filterMap Progress.mark? = [.started, .paused] := by
    decide +kernel
  have rests : pausedMidway.Rests 0 := by decide +kernel
  have there : (pausedMidway.sequences[0]?).map (fun s => s.state) = some .paused := by decide +kernel
  obtain ⟨s, held, state⟩ := Option.map_eq_some_iff.mp there
  obtain ⟨active, paused, _⟩ := states s held rests
  rw [marks] at member
  exact ⟨run, ⟨rest, member⟩, s, held, state, active.mpr (.inr state), paused state⟩

end Plant

end Interlock
