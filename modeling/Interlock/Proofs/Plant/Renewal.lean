import Interlock.Proofs.Plant.Accounting

/-!
The steps that are still to come. A stroke starts the next of them, and what is started and what is still
to come are the steps that a run began with and those that are pushed meanwhile.
-/

set_option autoImplicit false

namespace Interlock

open Interlock.Schedule

def Schedule.Progress.start? : Progress → Option (Nat × String × String)
  | .stepStarted index source description => some (index, source, description)
  | _ => none

def counted (first : Nat) : List Step → List (Nat × String × String)
  | [] => []
  | step :: rest => (first, step.source, step.description) :: counted (first + 1) rest

theorem counted_append (first : Nat) (steps more : List Step) :
    counted first (steps ++ more) = counted first steps ++ counted (first + steps.length) more := by
  induction steps generalizing first with
  | nil => rfl
  | cons step rest ih =>
      rw [List.cons_append, counted, ih, counted, List.cons_append, List.length_cons,
        Nat.add_right_comm, Nat.add_assoc]

namespace Course

-- The step in flight, if it has not begun.
def unbegun (c : Course) : List Step :=
  match c.jobs, c.task? with
  | [], some (.fresh step) => [step]
  | .begin _ :: _, some task => [task.step]
  | _, _ => []

-- The start of the step in flight, if it is just about to be told.
def announced (c : Course) : List (Nat × String × String) :=
  c.jobs.filterMap fun job => job.message?.bind Progress.start?

-- The starts that are still to come if nothing is pushed or dropped.
def coming (c : Course) : List (Nat × String × String) :=
  c.announced ++ counted (c.executed + 1) (c.unbegun ++ c.queue)

def starts (c after : Course) : List (Nat × String × String) :=
  (c.news after).reverse.filterMap Progress.start?

end Course

structure Goes (c after : Course) (pushed : List Step) (drops : Bool) (news : List Progress)
    (begun : List Step) : Prop where
  told : after.told = news ++ c.told
  starts : news.reverse.filterMap Progress.start? ++ after.announced =
    c.announced ++ counted (c.executed + 1) begun
  executed : after.executed = c.executed + begun.length
  goes : drops = false → begun ++ after.unbegun ++ after.queue = c.unbegun ++ c.queue ++ pushed
  ends : c.Stopped ∨ drops = true → after.Stopped ∧ begun ++ after.unbegun = c.unbegun

section

variable {id : SequenceId} {c after : Course}

theorem goes_silently (pushed : List Step) (drops : Bool) (news : List Progress)
    (told : after.told = news ++ c.told) (silent : ∀ progress ∈ news, progress.start? = none)
    (announced : after.announced = c.announced) (executed : after.executed = c.executed)
    (goes : drops = false → after.unbegun ++ after.queue = c.unbegun ++ c.queue ++ pushed)
    (ends : c.Stopped ∨ drops = true → after.Stopped ∧ after.unbegun = c.unbegun) :
    Goes c after pushed drops news [] := by
  have none_told : news.reverse.filterMap Progress.start? = [] := by
    rw [List.filterMap_eq_nil_iff]
    exact fun progress member => silent progress (List.mem_reverse.mp member)
  exact ⟨told, by rw [none_told, announced, counted]; simp, executed, goes, ends⟩

theorem goes_same (s next : Sequence) (held : c.sequence = some s) (now : after.sequence = some next)
    (jobs : after.jobs = c.jobs) (told : after.told = c.told) (task : next.task = s.task)
    (queue : next.queue = s.queue) (executed : next.executed = s.executed)
    (active : next.active = s.active) : Goes c after [] false [] [] := by
  have same : after.task? = c.task? := by rw [task_held after next now, task_held c s held, task]
  have unbegun : after.unbegun = c.unbegun := by rw [Course.unbegun, jobs, same, Course.unbegun]
  have announced : after.announced = c.announced := by rw [Course.announced, jobs, Course.announced]
  refine goes_silently [] false [] told (by simp) announced ?_ (fun _ => ?_) (fun stops => ⟨?_, unbegun⟩)
  · rw [executed_held after next now, executed_held c s held, executed]
  · rw [unbegun, queue_held after next now, queue_held c s held, queue, List.append_nil]
  · intro other there
    cases now.symm.trans there
    rcases stops with stopped | drops
    · rw [active]
      exact stopped s held
    · contradiction

theorem goes_proceeds (after : Course) (sound : c.Sound id) (s ready next : Sequence)
    (held : c.sequence = some s) (endings : Nat) (news : List Progress)
    (proceeds : Proceeds ready endings news next)
    (same : ready.queue = s.queue ∧ ready.task = s.task ∧ ready.inFlight = s.inFlight)
    (now : after.sequence = some next) (jobs : after.jobs = c.jobs) :
    after.unbegun ++ after.queue = c.unbegun ++ c.queue ∧ after.announced = c.announced ∧
      after.executed = ready.executed ∧ ∀ progress ∈ news, progress = .paused := by
  obtain ⟨queue, task, flight⟩ := same
  have announced : after.announced = c.announced := by rw [Course.announced, jobs, Course.announced]
  have keeps : next.queue = s.queue → next.task = s.task →
      after.unbegun ++ after.queue = c.unbegun ++ c.queue := by
    intro queue task
    have busy : after.task? = c.task? := by rw [task_held after next now, task_held c s held, task]
    rw [Course.unbegun, jobs, busy, queue_held after next now, queue_held c s held, queue, Course.unbegun]
  cases proceeds with
  | stays => exact ⟨keeps queue task, announced, by rw [executed_held after _ now], by simp⟩
  | pauses => exact ⟨keeps queue task, announced, by rw [executed_held after _ now], by simp⟩
  | ends => exact ⟨keeps queue task, announced, by rw [executed_held after _ now], by simp⟩
  | hands step rest active free unpaused filled =>
      have station := (sound_held id c s held).mp sound
      rw [← flight, free] at station
      obtain ⟨none_held, no_jobs⟩ := station_idle station
      refine ⟨?_, announced, by rw [executed_held after _ now], by simp⟩
      rw [Course.unbegun, jobs, no_jobs, task_held after _ now, queue_held after _ now, Course.unbegun,
        no_jobs, task_held c s held, none_held, queue_held c s held, ← queue, filled]
      rfl

theorem goes_answers (summons : Summons) (answers : Answers summons c after) (sound : c.Sound id)
    (still : c.Stopped → after.Stopped) :
    ∃ news begun, Goes c after summons.steps (summons.disposes || news.contains .cancelled) news begun := by
  cases answers with
  | create _ name registry channel pollInterval queue absent =>
      rw [sound_absent id c absent] at sound
      have empty : c.unbegun = [] ∧ c.queue = [] ∧ c.executed = 0 := by
        simp [Course.unbegun, Course.queue, Course.executed, Course.task?, sound, absent]
      obtain ⟨unbegun, unqueued, executed⟩ := empty
      refine ⟨[], [], goes_silently _ _ [] rfl (by simp) rfl ?_
        (fun _ => ?_) (fun _ => ?_)⟩
      · rw [executed]
        rfl
      · rw [unbegun, unqueued]
        simp [Course.unbegun, sound, Course.task?, Sequence.create, Course.queue, Summons.steps]
      · refine ⟨fun s there => ?_, ?_⟩
        · cases there
          rfl
        · rw [unbegun]
          simp [Course.unbegun, sound, Course.task?, Sequence.create]
  | push _ s steps held =>
      have same := goes_same s s held held rfl rfl rfl rfl rfl rfl
      have queue := queue_held c s held
      have unbegun : ({ c with sequence := some { s with queue := s.queue ++ steps } } : Course).unbegun =
          c.unbegun := by
        simp [Course.unbegun, Course.task?, held]
      refine ⟨[], [], goes_silently _ _ [] rfl (by simp) rfl
        (executed_held c s held).symm (fun _ => ?_) (fun stops => ⟨?_, unbegun⟩)⟩
      · rw [unbegun, queue, List.append_assoc]
        rfl
      · rintro other there
        cases there
        rcases stops with stopped | drops
        · exact stopped s held
        · contradiction
  | activate _ s next endings news held inactive proceeds =>
      have stopped : c.Stopped := by
        intro other there
        cases held.symm.trans there
        exact inactive
      have active := still stopped next rfl
      cases proceeds <;> contradiction
  | pause _ s held => exact ⟨[], [], goes_same s _ held rfl rfl rfl rfl rfl rfl rfl⟩
  | withdraw _ s held => exact ⟨[], [], goes_same s _ held rfl rfl rfl rfl rfl rfl rfl⟩
  | resume _ s next endings news held paused active reached proceeds =>
      obtain ⟨steps, announced, executed, pauses⟩ :=
        goes_proceeds
          { c with
            sequence := some next, endings := endings + c.endings, told := news ++ .resumed :: c.told }
          sound s _ next held endings news proceeds ⟨rfl, rfl, rfl⟩ rfl rfl
      have kept : Progress.cancelled ∉ news ++ [.resumed] := by
        intro member
        rcases List.mem_append.mp member with late | early
        · exact absurd (pauses _ late) (by simp)
        · simp at early
      refine ⟨news ++ [.resumed], [], goes_silently _ _ _ (by simp) ?_
        announced (executed.trans (executed_held c s held).symm) (fun _ => ?_) (fun stops => ?_)⟩
      · intro progress member
        rcases List.mem_append.mp member with late | early
        · rw [pauses progress late]
          rfl
        · rw [List.mem_singleton.mp early]
          rfl
      · rw [steps]
        simp [Summons.steps]
      · rcases stops with stopped | drops
        · exact absurd (active.symm.trans (stopped s held)) (by decide)
        · simp [Summons.disposes, kept] at drops
  | stop _ _ s stops held active =>
      have unbegun : ({ c with sequence := some s.stopped, told := .cancelled :: c.told } : Course).unbegun =
          c.unbegun := by
        simp [Course.unbegun, Course.task?, held, Sequence.stopped]
      refine ⟨[.cancelled], [], goes_silently _ _ _ rfl (by simp [Progress.start?]) rfl
        (executed_held c s held).symm (by simp) (fun _ => ⟨?_, unbegun⟩)⟩
      rintro other there
      cases there
      rfl
  | clear _ s held inactive =>
      have unbegun : ({ c with sequence := some { s with queue := [] } } : Course).unbegun = c.unbegun := by
        simp [Course.unbegun, Course.task?, held]
      refine ⟨[], [], goes_silently _ _ _ rfl (by simp) rfl (executed_held c s held).symm
        (by simp [Summons.disposes]) (fun _ => ⟨?_, unbegun⟩)⟩
      rintro other there
      cases there
      exact inactive
  | vain _ _ idle =>
      have steps : summons.steps = [] := by rcases idle with rfl | rfl | rfl <;> rfl
      have keeps : summons.disposes = false := by rcases idle with rfl | rfl | rfl <;> rfl
      refine ⟨[], [], goes_silently _ _ [] rfl (by simp) rfl rfl (fun _ => ?_)
        (fun stops => ?_)⟩
      · rw [steps, List.append_nil]
      · rcases stops with stopped | drops
        · exact ⟨stopped, rfl⟩
        · rw [keeps] at drops
          contradiction

theorem goes_on (news : List Progress) (told : after.told = news ++ c.told)
    (silent : ∀ progress ∈ news, progress.start? = none ∧ progress ≠ .cancelled)
    (announced : after.announced = c.announced) (executed : after.executed = c.executed)
    (queue : after.queue = c.queue) (unbegun : after.unbegun = c.unbegun)
    (still : c.Stopped → after.Stopped) :
    ∃ news begun, Goes c after [] (news.contains .cancelled) news begun := by
  have kept : news.contains .cancelled = false := by
    simpa using fun member => (silent _ member).2 rfl
  refine ⟨news, [], goes_silently [] _ news told (fun progress member => (silent _ member).1)
    announced executed (fun _ => ?_) (fun stops => ?_)⟩
  · rw [unbegun, queue, List.append_nil]
  · rcases stops with stopped | drops
    · exact ⟨still stopped, unbegun⟩
    · rw [kept] at drops
      contradiction

theorem goes_works (stroke : Stroke id c after) (relists : Relists c after) (sound : c.Sound id)
    (unmarked : ∀ progress, .announce id progress ∈ c.jobs → progress.mark? = none)
    (still : c.Stopped → after.Stopped) :
    ∃ news begun, Goes c after [] (news.contains .cancelled) news begun := by
  have executed := fun s held => (executed_held c s held).symm
  have queue := fun s held => (queue_held c s held).symm
  cases stroke with
  | take s step held task =>
      rw [sound_held id c s held, task] at sound
      have jobs := (station_fresh sound).2
      have busy : c.task? = some (.fresh step) := (task_held c s held).trans task
      refine goes_on [] rfl (by simp) ?_ (executed s held) (queue s held) ?_ still
      · simp [Course.announced, Job.message?]
      · rw [Course.unbegun, Course.unbegun, jobs, busy]
        rfl
  | release s step held task =>
      rw [sound_held id c s held, task] at sound
      have jobs := (station_waiting sound).2
      have busy : c.task? = some (.waiting step) := (task_held c s held).trans task
      refine goes_on [] rfl (by simp) ?_ (executed s held) (queue s held) ?_ still
      · simp [Course.announced, Job.message?]
      · rw [Course.unbegun, Course.unbegun, jobs, busy]
  | lost job rest jobs missing =>
      exact absurd missing (sound_unlost id c job rest jobs sound)
  | announce progress rest jobs =>
      obtain ⟨_, _, actions, _, _, _, rfl⟩ := sound_announce id c progress rest jobs sound
      have mark := unmarked progress (by simp [jobs])
      have kept : [progress].contains .cancelled = false := by
        rw [List.contains_cons, Bool.or_eq_false_iff]
        refine ⟨?_, rfl⟩
        rw [beq_eq_false_iff_ne]
        rintro rfl
        contradiction
      have unbegun : ({ c with jobs := [.act id actions], told := progress :: c.told } : Course).unbegun =
          c.unbegun := by
        rw [Course.unbegun, Course.unbegun, jobs]
      refine ⟨[progress], [], rfl, ?_, rfl, fun _ => ?_, fun stops => ⟨?_, unbegun⟩⟩
      · cases start : progress.start? <;>
          simp [Course.announced, jobs, Job.message?, start, counted]
      · rw [unbegun]
        simp [Course.queue]
      · rcases stops with stopped | drops
        · exact still stopped
        · rw [kept] at drops
          contradiction
  | begin s task rest held busy jobs =>
      obtain ⟨_, _, _, _, _, rfl⟩ := sound_work id c _ rest rfl jobs sound
      have running : c.task? = some task := (task_held c s held).trans busy
      have unbegun : c.unbegun = [task.step] := by rw [Course.unbegun, jobs, running]
      refine ⟨[], [task.step], rfl, ?_, ?_, fun _ => ?_, fun stops => ⟨?_, unbegun.symm⟩⟩
      · simp [Course.announced, jobs, Job.message?, Progress.start?, counted,
          executed_held c s held]
      · rw [executed_held c s held]
        rfl
      · rw [unbegun, queue_held c s held, List.append_nil]
        rfl
      · rcases stops with stopped | drops
        · exact still stopped
        · contradiction
  | written rest jobs =>
      obtain ⟨_, _, _, _, _, rfl⟩ := sound_work id c _ rest rfl jobs sound
      refine goes_on [] rfl (by simp) ?_ rfl rfl ?_ still
      · simp [Course.announced, jobs, Job.message?]
      · rw [Course.unbegun, Course.unbegun, jobs]
  | placeholder action more rest bare jobs =>
      obtain ⟨_, _, _, _, _, rfl⟩ := sound_work id c _ rest rfl jobs sound
      refine goes_on [] rfl (by simp) ?_ rfl rfl ?_ still
      · simp [Course.announced, jobs, Job.message?]
      · rw [Course.unbegun, Course.unbegun, jobs]
  | apply action value more rest given jobs =>
      obtain ⟨_, _, _, _, _, rfl⟩ := sound_work id c _ rest rfl jobs sound
      refine goes_on [] rfl (by simp) ?_ rfl rfl ?_ still
      · simp [Course.announced, jobs, Job.message?, Progress.start?]
      · rw [Course.unbegun, Course.unbegun, jobs]
  | skip action value more rest given jobs =>
      obtain ⟨_, _, _, _, _, rfl⟩ := sound_work id c _ rest rfl jobs sound
      refine goes_on [.actionSkipped action.path] rfl (by simp [Progress.start?]) ?_ rfl rfl ?_ still
      · simp [Course.announced, jobs, Job.message?]
      · rw [Course.unbegun, Course.unbegun, jobs]
  | engage s rest held active jobs =>
      obtain ⟨_, _, _, _, _, rfl⟩ := sound_work id c _ rest rfl jobs sound
      refine goes_on [] rfl (by simp) ?_ rfl rfl ?_ still
      · simp [Course.announced, jobs, Job.message?]
      · rw [Course.unbegun, Course.unbegun, jobs]
  | refuse s rest held active jobs =>
      obtain ⟨_, _, _, _, _, rfl⟩ := sound_work id c _ rest rfl jobs sound
      refine ⟨[.cancelled], [], goes_silently [] _ _ rfl (by simp [Progress.start?]) ?_
        (executed s held) (by simp) (fun _ => ⟨?_, ?_⟩)⟩
      · simp [Course.announced, jobs, Job.message?]
      · rintro other there
        cases there
        rfl
      · rw [Course.unbegun, Course.unbegun, jobs]
  | await s step expression rest held active task jobs =>
      obtain ⟨_, _, _, _, _, rfl⟩ := sound_work id c _ rest rfl jobs sound
      refine goes_on [.waitingOnTrigger expression] rfl (by simp [Progress.start?]) ?_ (executed s held)
        (queue s held) ?_ still
      · simp [Course.announced, jobs, Job.message?]
      · rw [Course.unbegun, Course.unbegun, jobs]
        rfl
  | awaited expression rest jobs =>
      obtain ⟨_, _, _, _, _, rfl⟩ := sound_work id c _ rest rfl jobs sound
      refine goes_on [.waitingOnTrigger expression] rfl (by simp [Progress.start?]) ?_ rfl rfl ?_ still
      · simp [Course.announced, jobs, Job.message?]
      · rw [Course.unbegun, Course.unbegun, jobs]
  | leave s job rest held jobs last =>
      have work : job.isWork = true := by obtain rfl | rfl | rfl := last <;> rfl
      obtain ⟨_, _, _, _, _, rfl⟩ := sound_work id c _ rest work jobs sound
      refine goes_on [] rfl (by simp) ?_ (executed s held) (queue s held) ?_ still
      · obtain rfl | rfl | rfl := last <;>
          simp [Course.announced, jobs, Job.message?]
      · rw [Course.unbegun, Course.unbegun, jobs]
        obtain rfl | rfl | rfl := last <;> rfl
  | satisfied s expression rest held jobs =>
      obtain ⟨_, _, _, _, _, rfl⟩ := sound_work id c _ rest rfl jobs sound
      refine goes_on [.triggerSatisfied expression] rfl (by simp [Progress.start?]) ?_ (executed s held)
        (queue s held) ?_ still
      · simp [Course.announced, jobs, Job.message?]
      · rw [Course.unbegun, Course.unbegun, jobs]
  | stop s rest held inactive jobs =>
      obtain ⟨_, rfl, task⟩ := sound_next id c s rest held jobs sound
      refine goes_on [] rfl (by simp) ?_ (executed s held) (queue s held) ?_ still
      · simp [Course.announced, jobs, Job.message?]
      · rw [Course.unbegun, Course.unbegun, jobs, task_held c s held, task, Course.task?]
        simp
  | drain s rest held active empty jobs =>
      obtain ⟨_, rfl, task⟩ := sound_next id c s rest held jobs sound
      refine goes_on [] rfl (by simp) ?_ (executed s held) (queue s held) ?_ still
      · simp [Course.announced, jobs, Job.message?]
      · rw [Course.unbegun, Course.unbegun, jobs, task_held c s held, task, Course.task?]
        simp
  | halt s rest held active filled paused jobs =>
      obtain ⟨_, rfl, task⟩ := sound_next id c s rest held jobs sound
      refine goes_on [.paused] rfl (by simp [Progress.start?]) ?_ (executed s held) (queue s held) ?_ still
      · simp [Course.announced, jobs, Job.message?]
      · rw [Course.unbegun, Course.unbegun, jobs, task_held c s held, task, Course.task?]
        simp
  | step s step queue rest held active filled unpaused jobs =>
      obtain ⟨_, rfl, task⟩ := sound_next id c s rest held jobs sound
      have unbegun : c.unbegun = [] := by rw [Course.unbegun, jobs]
      refine ⟨[], [], goes_silently [] _ [] rfl (by simp) ?_ (executed s held) (fun _ => ?_)
        (fun stops => ?_)⟩
      · simp [Course.announced, jobs, Job.message?]
      · rw [unbegun, queue_held c s held, filled, List.append_nil]
        rfl
      · rcases stops with stopped | drops
        · exact absurd (active.symm.trans (stopped s held)) (by decide)
        · contradiction
  | complete s endings held active pending =>
      refine goes_on [.completed] rfl (by simp [Progress.start?]) rfl (executed s held)
        (queue s held) ?_ still
      rw [Course.unbegun, Course.unbegun, task_held c s held]
      rfl
  | passed endings pending inactive => exact goes_on [] rfl (by simp) rfl rfl rfl rfl still
  | create | enqueue | pause | withdraw | deactivate | clear =>
      exact absurd relists (not_relists _ _ rfl (Nat.le_refl _))
  | resume | activate =>
      exact absurd relists (not_relists _ _ rfl (Nat.le_add_left _ _))

theorem goes_deals (summons : Option Summons) (deals : Deals id summons c after) (sound : c.Sound id)
    (unmarked : ∀ progress, .announce id progress ∈ c.jobs → progress.mark? = none)
    (still : c.Stopped → after.Stopped) :
    ∃ news begun, Goes c after ((summons.map Summons.steps).getD [])
      (summons.any Summons.disposes || news.contains .cancelled) news begun := by
  cases deals with
  | stays => exact goes_on [] rfl (by simp) rfl rfl rfl rfl still
  | answers summons _ _ answers => exact goes_answers summons answers sound still
  | works _ _ stroke relists => exact goes_works stroke relists sound unmarked still

def refilled (summons : Option Summons) (pushed : List Step) : List Step :=
  if summons.any Summons.disposes then [] else pushed ++ (summons.map Summons.steps).getD []

def Course.Refilled (c : Course) (pushed : List Step) : Prop :=
  ∃ s, c.sequence = some s ∧ s.active = false ∧ s.paused = false ∧ s.queue = pushed

theorem refilled_answers (summons : Summons) (answers : Answers summons c after) (pushed : List Step)
    (stopped : after.Stopped) (unpaused : summons ≠ .pause) (waits : c.Refilled pushed) :
    after.Refilled (refilled (some summons) pushed) := by
  obtain ⟨s, held, inactive, clear, queue⟩ := waits
  cases answers with
  | create _ _ _ _ _ _ absent =>
      rw [held] at absent
      contradiction
  | push _ s' steps held' =>
      cases held.symm.trans held'
      exact ⟨_, rfl, inactive, clear, by rw [queue]; rfl⟩
  | activate _ s' next endings news held' idle proceeds =>
      have active := stopped next rfl
      cases proceeds <;> contradiction
  | pause => exact absurd rfl unpaused
  | withdraw _ s' held' =>
      cases held.symm.trans held'
      exact ⟨_, rfl, inactive, rfl, by simp [refilled, Summons.disposes, Summons.steps, queue]⟩
  | resume _ s' next endings news held' paused active =>
      cases held.symm.trans held'
      rw [inactive] at active
      contradiction
  | stop _ _ s' stops held' active =>
      cases held.symm.trans held'
      rw [inactive] at active
      contradiction
  | clear _ s' held' =>
      cases held.symm.trans held'
      exact ⟨_, rfl, inactive, clear, rfl⟩
  | vain _ _ idle =>
      refine ⟨s, held, inactive, clear, ?_⟩
      rcases idle with rfl | rfl | rfl <;> simp [refilled, Summons.disposes, Summons.steps, queue]

theorem refilled_works (stroke : Stroke id c after) (relists : Relists c after)
    (pushed : List Step) (waits : c.Refilled pushed) : after.Refilled pushed := by
  obtain ⟨s, held, inactive, clear, queue⟩ := waits
  cases stroke with
  | take s' | release s' | begin s' | leave s' | satisfied s' | stop s' =>
      cases held.symm.trans (by assumption : c.sequence = some s')
      exact ⟨_, rfl, inactive, clear, queue⟩
  | lost | announce | written | placeholder | apply | skip | awaited | passed =>
      exact ⟨s, held, inactive, clear, queue⟩
  | engage s' | refuse s' | await s' | drain s' | halt s' | step s' | complete s' =>
      cases held.symm.trans (by assumption : c.sequence = some s')
      rw [inactive] at *
      contradiction
  | create | enqueue | pause | withdraw | deactivate | clear =>
      exact absurd relists (not_relists _ _ rfl (Nat.le_refl _))
  | resume | activate =>
      exact absurd relists (not_relists _ _ rfl (Nat.le_add_left _ _))

theorem refilled_deals (summons : Option Summons) (deals : Deals id summons c after)
    (pushed : List Step) (stopped : after.Stopped) (unpaused : summons ≠ some .pause)
    (waits : c.Refilled pushed) : after.Refilled (refilled summons pushed) := by
  cases deals with
  | stays => simpa [refilled] using waits
  | answers summons _ _ answers =>
      exact refilled_answers summons answers pushed stopped (fun same => unpaused (by rw [same])) waits
  | works _ _ stroke relists => simpa [refilled] using refilled_works stroke relists pushed waits

theorem ended_refilled (stroke : Stroke id c after) (active : ¬ c.Stopped) (stopped : after.Stopped)
    (clear : ∀ s, after.sequence = some s → s.state = .completed → s.paused = false ∧ s.queue = []) :
    after.Refilled [] := by
  have kept : ∀ s next, c.sequence = some s → after.sequence = some next → next.active = s.active →
      after.Refilled [] := by
    intro s next held now same
    refine absurd (fun other there => ?_) active
    cases held.symm.trans there
    exact same.symm.trans (stopped next now)
  cases stroke with
  | deactivate s held => exact ⟨_, rfl, rfl, rfl, rfl⟩
  | refuse s rest held => exact ⟨_, rfl, rfl, rfl, rfl⟩
  | complete s endings held =>
      obtain ⟨unpaused, empty⟩ := clear _ rfl rfl
      exact ⟨_, rfl, rfl, unpaused, empty⟩
  | create name registry channel pollInterval queue absent =>
      refine absurd (fun other there => ?_) active
      rw [absent] at there
      contradiction
  | enqueue s | pause s | withdraw s | clear s | take s | release s | begin s | await s | leave s
  | satisfied s | stop s | drain s | halt s | step s =>
      exact kept s _ (by assumption) rfl rfl
  | lost | announce | written | placeholder | apply | skip | engage | awaited | passed =>
      exact absurd stopped active
  | resume s next endings told held paused active reached proceeds =>
      have inactive := stopped next rfl
      cases proceeds <;> exact absurd (active.symm.trans inactive) (by decide)
  | activate s next endings told held inactive proceeds =>
      have inactive := stopped next rfl
      cases proceeds <;> contradiction

theorem activation_begins (answers : Answers .activate c after) (begins : ¬ after.Stopped)
    (sound : c.Sound id) (pushed : List Step) (waits : c.Refilled pushed) :
    ∃ s next, c.sequence = some s ∧ after.sequence = some next ∧ next.state = .running ∧
      after.unbegun ++ after.queue = c.unbegun ++ pushed ∧ after.announced = c.announced ∧
      after.executed = 0 ∧
      (s.inFlight = false → ∀ first rest, pushed = first :: rest →
        next.task = some (.fresh first) ∧ next.queue = rest) := by
  obtain ⟨s, held, inactive, unpaused, queue⟩ := waits
  cases answers with
  | activate _ s' next endings news held' idle proceeds =>
      cases held.symm.trans held'
      obtain ⟨steps, announced, executed, _⟩ :=
        goes_proceeds
          { c with
            sequence := some next, endings := endings + c.endings,
            told := news ++ .started s.name :: c.told }
          sound s _ next held endings news proceeds ⟨rfl, rfl, rfl⟩ rfl rfl
      rw [queue_held c s held, queue] at steps
      refine ⟨s, next, held, rfl, ?_, steps, announced, executed, fun free first rest filled => ?_⟩
      · cases proceeds with
        | pauses _ _ paused => exact absurd (unpaused.symm.trans paused) (by decide)
        | stays | ends | hands => rfl
      · rw [filled] at queue
        cases proceeds with
        | stays held => simp [free] at held
        | pauses _ _ paused => exact absurd (unpaused.symm.trans paused) (by decide)
        | ends _ _ _ empty => exact absurd (queue.symm.trans empty) (by simp)
        | hands step more _ _ _ same =>
            cases queue.symm.trans same
            exact ⟨rfl, rfl⟩
  | stop _ _ _ stops => simp at stops
  | vain =>
      refine absurd (fun other there => ?_) begins
      cases held.symm.trans there
      exact inactive

structure Pursued (c after : Course) (steps : List Step) (kept : Bool) (done : List Step) : Prop where
  told : ∃ news, after.told = news ++ c.told ∧
    news.reverse.filterMap Progress.start? ++ after.announced = c.announced ++ counted 1 done
  executed : after.executed = done.length
  started : done ++ after.unbegun <+: steps
  whole : kept = true → done ++ after.unbegun ++ after.queue = steps
  lost : kept = false → after.Stopped

theorem pursued_starts (steps done : List Step) (kept : Bool) (pursued : Pursued c after steps kept done) :
    c.starts after <+: c.announced ++ counted 1 steps ∧
      (kept = true → c.starts after ++ after.coming = c.announced ++ counted 1 steps) := by
  obtain ⟨news, told, starts⟩ := pursued.told
  rw [Course.starts, news_told c after news told]
  constructor
  · obtain ⟨rest, whole⟩ := (List.prefix_append done after.unbegun).trans pursued.started
    calc news.reverse.filterMap Progress.start?
        <+: c.announced ++ counted 1 done := ⟨after.announced, starts⟩
      _ <+: c.announced ++ counted 1 steps := by
        rw [← whole, counted_append]
        exact List.prefix_append_right_inj _ |>.mpr (List.prefix_append _ _)
  · intro all
    rw [Course.coming, ← List.append_assoc, starts, pursued.executed, ← pursued.whole all,
      List.append_assoc, List.append_assoc, counted_append 1 done, Nat.add_comm 1 done.length]

theorem pursued_goes (next : Course) (steps pushed done begun : List Step) (kept drops : Bool)
    (news : List Progress) (pursued : Pursued c after steps kept done)
    (goes : Goes after next pushed drops news begun) :
    Pursued c next (steps ++ pushed) (kept && !drops) (done ++ begun) := by
  obtain ⟨before, told, starts⟩ := pursued.told
  have loose : kept = false ∨ drops = true → next.Stopped ∧ done ++ begun ++ next.unbegun <+: steps := by
    intro ended
    have stops : after.Stopped ∨ drops = true := ended.imp pursued.lost id
    obtain ⟨stopped, unbegun⟩ := goes.ends stops
    refine ⟨stopped, ?_⟩
    rw [List.append_assoc, unbegun]
    exact pursued.started
  have tight : kept = true → drops = false →
      done ++ begun ++ next.unbegun ++ next.queue = steps ++ pushed := by
    intro whole going
    rw [← pursued.whole whole, List.append_assoc done begun, List.append_assoc done, goes.goes going]
    simp [List.append_assoc]
  refine ⟨⟨news ++ before, ?_, ?_⟩, ?_, ?_, ?_, ?_⟩
  · rw [goes.told, told, List.append_assoc]
  · rw [List.reverse_append, List.filterMap_append, List.append_assoc, goes.starts, ← List.append_assoc,
      starts, List.append_assoc, pursued.executed, counted_append, Nat.add_comm done.length]
  · rw [goes.executed, pursued.executed, List.length_append]
  · by_cases going : kept = true ∧ drops = false
    · rw [← tight going.1 going.2]
      exact List.prefix_append _ _
    · have ended : kept = false ∨ drops = true := by
        cases kept <;> cases drops <;> simp at going ⊢
      exact (loose ended).2.trans (List.prefix_append _ _)
  · intro both
    simp only [Bool.and_eq_true, Bool.not_eq_true'] at both
    exact tight both.1 both.2
  · intro either
    have ended : kept = false ∨ drops = true := by
      cases kept <;> cases drops <;> simp at either ⊢
    exact (loose ended).1

end

end Interlock
