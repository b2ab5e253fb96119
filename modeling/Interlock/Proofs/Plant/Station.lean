import Interlock.Proofs.Plant.Drift

/-!
Where a sequence stands. At most one part of one step is to be done at a time, and the task holds the
step that it belongs to.
-/

set_option autoImplicit false

namespace Interlock

open Interlock.Schedule

-- The task, whether a step is in flight, and the jobs of the sequence.
inductive Station (id : SequenceId) : Option Task → Bool → List Job → Prop where
  | idle : Station id none false []
  | fresh (step : Step) : Station id (some (.fresh step)) true []
  | begun (step : Step) : Station id (some (.busy step)) true [.begin id]
  | telling (step : Step) (progress : Progress) (actions : List Action) :
      Station id (some (.busy step)) true [.announce id progress, .act id actions]
  | acting (step : Step) (actions : List Action) :
      Station id (some (.busy step)) true [.act id actions]
  | arming (step : Step) : Station id (some (.busy step)) true [.arm id]
  | engaged (step : Step) : Station id (some (.busy step)) true [.wait id]
  | waiting (step : Step) : Station id (some (.waiting step)) true []
  | leaving (step : Step) : Station id (some (.busy step)) true [.disarm id]
  | between : Station id none true [.next id]

def Course.Sound (id : SequenceId) (c : Course) : Prop :=
  match c.sequence with
  | none => c.jobs = []
  | some s => Station id s.task s.inFlight c.jobs

def Course.Stopped (c : Course) : Prop := ∀ s ∈ c.sequence, s.active = false

def Job.message? : Job → Option Progress
  | .announce _ progress => some progress
  | _ => none

-- What was told and what is just about to be told, the oldest first. A write is voiced from the
-- moment that it is made, the start of a step from the moment that its text is published.
def Course.voiced (c : Course) : List Progress := c.told.reverse ++ c.jobs.filterMap Job.message?

def Job.isWork : Job → Bool
  | .begin _ | .act _ _ | .arm _ | .wait _ | .disarm _ => true
  | _ => false

theorem sound_absent (id : SequenceId) (c : Course) (absent : c.sequence = none) :
    c.Sound id ↔ c.jobs = [] := by
  rw [Course.Sound, absent]

theorem sound_held (id : SequenceId) (c : Course) (s : Sequence) (held : c.sequence = some s) :
    c.Sound id ↔ Station id s.task s.inFlight c.jobs := by
  rw [Course.Sound, held]

section

variable {id : SequenceId} {task : Option Task} {flight : Bool} {rest : List Job}

theorem station_idle {jobs : List Job} (station : Station id task false jobs) :
    task = none ∧ jobs = [] := by
  cases station
  exact ⟨rfl, rfl⟩

theorem station_fresh {step : Step} {jobs : List Job}
    (station : Station id (some (.fresh step)) flight jobs) : flight = true ∧ jobs = [] := by
  cases station
  exact ⟨rfl, rfl⟩

theorem station_waiting {step : Step} {jobs : List Job}
    (station : Station id (some (.waiting step)) flight jobs) : flight = true ∧ jobs = [] := by
  cases station
  exact ⟨rfl, rfl⟩

theorem station_announce {other : SequenceId} {progress : Progress}
    (station : Station id task flight (.announce other progress :: rest)) :
    flight = true ∧ ∃ step actions, task = some (.busy step) ∧ rest = [.act id actions] := by
  cases station with
  | telling step progress actions => exact ⟨rfl, step, actions, rfl, rfl⟩

theorem station_work {job : Job} (work : job.isWork = true)
    (station : Station id task flight (job :: rest)) :
    flight = true ∧ rest = [] ∧ ∃ step, task = some (.busy step) := by
  cases station with
  | telling => contradiction
  | between => contradiction
  | begun step => exact ⟨rfl, rfl, step, rfl⟩
  | acting step => exact ⟨rfl, rfl, step, rfl⟩
  | arming step => exact ⟨rfl, rfl, step, rfl⟩
  | engaged step => exact ⟨rfl, rfl, step, rfl⟩
  | leaving step => exact ⟨rfl, rfl, step, rfl⟩

theorem station_next {other : SequenceId} (station : Station id task flight (.next other :: rest)) :
    flight = true ∧ rest = [] ∧ task = none := by
  cases station
  exact ⟨rfl, rfl, rfl⟩

end

theorem sound_station (id : SequenceId) (c : Course) (s : Sequence) (task : Option Task)
    (flight : Bool) (held : c.sequence = some s) (same : s.task = task) (flies : s.inFlight = flight)
    (station : Station id task flight c.jobs) : c.Sound id := by
  rw [sound_held id c s held, same, flies]
  exact station

theorem sound_flies (id : SequenceId) (c : Course) (job : Job) (rest : List Job)
    (jobs : c.jobs = job :: rest) (sound : c.Sound id) :
    ∃ s, c.sequence = some s ∧ s.inFlight = true := by
  cases held : c.sequence with
  | none =>
      rw [sound_absent id c held, jobs] at sound
      contradiction
  | some s =>
      rw [sound_held id c s held, jobs] at sound
      refine ⟨s, rfl, ?_⟩
      generalize s.task = task at sound
      generalize s.inFlight = flight at sound
      cases sound <;> rfl

theorem sound_work (id : SequenceId) (c : Course) (job : Job) (rest : List Job)
    (work : job.isWork = true) (jobs : c.jobs = job :: rest) (sound : c.Sound id) :
    ∃ s step, c.sequence = some s ∧ s.inFlight = true ∧ s.task = some (.busy step) ∧ rest = [] := by
  obtain ⟨s, held, _⟩ := sound_flies id c job rest jobs sound
  rw [sound_held id c s held, jobs] at sound
  obtain ⟨flight, empty, step, busy⟩ := station_work work sound
  exact ⟨s, step, held, flight, busy, empty⟩

theorem sound_announce (id : SequenceId) (c : Course) (progress : Progress) (rest : List Job)
    (jobs : c.jobs = .announce id progress :: rest) (sound : c.Sound id) :
    ∃ s step actions, c.sequence = some s ∧ s.inFlight = true ∧ s.task = some (.busy step) ∧
      rest = [.act id actions] := by
  obtain ⟨s, held, _⟩ := sound_flies id c _ rest jobs sound
  rw [sound_held id c s held, jobs] at sound
  obtain ⟨flight, step, actions, busy, empty⟩ := station_announce sound
  exact ⟨s, step, actions, held, flight, busy, empty⟩

theorem sound_unlost (id : SequenceId) (c : Course) (job : Job) (rest : List Job)
    (jobs : c.jobs = job :: rest) (sound : c.Sound id) :
    ¬ (c.sequence = none ∨ job = .begin id ∧ ∀ s, c.sequence = some s → s.task = none) := by
  rintro (absent | ⟨rfl, unheld⟩)
  · rw [sound_absent id c absent, jobs] at sound
    contradiction
  · obtain ⟨s, step, held, _, busy, _⟩ := sound_work id c _ rest rfl jobs sound
    rw [unheld s held] at busy
    contradiction

theorem sound_next (id : SequenceId) (c : Course) (s : Sequence) (rest : List Job)
    (held : c.sequence = some s) (jobs : c.jobs = .next id :: rest) (sound : c.Sound id) :
    s.inFlight = true ∧ rest = [] ∧ s.task = none := by
  rw [sound_held id c s held, jobs] at sound
  exact station_next sound

theorem sound_proceeds (id : SequenceId) (s after : Sequence) (endings : Nat) (told : List Progress)
    (jobs : List Job) (proceeds : Proceeds s endings told after)
    (station : Station id s.task s.inFlight jobs) : Station id after.task after.inFlight jobs := by
  cases proceeds with
  | stays => exact station
  | pauses => exact station
  | ends => exact station
  | hands step rest active free unpaused queue =>
      rw [free] at station
      obtain ⟨_, rfl⟩ := station_idle station
      exact .fresh step

theorem sound_stroke (id : SequenceId) (c after : Course) (stroke : Stroke id c after)
    (sound : c.Sound id) : after.Sound id := by
  cases stroke with
  | create name registry channel pollInterval queue absent =>
      rw [sound_absent id c absent] at sound
      exact sound_station id _ _ _ _ rfl rfl rfl (sound ▸ .idle)
  | enqueue s step count held => exact (sound_held id c s held).mp sound
  | pause s held => exact (sound_held id c s held).mp sound
  | withdraw s held _ _ => exact (sound_held id c s held).mp sound
  | resume s next endings told held _ _ _ proceeds =>
      exact sound_proceeds id _ next endings told c.jobs proceeds ((sound_held id c s held).mp sound)
  | activate s next endings told held _ proceeds =>
      exact sound_proceeds id _ next endings told c.jobs proceeds ((sound_held id c s held).mp sound)
  | deactivate s held _ => exact (sound_held id c s held).mp sound
  | clear s held _ => exact (sound_held id c s held).mp sound
  | take s step held task =>
      rw [sound_held id c s held, task] at sound
      obtain ⟨flight, jobs⟩ := station_fresh sound
      exact sound_station id _ _ _ _ rfl rfl flight (jobs ▸ .begun step)
  | release s step held task =>
      rw [sound_held id c s held, task] at sound
      obtain ⟨flight, jobs⟩ := station_waiting sound
      exact sound_station id _ _ _ _ rfl rfl flight (jobs ▸ .leaving step)
  | lost job rest jobs missing =>
      exact absurd missing (sound_unlost id c job rest jobs sound)
  | announce progress rest jobs =>
      obtain ⟨s, step, actions, held, flight, busy, rfl⟩ := sound_announce id c progress rest jobs sound
      exact sound_station id _ s _ _ held busy flight (.acting step actions)
  | begin s task rest held busy jobs =>
      obtain ⟨s', step, held', flight, busy', empty⟩ := sound_work id c _ rest rfl jobs sound
      cases held.symm.trans held'
      cases busy.symm.trans busy'
      subst empty
      exact sound_station id _ _ _ _ rfl busy' flight (.telling step _ _)
  | written rest jobs =>
      obtain ⟨s, step, held, flight, busy, empty⟩ := sound_work id c _ rest rfl jobs sound
      subst empty
      exact sound_station id _ s _ _ held busy flight (.arming step)
  | placeholder action more rest bare jobs =>
      obtain ⟨s, step, held, flight, busy, empty⟩ := sound_work id c _ rest rfl jobs sound
      subst empty
      exact sound_station id _ s _ _ held busy flight (.acting step more)
  | apply action value more rest given jobs =>
      obtain ⟨s, step, held, flight, busy, empty⟩ := sound_work id c _ rest rfl jobs sound
      subst empty
      exact sound_station id _ s _ _ held busy flight (.telling step _ more)
  | skip action value more rest given jobs =>
      obtain ⟨s, step, held, flight, busy, empty⟩ := sound_work id c _ rest rfl jobs sound
      subst empty
      exact sound_station id _ s _ _ held busy flight (.acting step more)
  | engage s rest held active jobs =>
      obtain ⟨s', step, held', flight, busy, empty⟩ := sound_work id c _ rest rfl jobs sound
      cases held.symm.trans held'
      subst empty
      exact sound_station id _ s _ _ held busy flight (.engaged step)
  | refuse s rest held active jobs =>
      obtain ⟨s', step, held', flight, busy, empty⟩ := sound_work id c _ rest rfl jobs sound
      cases held.symm.trans held'
      subst empty
      exact sound_station id _ _ _ _ rfl rfl flight .between
  | await s step expression rest held active task jobs =>
      obtain ⟨s', _, held', flight, _, empty⟩ := sound_work id c _ rest rfl jobs sound
      cases held.symm.trans held'
      subst empty
      exact sound_station id _ _ _ _ rfl rfl flight (.waiting step)
  | awaited expression rest jobs =>
      obtain ⟨s, step, held, flight, busy, empty⟩ := sound_work id c _ rest rfl jobs sound
      subst empty
      exact sound_station id _ s _ _ held busy flight (.leaving step)
  | leave s job rest held jobs last =>
      have work : job.isWork = true := by obtain rfl | rfl | rfl := last <;> rfl
      obtain ⟨s', step, held', flight, busy, empty⟩ := sound_work id c _ rest work jobs sound
      cases held.symm.trans held'
      subst empty
      exact sound_station id _ _ _ _ rfl rfl flight .between
  | satisfied s expression rest held jobs =>
      obtain ⟨s', step, held', flight, busy, empty⟩ := sound_work id c _ rest rfl jobs sound
      cases held.symm.trans held'
      subst empty
      exact sound_station id _ _ _ _ rfl rfl flight .between
  | stop s rest held inactive jobs =>
      obtain ⟨_, empty, task⟩ := sound_next id c s rest held jobs sound
      subst empty
      exact sound_station id _ _ _ _ rfl task rfl .idle
  | drain s rest held active _ jobs =>
      obtain ⟨_, empty, task⟩ := sound_next id c s rest held jobs sound
      subst empty
      exact sound_station id _ _ _ _ rfl task rfl .idle
  | halt s rest held active _ _ jobs =>
      obtain ⟨_, empty, task⟩ := sound_next id c s rest held jobs sound
      subst empty
      exact sound_station id _ _ _ _ rfl task rfl .idle
  | step s step queue rest held active _ _ jobs =>
      obtain ⟨flight, empty, _⟩ := sound_next id c s rest held jobs sound
      subst empty
      exact sound_station id _ _ _ _ rfl rfl flight (.begun step)
  | complete s endings held active pending => exact (sound_held id c s held).mp sound
  | passed endings pending inactive => exact sound

namespace Plant

def Stopped (plant : Plant) (id : SequenceId) : Prop := (plant.course id).Stopped

instance (plant : Plant) (id : SequenceId) : Decidable (plant.Stopped id) :=
  inferInstanceAs (Decidable (∀ s ∈ plant.sequences[id]?, s.active = false))

theorem sound_blank (start : Calendar.Instant) (hasRuntime : Bool) (id : SequenceId) :
    ((blank start hasRuntime).course id).Sound id :=
  rfl

theorem sound_moves (plant next : Plant) (moves : Moves plant next) (id : SequenceId)
    (sound : (plant.course id).Sound id) : (next.course id).Sound id := by
  induction moves with
  | refl => exact sound
  | tail _ last ih =>
      obtain ⟨deed, move⟩ := last
      obtain same | stroke := drift_move _ _ deed move id
      · rw [same]
        exact ih
      · exact sound_stroke id _ _ stroke ih

def Reached (plant : Plant) : Prop := ∃ start hasRuntime, Moves (blank start hasRuntime) plant

theorem reached_move (plant next : Plant) (reached : plant.Reached) (deed : Deed)
    (move : Move plant deed next) : next.Reached := by
  obtain ⟨start, hasRuntime, moves⟩ := reached
  exact ⟨start, hasRuntime, moves.tail ⟨deed, move⟩⟩

theorem reached_sound (plant : Plant) (reached : plant.Reached) (id : SequenceId) :
    (plant.course id).Sound id := by
  obtain ⟨start, hasRuntime, moves⟩ := reached
  exact sound_moves _ plant moves id (sound_blank start hasRuntime id)

end Plant

end Interlock
