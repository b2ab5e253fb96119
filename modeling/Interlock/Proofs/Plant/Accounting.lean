import Interlock.Proofs.Plant.Ledger

/-!
The ledger of a sequence and the sequence itself. What the ledger says is queued and in flight is what the
sequence holds, and the steps that it tells of are those that the ledger has started.
-/

set_option autoImplicit false

namespace Interlock

open Interlock.Schedule

def Ledger.steps (ledger : Ledger) (numbers : List Nat) : List (Option Step) :=
  numbers.map fun number => ledger.pushed[number]?

-- Whether the start of the step in flight was told.
def Course.begun (c : Course) : Bool :=
  match c.jobs with
  | [] =>
      match c.task? with
      | some (.waiting _) => true
      | _ => false
  | .begin _ :: _ | .announce _ (.stepStarted _ _ _) :: _ => false
  | _ => true

structure Agrees (id : SequenceId) (ledger : Ledger) (c : Course) : Prop where
  queue : ledger.steps ledger.queued = c.queue.map some
  flight : ledger.steps ledger.flying = (c.task?.map Task.step).toList.map some
  started : ledger.started = ledger.executed ++ if c.begun then ledger.flying else []
  texts : (c.told.reverse.filterMap Progress.text?).map some =
    (ledger.steps ledger.started).map (Option.map Step.text)
  pending : ∀ index source description,
    .announce id (.stepStarted index source description) ∈ c.jobs →
      c.task?.map (fun task => task.step.text) = some (source, description)

section

variable {id : SequenceId} {ledger : Ledger} {c after : Course}

theorem news_told (c after : Course) (news : List Progress) (told : after.told = news ++ c.told) :
    c.news after = news := by
  rw [Course.news, told, List.length_append, Nat.add_sub_cancel, List.take_left]

theorem queue_held (c : Course) (s : Sequence) (held : c.sequence = some s) : c.queue = s.queue := by
  rw [Course.queue, held]
  rfl

theorem agrees_queue (agrees : Agrees id ledger c) : ledger.queued.length = c.queue.length := by
  have lengths := congrArg List.length agrees.queue
  simpa [Ledger.steps] using lengths

theorem agrees_flight (agrees : Agrees id ledger c) : ledger.flying.length ≤ 1 := by
  have lengths := congrArg List.length agrees.flight
  have one : (c.task?.map Task.step).toList.length ≤ 1 := by cases c.task? <;> simp
  simp only [Ledger.steps, List.length_map] at lengths
  omega

theorem agrees_free (agrees : Agrees id ledger c) (free : c.task? = none) : ledger.flying = [] := by
  have flight := agrees.flight
  rw [free] at flight
  simpa [Ledger.steps] using flight

theorem agrees_busy (agrees : Agrees id ledger c) (task : Task) (busy : c.task? = some task) :
    ∃ number, ledger.flying = [number] ∧ ledger.pushed[number]? = some task.step := by
  have flight := agrees.flight
  rw [busy] at flight
  obtain ⟨number, flying, step⟩ := List.map_eq_singleton_iff.mp flight
  exact ⟨number, flying, step⟩

theorem texts_news (news told : List Progress) (silent : ∀ progress ∈ news, progress.text? = none) :
    (news ++ told).reverse.filterMap Progress.text? = told.reverse.filterMap Progress.text? := by
  have none_told : news.reverse.filterMap Progress.text? = [] := by
    rw [List.filterMap_eq_nil_iff]
    exact fun progress member => silent progress (List.mem_reverse.mp member)
  rw [List.reverse_append, List.filterMap_append, none_told, List.append_nil]

theorem starts_silent (news : List Progress) (silent : ∀ progress ∈ news, progress.text? = none) :
    (news.any fun progress => progress.text?.isSome) = false := by
  rw [List.any_eq_false]
  intro progress member
  simp [silent progress member]

theorem pending_free (agrees : Agrees id ledger c) (free : c.task? = none) (index : Nat)
    (source description : String) : .announce id (.stepStarted index source description) ∉ c.jobs := by
  intro member
  have busy := agrees.pending index source description member
  rw [free] at busy
  contradiction

@[simp] theorem Ledger.push_nil (ledger : Ledger) : ledger.push [] = ledger := by
  simp [Ledger.push]

@[simp] theorem Ledger.take_zero (ledger : Ledger) : ledger.take 0 = ledger := by
  simp [Ledger.take]

structure Steady (id : SequenceId) (c after : Course) (news : List Progress) : Prop where
  queue : after.queue = c.queue
  task : after.task?.map Task.step = c.task?.map Task.step
  begun : after.begun = c.begun ∨ c.task? = none
  told : after.told = news ++ c.told
  silent : ∀ progress ∈ news, progress.text? = none
  kept : .cancelled ∉ news
  pending : ∀ index source description,
    .announce id (.stepStarted index source description) ∈ after.jobs →
      .announce id (.stepStarted index source description) ∈ c.jobs ∨
        c.task?.map (fun task => task.step.text) = some (source, description)

theorem follow_steady {news : List Progress} (steady : Steady id c after news)
    (agrees : Agrees id ledger c) (summons : Option Summons)
    (idle : (summons.map Summons.steps).getD [] = [] ∧ summons.any Summons.disposes = false) :
    ledger.follow summons c after = ledger := by
  have keeps : (c.task?.isSome && after.task?.isNone) = false := by
    have task := steady.task
    cases before : c.task? with
    | none => rfl
    | some old =>
        cases now : after.task? with
        | none => simp [before, now] at task
        | some new => rfl
  rw [Ledger.follow, news_told c after news steady.told, starts_silent news steady.silent, idle.1, idle.2,
    keeps, steady.queue, ← agrees_queue agrees]
  simp [Ledger.enter, steady.kept]

theorem agrees_steady {news : List Progress} (steady : Steady id c after news)
    (agrees : Agrees id ledger c) : Agrees id ledger after := by
  have text : after.task?.map (fun task => task.step.text) = c.task?.map fun task => task.step.text := by
    have mapped := congrArg (Option.map Step.text) steady.task
    simpa [Function.comp_def] using mapped
  refine ⟨?_, ?_, ?_, ?_, ?_⟩
  · rw [steady.queue]
    exact agrees.queue
  · rw [steady.task]
    exact agrees.flight
  · rcases steady.begun with same | free
    · rw [same]
      exact agrees.started
    · have started := agrees.started
      rw [agrees_free agrees free] at started ⊢
      simpa using started
  · rw [steady.told, texts_news news c.told steady.silent]
    exact agrees.texts
  · intro index source description member
    rw [text]
    rcases steady.pending index source description member with listed | same
    · exact agrees.pending index source description listed
    · exact same

structure Takes (id : SequenceId) (c after : Course) (news : List Progress) (task : Task) : Prop where
  queue : c.queue = task.step :: after.queue
  free : c.task? = none
  task : after.task? = some task
  unbegun : after.begun = false
  told : after.told = news ++ c.told
  silent : ∀ progress ∈ news, progress.text? = none
  kept : .cancelled ∉ news
  pending : ∀ index source description,
    .announce id (.stepStarted index source description) ∈ after.jobs →
      .announce id (.stepStarted index source description) ∈ c.jobs

theorem follow_takes {news : List Progress} {task : Task} (takes : Takes id c after news task)
    (agrees : Agrees id ledger c) (summons : Option Summons)
    (idle : (summons.map Summons.steps).getD [] = [] ∧ summons.any Summons.disposes = false) :
    ledger.follow summons c after = ledger.take 1 := by
  have one : ledger.queued.length - after.queue.length = 1 := by
    rw [agrees_queue agrees, takes.queue, List.length_cons]
    omega
  rw [Ledger.follow, news_told c after news takes.told, starts_silent news takes.silent, idle.1, idle.2,
    takes.free]
  simp [Ledger.enter, takes.kept, one]

theorem agrees_takes {news : List Progress} {task : Task} (takes : Takes id c after news task)
    (agrees : Agrees id ledger c) : Agrees id (ledger.take 1) after := by
  have flying := agrees_free agrees takes.free
  have started := agrees.started
  have queue := agrees.queue
  rw [takes.queue] at queue
  obtain ⟨number, rest, queued, first, later⟩ := List.map_eq_cons_iff.mp queue
  rw [flying] at started
  refine ⟨?_, ?_, ?_, ?_, ?_⟩
  · simpa [Ledger.take, Ledger.steps, queued] using later
  · simpa [Ledger.take, Ledger.steps, queued, flying, takes.task] using first
  · simpa [Ledger.take, takes.unbegun] using started
  · rw [takes.told, texts_news news c.told takes.silent]
    exact agrees.texts
  · intro index source description member
    exact absurd (takes.pending index source description member)
      (pending_free agrees takes.free index source description)

structure Finishes (id : SequenceId) (c after : Course) (news : List Progress) (drops : Bool) : Prop where
  queue : after.queue = if drops then [] else c.queue
  busy : c.task? ≠ none
  begun : c.begun = true
  free : after.task? = none
  told : after.told = news ++ c.told
  silent : ∀ progress ∈ news, progress.text? = none
  cancels : news.contains .cancelled = drops
  pending : ∀ index source description,
    .announce id (.stepStarted index source description) ∉ after.jobs

def Ledger.closed (ledger : Ledger) (drops : Bool) : Ledger :=
  if drops then ledger.finish.drop else ledger.finish

theorem follow_finishes {news : List Progress} {drops : Bool} (finishes : Finishes id c after news drops)
    (agrees : Agrees id ledger c) : ledger.follow none c after = ledger.closed drops := by
  have goes : (c.task?.isSome && after.task?.isNone) = true := by
    rw [finishes.free]
    cases busy : c.task? with
    | none => exact absurd busy finishes.busy
    | some task => rfl
  rw [Ledger.follow, news_told c after news finishes.told, starts_silent news finishes.silent, goes,
    finishes.cancels, finishes.queue]
  have length := agrees_queue agrees
  cases drops with
  | true => simp [Ledger.enter, Ledger.closed, Ledger.drop, Ledger.take]
  | false => simp [Ledger.enter, Ledger.closed, Ledger.finish, length]

theorem agrees_finishes {news : List Progress} {drops : Bool} (finishes : Finishes id c after news drops)
    (agrees : Agrees id ledger c) : Agrees id (ledger.closed drops) after := by
  obtain ⟨task, busy⟩ := Option.ne_none_iff_exists'.mp finishes.busy
  obtain ⟨number, flying, _⟩ := agrees_busy agrees task busy
  have started := agrees.started
  rw [finishes.begun, if_pos rfl, flying] at started
  have texts := agrees.texts
  rw [← texts_news news c.told finishes.silent, ← finishes.told] at texts
  have pending : ∀ index source description,
      .announce id (.stepStarted index source description) ∈ after.jobs →
        after.task?.map (fun task => task.step.text) = some (source, description) :=
    fun index source description member => absurd member (finishes.pending index source description)
  cases drops with
  | true =>
      refine ⟨?_, ?_, ?_, texts, pending⟩
      · rw [finishes.queue]
        rfl
      · rw [finishes.free]
        simp [Ledger.closed, Ledger.finish, Ledger.drop, Ledger.steps, flying]
      · simp [Ledger.closed, Ledger.finish, Ledger.drop, flying, started]
  | false =>
      refine ⟨?_, ?_, ?_, texts, pending⟩
      · rw [finishes.queue]
        exact agrees.queue
      · rw [finishes.free]
        simp [Ledger.closed, Ledger.finish, Ledger.steps, flying]
      · simp [Ledger.closed, Ledger.finish, flying, started]

structure Drops (id : SequenceId) (summons : Summons) (c after : Course) (news : List Progress) :
    Prop where
  steps : summons.steps = []
  queue : after.queue = []
  task : after.task? = c.task?
  jobs : after.jobs = c.jobs
  told : after.told = news ++ c.told
  silent : ∀ progress ∈ news, progress.text? = none
  drops : (summons.disposes || news.contains .cancelled) = true

theorem begun_same (c after : Course) (jobs : after.jobs = c.jobs) (task : after.task? = c.task?) :
    after.begun = c.begun := by
  rw [Course.begun, jobs, task, Course.begun]

theorem follow_drops {news : List Progress} {summons : Summons} (drops : Drops id summons c after news) :
    ledger.follow (some summons) c after = ledger.drop := by
  have keeps : (c.task?.isSome && after.task?.isNone) = false := by
    rw [drops.task]
    cases c.task? <;> rfl
  rw [Ledger.follow, news_told c after news drops.told, starts_silent news drops.silent, keeps,
    Option.any_some, drops.drops, Option.map_some, Option.getD_some, drops.steps, drops.queue]
  simp [Ledger.enter, Ledger.drop, Ledger.take]

theorem agrees_drops {news : List Progress} {summons : Summons} (drops : Drops id summons c after news)
    (agrees : Agrees id ledger c) : Agrees id ledger.drop after := by
  refine ⟨?_, ?_, ?_, ?_, ?_⟩
  · rw [drops.queue]
    rfl
  · rw [drops.task]
    exact agrees.flight
  · rw [begun_same c after drops.jobs drops.task]
    exact agrees.started
  · rw [drops.told, texts_news news c.told drops.silent]
    exact agrees.texts
  · rw [drops.jobs, drops.task]
    exact agrees.pending

theorem follow_push (agrees : Agrees id ledger c) (summons : Summons)
    (keeps : summons.disposes = false) (queue : after.queue = c.queue ++ summons.steps)
    (task : after.task? = c.task?) (told : after.told = c.told) :
    ledger.follow (some summons) c after = ledger.push summons.steps := by
  have stays : (c.task?.isSome && after.task?.isNone) = false := by
    rw [task]
    cases c.task? <;> rfl
  rw [Ledger.follow, news_told c after [] told, stays, Option.any_some, keeps, Option.map_some,
    Option.getD_some, queue]
  have length := agrees_queue agrees
  simp [Ledger.enter, Ledger.push, Ledger.take, length]

theorem steps_push (steps : List Step) (numbers : List Nat)
    (known : none ∉ ledger.steps numbers) :
    (ledger.push steps).steps numbers = ledger.steps numbers := by
  refine List.map_congr_left fun number member => ?_
  have there : ledger.pushed[number]? ≠ none := fun missing =>
    known (missing ▸ List.mem_map_of_mem member)
  obtain ⟨step, found⟩ := Option.ne_none_iff_exists'.mp there
  exact List.getElem?_append_left (List.getElem?_eq_some_iff.mp found).1

theorem steps_pushed (ledger : Ledger) (steps : List Step) :
    (ledger.push steps).steps (List.range' ledger.pushed.length steps.length) = steps.map some := by
  refine List.ext_getElem (by simp [Ledger.steps]) fun place inside _ => ?_
  have within : place < steps.length := by simpa [Ledger.steps] using inside
  simp [Ledger.steps, Ledger.push, within]

theorem agrees_push (agrees : Agrees id ledger c) (steps : List Step)
    (queue : after.queue = c.queue ++ steps) (task : after.task? = c.task?)
    (told : after.told = c.told) (jobs : after.jobs = c.jobs) : Agrees id (ledger.push steps) after := by
  have flight := agrees.flight
  have started := agrees.started
  refine ⟨?_, ?_, ?_, ?_, ?_⟩
  · rw [queue, List.map_append]
    rw [← agrees.queue, ← steps_push steps ledger.queued (by rw [agrees.queue]; simp),
      ← steps_pushed ledger steps]
    exact List.map_append
  · rw [task]
    rw [← flight]
    exact steps_push steps ledger.flying (by simp [flight])
  · rw [begun_same c after jobs task]
    exact started
  · have told_of : none ∉ ledger.steps ledger.started := fun missing => by
      have mapped : none ∈ (ledger.steps ledger.started).map (Option.map Step.text) :=
        List.mem_map_of_mem (f := Option.map Step.text) missing
      rw [← agrees.texts] at mapped
      simp at mapped
    rw [told]
    exact agrees.texts.trans (congrArg _ (steps_push steps ledger.started told_of).symm)
  · rw [jobs, task]
    exact agrees.pending

theorem follow_starts (agrees : Agrees id ledger c) (index : Nat) (source description : String)
    (queue : after.queue = c.queue) (task : after.task? = c.task?)
    (told : after.told = .stepStarted index source description :: c.told) :
    ledger.follow none c after = ledger.start := by
  have stays : (c.task?.isSome && after.task?.isNone) = false := by
    rw [task]
    cases c.task? <;> rfl
  have length := agrees_queue agrees
  rw [Ledger.follow, news_told c after [.stepStarted index source description] told, stays, queue]
  simp [Ledger.enter, Ledger.start, Ledger.take, Progress.text?, length]

theorem agrees_starts (agrees : Agrees id ledger c) (index : Nat) (source description : String)
    (queue : after.queue = c.queue) (task : after.task? = c.task?)
    (told : after.told = .stepStarted index source description :: c.told)
    (announced : .announce id (.stepStarted index source description) ∈ c.jobs)
    (unbegun : c.begun = false) (begun : after.begun = true)
    (pending : ∀ index source description,
      .announce id (.stepStarted index source description) ∉ after.jobs) :
    Agrees id ledger.start after := by
  obtain ⟨busy, there, text⟩ :=
    Option.map_eq_some_iff.mp (agrees.pending index source description announced)
  obtain ⟨number, flying, found⟩ := agrees_busy agrees busy there
  have started := agrees.started
  rw [unbegun, if_neg Bool.false_ne_true, List.append_nil] at started
  refine ⟨?_, ?_, ?_, ?_, ?_⟩
  · rw [queue]
    exact agrees.queue
  · rw [task]
    exact agrees.flight
  · simp [Ledger.start, begun, started, flying]
  · have texts := agrees.texts
    rw [told, List.reverse_cons, List.filterMap_append, List.map_append, texts]
    simp [Ledger.start, Ledger.steps, flying, found, text, Progress.text?]
  · intro index source description member
    exact absurd member (pending index source description)

theorem agrees_proceeds (agrees : Agrees id ledger c) (sound : c.Sound id) (summons : Summons)
    (idle : summons.steps = [] ∧ summons.disposes = false) (s ready next : Sequence)
    (held : c.sequence = some s) (endings : Nat) (news : List Progress)
    (proceeds : Proceeds ready endings news next)
    (same : ready.queue = s.queue ∧ ready.task = s.task ∧ ready.inFlight = s.inFlight)
    (first : Progress) (plain : first.text? = none ∧ first ≠ .cancelled)
    (now : after.sequence = some next) (jobs : after.jobs = c.jobs)
    (told : after.told = news ++ first :: c.told) :
    Agrees id (ledger.follow (some summons) c after) after := by
  obtain ⟨queue, task, flight⟩ := same
  have said : after.told = news ++ [first] ++ c.told := by simpa using told
  have steady : (∀ progress ∈ news, progress = .paused) → next.queue = s.queue → next.task = s.task →
      Agrees id (ledger.follow (some summons) c after) after := by
    intro pauses queue task
    have busy : after.task? = c.task? := by
      rw [task_held after next now, task_held c s held, task]
    have steady : Steady id c after (news ++ [first]) := by
      refine ⟨?_, by rw [busy], .inl (begun_same c after jobs busy), said, ?_, ?_, ?_⟩
      · rw [queue_held after next now, queue_held c s held, queue]
      · intro progress member
        rcases List.mem_append.mp member with late | early
        · rw [pauses progress late]
          rfl
        · rw [List.mem_singleton.mp early]
          exact plain.1
      · intro member
        rcases List.mem_append.mp member with late | early
        · exact absurd (pauses _ late) (by simp)
        · exact plain.2 (List.mem_singleton.mp early).symm
      · intro index source description member
        rw [jobs] at member
        exact .inl member
    rw [follow_steady steady agrees (some summons) (by simpa using idle)]
    exact agrees_steady steady agrees
  cases proceeds with
  | stays => exact steady (by simp) queue task
  | pauses => exact steady (by simp) queue task
  | ends => exact steady (by simp) queue task
  | hands step rest active free unpaused filled =>
      have station := (sound_held id c s held).mp sound
      rw [← flight, free] at station
      obtain ⟨none_held, no_jobs⟩ := station_idle station
      have fresh : after.task? = some (.fresh step) := task_held after _ now
      have takes : Takes id c after [first] (.fresh step) := by
        refine ⟨?_, ?_, fresh, ?_, said, ?_, ?_, ?_⟩
        · rw [queue_held after _ now, queue_held c s held, ← queue, filled]
          rfl
        · rw [task_held c s held, none_held]
        · rw [Course.begun, jobs, no_jobs, fresh]
        · simpa using plain.1
        · simpa using plain.2.symm
        · intro index source description member
          rwa [jobs] at member
      rw [follow_takes takes agrees (some summons) (by simpa using idle)]
      exact agrees_takes takes agrees

theorem agrees_answers (summons : Summons) (answers : Answers summons c after) (sound : c.Sound id)
    (agrees : Agrees id ledger c) : Agrees id (ledger.follow (some summons) c after) after := by
  have steady : after.queue = c.queue → after.task? = c.task? → after.jobs = c.jobs →
      after.told = c.told → summons.steps = [] → summons.disposes = false →
      Agrees id (ledger.follow (some summons) c after) after := by
    intro queue task jobs told steps keeps
    have steady : Steady id c after [] :=
      ⟨queue, by rw [task], .inl (begun_same c after jobs task), told, by simp, by simp,
        fun _ _ _ member => .inl (jobs ▸ member)⟩
    rw [follow_steady steady agrees (some summons) ⟨steps, keeps⟩]
    exact agrees_steady steady agrees
  cases answers with
  | create _ name registry channel pollInterval queue absent =>
      have empty : c.queue = [] := by rw [Course.queue, absent]; rfl
      have free : c.task? = none := by rw [Course.task?, absent]; rfl
      have pushed : ({ c with sequence := some { Sequence.create name registry channel pollInterval with
          queue := queue } } : Course).queue = c.queue ++ queue := by
        rw [empty]
        rfl
      rw [follow_push agrees (.create queue) rfl pushed free.symm rfl]
      exact agrees_push agrees queue pushed free.symm rfl rfl
  | push _ s steps held =>
      have pushed : ({ c with sequence := some { s with queue := s.queue ++ steps } } : Course).queue =
          c.queue ++ steps := by
        rw [queue_held c s held]
        rfl
      have task := (task_held c s held).symm
      rw [follow_push agrees (.push steps) rfl pushed task rfl]
      exact agrees_push agrees steps pushed task rfl rfl
  | activate _ s next endings news held inactive proceeds =>
      exact agrees_proceeds agrees sound .activate ⟨rfl, rfl⟩ s _ next held endings news proceeds
        ⟨rfl, rfl, rfl⟩ (.started s.name) ⟨rfl, by simp⟩ rfl rfl rfl
  | pause _ s held =>
      exact steady (queue_held c s held).symm (task_held c s held).symm rfl rfl rfl rfl
  | withdraw _ s held =>
      exact steady (queue_held c s held).symm (task_held c s held).symm rfl rfl rfl rfl
  | resume _ s next endings news held paused active reached proceeds =>
      exact agrees_proceeds agrees sound .resume ⟨rfl, rfl⟩ s _ next held endings news proceeds
        ⟨rfl, rfl, rfl⟩ .resumed ⟨rfl, by simp⟩ rfl rfl rfl
  | stop _ _ s stops held active =>
      have drops : Drops id summons c
          { c with sequence := some s.stopped, told := .cancelled :: c.told } [.cancelled] := by
        refine ⟨?_, rfl, (task_held c s held).symm, rfl, rfl, by simp [Progress.text?], by simp⟩
        rcases stops with rfl | rfl <;> rfl
      rw [follow_drops drops]
      exact agrees_drops drops agrees
  | clear _ s held inactive =>
      have drops : Drops id .dispose c { c with sequence := some { s with queue := [] } } [] :=
        ⟨rfl, rfl, (task_held c s held).symm, rfl, rfl, by simp, rfl⟩
      rw [follow_drops drops]
      exact agrees_drops drops agrees
  | vain _ _ idle =>
      rcases idle with rfl | rfl | rfl <;> exact steady rfl rfl rfl rfl rfl rfl

theorem agrees_works (stroke : Stroke id c after) (relists : Relists c after) (sound : c.Sound id)
    (unmarked : ∀ progress, .announce id progress ∈ c.jobs → progress.mark? = none)
    (agrees : Agrees id ledger c) : Agrees id (ledger.follow none c after) after := by
  have steady : ∀ news, Steady id c after news → Agrees id (ledger.follow none c after) after := by
    intro news steady
    rw [follow_steady steady agrees none ⟨rfl, rfl⟩]
    exact agrees_steady steady agrees
  have finish : ∀ news drops, Finishes id c after news drops →
      Agrees id (ledger.follow none c after) after := by
    intro news drops finishes
    rw [follow_finishes finishes agrees]
    exact agrees_finishes finishes agrees
  cases stroke with
  | take s step held task =>
      rw [sound_held id c s held, task] at sound
      have jobs := (station_fresh sound).2
      have busy : c.task? = some (.fresh step) := (task_held c s held).trans task
      refine steady [] ⟨(queue_held c s held).symm, ?_, .inl ?_, rfl, by simp, by simp, ?_⟩
      · rw [busy]
        rfl
      · rw [Course.begun, Course.begun, jobs, busy]
      · intro index source description member
        simp [jobs] at member
  | release s step held task =>
      rw [sound_held id c s held, task] at sound
      have jobs := (station_waiting sound).2
      have busy : c.task? = some (.waiting step) := (task_held c s held).trans task
      refine steady [] ⟨(queue_held c s held).symm, ?_, .inl ?_, rfl, by simp, by simp, ?_⟩
      · rw [busy]
        rfl
      · rw [Course.begun, Course.begun, jobs, busy]
      · intro index source description member
        simp [jobs] at member
  | lost job rest jobs missing =>
      exact absurd missing (sound_unlost id c job rest jobs sound)
  | announce progress rest jobs =>
      obtain ⟨_, _, actions, _, _, _, rfl⟩ := sound_announce id c progress rest jobs sound
      have mark := unmarked progress (by simp [jobs])
      cases text : progress.text? with
      | none =>
          refine steady [progress] ⟨rfl, rfl, .inl ?_, rfl, by simpa using text, ?_, by simp⟩
          · rw [Course.begun, Course.begun, jobs]
            cases progress <;> first | rfl | contradiction
          · intro member
            rw [← List.mem_singleton.mp member] at mark
            contradiction
      | some words =>
          cases progress with
          | stepStarted index source description =>
              have starts : ledger.follow none c
                  { c with
                    jobs := [.act id actions],
                    told := .stepStarted index source description :: c.told } = ledger.start :=
                follow_starts agrees index source description rfl rfl rfl
              rw [starts]
              exact agrees_starts agrees index source description rfl rfl rfl (by simp [jobs])
                (by rw [Course.begun, jobs]) (by rw [Course.begun]) (by simp)
          | _ => contradiction
  | begin s task rest held busy jobs =>
      obtain ⟨_, _, _, _, _, rfl⟩ := sound_work id c _ rest rfl jobs sound
      have task := (task_held c s held).trans busy
      refine steady [] ⟨(queue_held c s held).symm, ?_, .inl ?_, rfl, by simp, by simp, ?_⟩
      · rw [task_held c s held]
        rfl
      · rw [Course.begun, Course.begun, jobs]
      · intro index source description member
        right
        rw [task]
        simp only [List.mem_cons, Job.announce.injEq, true_and, Progress.stepStarted.injEq, reduceCtorEq,
          List.not_mem_nil, or_false] at member
        obtain ⟨_, rfl, rfl⟩ := member
        rfl
  | written rest jobs =>
      obtain ⟨_, _, _, _, _, rfl⟩ := sound_work id c _ rest rfl jobs sound
      refine steady [] ⟨rfl, rfl, .inl ?_, rfl, by simp, by simp, by simp⟩
      rw [Course.begun, Course.begun, jobs]
  | placeholder action more rest bare jobs =>
      obtain ⟨_, _, _, _, _, rfl⟩ := sound_work id c _ rest rfl jobs sound
      refine steady [] ⟨rfl, rfl, .inl ?_, rfl, by simp, by simp, by simp⟩
      rw [Course.begun, Course.begun, jobs]
  | apply action value more rest given jobs =>
      obtain ⟨_, _, _, _, _, rfl⟩ := sound_work id c _ rest rfl jobs sound
      refine steady [] ⟨rfl, rfl, .inl ?_, rfl, by simp, by simp, by simp⟩
      rw [Course.begun, Course.begun, jobs]
  | skip action value more rest given jobs =>
      obtain ⟨_, _, _, _, _, rfl⟩ := sound_work id c _ rest rfl jobs sound
      refine steady [.actionSkipped action.path]
        ⟨rfl, rfl, .inl ?_, rfl, by simp [Progress.text?], by simp, by simp⟩
      rw [Course.begun, Course.begun, jobs]
  | engage s rest held active jobs =>
      obtain ⟨_, _, _, _, _, rfl⟩ := sound_work id c _ rest rfl jobs sound
      refine steady [] ⟨rfl, rfl, .inl ?_, rfl, by simp, by simp, by simp⟩
      rw [Course.begun, Course.begun, jobs]
  | refuse s rest held active jobs =>
      obtain ⟨_, step, same, _, busy, rfl⟩ := sound_work id c _ rest rfl jobs sound
      cases held.symm.trans same
      refine finish [.cancelled] true ⟨rfl, ?_, ?_, rfl, rfl, by simp [Progress.text?], rfl, by simp⟩
      · rw [task_held c s held, busy]
        simp
      · rw [Course.begun, jobs]
  | await s step expression rest held active task jobs =>
      obtain ⟨_, _, _, _, _, rfl⟩ := sound_work id c _ rest rfl jobs sound
      refine steady [.waitingOnTrigger expression]
        ⟨(queue_held c s held).symm, ?_, .inl ?_, rfl, by simp [Progress.text?], by simp, by simp⟩
      · rw [task_held c s held, task]
        rfl
      · rw [Course.begun, Course.begun, jobs]
        rfl
  | awaited expression rest jobs =>
      obtain ⟨_, _, _, _, _, rfl⟩ := sound_work id c _ rest rfl jobs sound
      refine steady [.waitingOnTrigger expression]
        ⟨rfl, rfl, .inl ?_, rfl, by simp [Progress.text?], by simp, by simp⟩
      rw [Course.begun, Course.begun, jobs]
  | leave s job rest held jobs last =>
      have work : job.isWork = true := by obtain rfl | rfl | rfl := last <;> rfl
      obtain ⟨_, step, same, _, busy, rfl⟩ := sound_work id c _ rest work jobs sound
      cases held.symm.trans same
      refine finish [] false ⟨(queue_held c s held).symm, ?_, ?_, rfl, rfl, by simp, rfl, by simp⟩
      · rw [task_held c s held, busy]
        simp
      · rw [Course.begun, jobs]
        obtain rfl | rfl | rfl := last <;> rfl
  | satisfied s expression rest held jobs =>
      obtain ⟨_, step, same, _, busy, rfl⟩ := sound_work id c _ rest rfl jobs sound
      cases held.symm.trans same
      refine finish [.triggerSatisfied expression] false
        ⟨(queue_held c s held).symm, ?_, ?_, rfl, rfl, by simp [Progress.text?], rfl, by simp⟩
      · rw [task_held c s held, busy]
        simp
      · rw [Course.begun, jobs]
  | stop s rest held inactive jobs =>
      obtain ⟨_, rfl, task⟩ := sound_next id c s rest held jobs sound
      have free := (task_held c s held).trans task
      exact steady [] ⟨(queue_held c s held).symm, by rw [task_held c s held]; rfl, .inr free, rfl, by simp,
        by simp, by simp⟩
  | drain s rest held active empty jobs =>
      obtain ⟨_, rfl, task⟩ := sound_next id c s rest held jobs sound
      have free := (task_held c s held).trans task
      exact steady [] ⟨(queue_held c s held).symm, by rw [task_held c s held]; rfl, .inr free, rfl, by simp,
        by simp, by simp⟩
  | halt s rest held active filled paused jobs =>
      obtain ⟨_, rfl, task⟩ := sound_next id c s rest held jobs sound
      have free := (task_held c s held).trans task
      exact steady [.paused] ⟨(queue_held c s held).symm, by rw [task_held c s held]; rfl, .inr free, rfl,
        by simp [Progress.text?], by simp, by simp⟩
  | step s step queue rest held active filled unpaused jobs =>
      obtain ⟨_, rfl, task⟩ := sound_next id c s rest held jobs sound
      have free := (task_held c s held).trans task
      have takes : Takes id c
          { c with
            sequence := some { s with queue := queue, task := some (.busy step) },
            jobs := [.begin id] } [] (.busy step) :=
        ⟨(queue_held c s held).trans filled, free, rfl, rfl, rfl, by simp, by simp, by simp⟩
      rw [follow_takes takes agrees none ⟨rfl, rfl⟩]
      exact agrees_takes takes agrees
  | complete s endings held active pending =>
      have task := task_held c s held
      exact steady [.completed] ⟨(queue_held c s held).symm, by rw [task]; rfl,
        .inl (begun_same c _ rfl (by rw [task]; rfl)), rfl, by simp [Progress.text?], by simp,
        fun _ _ _ member => .inl member⟩
  | passed endings pending inactive =>
      exact steady [] ⟨rfl, rfl, .inl rfl, rfl, by simp, by simp, fun _ _ _ member => .inl member⟩
  | create | enqueue | pause | withdraw | deactivate | clear =>
      exact absurd relists (not_relists _ _ rfl (Nat.le_refl _))
  | resume | activate =>
      exact absurd relists (not_relists _ _ rfl (Nat.le_add_left _ _))

theorem agrees_deals (summons : Option Summons) (deals : Deals id summons c after) (sound : c.Sound id)
    (unmarked : ∀ progress, .announce id progress ∈ c.jobs → progress.mark? = none)
    (agrees : Agrees id ledger c) : Agrees id (ledger.follow summons c after) after := by
  cases deals with
  | stays =>
      have steady : Steady id c c [] :=
        ⟨rfl, rfl, .inl rfl, rfl, by simp, by simp, fun _ _ _ member => .inl member⟩
      rw [follow_steady steady agrees none ⟨rfl, rfl⟩]
      exact agrees
  | answers summons _ _ answers => exact agrees_answers summons answers sound agrees
  | works _ _ stroke relists => exact agrees_works stroke relists sound unmarked agrees

end

namespace Plant

-- A plant that a session can come to, and the ledger of one of its sequences that was kept meanwhile.
inductive Recorded (id : SequenceId) : Plant → Ledger → Prop where
  | blank (start : Calendar.Instant) (hasRuntime : Bool) :
      Recorded id (blank start hasRuntime) .blank
  | move (plant next : Plant) (ledger : Ledger) (deed : Deed) (earlier : Recorded id plant ledger)
      (move : Move plant deed next) :
      Recorded id next
        (ledger.follow (plant.asks? id deed) (plant.course id) (next.course id))

section

variable {id : SequenceId} {plant : Plant} {ledger : Ledger}

theorem recorded_reached (recorded : Recorded id plant ledger) : plant.Reached := by
  induction recorded with
  | blank start hasRuntime => exact ⟨start, hasRuntime, .refl⟩
  | move _ _ _ deed _ move ih => exact reached_move _ _ ih deed move

theorem recorded_unmarked (recorded : Recorded id plant ledger) :
    ∀ progress, .announce id progress ∈ (plant.course id).jobs → progress.mark? = none := by
  induction recorded with
  | blank => simp [course, Plant.blank]
  | move plant next _ deed _ move ih =>
      obtain same | stroke := drift_move plant next deed move id
      · rw [same]
        exact ih
      · exact unmarked_stroke id _ _ stroke ih

theorem recorded_balanced (recorded : Recorded id plant ledger) : ledger.Balanced := by
  induction recorded with
  | blank => exact Ledger.balanced_blank
  | move _ _ _ _ _ _ ih => exact Ledger.balanced_enter _ _ _ _ _ _ ih

theorem recorded_agrees (recorded : Recorded id plant ledger) : Agrees id ledger (plant.course id) := by
  induction recorded with
  | blank => exact ⟨rfl, rfl, rfl, rfl, by simp [course, Plant.blank]⟩
  | move plant next ledger deed earlier move ih =>
      exact agrees_deals _ (move_deals plant next deed move id)
        (reached_sound plant (recorded_reached earlier) id) (recorded_unmarked earlier) ih

theorem runs_recorded (start : Calendar.Instant) (hasRuntime : Bool)
    (moves : Moves (Plant.blank start hasRuntime) plant) : ∃ ledger, Recorded id plant ledger := by
  induction moves with
  | refl => exact ⟨_, .blank start hasRuntime⟩
  | tail _ last ih =>
      obtain ⟨ledger, recorded⟩ := ih
      obtain ⟨deed, move⟩ := last
      exact ⟨_, .move _ _ ledger deed recorded move⟩

theorem steps_in_order (recorded : Recorded id plant ledger) :
    ledger.started <+: (List.range ledger.pushed.length).filter (fun number => number ∉ ledger.discarded) ∧
      ((plant.course id).told.reverse.filterMap Progress.text?).map some =
        (ledger.steps ledger.started).map (Option.map Step.text) ∧
      (ledger.queued ++ ledger.flying ++ ledger.executed ++ ledger.discarded).Perm
        (List.range ledger.pushed.length) ∧
      (∀ s, plant.sequences[id]? = some s →
        ledger.steps ledger.queued = s.queue.map some ∧
          ledger.steps ledger.flying = (s.task.map Task.step).toList.map some) ∧
      ledger.flying.length ≤ 1 ∧ (plant.course id).Sound id ∧ ledger.executed <+: ledger.started ∧
      (∀ start hasRuntime, Runs (Unbidden id) (Plant.blank start hasRuntime) plant →
        ∀ before within after name,
          (plant.course id).told.reverse = before ++ .started name :: within ++ after →
          (∀ progress ∈ within, progress.opens = false) →
          within.filterMap Progress.index? =
            List.range' 1 (within.filterMap Progress.index?).length) := by
  have balanced := recorded_balanced recorded
  have agrees := recorded_agrees recorded
  have grown : ledger.executed <+: ledger.started := by
    rw [agrees.started]
    exact List.prefix_append _ _
  have first : ledger.started <+: ledger.executed ++ ledger.flying := by
    rw [agrees.started, List.prefix_append_right_inj]
    split
    · exact List.prefix_refl _
    · exact List.nil_prefix
  refine ⟨?_, agrees.texts, ledger.balanced_perm balanced, ?_, agrees_flight agrees,
    reached_sound plant (recorded_reached recorded) id, grown, ?_⟩
  · rw [← balanced.kept]
    exact first.trans (List.prefix_append _ _)
  · intro s held
    have queue := agrees.queue
    have flight := agrees.flight
    rw [queue_held _ s held] at queue
    rw [task_held _ s held] at flight
    exact ⟨queue, flight⟩
  · intro start hasRuntime run before within after name order one
    exact indices_count_up run before within after name order one

def kept (id : SequenceId) : Plant → Ledger → List Deed → Ledger
  | _, ledger, [] => ledger
  | plant, ledger, deed :: rest =>
      kept id (plant.after deed)
        (ledger.follow (plant.asks? id deed) (plant.course id) ((plant.after deed).course id)) rest

theorem kept_recorded (deeds : List Deed) (passed : follows (fun _ _ _ => true) plant deeds = true)
    (recorded : Recorded id plant ledger) :
    Recorded id (deeds.foldl after plant) (kept id plant ledger deeds) := by
  induction deeds generalizing plant ledger with
  | nil => exact recorded
  | cons deed rest ih =>
      simp only [follows, Bool.and_eq_true] at passed
      exact ih passed.2 (.move plant _ ledger deed recorded (after_orderly plant deed passed.1.1).move)

end

-- A sequence is stopped and activated again while its first step is still in flight.
def overtaking : List Deed :=
  [.call (.sequence (.make "s" 100)), .call (.sequence (.step "p" "Bath.Pump=1" none "fill")),
    .call (.sequence (.step "q" "Bath.Pump=2" none "")), .call (.sequence (.push "s" "p" 2)),
    .call (.sequence (.activate "s")), .call (.sequence (.deactivate "s")),
    .call (.sequence (.push "s" "q" 2)), .call (.sequence (.activate "s")), .turn (.sequence 0)] ++
    List.replicate 10 .job

def overtaken : Plant := overtaking.foldl after (Plant.blank ⟨0, 0⟩ true)

theorem overtaken_in_order :
    ∃ ledger, Recorded 0 overtaken ledger ∧ ledger.pushed.length = 4 ∧ ledger.discarded = [1] ∧
      ledger.flying = [2] ∧ ledger.started <+: [0, 2, 3] := by
  have recorded : Recorded 0 overtaken (kept 0 (Plant.blank ⟨0, 0⟩ true) .blank overtaking) :=
    kept_recorded overtaking (by decide +kernel) (.blank _ _)
  refine ⟨_, recorded, by decide +kernel, by decide +kernel, by decide +kernel, ?_⟩
  have numbers : (List.range (kept 0 (Plant.blank ⟨0, 0⟩ true) .blank overtaking).pushed.length).filter
      (fun number => number ∉ (kept 0 (Plant.blank ⟨0, 0⟩ true) .blank overtaking).discarded) =
        [0, 2, 3] := by
    decide +kernel
  rw [← numbers]
  exact (steps_in_order recorded).1

end Plant

end Interlock
