import Interlock.Proofs.Plant.Accounting

/-!
What a completed run leaves behind. A sequence looks for steps before it tells that they have run out and
not again when it ends the run, so what is pushed in between stays queued, and nothing else does.
-/

set_option autoImplicit false

namespace Interlock

open Interlock.Schedule

-- An active sequence that has found no step to hand over.
structure Schedule.Sequence.Spent (s : Sequence) : Prop where
  active : s.active = true
  free : s.inFlight = false
  state : s.state = .running

def Course.Running (c : Course) : Prop :=
  ∀ s, c.sequence = some s → s.active = true → s.inFlight = true → s.state = .running

inductive Advances (c after : Course) : Prop where
  | flies (s next : Sequence) (held : c.sequence = some s) (flies : s.inFlight = true)
      (now : after.sequence = some next) (flying : next.inFlight = true)
      (still : next.active = true → s.active = true ∧ next.state = s.state)
      (state : next.state = s.state ∨ next.state = .cancelled) (endings : after.endings = c.endings)
      (silent : .completed ∉ c.news after)
  | lands (s next : Sequence) (held : c.sequence = some s) (flies : s.inFlight = true)
      (now : after.sequence = some next) (free : next.inFlight = false)
      (state : next.state = s.state ∨ next.state = .paused) (endings : after.endings = c.endings)
      (silent : .completed ∉ c.news after)
  | drains (s : Sequence) (held : c.sequence = some s) (flies : s.inFlight = true)
      (active : s.active = true) (empty : s.queue = []) (task : s.task = none)
      (now : after.sequence = some { s with inFlight := false }) (silent : .completed ∉ c.news after)
  | completes (s : Sequence) (held : c.sequence = some s) (active : s.active = true)
      (now : after.sequence = some { s with active := false, state := .completed })
      (endings : after.endings < c.endings)
  | passes (same : after.sequence = c.sequence) (endings : after.endings < c.endings)
      (inactive : c.Stopped) (silent : .completed ∉ c.news after)

section

variable {id : SequenceId} {c after : Course}

theorem stroke_advances (stroke : Stroke id c after) (relists : Relists c after) (sound : c.Sound id)
    (unmarked : ∀ progress, .announce id progress ∈ c.jobs → progress.mark? = none) :
    Advances c after := by
  have flies := fun job rest jobs => sound_flies id c job rest jobs sound
  have same : ∀ news, after.told = news ++ c.told → .completed ∉ news → .completed ∉ c.news after := by
    intro news told silent
    rwa [news_told c after news told]
  have carries : ∀ job rest news, c.jobs = job :: rest → after.sequence = c.sequence →
      after.endings = c.endings → after.told = news ++ c.told → .completed ∉ news → Advances c after := by
    intro job rest news jobs sequence endings told silent
    obtain ⟨s, held, flight⟩ := flies job rest jobs
    exact .flies s s held flight (sequence.trans held) flight (fun active => ⟨active, rfl⟩) (.inl rfl)
      endings (same news told silent)
  cases stroke with
  | take s step held task =>
      rw [sound_held id c s held, task] at sound
      have flight := (station_fresh sound).1
      exact .flies s _ held flight rfl flight (fun active => ⟨active, rfl⟩) (.inl rfl) rfl
        (same [] rfl (by simp))
  | release s step held task =>
      rw [sound_held id c s held, task] at sound
      have flight := (station_waiting sound).1
      exact .flies s _ held flight rfl flight (fun active => ⟨active, rfl⟩) (.inl rfl) rfl
        (same [] rfl (by simp))
  | lost job rest jobs missing => exact absurd missing (sound_unlost id c job rest jobs sound)
  | announce progress rest jobs =>
      have mark := unmarked progress (by simp [jobs])
      refine carries _ rest [progress] jobs rfl rfl rfl fun member => ?_
      rw [← List.mem_singleton.mp member] at mark
      contradiction
  | written rest jobs => exact carries _ rest [] jobs rfl rfl rfl (by simp)
  | placeholder action more rest bare jobs => exact carries _ rest [] jobs rfl rfl rfl (by simp)
  | apply action value more rest given jobs => exact carries _ rest [] jobs rfl rfl rfl (by simp)
  | skip action value more rest given jobs => exact carries _ rest [_] jobs rfl rfl rfl (by simp)
  | engage s rest held active jobs => exact carries _ rest [] jobs rfl rfl rfl (by simp)
  | awaited expression rest jobs => exact carries _ rest [_] jobs rfl rfl rfl (by simp)
  | begin s task rest held busy jobs =>
      obtain ⟨_, there, flight⟩ := flies _ rest jobs
      cases held.symm.trans there
      exact .flies s _ held flight rfl flight (fun active => ⟨active, rfl⟩) (.inl rfl) rfl
        (same [] rfl (by simp))
  | refuse s rest held active jobs =>
      obtain ⟨_, there, flight⟩ := flies _ rest jobs
      cases held.symm.trans there
      exact .flies s s.stopped.free held flight rfl flight (fun active => absurd active (by simp [
        Sequence.free, Sequence.stopped])) (.inr rfl) rfl (same [.cancelled] rfl (by simp))
  | await s step expression rest held active task jobs =>
      obtain ⟨_, there, flight⟩ := flies _ rest jobs
      cases held.symm.trans there
      exact .flies s _ held flight rfl flight (fun active => ⟨active, rfl⟩) (.inl rfl) rfl
        (same [.waitingOnTrigger expression] rfl (by simp))
  | leave s job rest held jobs last =>
      obtain ⟨_, there, flight⟩ := flies _ rest jobs
      cases held.symm.trans there
      exact .flies s s.free held flight rfl flight (fun active => ⟨active, rfl⟩) (.inl rfl) rfl
        (same [] rfl (by simp))
  | satisfied s expression rest held jobs =>
      obtain ⟨_, there, flight⟩ := flies _ rest jobs
      cases held.symm.trans there
      exact .flies s s.free held flight rfl flight (fun active => ⟨active, rfl⟩) (.inl rfl) rfl
        (same [.triggerSatisfied expression] rfl (by simp))
  | step s step queue rest held active filled unpaused jobs =>
      obtain ⟨_, there, flight⟩ := flies _ rest jobs
      cases held.symm.trans there
      exact .flies s _ held flight rfl flight (fun active => ⟨active, rfl⟩) (.inl rfl) rfl
        (same [] rfl (by simp))
  | stop s rest held inactive jobs =>
      obtain ⟨flight, _, _⟩ := sound_next id c s rest held jobs sound
      exact .lands s _ held flight rfl rfl (.inl rfl) rfl (same [] rfl (by simp))
  | halt s rest held active filled paused jobs =>
      obtain ⟨flight, _, _⟩ := sound_next id c s rest held jobs sound
      exact .lands s _ held flight rfl rfl (.inr rfl) rfl (same [.paused] rfl (by simp))
  | drain s rest held active empty jobs =>
      obtain ⟨flight, _, task⟩ := sound_next id c s rest held jobs sound
      exact .drains s held flight active empty task rfl (same [] rfl (by simp))
  | complete s endings held active pending =>
      exact .completes s held active rfl (by rw [pending]; exact Nat.lt_succ_self endings)
  | passed endings pending inactive =>
      exact .passes rfl (by rw [pending]; exact Nat.lt_succ_self endings) inactive (same [] rfl (by simp))
  | create | enqueue | pause | withdraw | deactivate | clear =>
      exact absurd relists (not_relists _ _ rfl (Nat.le_refl _))
  | resume | activate =>
      exact absurd relists (not_relists _ _ rfl (Nat.le_add_left _ _))

theorem proceeds_flight (s next : Sequence) (endings : Nat) (news : List Progress)
    (proceeds : Proceeds s endings news next) (flight : next.inFlight = true) :
    s.inFlight = true ∨ s.queue ≠ [] := by
  cases proceeds with
  | stays | pauses | ends => exact .inl flight
  | hands step rest active free unpaused queue => exact .inr (by simp [queue])

theorem proceeds_running (s next : Sequence) (endings : Nat) (news : List Progress)
    (proceeds : Proceeds s endings news next) (state : s.state = .running)
    (flight : next.inFlight = true) : next.state = .running := by
  cases proceeds with
  | stays | ends | hands => exact state
  | pauses active free paused => exact absurd (flight.symm.trans free) (by decide)

theorem deals_flight (summons : Option Summons) (deals : Deals id summons c after) (sound : c.Sound id)
    (unmarked : ∀ progress, .announce id progress ∈ c.jobs → progress.mark? = none) (next : Sequence)
    (now : after.sequence = some next) (flight : next.inFlight = true) :
    ∃ s, c.sequence = some s ∧ (s.inFlight = true ∨ s.queue ≠ []) := by
  cases deals with
  | stays => exact ⟨next, now, .inl flight⟩
  | answers summons _ _ answers =>
      cases answers with
      | create =>
          cases now
          contradiction
      | push _ s _ held | pause _ s held | withdraw _ s held | stop _ _ s _ held | clear _ s held =>
          cases now
          exact ⟨s, held, .inl flight⟩
      | activate _ s _ _ _ held _ proceeds | resume _ s _ _ _ held _ _ _ proceeds =>
          cases now
          exact ⟨s, held, by simpa using proceeds_flight _ _ _ _ proceeds flight⟩
      | vain => exact ⟨next, now, .inl flight⟩
  | works _ _ stroke relists =>
      cases stroke_advances stroke relists sound unmarked with
      | flies s _ held flies | lands s _ held flies | drains s held flies => exact ⟨s, held, .inl flies⟩
      | completes s held active done =>
          cases now.symm.trans done
          exact ⟨s, held, .inl flight⟩
      | passes same => exact ⟨next, same ▸ now, .inl flight⟩

theorem deals_running (summons : Option Summons) (deals : Deals id summons c after) (sound : c.Sound id)
    (unmarked : ∀ progress, .announce id progress ∈ c.jobs → progress.mark? = none)
    (running : c.Running) : after.Running := by
  intro next now active flight
  cases deals with
  | stays => exact running next now active flight
  | answers summons _ _ answers =>
      cases answers with
      | create =>
          cases now
          contradiction
      | push _ s _ held | pause _ s held | withdraw _ s held | clear _ s held =>
          cases now
          exact running s held active flight
      | stop =>
          cases now
          contradiction
      | activate _ s _ _ _ held _ proceeds | resume _ s _ _ _ held _ _ _ proceeds =>
          cases now
          exact proceeds_running _ _ _ _ proceeds rfl flight
      | vain => exact running next now active flight
  | works _ _ stroke relists =>
      cases stroke_advances stroke relists sound unmarked with
      | flies s _ held flies there _ still =>
          cases now.symm.trans there
          obtain ⟨before, state⟩ := still active
          exact state.trans (running s held before flies)
      | lands s _ held flies there free =>
          cases now.symm.trans there
          exact absurd (flight.symm.trans free) (by decide)
      | drains s held flies _ _ _ there =>
          cases now.symm.trans there
          contradiction
      | completes s held _ done =>
          cases now.symm.trans done
          contradiction
      | passes same => exact running next (same ▸ now) active flight

theorem proceeds_listed (s next : Sequence) (endings : Nat) (news : List Progress)
    (proceeds : Proceeds s endings news next) (state : s.state = .running) (listed : 0 < endings) :
    next.Spent ∧ next.queue = [] := by
  cases proceeds with
  | stays | pauses | hands => contradiction
  | ends active free unpaused empty => exact ⟨⟨active, free, state⟩, empty⟩

theorem deals_listed (summons : Option Summons) (deals : Deals id summons c after) (sound : c.Sound id)
    (unmarked : ∀ progress, .announce id progress ∈ c.jobs → progress.mark? = none)
    (running : c.Running) (listed : c.endings < after.endings) :
    ∃ next, after.sequence = some next ∧ next.Spent ∧ next.queue = [] := by
  cases deals with
  | stays => exact absurd listed (Nat.lt_irrefl _)
  | answers summons _ _ answers =>
      cases answers with
      | create | push | pause | withdraw | stop | clear | vain => exact absurd listed (Nat.lt_irrefl _)
      | activate _ s next endings _ _ _ proceeds | resume _ s next endings _ _ _ _ _ proceeds =>
          exact ⟨next, rfl, proceeds_listed _ next endings _ proceeds rfl (by simpa using listed)⟩
  | works _ _ stroke relists =>
      cases stroke_advances stroke relists sound unmarked with
      | flies _ _ _ _ _ _ _ _ same | lands _ _ _ _ _ _ _ same => exact absurd (same ▸ listed) (Nat.lt_irrefl _)
      | drains s held flies active empty task now =>
          exact ⟨_, now, ⟨active, rfl, running s held active flies⟩, empty⟩
      | completes _ _ _ _ fewer | passes _ fewer => exact absurd listed (Nat.lt_asymm fewer)

theorem deals_spent (summons : Option Summons) (deals : Deals id summons c after) (sound : c.Sound id)
    (unmarked : ∀ progress, .announce id progress ∈ c.jobs → progress.mark? = none) (s : Sequence)
    (held : c.sequence = some s) (spent : s.Spent) (going : ¬ after.Stopped) :
    ∃ next, after.sequence = some next ∧ next.Spent ∧
      next.queue = s.queue ++ (summons.map Summons.steps).getD [] := by
  cases deals with
  | stays => exact ⟨s, held, spent, (List.append_nil _).symm⟩
  | answers summons _ _ answers =>
      cases answers with
      | create _ _ _ _ _ _ absent => exact absurd (held.symm.trans absent) (by simp)
      | push _ _ steps there =>
          cases held.symm.trans there
          exact ⟨_, rfl, ⟨spent.active, spent.free, spent.state⟩, rfl⟩
      | pause _ _ there | withdraw _ _ there =>
          cases held.symm.trans there
          exact ⟨_, rfl, ⟨spent.active, spent.free, spent.state⟩, (List.append_nil _).symm⟩
      | activate _ _ _ _ _ there inactive | clear _ _ there inactive =>
          cases held.symm.trans there
          exact absurd (spent.active.symm.trans inactive) (by decide)
      | resume _ _ _ _ _ there _ _ reached =>
          cases held.symm.trans there
          exact absurd (spent.state.symm.trans reached) (by decide)
      | stop => exact absurd (by simp [Course.Stopped, Sequence.stopped]) going
      | vain _ _ idle =>
          refine ⟨s, held, spent, ?_⟩
          rcases idle with rfl | rfl | rfl <;> exact (List.append_nil _).symm
  | works _ _ stroke relists =>
      cases stroke_advances stroke relists sound unmarked with
      | flies _ _ there flies | lands _ _ there flies | drains _ there flies =>
          cases held.symm.trans there
          exact absurd (spent.free.symm.trans flies) (by decide)
      | completes _ _ _ now => exact absurd (by simp [Course.Stopped, now]) going
      | passes _ _ inactive => exact absurd (spent.active.symm.trans (inactive s held)) (by decide)

-- The sequence comes to be completed, or says so.
def Course.Completes (c after : Course) : Prop :=
  .completed ∈ c.news after ∨
    ∃ next, after.sequence = some next ∧ next.state = .completed ∧
      ∀ s, c.sequence = some s → s.state ≠ .completed

theorem proceeds_silent (s next : Sequence) (endings : Nat) (news : List Progress)
    (proceeds : Proceeds s endings news next) (state : s.state = .running) :
    .completed ∉ news ∧ next.state ≠ .completed := by
  cases proceeds with
  | stays | ends | hands => simp [state]
  | pauses => simp

theorem answers_incomplete (summons : Summons) (answers : Answers summons c after) :
    ¬ c.Completes after := by
  have apart : ∀ news, after.told = news ++ c.told → .completed ∉ news →
      (∀ next, after.sequence = some next → next.state = .completed →
        ∃ s, c.sequence = some s ∧ s.state = .completed) → ¬ c.Completes after := by
    rintro news told silent kept (said | ⟨next, now, completed, other⟩)
    · rw [news_told c after news told] at said
      exact silent said
    · obtain ⟨s, held, before⟩ := kept next now completed
      exact other s held before
  cases answers with
  | create =>
      refine apart [] rfl (by simp) ?_
      rintro _ ⟨⟩ completed
      contradiction
  | push _ s _ held | pause _ s held | withdraw _ s held | clear _ s held =>
      refine apart [] rfl (by simp) ?_
      rintro _ ⟨⟩ completed
      exact ⟨s, held, completed⟩
  | activate _ s next endings news held _ proceeds | resume _ s next endings news held _ _ _ proceeds =>
      obtain ⟨silent, state⟩ := proceeds_silent _ next endings news proceeds rfl
      refine apart (news ++ [_]) (List.append_cons news _ _) (by simpa using silent) ?_
      rintro _ ⟨⟩ completed
      exact absurd completed state
  | stop =>
      refine apart [.cancelled] rfl (by simp) ?_
      rintro _ ⟨⟩ completed
      contradiction
  | vain => exact apart [] rfl (by simp) fun next now completed => ⟨next, now, completed⟩

theorem deals_completes (summons : Option Summons) (deals : Deals id summons c after)
    (sound : c.Sound id)
    (unmarked : ∀ progress, .announce id progress ∈ c.jobs → progress.mark? = none)
    (completes : c.Completes after) :
    ∃ s, c.sequence = some s ∧ s.active = true ∧
      after.sequence = some { s with active := false, state := .completed } := by
  have silently : .completed ∉ c.news after → ∃ next, after.sequence = some next ∧
      next.state = .completed ∧ ∀ s, c.sequence = some s → s.state ≠ .completed :=
    fun silent => completes.resolve_left silent
  cases deals with
  | stays =>
      obtain ⟨next, now, completed, other⟩ := silently (by simp [Course.news])
      exact absurd completed (other next now)
  | answers summons _ _ answers => exact absurd completes (answers_incomplete summons answers)
  | works _ _ stroke relists =>
      cases stroke_advances stroke relists sound unmarked with
      | flies s next held _ now _ _ state _ silent =>
          obtain ⟨_, there, completed, other⟩ := silently silent
          cases now.symm.trans there
          rcases state with same | cancelled
          · exact absurd (same.symm.trans completed) (other s held)
          · exact absurd (cancelled.symm.trans completed) (by decide)
      | lands s next held _ now _ state _ silent =>
          obtain ⟨_, there, completed, other⟩ := silently silent
          cases now.symm.trans there
          rcases state with same | paused
          · exact absurd (same.symm.trans completed) (other s held)
          · exact absurd (paused.symm.trans completed) (by decide)
      | drains s held _ _ _ _ now silent =>
          obtain ⟨_, there, completed, other⟩ := silently silent
          cases now.symm.trans there
          exact absurd completed (other s held)
      | completes s held active now => exact ⟨s, held, active, now⟩
      | passes same _ _ silent =>
          obtain ⟨next, there, completed, other⟩ := silently silent
          exact absurd completed (other next (same ▸ there))

end

namespace Ledger

structure Extends (ledger next : Ledger) (steps : List Step) : Prop where
  pushed : next.pushed = ledger.pushed ++ steps
  executed : ledger.executed ⊆ next.executed
  discarded : ledger.discarded ⊆ next.discarded

theorem enter_extends (ledger : Ledger) (steps : List Step) (starts finishes drops : Bool)
    (left : Nat) : ledger.Extends (ledger.enter steps starts finishes drops left) steps := by
  refine ⟨?_, ?_, ?_⟩ <;> cases starts <;> cases finishes <;> cases drops <;>
    simp [enter, push, start, finish, drop, take]

end Ledger

structure Leaves (ledger : Ledger) (mark : Nat) (whole : Bool) (c : Course) : Prop where
  within : mark ≤ ledger.pushed.length
  gone : ∀ number < mark, number ∈ ledger.executed ++ ledger.discarded
  flight : ∀ s, c.sequence = some s → s.inFlight = true → mark < ledger.pushed.length
  spent : whole = true →
    ∃ s, c.sequence = some s ∧ s.Spent ∧ s.queue = ledger.pushed.drop mark

section

variable {id : SequenceId} {c after : Course} {ledger : Ledger} {mark : Nat} {whole : Bool}

theorem agrees_spent (s : Sequence) (held : c.sequence = some s) (sound : c.Sound id)
    (balanced : ledger.Balanced) (agrees : Agrees id ledger c) (free : s.inFlight = false)
    (empty : s.queue = []) :
    ∀ number < ledger.pushed.length, number ∈ ledger.executed ++ ledger.discarded := by
  intro number inside
  have station := (sound_held id c s held).mp sound
  rw [free] at station
  have flying := agrees_free agrees ((task_held c s held).trans (station_idle station).1)
  have queued : ledger.queued = [] := by
    have queue := agrees.queue
    rw [queue_held c s held, empty] at queue
    simpa [Ledger.steps] using queue
  have member := (ledger.balanced_perm balanced).mem_iff.mpr (List.mem_range.mpr inside)
  simpa [flying, queued] using member

theorem leaves_later (leaves : Leaves ledger mark whole c) (balanced : ledger.Balanced) :
    ∀ number ∈ ledger.queued ++ ledger.flying, mark ≤ number ∧ number < ledger.pushed.length := by
  intro number member
  have perm := ledger.balanced_perm balanced
  have inside : number < ledger.pushed.length := by
    refine List.mem_range.mp (perm.mem_iff.mp ?_)
    rw [List.append_assoc]
    exact List.mem_append_left _ member
  refine ⟨Nat.not_lt.mp fun early => ?_, inside⟩
  have once := perm.nodup_iff.mpr List.nodup_range
  rw [List.append_assoc] at once
  exact (List.nodup_append.mp once).2.2 number member number (leaves.gone number early) rfl

theorem leaves_deals (summons : Option Summons) (deals : Deals id summons c after) (sound : c.Sound id)
    (unmarked : ∀ progress, .announce id progress ∈ c.jobs → progress.mark? = none)
    (balanced : ledger.Balanced) (agrees : Agrees id ledger c) (leaves : Leaves ledger mark whole c)
    (going : Bool) (active : going = true → ¬ after.Stopped) :
    Leaves (ledger.follow summons c after) mark (whole && going) after := by
  have grows := ledger.enter_extends ((summons.map Summons.steps).getD [])
    ((c.news after).any fun progress => progress.text?.isSome)
    (c.task?.isSome && after.task?.isNone)
    (summons.any Summons.disposes || (c.news after).contains .cancelled) after.queue.length
  have longer : ledger.pushed.length ≤ (ledger.follow summons c after).pushed.length := by
    rw [Ledger.follow, grows.pushed, List.length_append]
    exact Nat.le_add_right _ _
  refine ⟨leaves.within.trans longer, fun number early => ?_, fun next now flight => ?_, fun both => ?_⟩
  · rcases List.mem_append.mp (leaves.gone number early) with executed | discarded
    · exact List.mem_append_left _ (grows.executed executed)
    · exact List.mem_append_right _ (grows.discarded discarded)
  · obtain ⟨s, held, flies | filled⟩ := deals_flight summons deals sound unmarked next now flight
    · exact (leaves.flight s held flies).trans_le longer
    · have length := agrees_queue agrees
      rw [queue_held c s held] at length
      obtain ⟨number, rest, queued⟩ : ∃ number rest, ledger.queued = number :: rest :=
        List.exists_cons_of_length_pos (length ▸ List.length_pos_iff.mpr filled)
      obtain ⟨later, inside⟩ := leaves_later leaves balanced number (by simp [queued])
      exact (later.trans_lt inside).trans_le longer
  · rw [Bool.and_eq_true] at both
    obtain ⟨s, held, spent, queue⟩ := leaves.spent both.1
    obtain ⟨next, now, still, queued⟩ :=
      deals_spent summons deals sound unmarked s held spent (active both.2)
    refine ⟨next, now, still, ?_⟩
    rw [queued, queue, Ledger.follow, grows.pushed, List.drop_append_of_le_length leaves.within]

theorem leaves_listed (summons : Option Summons) (deals : Deals id summons c after) (sound : c.Sound id)
    (unmarked : ∀ progress, .announce id progress ∈ c.jobs → progress.mark? = none)
    (running : c.Running) (listed : c.endings < after.endings) (next : Ledger) (settled : after.Sound id)
    (balanced : next.Balanced) (agrees : Agrees id next after) :
    Leaves next next.pushed.length true after := by
  obtain ⟨s, now, spent, empty⟩ := deals_listed summons deals sound unmarked running listed
  refine ⟨Nat.le_refl _, agrees_spent s now settled balanced agrees spent.free empty, ?_, fun _ => ?_⟩
  · intro other there flight
    cases now.symm.trans there
    exact absurd (spent.free.symm.trans flight) (by decide)
  · exact ⟨s, now, spent, by rw [empty, List.drop_length]⟩

end

namespace Plant

-- A plant that a session can come to, the ledger of one of its sequences, how many steps had been pushed
-- when the sequence last ran out of them, and whether it has been active ever since.
inductive Drained (id : SequenceId) : Plant → Ledger → Nat → Bool → Prop where
  | blank (start : Calendar.Instant) (hasRuntime : Bool) :
      Drained id (blank start hasRuntime) .blank 0 false
  | listed (plant next : Plant) (ledger : Ledger) (mark : Nat) (whole : Bool) (deed : Deed)
      (earlier : Drained id plant ledger mark whole) (move : Move plant deed next)
      (listed : (plant.course id).endings < (next.course id).endings) :
      Drained id next (ledger.follow (plant.asks? id deed) (plant.course id) (next.course id))
        (ledger.follow (plant.asks? id deed) (plant.course id) (next.course id)).pushed.length true
  | move (plant next : Plant) (ledger : Ledger) (mark : Nat) (whole : Bool) (deed : Deed)
      (earlier : Drained id plant ledger mark whole) (move : Move plant deed next)
      (unlisted : ¬ (plant.course id).endings < (next.course id).endings) :
      Drained id next (ledger.follow (plant.asks? id deed) (plant.course id) (next.course id)) mark
        (whole && !decide (next.Stopped id))

section

variable {id : SequenceId} {plant next : Plant} {ledger : Ledger} {mark : Nat} {whole : Bool}

theorem drained_recorded (drained : Drained id plant ledger mark whole) : Recorded id plant ledger := by
  induction drained with
  | blank start hasRuntime => exact .blank start hasRuntime
  | listed plant next ledger _ _ deed _ move _ ih => exact .move plant next ledger deed ih move
  | move plant next ledger _ _ deed _ move _ ih => exact .move plant next ledger deed ih move

theorem recorded_running (recorded : Recorded id plant ledger) : (plant.course id).Running := by
  induction recorded with
  | blank => simp [Course.Running, course, Plant.blank]
  | move plant next _ deed earlier move ih =>
      exact deals_running _ (move_deals plant next deed move id)
        (reached_sound plant (recorded_reached earlier) id) (recorded_unmarked earlier) ih

theorem drained_leaves (drained : Drained id plant ledger mark whole) :
    Leaves ledger mark whole (plant.course id) := by
  induction drained with
  | blank => exact ⟨Nat.le_refl _, by simp, by simp [course, Plant.blank], by simp⟩
  | listed plant next ledger _ _ deed earlier move listed =>
      have before := drained_recorded earlier
      have after := Recorded.move plant next ledger deed before move
      exact leaves_listed _ (move_deals plant next deed move id)
        (reached_sound plant (recorded_reached before) id) (recorded_unmarked before)
        (recorded_running before) listed _ (reached_sound next (recorded_reached after) id)
        (recorded_balanced after) (recorded_agrees after)
  | move plant next ledger _ _ deed earlier move _ ih =>
      have before := drained_recorded earlier
      exact leaves_deals _ (move_deals plant next deed move id)
        (reached_sound plant (recorded_reached before) id) (recorded_unmarked before)
        (recorded_balanced before) (recorded_agrees before) ih _
        (fun going stopped => by simp [show next.Stopped id from stopped] at going)

theorem completed_leftover (drained : Drained id plant ledger mark whole) (deed : Deed)
    (move : Move plant deed next) :
    ((plant.course id).endings < (next.course id).endings →
      ∃ s, next.sequences[id]? = some s ∧ s.active = true ∧ s.queue = [] ∧ s.task = none ∧
        s.inFlight = false) ∧
    ((plant.course id).Completes (next.course id) →
      ∃ s, next.sequences[id]? = some s ∧ s.active = false ∧ s.state = .completed ∧
        ledger.steps ledger.queued = s.queue.map some ∧
        ledger.steps ledger.flying = (s.task.map Task.step).toList.map some ∧
        (∀ number ∈ ledger.queued ++ ledger.flying, mark ≤ number ∧ number < ledger.pushed.length) ∧
        (∀ number < mark, number ∈ ledger.executed ++ ledger.discarded) ∧
        (s.inFlight = true → mark < ledger.pushed.length) ∧
        (ledger.pushed.length = mark → s.queue = [] ∧ s.task = none ∧ s.inFlight = false) ∧
        (whole = true → s.queue = ledger.pushed.drop mark ∧ s.task = none ∧ s.inFlight = false)) := by
  have recorded := drained_recorded drained
  have deals := move_deals plant next deed move id
  have sound := reached_sound plant (recorded_reached recorded) id
  have unmarked := recorded_unmarked recorded
  have leaves := drained_leaves drained
  have agrees := recorded_agrees recorded
  have later := leaves_later leaves (recorded_balanced recorded)
  have free : ∀ s, (plant.course id).sequence = some s → s.inFlight = false → s.task = none := by
    intro s held free
    have station := (sound_held id _ s held).mp sound
    rw [free] at station
    exact (station_idle station).1
  refine ⟨fun listed => ?_, fun completes => ?_⟩
  · obtain ⟨s, now, spent, empty⟩ :=
      deals_listed _ deals sound unmarked (recorded_running recorded) listed
    have station := (sound_held id _ s now).mp
      (reached_sound next (reached_move plant next (recorded_reached recorded) deed move) id)
    rw [spent.free] at station
    exact ⟨s, now, spent.active, empty, (station_idle station).1, spent.free⟩
  · obtain ⟨s, held, active, now⟩ := deals_completes _ deals sound unmarked completes
    have queue := agrees.queue
    have flight := agrees.flight
    rw [queue_held _ s held] at queue
    rw [task_held _ s held] at flight
    refine ⟨_, now, rfl, rfl, queue, flight, later, leaves.gone, leaves.flight s held, ?_, ?_⟩
    · intro same
      have unfilled : ledger.queued = [] := List.eq_nil_iff_forall_not_mem.mpr fun number member => by
        obtain ⟨late, inside⟩ := later number (List.mem_append_left _ member)
        omega
      have idle : s.inFlight = false := by
        by_contra flies
        exact Nat.lt_irrefl _ (same ▸ leaves.flight s held (by simpa using flies))
      refine ⟨?_, free s held idle, idle⟩
      simpa [unfilled, Ledger.steps] using queue.symm
    · intro kept
      obtain ⟨other, there, spent, queued⟩ := leaves.spent kept
      cases held.symm.trans there
      exact ⟨queued, free s held spent.free, spent.free⟩

end

def drained (id : SequenceId) : Plant → Ledger × Nat × Bool → List Deed → Ledger × Nat × Bool
  | _, account, [] => account
  | plant, (ledger, mark, whole), deed :: rest =>
      let next := plant.after deed
      let followed := ledger.follow (plant.asks? id deed) (plant.course id) (next.course id)
      drained id next
        (if (plant.course id).endings < (next.course id).endings then
          (followed, followed.pushed.length, true)
        else (followed, mark, whole && !decide (next.Stopped id)))
        rest

theorem drained_after (id : SequenceId) (plant : Plant) (account : Ledger × Nat × Bool)
    (deeds : List Deed) (passed : follows (fun _ _ _ => true) plant deeds = true)
    (earlier : Drained id plant account.1 account.2.1 account.2.2) :
    Drained id (deeds.foldl after plant) (drained id plant account deeds).1
      (drained id plant account deeds).2.1 (drained id plant account deeds).2.2 := by
  induction deeds generalizing plant account with
  | nil => exact earlier
  | cons deed rest ih =>
      simp only [follows, Bool.and_eq_true] at passed
      have move := (after_orderly plant deed passed.1.1).move
      obtain ⟨ledger, mark, whole⟩ := account
      rw [List.foldl_cons, drained]
      refine ih _ _ passed.2 ?_
      by_cases listed : (plant.course id).endings < ((plant.after deed).course id).endings
      · simp only [if_pos listed]
        exact .listed plant _ ledger mark whole deed earlier move listed
      · simp only [if_neg listed]
        exact .move plant _ ledger mark whole deed earlier move listed

-- A handler refills the sequence when it is told that the steps have run out.
def refilling : List Deed :=
  [.call (.sequence (.make "s" 100)), .call (.sequence (.step "p" "Bath.Pump=1" none "")),
    .call (.subscribe "h" .sequence "s" none false 1 [.sequence (.push "s" "p" 1)]),
    .job, .call (.sequence (.activate "s")), .job, .job, .job]

def refilledLate : Plant := refilling.foldl after (Plant.blank ⟨0, 0⟩ true)

theorem refilled_late_leftover :
    ∃ s, (refilledLate.after .job).sequences[0]? = some s ∧ s.state = .completed ∧
      s.queue = [Step.create "Bath.Pump=1" none ""] ∧ s.inFlight = false := by
  have behind := drained_after 0 (Plant.blank ⟨0, 0⟩ true) (.blank, 0, false) refilling
    (by decide +kernel) (.blank _ _)
  have move := (after_orderly refilledLate .job (by decide +kernel)).move
  obtain ⟨s, now, _, state, _, _, _, _, _, _, left⟩ := (completed_leftover behind .job move).2
    (.inl (by decide +kernel))
  obtain ⟨queue, _, free⟩ := left (by decide +kernel)
  refine ⟨s, now, state, queue.trans (by decide +kernel), free⟩

end Plant

end Interlock
