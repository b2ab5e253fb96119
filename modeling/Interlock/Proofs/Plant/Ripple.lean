import Interlock.Proofs.Plant.Hearing

/-!
What an assignment causes: deliveries, evaluations and ends of activity, until nothing is left to do.
As long as handlers only observe, no value changes meanwhile, and a trigger that is in use stays as it
is, evaluates, or is exhausted.
-/

set_option autoImplicit false

namespace Interlock

open Interlock.Calendar (Instant)
open Interlock.Graph

def Job.isRipple : Job → Bool
  | .deliver _ _ | .leave _ | .exhaust _ => true
  | _ => false

def Observer.Passive (observer : Observer) : Prop := observer.remaining = 0 ∨ observer.script = []

namespace Plant

-- A handler with a label of its own has subscribed to the trigger and to nothing else.
structure Attends (plant : Plant) (o : ObserverId) (label : String) (t : TriggerId) : Prop where
  there : ∃ observer, plant.observers[o]? = some observer ∧ observer.label = label
  named : ∀ id observer, plant.observers[id]? = some observer → observer.label = label → id = o
  once : (plant.listeners (.trigger t)).countP (fun s => s.listener == .observer o) = 1
  only : ∀ node, node ≠ .trigger t → ∀ s ∈ plant.listeners node, s.listener ≠ .observer o

theorem attends_apart {plant : Plant} {o : ObserverId} {label : String} {t : TriggerId}
    (attends : plant.Attends o label t) (node : Node) (apart : node ≠ .trigger t) :
    ∀ listener ∈ (plant.listeners node).map Subscriber.listener, listener ≠ .observer o :=
  List.forall_mem_map.mpr (attends.only node apart)

def Retained (plant : Plant) (t : TriggerId) : Prop := triggerInUse { plant with agenda := [] } t = true

-- The trigger lasts, handlers only observe, and what is left to do comes from assignments.
structure Watched (plant : Plant) (t : TriggerId) : Prop where
  retained : plant.Retained t
  passive : ∀ observer ∈ plant.observers, observer.Passive
  ripples : ∀ job ∈ plant.agenda, job.isRipple = true

def Hears (t : TriggerId) (plant next : Plant) (news : List Notification) : Prop :=
  ∀ o label, plant.Attends o label t → next.Attends o label t ∧ ∃ heard,
    next.heard label = plant.heard label ++ heard ∧
      heard ++ next.notices o = news ++ plant.notices o

section

variable {plant next : Plant} {o : ObserverId} {label : String} {t : TriggerId}

theorem attends_hushed (attends : plant.Attends o label t) (hushed : Hushed plant next) :
    next.Attends o label t where
  there := hushed.observers ▸ attends.there
  named := by
    rw [hushed.observers]
    exact attends.named
  once := by
    rw [hushed.own]
    exact attends.once
  only node apart s member := by
    rcases hushed.listeners node s member with old | inside
    · exact attends.only node apart s old
    · intro same
      rw [same] at inside
      contradiction

theorem retained_in_use (retained : plant.Retained t) : plant.triggerInUse t = true := by
  simp only [Retained, triggerInUse, Bool.or_eq_true] at retained ⊢
  rcases retained with ((named | entered) | step) | held
  · exact .inl (.inl (.inl named))
  · contradiction
  · exact .inl (.inr step)
  · exact .inr held

theorem retained_hushed (retained : plant.Retained t) (hushed : Hushed plant next) : next.Retained t := by
  have same : usage { next with agenda := [] } = usage { plant with agenda := [] } := by
    rw [usage, usage, hushed.desk, hushed.sequences]
  rw [Retained, trigger_use_same same]
  exact retained

theorem watched_hushed (watched : plant.Watched t) (hushed : Hushed plant next)
    (ripples : ∀ job ∈ next.agenda, job.isRipple = true) : next.Watched t :=
  ⟨retained_hushed watched.retained hushed, hushed.observers ▸ watched.passive, ripples⟩

theorem hears_then {middle : Plant} {news : List Notification} (first : Hears t plant middle news)
    (second : Hears t middle next []) : Hears t plant next news := by
  intro o label attends
  obtain ⟨between, before, heard, pending⟩ := first o label attends
  obtain ⟨after, later, reheard, repending⟩ := second o label between
  refine ⟨after, before ++ later, ?_, ?_⟩
  · rw [reheard, heard, List.append_assoc]
  · rw [List.append_assoc, repending, List.nil_append, pending]

theorem notices_deliveries (subscribers : Subscribers) (notification : Notification) (o : ObserverId) :
    (subscribers.map fun s => Job.deliver s.listener notification).filterMap (Job.notice? o) =
      List.replicate (subscribers.countP fun s => s.listener == .observer o) notification := by
  induction subscribers with
  | nil => rfl
  | cons s rest ih =>
      rw [List.map_cons, List.filterMap_cons, List.countP_cons, ih]
      cases told : s.listener with
      | observer id =>
          by_cases same : id = o
          · simp [Job.notice?, same, List.replicate_succ]
          · simp [Job.notice?, same]
      | comparison | trigger | follower => simp [Job.notice?]

theorem notices_elsewhere (attends : plant.Attends o label t) (node : Node) (apart : node ≠ .trigger t)
    (notification : Notification) :
    ((plant.listeners node).map fun s => Job.deliver s.listener notification).filterMap
      (Job.notice? o) = [] := by
  have none : (plant.listeners node).countP (fun s => s.listener == .observer o) = 0 := by
    rw [List.countP_eq_zero]
    intro s member
    simpa using attends.only node apart s member
  rw [notices_deliveries, none]
  rfl

theorem deliveries_ripple (subscribers : Subscribers) (notification : Notification) :
    ∀ job ∈ subscribers.map fun s => Job.deliver s.listener notification, job.isRipple = true := by
  intro job member
  obtain ⟨s, _, rfl⟩ := List.mem_map.mp member
  rfl

theorem publish_agenda (plant : Plant) (subscribers : Subscribers) (notification : Notification)
    (after : List Job) : (plant.publish subscribers notification after).agenda =
      (subscribers.map fun s => Job.deliver s.listener notification) ++ (after ++ plant.agenda) :=
  List.append_assoc _ _ _

theorem refresh_publishes (plant : Plant) (c : ComparisonId) (comparison : Comparison)
    (there : plant.comparisons[c]? = some comparison) (stamp : Instant) :
    Hushed plant (plant.refresh c comparison stamp).2 ∧ ∃ notification,
      (plant.refresh c comparison stamp).2.agenda =
        (comparison.subscribers.map fun s => Job.deliver s.listener notification) ++
          ([.leave (.comparison c)] ++ plant.agenda) := by
  have set := hushed_set_comparison c comparison { comparison with latest := plant.sample comparison }
    there fun _ member => .inl member
  exact ⟨set.trans ((hushed_log _ _ _ _ _).trans (hushed_push _ _)), _, publish_agenda _ _ _ _⟩

structure Published (t : TriggerId) (plant next : Plant) (trigger : Trigger)
    (found : Trigger.Evaluation) : Prop where
  hushed : Hushed plant next
  triggers : next.triggers = plant.triggers.set t found.trigger
  agenda : ∃ stamp, next.agenda =
    (trigger.subscribers.map fun s => Job.deliver s.listener
      ⟨trigger.expression, found.change, .bool found.trigger.latest, stamp⟩) ++
      (((if found.exhausted then [.exhaust t] else []) ++ [.leave (.trigger t)]) ++ plant.agenda)
  bound : Bound plant next

theorem behind_deliveries (exhausted : Bool) (t : TriggerId) (job : Job)
    (member : job ∈ (if exhausted then [.exhaust t] else []) ++ [.leave (.trigger t)]) :
    job = .exhaust t ∧ exhausted = true ∨ job = .leave (.trigger t) := by
  rcases List.mem_append.mp member with last | left
  · split at last
    · next due => exact .inl ⟨List.mem_singleton.mp last, due⟩
    · contradiction
  · exact .inr (List.mem_singleton.mp left)

theorem evaluate_publishes (plant : Plant) (t : TriggerId) (trigger : Trigger)
    (there : plant.triggers[t]? = some trigger) (compiled : trigger.Compiled) (stamp : Instant) :
    ∃ found, trigger.evaluate (plant.truths trigger.children) = .ok found ∧
      Published t plant (plant.evaluate t trigger stamp).2 trigger found := by
  obtain ⟨found, evaluated⟩ := evaluate_total trigger compiled (plant.truths trigger.children)
  refine ⟨found, evaluated, ?_⟩
  have subscribers := (evaluate_links trigger _ found evaluated).2
  have set := hushed_set_trigger t trigger found.trigger there subscribers
  obtain ⟨change, woken⟩ := wake_waiting_dispatch (plant.setTrigger t found.trigger) t
  have ready := set.trans (hushed_dispatch _ change)
  rw [evaluate, evaluated]
  dsimp only
  rw [woken]
  split
  · exact ⟨ready.trans ((hushed_log _ _ _ _ _).trans (hushed_push _ _)), rfl,
      ⟨stamp, publish_agenda _ _ _ _⟩, bound_refl plant _ rfl⟩
  · exact ⟨ready.trans (hushed_push _ _), rfl, ⟨stamp, publish_agenda _ _ _ _⟩, bound_refl plant _ rfl⟩

theorem evaluate_succeeds (plant : Plant) (t : TriggerId) (trigger : Trigger)
    (compiled : trigger.Compiled) (stamp : Instant) :
    ∃ change, (plant.evaluate t trigger stamp).1 = .ok change := by
  obtain ⟨found, evaluated⟩ := evaluate_total trigger compiled (plant.truths trigger.children)
  rw [evaluate, evaluated]
  exact ⟨found.change, rfl⟩

theorem hear_evaluates (plant : Plant) (t : TriggerId) (trigger : Trigger)
    (there : plant.triggers[t]? = some trigger) (compiled : trigger.Compiled) (stamp : Instant) :
    plant.hear t stamp =
      if trigger.active && plant.triggerInUse t then (plant.evaluate t trigger stamp).2 else plant := by
  obtain ⟨_, succeeds⟩ := evaluate_succeeds plant t trigger compiled stamp
  rw [hear, there]
  dsimp only
  split
  · split
    · next change next result => rw [result]
    · next error next result =>
        rw [result] at succeeds
        contradiction
  · rfl

structure Aside (plant : Plant) (t : TriggerId) (job : Job) : Prop where
  ripple : job.isRipple = true
  silent : ∀ o label, plant.Attends o label t → job.notice? o = none
  exhausted : job.exhausted? ≠ some t

structure Skips (t : TriggerId) (plant next : Plant) : Prop where
  hushed : Hushed plant next
  agenda : Adds (plant.Aside t) plant next

theorem skips_same (hushed : Hushed plant next) (agenda : next.agenda = plant.agenda) :
    Skips t plant next :=
  ⟨hushed, [], agenda, by simp⟩

theorem skips_hears (skips : Skips t plant next) : Hears t plant next [] := by
  intro o label attends
  obtain ⟨jobs, grown, aside⟩ := skips.agenda
  have silent : jobs.filterMap (Job.notice? o) = [] :=
    List.filterMap_eq_nil_iff.mpr fun job member => (aside job member).silent o label attends
  refine ⟨attends_hushed attends skips.hushed, [], ?_, ?_⟩
  · rw [skips.hushed.heard, List.append_nil]
  · rw [notices_append plant jobs o grown, silent, List.nil_append]

theorem skips_due (skips : Skips t plant next) : Due t next ↔ Due t plant :=
  due_adds t plant next (adds_weaken _ _ (fun _ aside => aside.exhausted) plant next skips.agenda)

theorem skips_watched (watched : plant.Watched t) (skips : Skips t plant next) : next.Watched t := by
  obtain ⟨jobs, grown, aside⟩ := skips.agenda
  refine watched_hushed watched skips.hushed fun job member => ?_
  rw [grown] at member
  rcases List.mem_append.mp member with new | old
  · exact (aside job new).ripple
  · exact watched.ripples job old

theorem aside_publishes (node : Node) (apart : node ≠ .trigger t) (notification : Notification)
    (after : List Job) (aside : ∀ job ∈ after, plant.Aside t job) :
    ∀ job ∈ ((plant.listeners node).map fun s => Job.deliver s.listener notification) ++ after,
      plant.Aside t job := by
  intro job member
  rcases List.mem_append.mp member with told | behind
  · refine ⟨deliveries_ripple _ notification job told, fun o label attends => ?_, ?_⟩
    · exact List.filterMap_eq_nil_iff.mp (notices_elsewhere attends node apart notification) job told
    · rw [(deliveries_plain _ notification job told).2]
      simp
  · exact aside job behind

theorem aside_leave (node : Node) : plant.Aside t (.leave node) :=
  ⟨rfl, fun _ _ _ => rfl, by simp [Job.exhausted?]⟩

theorem hear_variable_skips (c : ComparisonId) (stamp : Instant) :
    Skips t plant (plant.hearVariable c stamp) := by
  rw [hearVariable]
  split
  · exact skips_same (.refl plant) rfl
  · next comparison there =>
      split
      · obtain ⟨hushed, notification, agenda⟩ := refresh_publishes plant c comparison there stamp
        rw [← listeners_comparison c comparison there, ← List.append_assoc] at agenda
        refine ⟨hushed, _, agenda, aside_publishes (.comparison c) (by simp) notification _ ?_⟩
        intro job member
        rw [List.mem_singleton.mp member]
        exact aside_leave _
      · exact skips_same (.refl plant) rfl

theorem hear_other_skips (other : TriggerId) (apart : other ≠ t) (joined : plant.JoinedAt other)
    (stamp : Instant) : Skips t plant (plant.hear other stamp) := by
  cases there : plant.triggers[other]? with
  | none =>
      rw [hear, there]
      exact skips_same (.refl plant) rfl
  | some trigger =>
      have compiled := (joined trigger there).compiled
      rw [hear_evaluates plant other trigger there compiled stamp]
      split
      · obtain ⟨found, _, published⟩ := evaluate_publishes plant other trigger there compiled stamp
        obtain ⟨_, agenda⟩ := published.agenda
        rw [← listeners_trigger other trigger there, ← List.append_assoc] at agenda
        have node : Node.trigger other ≠ .trigger t := by simpa using apart
        refine ⟨published.hushed, _, agenda, aside_publishes (.trigger other) node _ _ ?_⟩
        intro job member
        rcases behind_deliveries _ other job member with ⟨rfl, _⟩ | rfl
        · exact ⟨rfl, fun _ _ _ => rfl, by simpa [Job.exhausted?] using apart⟩
        · exact aside_leave _
      · exact skips_same (.refl plant) rfl

theorem exhaust_hushed (plant : Plant) (id : TriggerId) :
    Hushed plant (plant.exhaust id) ∧ (plant.exhaust id).agenda = plant.agenda := by
  rw [exhaust]
  split
  · exact ⟨.refl plant, rfl⟩
  · exact ⟨(hushed_log _ _ _ _ _).trans (hushed_deactivate_trigger _ id),
      (still_deactivate_trigger _ id).agenda⟩

theorem passive_script (plant : Plant) (passive : ∀ observer ∈ plant.observers, observer.Passive)
    (id : ObserverId) (observer : Observer) (there : plant.observers[id]? = some observer) :
    ∃ after : Observer, after.label = observer.label ∧ after.Passive ∧
      plant.scriptOf id observer = plant.setObserver id after := by
  have own := passive observer (List.mem_of_getElem? there)
  rw [scriptOf]
  split
  · refine ⟨observer, rfl, own, ?_⟩
    have same : plant.observers.set id observer = plant.observers := by
      obtain ⟨inside, rfl⟩ := List.getElem?_eq_some_iff.mp there
      exact List.set_getElem_self inside
    rw [setObserver, same]
  · next remaining left =>
      have empty : observer.script = [] := own.resolve_left (by simp [left])
      exact ⟨{ observer with remaining := remaining }, rfl, .inr empty, by rw [empty]; rfl⟩

theorem passive_delivers (plant : Plant) (passive : ∀ observer ∈ plant.observers, observer.Passive)
    (id : ObserverId) (observer : Observer) (there : plant.observers[id]? = some observer)
    (notification : Notification) :
    ∃ after : Observer, after.label = observer.label ∧ after.Passive ∧
      plant.deliver (.observer id) notification =
        (plant.note (.notified observer.label notification)).setObserver id after := by
  rw [deliver, there]
  exact passive_script (plant.note (.notified observer.label notification)) passive id observer there

theorem attends_set_observer (attends : plant.Attends o label t) (id : ObserverId)
    (observer after : Observer) (there : plant.observers[id]? = some observer)
    (named : after.label = observer.label) : (plant.setObserver id after).Attends o label t := by
  have own := List.getElem?_set_self (a := after) (List.getElem?_eq_some_iff.mp there).1
  refine ⟨?_, fun other found known same => ?_, attends.once, attends.only⟩
  · obtain ⟨first, known, same⟩ := attends.there
    by_cases mine : o = id
    · subst mine
      cases there.symm.trans known
      exact ⟨after, own, named.trans same⟩
    · exact ⟨first, (List.getElem?_set_ne (Ne.symm mine)).trans known, same⟩
  · by_cases mine : other = id
    · subst mine
      cases own.symm.trans known
      exact attends.named other observer there (named ▸ same)
    · exact attends.named other found ((List.getElem?_set_ne (Ne.symm mine)).symm.trans known) same

inductive TriggerChange (t : TriggerId) (plant next : Plant) (trigger after : Trigger) : Prop where
  | same (core : after.core = trigger.core) (hears : Hears t plant next [])
      (due : Due t next → Due t plant)
  | evaluated (found : Trigger.Evaluation) (stamp : Instant) (active : trigger.active = true)
      (evaluated : trigger.evaluate (plant.truths trigger.children) = .ok found)
      (core : after.core = found.trigger.core)
      (hears : Hears t plant next
        [⟨trigger.expression, found.change, .bool found.trigger.latest, stamp⟩])
      (due : Due t next → Due t plant ∨ found.exhausted = true)
  | ended (last : Due t plant) (core : after.core = trigger.halted.core) (hears : Hears t plant next [])

structure WatchedMove (t : TriggerId) (plant next : Plant) (trigger after : Trigger) : Prop where
  there : next.triggers[t]? = some after
  trigger_change : TriggerChange t plant next trigger after
  watched : next.Watched t
  bound : Bound plant next
  values : next.valueOf = plant.valueOf

theorem skips_watched_move (watched : plant.Watched t) (trigger : Trigger)
    (there : plant.triggers[t]? = some trigger) (spares : Spares t plant next)
    (skips : Skips t plant next) : ∃ after, WatchedMove t plant next trigger after := by
  obtain ⟨after, found, core⟩ := spares.kept trigger there
  exact ⟨after, found, .same core (skips_hears skips) (skips_due skips).mp, skips_watched watched skips,
    spares.comparisons, skips.hushed.values⟩

theorem watched_move_then {middle : Plant} {trigger between : Trigger}
    (moved : WatchedMove t plant middle trigger between) (spares : Spares t middle next)
    (hushed : Hushed middle next) (agenda : next.agenda = middle.agenda) :
    ∃ after, WatchedMove t plant next trigger after := by
  obtain ⟨after, found, core⟩ := spares.kept between moved.there
  have skips : Skips t middle next := skips_same hushed agenda
  have hears := skips_hears skips
  have due := (skips_due skips).mp
  refine ⟨after, found, ?_, skips_watched moved.watched skips,
    bound_trans _ _ _ moved.bound spares.comparisons, hushed.values.trans moved.values⟩
  cases moved.trigger_change with
  | same same before last => exact .same (core.trans same) (hears_then before hears) (last ∘ due)
  | evaluated made stamp active evaluated same before last =>
      exact .evaluated made stamp active evaluated (core.trans same) (hears_then before hears)
        (last ∘ due)
  | ended last same before => exact .ended last (core.trans same) (hears_then before hears)

theorem retire_watched_move {trigger between : Trigger} (moved : WatchedMove t plant next trigger between) :
    ∃ after, WatchedMove t plant next.retire trigger after := by
  have both : Spares t next next.retire ∧ Hushed next next.retire := by
    refine retire_keeps (fun later => Spares t next later ∧ Hushed next later) ?_ ?_ ?_ next
      ⟨.refl t next, .refl next⟩
    · rintro later id ⟨spares, hushed⟩ idle
      have apart : id ≠ t := by
        rintro rfl
        have used := retained_in_use (retained_hushed moved.watched.retained hushed)
        rw [used] at idle
        contradiction
      exact ⟨spares.trans (spares_deactivate_trigger t later id apart),
        hushed.trans (hushed_deactivate_trigger later id)⟩
    · rintro later id ⟨spares, hushed⟩
      exact ⟨spares.trans ((inert_deactivate_comparison later id).spares t),
        hushed.trans (hushed_deactivate_comparison later id)⟩
    · rintro later id ⟨spares, hushed⟩
      exact ⟨spares.trans ((inert_deactivate_device later id).spares t),
        hushed.trans (hushed_deactivate_device later id)⟩
  exact watched_move_then moved both.1 both.2 (still_retire next).agenda

theorem attends_listed (attends : plant.Attends o label t) (jobs : List Job) :
    Attends { plant with agenda := jobs } o label t :=
  ⟨attends.there, attends.named, attends.once, attends.only⟩

theorem due_rest (job : Job) (rest : List Job) (agenda : plant.agenda = job :: rest)
    (last : Due t { plant with agenda := rest }) : Due t plant := by
  obtain ⟨behind, member, exhausted⟩ := last
  exact ⟨behind, agenda ▸ List.mem_cons_of_mem job member, exhausted⟩

theorem hears_popped (job : Job) (rest : List Job) (agenda : plant.agenda = job :: rest)
    (unheard : ∀ o, job.notice? o = none) (news : List Notification)
    (before : Hears t { plant with agenda := rest } next news) : Hears t plant next news := by
  intro o label attends
  obtain ⟨again, heard, told, pending⟩ := before o label (attends_listed attends rest)
  refine ⟨again, heard, told, ?_⟩
  rw [pending, notices, notices, agenda, List.filterMap_cons, unheard o]

theorem watched_move_popped {trigger after : Trigger} (job : Job) (rest : List Job)
    (agenda : plant.agenda = job :: rest) (unheard : ∀ o, job.notice? o = none)
    (moved : WatchedMove t { plant with agenda := rest } next trigger after) :
    WatchedMove t plant next trigger after := by
  have hears : ∀ news, Hears t { plant with agenda := rest } next news → Hears t plant next news :=
    hears_popped job rest agenda unheard
  have due : Due t { plant with agenda := rest } → Due t plant := due_rest job rest agenda
  refine ⟨moved.there, ?_, moved.watched, moved.bound, moved.values⟩
  cases moved.trigger_change with
  | same core before last => exact .same core (hears _ before) (due ∘ last)
  | evaluated found stamp active evaluated core before last =>
      exact .evaluated found stamp active evaluated core (hears _ before) fun later =>
        (last later).imp_left due
  | ended last core before => exact .ended (due last) core (hears _ before)

theorem watched_popped (job : Job) (rest : List Job) (agenda : plant.agenda = job :: rest)
    (watched : plant.Watched t) : Watched { plant with agenda := rest } t := by
  refine ⟨watched.retained, watched.passive, fun other member => watched.ripples other ?_⟩
  rw [agenda]
  exact List.mem_cons_of_mem job member

theorem observer_hears (passive : ∀ observer ∈ plant.observers, observer.Passive) (id : ObserverId)
    (notification : Notification) (rest : List Job)
    (agenda : plant.agenda = .deliver (.observer id) notification :: rest) :
    Hears t plant ({ plant with agenda := rest }.deliver (.observer id) notification) [] := by
  intro o label attends
  have still := attends_listed attends rest
  obtain ⟨own, there, named⟩ := attends.there
  cases known : plant.observers[id]? with
  | none =>
      have apart : id ≠ o := by
        rintro rfl
        rw [known] at there
        contradiction
      rw [deliver, known]
      exact ⟨still, [], (List.append_nil _).symm, by simp [notices, agenda, Job.notice?, apart]⟩
  | some observer =>
      obtain ⟨after, same, _, delivered⟩ :=
        passive_delivers { plant with agenda := rest } passive id observer known notification
      rw [delivered]
      have noted : Attends (note { plant with agenda := rest } (.notified observer.label notification)) o
          label t := ⟨still.there, still.named, still.once, still.only⟩
      refine ⟨attends_set_observer noted id observer after known same,
        (Entry.heard? label (.notified observer.label notification)).toList, heard_note _ _ label, ?_⟩
      by_cases mine : id = o
      · subst mine
        cases known.symm.trans there
        simp [notices, agenda, Job.notice?, Entry.heard?, named, setObserver, note]
      · have other : observer.label ≠ label := fun also => mine (attends.named id observer known also)
        simp [notices, agenda, Job.notice?, Entry.heard?, mine, other, setObserver, note]

theorem observer_watched (watched : plant.Watched t) (id : ObserverId) (notification : Notification) :
    (plant.deliver (.observer id) notification).Watched t ∧
      (plant.deliver (.observer id) notification).valueOf = plant.valueOf := by
  cases known : plant.observers[id]? with
  | none =>
      rw [deliver, known]
      exact ⟨watched, rfl⟩
  | some observer =>
      obtain ⟨after, _, idle, delivered⟩ := passive_delivers plant watched.passive id observer known
        notification
      rw [delivered]
      refine ⟨⟨watched.retained, fun other member => ?_, watched.ripples⟩, rfl⟩
      rcases List.mem_or_eq_of_mem_set member with old | rfl
      · exact watched.passive other old
      · exact idle

theorem observer_watched_move (watched : plant.Watched t) (id : ObserverId) (notification : Notification)
    (rest : List Job) (agenda : plant.agenda = .deliver (.observer id) notification :: rest)
    (trigger : Trigger) (there : plant.triggers[t]? = some trigger) :
    ∃ after, WatchedMove t plant ({ plant with agenda := rest }.deliver (.observer id) notification) trigger
      after := by
  have spares := spares_deliver t { plant with agenda := rest } (.observer id) notification (by simp)
  obtain ⟨after, found, core⟩ := spares.kept trigger there
  obtain ⟨later, values⟩ := observer_watched (watched_popped _ rest agenda watched) id notification
  refine ⟨after, found, ?_, later, spares.comparisons, values⟩
  exact .same core (observer_hears watched.passive id notification rest agenda)
    (due_rest _ rest agenda ∘ (due_adds t _ _ spares.agenda).mp)

theorem published_hears (trigger : Trigger) (found : Trigger.Evaluation)
    (there : plant.triggers[t]? = some trigger) (published : Published t plant next trigger found) :
    ∃ stamp, Hears t plant next
      [⟨trigger.expression, found.change, .bool found.trigger.latest, stamp⟩] := by
  obtain ⟨stamp, agenda⟩ := published.agenda
  refine ⟨stamp, fun o label attends => ⟨attends_hushed attends published.hushed, [], ?_, ?_⟩⟩
  · rw [published.hushed.heard, List.append_nil]
  · have once := attends.once
    rw [listeners_trigger t trigger there] at once
    have silent : List.filterMap (Job.notice? o)
        ((if found.exhausted then [.exhaust t] else []) ++ [.leave (.trigger t)]) = [] := by
      cases found.exhausted <;> rfl
    rw [List.nil_append, notices, agenda, List.filterMap_append, List.filterMap_append, silent,
      notices_deliveries, once]
    rfl

theorem published_due (trigger : Trigger) (found : Trigger.Evaluation)
    (published : Published t plant next trigger found) :
    Due t next → Due t plant ∨ found.exhausted = true := by
  obtain ⟨_, agenda⟩ := published.agenda
  rintro ⟨job, member, last⟩
  rw [agenda] at member
  rcases List.mem_append.mp member with told | behind
  · rw [(deliveries_plain _ _ job told).2] at last
    contradiction
  · rcases List.mem_append.mp behind with own | old
    · rcases behind_deliveries _ t job own with ⟨_, due⟩ | rfl
      · exact .inr due
      · contradiction
    · exact .inl ⟨job, old, last⟩

theorem published_watched (trigger : Trigger) (found : Trigger.Evaluation)
    (published : Published t plant next trigger found) (watched : plant.Watched t) : next.Watched t := by
  obtain ⟨_, agenda⟩ := published.agenda
  refine watched_hushed watched published.hushed fun job member => ?_
  rw [agenda] at member
  rcases List.mem_append.mp member with told | behind
  · exact deliveries_ripple _ _ job told
  · rcases List.mem_append.mp behind with own | old
    · rcases behind_deliveries _ t job own with ⟨rfl, _⟩ | rfl
      · rfl
      · rfl
    · exact watched.ripples job old

theorem evaluate_watched_move (watched : plant.Watched t) (trigger : Trigger)
    (there : plant.triggers[t]? = some trigger) (compiled : trigger.Compiled)
    (active : trigger.active = true) (stamp : Instant) :
    ∃ after, WatchedMove t plant (plant.evaluate t trigger stamp).2 trigger after := by
  obtain ⟨found, evaluated, published⟩ := evaluate_publishes plant t trigger there compiled stamp
  obtain ⟨sent, hears⟩ := published_hears trigger found there published
  refine ⟨found.trigger, ?_, ?_, published_watched trigger found published watched, published.bound,
    published.hushed.values⟩
  · rw [published.triggers]
    exact List.getElem?_set_self (List.getElem?_eq_some_iff.mp there).1
  · exact .evaluated found sent active evaluated rfl hears (published_due trigger found published)

theorem hear_watched_move (watched : plant.Watched t) (trigger : Trigger)
    (there : plant.triggers[t]? = some trigger) (compiled : trigger.Compiled) (stamp : Instant) :
    ∃ after, WatchedMove t plant (plant.hear t stamp) trigger after := by
  rw [hear_evaluates plant t trigger there compiled stamp]
  split
  · next listens =>
      have active : trigger.active = true := (Bool.and_eq_true_iff.mp listens).1
      exact evaluate_watched_move watched trigger there compiled active stamp
  · exact skips_watched_move watched trigger there (.refl t plant) (skips_same (.refl plant) rfl)

theorem exhaust_watched_move (watched : plant.Watched t) (rest : List Job)
    (agenda : plant.agenda = .exhaust t :: rest) (trigger : Trigger)
    (there : plant.triggers[t]? = some trigger) :
    ∃ after, WatchedMove t plant (exhaust { plant with agenda := rest } t) trigger after := by
  have due : Due t plant := ⟨.exhaust t, by rw [agenda]; exact List.mem_cons_self, rfl⟩
  have popped := watched_popped _ rest agenda watched
  have hears : Hears t plant (exhaust { plant with agenda := rest } t) [] :=
    hears_popped _ rest agenda (fun _ => rfl) []
      (skips_hears (skips_same (exhaust_hushed _ t).1 (exhaust_hushed _ t).2))
  have own := exhaust_own t { plant with agenda := rest } trigger there
  obtain ⟨hushed, same⟩ := exhaust_hushed { plant with agenda := rest } t
  have later := watched_hushed popped hushed fun job member => popped.ripples job (same ▸ member)
  rcases own with ⟨idle, inert⟩ | sets
  · obtain ⟨after, found, core⟩ := (inert.spares t).kept trigger there
    exact ⟨after, found, .same core hears fun _ => due, later, inert.comparisons, hushed.values⟩
  · have found := sets_there { plant with agenda := rest } _ t trigger _ there sets
    exact ⟨trigger.halted, found, .ended due rfl hears, later, sets.comparisons, hushed.values⟩

theorem job_watched_move (poised : plant.Poised) (watched : plant.Watched t)
    (stepped : plant.stepJob? = some next) (trigger : Trigger)
    (there : plant.triggers[t]? = some trigger) : ∃ after, WatchedMove t plant next trigger after := by
  obtain ⟨job, rest, agenda, rfl⟩ := worked_off stepped
  suffices performed : ∃ after,
      WatchedMove t plant ({ plant with agenda := rest }.perform job) trigger after by
    obtain ⟨after, moved⟩ := performed
    exact retire_watched_move moved
  have popped := watched_popped job rest agenda watched
  have joined : ∀ t, JoinedAt { plant with agenda := rest } t := fun t trigger there =>
    joined_agenda plant rest trigger (poised.joined t trigger there)
  have ripple : job.isRipple = true :=
    watched.ripples job (by rw [agenda]; exact List.mem_cons_self)
  have away : (∀ o, job.notice? o = none) → ¬ Touches { plant with agenda := rest } t job →
      Skips t { plant with agenda := rest } ({ plant with agenda := rest }.perform job) →
        ∃ after, WatchedMove t plant ({ plant with agenda := rest }.perform job) trigger after := by
    intro unheard untouched skips
    obtain ⟨after, moved⟩ := skips_watched_move popped trigger there (spares_perform t _ job untouched) skips
    exact ⟨after, watched_move_popped job rest agenda unheard moved⟩
  cases job with
  | deliver listener notification =>
      cases listener with
      | observer id => exact observer_watched_move watched id notification rest agenda trigger there
      | comparison c => exact away (fun _ => rfl) id (hear_variable_skips c notification.stamp)
      | follower => exact away (fun _ => rfl) id (skips_same (.refl _) rfl)
      | trigger other =>
          by_cases own : other = t
          · subst own
            have compiled := (joined other trigger there).compiled
            obtain ⟨after, moved⟩ := hear_watched_move popped trigger there compiled notification.stamp
            exact ⟨after, watched_move_popped _ rest agenda (fun _ => rfl) moved⟩
          · have skips := hear_other_skips other own (joined other) notification.stamp
            exact away (fun _ => rfl) own skips
  | leave => exact away (fun _ => rfl) id (skips_same (.refl _) rfl)
  | exhaust other =>
      by_cases own : other = t
      · subst own
        exact exhaust_watched_move watched rest agenda trigger there
      · obtain ⟨hushed, same⟩ := exhaust_hushed { plant with agenda := rest } other
        exact away (fun _ => rfl) own (skips_same hushed same)
  | tell | command | conclude | write | settleDown | keepSubscription | closeRun | announce | begin
  | act | arm | wait | disarm | next | complete => contradiction

theorem set_variable_hears (watched : plant.Watched t) (v : VariableId) (var after : Variable)
    (there : plant.vars[v]? = some var) (subscribers : after.subscribers = var.subscribers) :
    Hears t plant (plant.setVariable v after) [] ∧ (plant.setVariable v after).Watched t := by
  have same : (plant.setVariable v after).listeners = plant.listeners := by
    rw [listeners_set_variable v var after there, subscribers, ← listeners_var v var there,
      Function.update_eq_self]
  refine ⟨fun o label attends => ⟨⟨attends.there, attends.named, ?_, ?_⟩, [], ?_, rfl⟩,
    watched.retained, watched.passive, watched.ripples⟩
  · rw [same]
    exact attends.once
  · rw [same]
    exact attends.only
  · exact (List.append_nil _).symm

theorem assign_hears (watched : plant.Watched t) (v : VariableId) (var : Variable)
    (there : plant.vars[v]? = some var) (value : Value) :
    Hears t plant (plant.assign v var value).2 [] ∧ (plant.assign v var value).2.Watched t := by
  rw [assign]
  dsimp only
  split
  · have skips : Skips t plant plant.readClock.2 := skips_same (hushed_same _ _ rfl) rfl
    exact ⟨skips_hears skips, skips_watched watched skips⟩
  · next change after assigned =>
      have subscribers : after.subscribers = var.subscribers := by
        rw [Variable.assign] at assigned
        split at assigned
        · contradiction
        · cases assigned
          rfl
      obtain ⟨hears, set⟩ := set_variable_hears watched v var after there subscribers
      have listeners : (plant.setVariable v after).listeners (.var v) = after.subscribers := by
        rw [listeners_set_variable v var after there, Function.update_self]
      dsimp only
      generalize (⟨var.name, change, after.value, _⟩ : Notification) = notification
      rw [← listeners]
      generalize logging : (plant.readClock.2.setVariable v after).log .variable _ _ _ = logged
      have hushed : Hushed (plant.setVariable v after) logged := by
        have read : Hushed (plant.setVariable v after) (plant.readClock.2.setVariable v after) :=
          hushed_same _ _ rfl
        rw [← logging]
        exact read.trans (hushed_log _ _ _ _ _)
      have agenda : logged.agenda = (plant.setVariable v after).agenda := by
        rw [← logging]
        rfl
      have told : Skips t (plant.setVariable v after) (logged.publish
          ((plant.setVariable v after).listeners (.var v)) notification [.leave (.var v)]) := by
        refine ⟨hushed.trans (hushed_push _ _), _, ?_, aside_publishes (.var v) (by simp) notification
          [.leave (.var v)] fun job member => ?_⟩
        · rw [publish_agenda, agenda, List.append_assoc]
        · rw [List.mem_singleton.mp member]
          exact aside_leave _
      exact ⟨hears_then hears (skips_hears told), skips_watched set told⟩

end

end Plant

end Interlock
