import Interlock.Proofs.Plant.Discretion

/-!
Jobs with all that they cause. A job that comes from an assignment puts what it causes in front of the
rest of the agenda, and once this is worked off, the rest is what is left to do.
-/

set_option autoImplicit false

namespace Interlock

open Interlock.Calendar (Instant)
open Interlock.Graph

-- All notifications that are to be delivered have the stamp.
def Stamped (stamp : Instant) (jobs : List Job) : Prop :=
  ∀ listener notification, .deliver listener notification ∈ jobs → notification.stamp = stamp

namespace Plant

def Lasts (t : TriggerId) (rest : List Job) (plant : Plant) : Prop :=
  triggerInUse { plant with agenda := rest } t = true

-- The plant works off jobs in front of the rest, and the handlers of the trigger hear the news.
structure Passes (t : TriggerId) (stamp : Instant) (rest : List Job) (plant next : Plant)
    (news : ObserverId → List Notification) : Prop where
  settled : ∃ count, settle count plant = next ∧ ∀ fuel < count, ∃ front, front ≠ [] ∧
    (settle fuel plant).agenda = front ++ rest ∧ Stamped stamp front
  poised : next.Poised
  matched : next.Matched
  eases : Eases plant next
  heard : ∀ o label, plant.Attends o label t →
    next.Attends o label t ∧ next.heard label = plant.heard label ++ news o

section

variable {t : TriggerId} {stamp : Instant} {plant middle next : Plant} {rest more : List Job}
  {news later : ObserverId → List Notification}

theorem settle_add (first second : Nat) (plant : Plant) :
    settle (first + second) plant = settle second (settle first plant) := by
  induction first generalizing plant with
  | zero => rw [Nat.zero_add, settle]
  | succ first ih =>
      rw [Nat.add_right_comm, settle, settle]
      split
      · next done =>
          cases second with
          | zero => rfl
          | succ second => rw [settle, done]
      · exact ih _

theorem Passes.trans (first : Passes t stamp rest plant middle news)
    (second : Passes t stamp rest middle next later) :
    Passes t stamp rest plant next (fun o => news o ++ later o) where
  settled := by
    obtain ⟨count, done, along⟩ := first.settled
    obtain ⟨further, ended, still⟩ := second.settled
    refine ⟨count + further, by rw [settle_add, done, ended], fun fuel short => ?_⟩
    by_cases early : fuel < count
    · exact along fuel early
    · obtain ⟨left, rfl⟩ := Nat.exists_eq_add_of_le (Nat.not_lt.mp early)
      rw [settle_add, done]
      exact still left (by omega)
  poised := second.poised
  matched := second.matched
  eases := first.eases.trans second.eases
  heard o label attends := by
    obtain ⟨between, heard⟩ := first.heard o label attends
    obtain ⟨after, reheard⟩ := second.heard o label between
    exact ⟨after, by rw [reheard, heard, List.append_assoc]⟩

theorem passes_congr (passes : Passes t stamp rest plant next news)
    (same : ∀ o label, plant.Attends o label t → news o = later o) : Passes t stamp rest plant next later where
  settled := passes.settled
  poised := passes.poised
  matched := passes.matched
  eases := passes.eases
  heard o label attends := by
    rw [← same o label attends]
    exact passes.heard o label attends

theorem passes_behind (passes : Passes t stamp (more ++ rest) plant next news)
    (stamped : Stamped stamp more) : Passes t stamp rest plant next news where
  settled := by
    obtain ⟨count, done, along⟩ := passes.settled
    refine ⟨count, done, fun fuel short => ?_⟩
    obtain ⟨front, some, agenda, each⟩ := along fuel short
    refine ⟨front ++ more, by simp [some], by rw [agenda, List.append_assoc], ?_⟩
    intro listener notification member
    rcases List.mem_append.mp member with early | late
    · exact each listener notification early
    · exact stamped listener notification late
  poised := passes.poised
  matched := passes.matched
  eases := passes.eases
  heard := passes.heard

theorem passes_refl (poised : plant.Poised) (matched : plant.Matched) :
    Passes t stamp rest plant plant (fun _ => []) where
  settled := ⟨0, rfl, by simp⟩
  poised := poised
  matched := matched
  eases := .refl plant
  heard _ _ attends := ⟨attends, (List.append_nil _).symm⟩

theorem lasts_eases (lasts : Lasts t rest plant) (eases : Eases plant next) : Lasts t rest next := by
  have same : usage { next with agenda := rest } = usage { plant with agenda := rest } := by
    rw [usage, usage, eases.desk, eases.sequences]
  rw [Lasts, trigger_use_same same]
  exact lasts

theorem lasts_more (more : List Job) (lasts : Lasts t rest plant) : Lasts t (more ++ rest) plant := by
  simp only [Lasts, triggerInUse, Bool.or_eq_true] at lasts ⊢
  rcases lasts with ((named | entered) | step) | busy
  · exact .inl (.inl (.inl named))
  · refine .inl (.inl (.inr ?_))
    rw [isEntered, List.any_append, Bool.or_eq_true]
    exact .inr entered
  · exact .inl (.inr step)
  · exact .inr busy

theorem lasts_in_use (more : List Job) (lasts : Lasts t rest plant) (agenda : plant.agenda = more ++ rest) :
    plant.triggerInUse t = true := by
  have wide : Lasts t (more ++ rest) plant := lasts_more more lasts
  rw [Lasts, ← agenda] at wide
  exact wide

theorem deactivated_apart (plant : Plant) (id : TriggerId) (apart : id ≠ t) :
    (plant.deactivateTrigger id).triggers[t]? = plant.triggers[t]? := by
  cases there : plant.triggers[id]? with
  | none => rw [deactivateTrigger, there]
  | some trigger =>
      rcases deactivate_trigger_own plant id trigger there with ⟨_, same⟩ | sets
      · rw [same]
      · rw [sets.triggers]
        exact set_trigger_other plant id t _ (Ne.symm apart)

theorem retire_keeps_used (used : plant.triggerInUse t = true) :
    plant.retire.triggers[t]? = plant.triggers[t]? := by
  have kept := retire_keeps (fun next => next.usage = plant.usage ∧ next.triggers[t]? = plant.triggers[t]?)
    ?_ ?_ ?_ plant ⟨rfl, rfl⟩
  · exact kept.2
  · rintro next id ⟨usage, same⟩ idle
    refine ⟨(deactivated_trigger next id).1.trans usage, (deactivated_apart next id ?_).trans same⟩
    rintro rfl
    rw [trigger_use_same usage, used] at idle
    contradiction
  · rintro next c ⟨usage, same⟩
    refine ⟨(deactivated_comparison next c).1.trans usage, ?_⟩
    rw [(inert_deactivate_comparison next c).triggers, same]
  · rintro next id ⟨usage, same⟩
    rw [(inert_deactivate_device next id).triggers]
    refine ⟨Eq.trans ?_ usage, same⟩
    rw [deactivateDevice]
    split
    · rfl
    · split <;> rfl

theorem passes_job {job : Job} (poised : plant.Poised) (matched : plant.Matched)
    (agenda : plant.agenda = job :: rest) (stamped : Stamped stamp [job])
    (eases : Eases plant ({ plant with agenda := rest }.perform job))
    (heard : ∀ o label, plant.Attends o label t →
      ({ plant with agenda := rest }.perform job).Attends o label t ∧
        ({ plant with agenda := rest }.perform job).heard label = plant.heard label ++ news o) :
    Passes t stamp rest plant ({ plant with agenda := rest }.perform job).retire news := by
  have stepped : plant.stepJob? = some ({ plant with agenda := rest }.perform job).retire := by
    rw [stepJob?, agenda]
  have move := Move.job _ stepped
  refine ⟨⟨1, by simp [settle, stepped], fun fuel short => ?_⟩, poised_move .job move poised,
    (matched_move .job move poised matched).1, eases.trans (eases_retire _), fun o label attends => ?_⟩
  · rw [Nat.lt_one_iff.mp short, settle]
    exact ⟨[job], by simp, agenda, stamped⟩
  · obtain ⟨still, told⟩ := heard o label attends
    have hushed := hushed_retire ({ plant with agenda := rest }.perform job)
    exact ⟨attends_hushed still hushed, by rw [hushed.heard, told]⟩

theorem eases_popped (jobs : List Job) (eases : Eases { plant with agenda := jobs } next) :
    Eases plant next := by
  have same : Eases plant { plant with agenda := jobs } := eases_same rfl
  exact same.trans eases

theorem passes_hushed {job : Job} (poised : plant.Poised) (matched : plant.Matched)
    (agenda : plant.agenda = job :: rest) (stamped : Stamped stamp [job])
    (eases : Eases { plant with agenda := rest } ({ plant with agenda := rest }.perform job))
    (hushed : Hushed { plant with agenda := rest } ({ plant with agenda := rest }.perform job)) :
    Passes t stamp rest plant ({ plant with agenda := rest }.perform job).retire (fun _ => []) := by
  refine passes_job poised matched agenda stamped (eases_popped rest eases) fun o label attends => ?_
  refine ⟨attends_hushed (attends_listed attends rest) hushed, ?_⟩
  rw [hushed.heard, List.append_nil]
  rfl

theorem stamped_silent {job : Job} (silent : ∀ listener notification, job ≠ .deliver listener notification) :
    Stamped stamp [job] := fun listener notification member =>
  absurd (List.mem_singleton.mp member).symm (silent listener notification)

theorem stamped_delivery (listener : Listener) (notification : Notification)
    (same : notification.stamp = stamp) : Stamped stamp [.deliver listener notification] := by
  intro other told member
  cases List.mem_singleton.mp member
  exact same

theorem passes_idle {job : Job} (poised : plant.Poised) (matched : plant.Matched)
    (agenda : plant.agenda = job :: rest) (stamped : Stamped stamp [job])
    (nothing : { plant with agenda := rest }.perform job = { plant with agenda := rest })
    (lasts : Lasts t rest plant) :
    ∃ next, Passes t stamp rest plant next (fun _ => []) ∧ next.agenda = rest ∧
      next.triggers[t]? = plant.triggers[t]? := by
  refine ⟨_, passes_hushed poised matched agenda stamped ?_ ?_, ?_, ?_⟩
  · rw [nothing]
    exact .refl _
  · rw [nothing]
    exact .refl _
  · rw [nothing]
    exact (still_retire _).agenda
  · rw [nothing]
    exact retire_keeps_used lasts

theorem passes_leave (poised : plant.Poised) (matched : plant.Matched) (node : Node)
    (agenda : plant.agenda = .leave node :: rest) (lasts : Lasts t rest plant) :
    ∃ next, Passes t stamp rest plant next (fun _ => []) ∧ next.agenda = rest ∧
      next.triggers[t]? = plant.triggers[t]? :=
  passes_idle poised matched agenda (stamped_silent (by simp)) rfl lasts

theorem passes_exhaust (stamp : Instant) (poised : plant.Poised) (matched : plant.Matched) (u : TriggerId)
    (agenda : plant.agenda = .exhaust u :: rest) (lasts : Lasts t rest plant) :
    ∃ next, Passes t stamp rest plant next (fun _ => []) ∧ next.agenda = rest ∧
      (u ≠ t → next.triggers[t]? = plant.triggers[t]?) ∧
      (∀ trigger, u = t → plant.triggers[t]? = some trigger → trigger.active = true →
        next.triggers[t]? = some trigger.halted) := by
  obtain ⟨hushed, same⟩ := exhaust_hushed { plant with agenda := rest } u
  have eases := eases_exhaust { plant with agenda := rest } u
  have kept : (exhaust { plant with agenda := rest } u).retire.triggers[t]? =
      (exhaust { plant with agenda := rest } u).triggers[t]? :=
    retire_keeps_used (lasts_in_use [] (lasts_eases lasts (eases_popped rest eases)) same)
  refine ⟨_, passes_hushed poised matched agenda (stamped_silent (by simp)) eases hushed,
    (still_retire _).agenda.trans same, fun apart => kept.trans ?_, ?_⟩
  · rw [exhaust]
    split
    · rfl
    · exact deactivated_apart _ u apart
  · rintro trigger rfl there active
    rcases exhaust_own u { plant with agenda := rest } trigger there with ⟨idle, _⟩ | sets
    · rw [idle] at active
      contradiction
    · exact kept.trans (sets_there { plant with agenda := rest } _ u trigger _ there sets)

theorem innocent_hears (id : ObserverId) (notification : Notification)
    (innocent : plant.Innocent (.observer id)) :
    (plant.deliver (.observer id) notification).agenda = plant.agenda ∧
      (plant.deliver (.observer id) notification).triggers = plant.triggers ∧
      ∀ o label, plant.Attends o label t → (plant.deliver (.observer id) notification).Attends o label t ∧
        (plant.deliver (.observer id) notification).heard label =
          plant.heard label ++ (Job.notice? o (.deliver (.observer id) notification)).toList := by
  cases known : plant.observers[id]? with
  | none =>
      rw [deliver, known]
      refine ⟨rfl, rfl, fun o label attends => ⟨attends, ?_⟩⟩
      obtain ⟨own, there, _⟩ := attends.there
      have apart : id ≠ o := by
        rintro rfl
        rw [known] at there
        contradiction
      simp [Job.notice?, apart]
  | some observer =>
      obtain ⟨after, same, _, delivered⟩ :=
        innocent_delivers id observer notification known (innocent observer known)
      rw [delivered]
      refine ⟨rfl, rfl, fun o label attends => ?_⟩
      have noted : (plant.note (.notified observer.label notification)).Attends o label t :=
        ⟨attends.there, attends.named, attends.once, attends.only⟩
      refine ⟨attends_set_observer noted id observer after known same, (heard_note _ _ label).trans ?_⟩
      obtain ⟨own, there, named⟩ := attends.there
      by_cases mine : id = o
      · subst mine
        cases known.symm.trans there
        simp [Job.notice?, Entry.heard?, named]
      · have other : observer.label ≠ label := fun also => mine (attends.named id observer known also)
        simp [Job.notice?, Entry.heard?, mine, other]

theorem passes_observer (poised : plant.Poised) (matched : plant.Matched) (id : ObserverId)
    (notification : Notification) (agenda : plant.agenda = .deliver (.observer id) notification :: rest)
    (same : notification.stamp = stamp) (innocent : plant.Innocent (.observer id))
    (lasts : Lasts t rest plant) :
    ∃ next, Passes t stamp rest plant next
        (fun o => (Job.notice? o (.deliver (.observer id) notification)).toList) ∧
      next.agenda = rest ∧ next.triggers[t]? = plant.triggers[t]? := by
  have eases := eases_popped rest
    (eases_observe id notification innocent)
  obtain ⟨left, triggers, hears⟩ :=
    innocent_hears (t := t) id notification
      (show Innocent { plant with agenda := rest } (.observer id) from innocent)
  refine ⟨_, passes_job poised matched agenda (stamped_delivery _ notification same) eases
    fun o label attends => hears o label (attends_listed attends rest), (still_retire _).agenda.trans left, ?_⟩
  refine (retire_keeps_used ?_).trans (congrArg (fun triggers => triggers[t]?) triggers)
  exact lasts_in_use [] (lasts_eases lasts eases) left

theorem passes_observers (poised : plant.Poised) (matched : plant.Matched) (told : List Job)
    (agenda : plant.agenda = told ++ rest) (lasts : Lasts t rest plant)
    (each : ∀ job ∈ told, ∃ id notification, job = .deliver (.observer id) notification ∧
      notification.stamp = stamp ∧ plant.Innocent (.observer id)) :
    ∃ next, Passes t stamp rest plant next (fun o => told.filterMap (Job.notice? o)) ∧
      next.agenda = rest ∧ next.triggers[t]? = plant.triggers[t]? := by
  induction told generalizing plant with
  | nil => exact ⟨plant, passes_refl poised matched, agenda, rfl⟩
  | cons job told ih =>
      obtain ⟨id, notification, rfl, same, innocent⟩ := each job List.mem_cons_self
      obtain ⟨between, first, left, kept⟩ := passes_observer poised matched id notification agenda same
        innocent (lasts_more _ lasts)
      obtain ⟨next, second, done, still⟩ := ih first.poised first.matched left
        (lasts_eases lasts first.eases) fun job member => by
          obtain ⟨id, notification, found, same, innocent⟩ := each job (List.mem_cons_of_mem _ member)
          exact ⟨id, notification, found, same, innocent_eases first.eases _ innocent⟩
      have stamped : Stamped stamp told := by
        intro listener other member
        obtain ⟨_, _, found, same, _⟩ := each _ (List.mem_cons_of_mem _ member)
        cases found
        exact same
      refine ⟨next, passes_congr ((passes_behind first stamped).trans second) fun o label _ => ?_, done,
        still.trans kept⟩
      rw [List.filterMap_cons]
      cases Job.notice? o (.deliver (.observer id) notification) <;> rfl

theorem passes_call_end (poised : plant.Poised) (matched : plant.Matched) (u : TriggerId)
    (exhausted : Bool) (told : List Job)
    (agenda : plant.agenda = told ++
      (((if exhausted then [.exhaust u] else []) ++ [.leave (.trigger u)]) ++ rest))
    (lasts : Lasts t rest plant)
    (each : ∀ job ∈ told, ∃ id notification, job = .deliver (.observer id) notification ∧
      notification.stamp = stamp ∧ plant.Innocent (.observer id)) :
    ∃ next, Passes t stamp rest plant next (fun o => told.filterMap (Job.notice? o)) ∧
      next.agenda = rest ∧ (u ≠ t → next.triggers[t]? = plant.triggers[t]?) ∧
      (∀ trigger, u = t → plant.triggers[t]? = some trigger → (exhausted = true → trigger.active = true) →
        next.triggers[t]? = some (if exhausted then trigger.halted else trigger)) := by
  have silent : Stamped stamp ((if exhausted then [.exhaust u] else []) ++ [.leave (.trigger u)]) := by
    intro listener notification member
    rcases behind_deliveries exhausted u _ member with ⟨same, _⟩ | same <;> cases same
  obtain ⟨heard, telling, left, kept⟩ :=
    passes_observers poised matched told agenda (lasts_more _ lasts) each
  have first := passes_behind telling silent
  have last := lasts_eases lasts first.eases
  have whole : ∀ {next}, Passes t stamp rest heard next (fun _ => []) →
      Passes t stamp rest plant next (fun o => told.filterMap (Job.notice? o)) := fun passes =>
    passes_congr (first.trans passes) fun o _ _ => List.append_nil _
  cases exhausted with
  | false =>
      obtain ⟨next, passes, done, still⟩ := passes_leave first.poised first.matched (.trigger u) left last
      exact ⟨next, whole passes, done, fun _ => still.trans kept, fun trigger _ there _ =>
        (still.trans kept).trans there⟩
  | true =>
      obtain ⟨between, ends, more, apart, own⟩ :=
        passes_exhaust stamp first.poised first.matched u left (lasts_more _ last)
      obtain ⟨next, passes, done, still⟩ := passes_leave ends.poised ends.matched (.trigger u) more
        (lasts_eases last ends.eases)
      have both := (passes_behind ends
        (stamped_silent (by simp))).trans passes
      refine ⟨next, whole both, done, fun other => still.trans ((apart other).trans kept), ?_⟩
      intro trigger same there active
      exact still.trans (own trigger same (kept.trans there) (active rfl))

theorem evaluate_lists (stamp : Instant) (u : TriggerId) (trigger : Trigger) (found : Trigger.Evaluation)
    (evaluated : trigger.evaluate (plant.truths trigger.children) = .ok found) :
    (plant.evaluate u trigger stamp).2.agenda =
      (trigger.subscribers.map fun s => Job.deliver s.listener
        ⟨trigger.expression, found.change, .bool found.trigger.latest, stamp⟩) ++
        (((if found.exhausted then [.exhaust u] else []) ++ [.leave (.trigger u)]) ++ plant.agenda) := by
  obtain ⟨change, woken⟩ := wake_waiting_dispatch (plant.setTrigger u found.trigger) u
  rw [evaluate, evaluated]
  dsimp only
  rw [woken]
  split
  · exact publish_agenda _ _ _ _
  · exact publish_agenda _ _ _ _

theorem told_observers (poised : plant.Poised) (u : TriggerId) (discreet : plant.Discreet (.trigger u))
    (notification : Notification) (same : notification.stamp = stamp) :
    ∀ job ∈ (plant.listeners (.trigger u)).map fun s => Job.deliver s.listener notification,
      ∃ id told, job = .deliver (.observer id) told ∧ told.stamp = stamp ∧
        plant.Innocent (.observer id) := by
  intro job member
  obtain ⟨s, listens, rfl⟩ := List.mem_map.mp member
  have admitted := poised.consistent.linked.layered _ s listens
  have innocent := discreet_innocent (.trigger u) discreet s listens
  cases known : s.listener with
  | observer id =>
      rw [known] at innocent
      exact ⟨id, notification, rfl, same, innocent⟩
  | comparison | trigger | follower =>
      rw [known] at admitted
      contradiction

theorem passes_evaluation (poised : plant.Poised) (matched : plant.Matched) (u : TriggerId)
    (trigger : Trigger) (there : plant.triggers[u]? = some trigger) (notification : Notification)
    (agenda : plant.agenda = .deliver (.trigger u) notification :: rest)
    (same : notification.stamp = stamp) (discreet : plant.Discreet (.trigger u))
    (listens : (trigger.active && triggerInUse { plant with agenda := rest } u) = true)
    (lasts : Lasts t rest plant) :
    ∃ next found, trigger.evaluate (plant.truths trigger.children) = .ok found ∧
      Passes t stamp rest plant next (fun o =>
        ((plant.listeners (.trigger u)).map fun s => Job.deliver s.listener
          ⟨trigger.expression, found.change, .bool found.trigger.latest, stamp⟩).filterMap
            (Job.notice? o)) ∧
      next.agenda = rest ∧ (u ≠ t → next.triggers[t]? = plant.triggers[t]?) ∧
      (u = t → next.triggers[t]? =
        some (if found.exhausted then found.trigger.halted else found.trigger)) := by
  subst same
  have compiled := (poised.joined u trigger there).compiled
  obtain ⟨found, evaluated, published⟩ :=
    evaluate_publishes { plant with agenda := rest } u trigger there compiled notification.stamp
  have active : trigger.active = true := (Bool.and_eq_true_iff.mp listens).1
  have still := (evaluate_keeps trigger _ found evaluated).2.2.2.2.trans active
  have eases := eases_evaluate { plant with agenda := rest } u trigger there compiled notification.stamp
  have lists := evaluate_lists notification.stamp u trigger found evaluated
  have performed : { plant with agenda := rest }.perform (.deliver (.trigger u) notification) =
      (evaluate { plant with agenda := rest } u trigger notification.stamp).2 :=
    (hear_evaluates { plant with agenda := rest } u trigger there compiled notification.stamp).trans
      (if_pos listens)
  have first := passes_hushed (t := t) poised matched agenda (stamped_delivery _ notification rfl)
    (performed ▸ eases) (performed ▸ published.hushed)
  rw [performed] at first
  generalize (evaluate { plant with agenda := rest } u trigger notification.stamp).2 = done
    at published eases lists first
  rw [← listeners_trigger u trigger there] at lists
  have lasting := lasts_eases lasts (eases_popped rest eases)
  have kept : done.retire.triggers[t]? = (plant.triggers.set u found.trigger)[t]? :=
    (retire_keeps_used (lasts_in_use _ lasting (lists.trans (List.append_assoc _ _ _).symm))).trans
      (congrArg (fun triggers => triggers[t]?) published.triggers)
  have told := told_observers poised u discreet
    ⟨trigger.expression, found.change, .bool found.trigger.latest, notification.stamp⟩ rfl
  obtain ⟨next, last, left, apart, own⟩ := passes_call_end first.poised first.matched u found.exhausted _
    ((still_retire done).agenda.trans lists) (lasts_eases lasts first.eases) fun job member => by
      obtain ⟨id, notification, same, stamped, innocent⟩ := told job member
      exact ⟨id, notification, same, stamped, innocent_eases first.eases _ innocent⟩
  refine ⟨next, found, evaluated, passes_congr (first.trans last) fun o _ _ => List.nil_append _, left,
    fun other => (apart other).trans (kept.trans ?_), fun mine => ?_⟩
  · exact List.getElem?_set_ne other
  · subst mine
    refine own found.trigger rfl (kept.trans ?_) fun _ => still
    exact List.getElem?_set_self (List.getElem?_eq_some_iff.mp there).1

theorem hear_unlistening (u : TriggerId) (notification : Notification)
    (deaf : ∀ trigger, plant.triggers[u]? = some trigger → trigger.Compiled ∧
      (trigger.active && plant.triggerInUse u) = false) :
    plant.perform (.deliver (.trigger u) notification) = plant := by
  cases there : plant.triggers[u]? with
  | none => rw [perform, deliver, hear, there]
  | some trigger =>
      obtain ⟨compiled, idle⟩ := deaf trigger there
      exact (hear_evaluates plant u trigger there compiled notification.stamp).trans
        (if_neg (by simp [idle]))

theorem passes_hear_other (poised : plant.Poised) (matched : plant.Matched) (u : TriggerId)
    (apart : u ≠ t) (notification : Notification)
    (agenda : plant.agenda = .deliver (.trigger u) notification :: rest)
    (same : notification.stamp = stamp) (discreet : plant.Discreet (.trigger u))
    (lasts : Lasts t rest plant) :
    ∃ next, Passes t stamp rest plant next (fun _ => []) ∧ next.agenda = rest ∧
      next.triggers[t]? = plant.triggers[t]? := by
  by_cases listens : ∃ trigger, plant.triggers[u]? = some trigger ∧
      (trigger.active && triggerInUse { plant with agenda := rest } u) = true
  · obtain ⟨trigger, there, listens⟩ := listens
    obtain ⟨next, found, _, passes, left, kept, _⟩ := passes_evaluation poised matched u trigger there
      notification agenda same discreet listens lasts
    have node : Node.trigger u ≠ .trigger t := by simpa using apart
    refine ⟨next, passes_congr passes fun o label attends => ?_, left, kept apart⟩
    exact notices_elsewhere attends (.trigger u) node _
  · refine passes_idle poised matched agenda (stamped_delivery _ notification same)
      (hear_unlistening u notification fun trigger there => ?_) lasts
    refine ⟨(poised.joined u trigger there).compiled, Bool.eq_false_iff.mpr fun hears => listens ?_⟩
    exact ⟨trigger, there, hears⟩

theorem passes_hear_idle (poised : plant.Poised) (matched : plant.Matched) (trigger : Trigger)
    (there : plant.triggers[t]? = some trigger) (idle : trigger.active = false)
    (notification : Notification) (agenda : plant.agenda = .deliver (.trigger t) notification :: rest)
    (same : notification.stamp = stamp) (lasts : Lasts t rest plant) :
    ∃ next, Passes t stamp rest plant next (fun _ => []) ∧ next.agenda = rest ∧
      next.triggers[t]? = plant.triggers[t]? := by
  refine passes_idle poised matched agenda (stamped_delivery _ notification same)
    (hear_unlistening t notification fun found known => ?_) lasts
  cases there.symm.trans known
  exact ⟨(poised.joined t trigger there).compiled, by rw [idle]; rfl⟩

theorem passes_hear_own (poised : plant.Poised) (matched : plant.Matched) (trigger : Trigger)
    (there : plant.triggers[t]? = some trigger) (active : trigger.active = true)
    (notification : Notification) (agenda : plant.agenda = .deliver (.trigger t) notification :: rest)
    (same : notification.stamp = stamp) (discreet : plant.Discreet (.trigger t))
    (lasts : Lasts t rest plant) :
    ∃ next found, trigger.evaluate (plant.truths trigger.children) = .ok found ∧
      Passes t stamp rest plant next
        (fun _ => [⟨trigger.expression, found.change, .bool found.trigger.latest, stamp⟩]) ∧
      next.agenda = rest ∧
      next.triggers[t]? = some (if found.exhausted then found.trigger.halted else found.trigger) := by
  obtain ⟨next, found, evaluated, passes, left, _, own⟩ := passes_evaluation poised matched t trigger
    there notification agenda same discreet (Bool.and_eq_true_iff.mpr ⟨active, lasts⟩) lasts
  refine ⟨next, found, evaluated, passes_congr passes fun o label attends => ?_, left, own rfl⟩
  rw [notices_deliveries, attends.once]
  rfl

end

end Plant

end Interlock
