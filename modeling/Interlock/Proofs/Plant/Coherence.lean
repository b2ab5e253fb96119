import Interlock.Proofs.Plant.Freshness
import Interlock.Proofs.Plant.Keeping

/-!
Assignments, evaluations and subscriptions. Whoever depends on what they change has its links and is
told of it.
-/

set_option autoImplicit false

namespace Interlock.Plant

open Interlock.Calendar (Instant)
open Interlock.Graph

structure Coherent (plant : Plant) (jobs : List Job) : Prop where
  linked : plant.Linked
  tuned : plant.Tuned
  fresh : plant.Fresh jobs

-- Nothing is owed but what is on the agenda.
abbrev Consistent (plant : Plant) : Prop := plant.Coherent plant.agenda

section

variable {plant next : Plant} {jobs more : List Job}

theorem coherent_blank (start : Instant) (hasRuntime : Bool) (jobs : List Job) :
    (blank start hasRuntime).Coherent jobs :=
  ⟨linked_blank start hasRuntime, tuned_blank start hasRuntime, fresh_blank start hasRuntime jobs⟩

theorem linked_same (linked : plant.Linked) (tickets : plant.tickets ≤ next.tickets)
    (listeners : next.listeners = plant.listeners) (ties : next.tiesOf = plant.tiesOf)
    (kept : ∀ node ticket, next.Kept node ticket → plant.Kept node ticket) : next.Linked :=
  linked_ties linked tickets listeners (fun _ _ _ member => .inl (ties ▸ member)) kept

theorem coherent_calm (coherent : plant.Coherent jobs) (calm : Calm plant next)
    (grows : ∀ job ∈ jobs, job ∈ more) : next.Coherent more where
  linked := linked_same coherent.linked calm.tickets
    (listeners_same calm.vars calm.comparisons calm.triggers)
    (ties_same calm.comparisons calm.triggers) calm.kept
  tuned := tuned_same coherent.tuned (Nat.le_of_eq (congrArg List.length calm.vars.symm))
    calm.comparisons calm.triggers fun _ member => calm.named ▸ member
  fresh := fresh_calm coherent.fresh calm grows

theorem coherent_drops (coherent : plant.Coherent jobs)
    (drops : ∀ job ∈ jobs, job ∈ more ∨ plant.Idle job) : plant.Coherent more :=
  ⟨coherent.linked, coherent.tuned, fresh_drops coherent.fresh drops⟩

theorem consistent_calm (consistent : plant.Consistent) (calm : Calm plant next) : next.Consistent :=
  coherent_calm consistent calm calm.agenda

theorem coherent_set_variable (coherent : plant.Coherent jobs) (v : VariableId) (var after : Variable)
    (there : plant.vars[v]? = some var) (subscribers : after.subscribers = var.subscribers)
    (told : after.value = var.value ∨ ∀ s ∈ var.subscribers, Awaits more s.listener)
    (grows : ∀ job ∈ jobs, job ∈ more) : (plant.setVariable v after).Coherent more where
  linked := by
    refine linked_same coherent.linked (Nat.le_refl _) ?_ rfl fun _ _ kept => kept
    rw [listeners_set_variable v var after there, subscribers, ← listeners_var v var there,
      Function.update_eq_self]
  tuned := tuned_same coherent.tuned (by simp [setVariable]) rfl rfl fun _ member => member
  fresh := by
    apply fresh_set_variable coherent.fresh coherent.linked coherent.tuned v var after there _ grows
    apply told.imp_right
    rintro each c ⟨ticket, member⟩
    rw [listeners_var v var there] at member
    exact each _ member

theorem consistent_assign (coherent : plant.Consistent) (v : VariableId) (var : Variable)
    (there : plant.vars[v]? = some var) (value : Value) : (plant.assign v var value).2.Consistent := by
  rw [assign]
  dsimp only
  split
  · exact coherent_calm coherent (calm_same plant plant.readClock.2 rfl) fun _ member => member
  · next change after assigned =>
      have subscribers : after.subscribers = var.subscribers := by
        rw [Variable.assign] at assigned
        split at assigned
        · contradiction
        · cases assigned
          rfl
      dsimp only
      generalize notified : (⟨var.name, change, after.value, _⟩ : Notification) = notification
      let told := after.subscribers.map fun s => Job.deliver s.listener notification
      have set : (plant.setVariable v after).Coherent (told ++ [.leave (.var v)] ++ plant.agenda) := by
        apply coherent_set_variable coherent v var after there subscribers
        · refine .inr fun s member => ⟨notification, ?_⟩
          rw [← subscribers] at member
          exact List.mem_append_left _ (List.mem_append_left _ (List.mem_map_of_mem member))
        · exact fun _ member => List.mem_append_right _ member
      refine coherent_calm set ?_ fun _ member => member
      exact (calm_publish _ _ notification [.leave (.var v)] (by simp [Job.kept?])).behind rfl

theorem linked_set_comparison (linked : plant.Linked) (c : ComparisonId) (comparison after : Comparison)
    (there : plant.comparisons[c]? = some comparison)
    (subscribers : after.subscribers = comparison.subscribers)
    (ties : ∀ node ticket, (node, ticket) ∈ after.ties → (node, ticket) ∈ comparison.ties ∨
      ⟨ticket, .comparison c⟩ ∈ plant.listeners node) : (plant.setComparison c after).Linked := by
  refine linked_ties linked (Nat.le_refl _) ?_ ?_ fun _ _ kept => kept
  · rw [listeners_set_comparison c comparison after there, subscribers,
      ← listeners_comparison c comparison there, Function.update_eq_self]
  · intro listener node ticket member
    rw [ties_set_comparison c comparison after there] at member
    by_cases own : listener = .comparison c
    · subst own
      rw [Function.update_self] at member
      apply (ties node ticket member).imp_left
      intro held
      simpa [tiesOf, there] using held
    · rw [Function.update_of_ne own] at member
      exact .inl member

theorem consistent_refresh (coherent : plant.Coherent jobs) (c : ComparisonId) (comparison : Comparison)
    (there : plant.comparisons[c]? = some comparison) (stamp : Instant)
    (heard : ∀ job ∈ jobs, job ∈ plant.agenda ∨ ∃ n, job = .deliver (.comparison c) n) :
    (plant.refresh c comparison stamp).2.Consistent := by
  rw [refresh]
  dsimp only
  generalize (⟨comparison.expression, _, _, stamp⟩ : Notification) = notification
  let after := { comparison with latest := plant.sample comparison }
  let told := comparison.subscribers.map fun s => Job.deliver s.listener notification
  have set : (plant.setComparison c after).Coherent
      (told ++ [.leave (.comparison c)] ++ plant.agenda) := by
    refine ⟨?_, ?_, ?_⟩
    · exact linked_set_comparison coherent.linked c comparison after there rfl
        fun _ _ member => .inl member
    · exact tuned_set_comparison coherent.tuned c comparison after there rfl
        (coherent.tuned.hears c comparison there) fun _ _ _ _ _ hears => hears
    · apply fresh_set_comparison coherent.fresh c comparison after there rfl rfl
      · exact fun _ => .inl rfl
      · intro t trigger found active member _
        obtain ⟨⟨ticket, link⟩, _⟩ := coherent.tuned.follows t trigger found active c member
        have tied : (Node.comparison c, ticket) ∈ plant.tiesOf (.trigger t) := by
          simp only [tiesOf, found, Option.map_some, Option.getD_some, Trigger.ties]
          exact List.mem_map.mpr ⟨_, link, rfl⟩
        have listens := coherent.linked.tied _ _ _ tied
        rw [listeners_comparison c comparison there] at listens
        exact .inr ⟨notification, List.mem_append_left _
          (List.mem_append_left _ (List.mem_map.mpr ⟨_, listens, rfl⟩))⟩
      · intro job member
        exact (heard job member).imp_left fun kept => List.mem_append_right _ kept
  refine coherent_calm set ?_ fun _ member => member
  exact (calm_publish _ _ notification [.leave (.comparison c)] (by simp [Job.kept?])).behind rfl

theorem linked_set_trigger (linked : plant.Linked) (t : TriggerId) (trigger after : Trigger)
    (there : plant.triggers[t]? = some trigger)
    (subscribers : after.subscribers = trigger.subscribers)
    (ties : ∀ node ticket, (node, ticket) ∈ after.ties → (node, ticket) ∈ trigger.ties ∨
      ⟨ticket, .trigger t⟩ ∈ plant.listeners node) : (plant.setTrigger t after).Linked := by
  refine linked_ties linked (Nat.le_refl _) ?_ ?_ fun _ _ kept => kept
  · rw [listeners_set_trigger t trigger after there, subscribers,
      ← listeners_trigger t trigger there, Function.update_eq_self]
  · intro listener node ticket member
    rw [ties_set_trigger t trigger after there] at member
    by_cases own : listener = .trigger t
    · subst own
      rw [Function.update_self] at member
      apply (ties node ticket member).imp_left
      intro held
      simpa [tiesOf, there] using held
    · rw [Function.update_of_ne own] at member
      exact .inl member

theorem evaluate_links (trigger : Trigger) (truths : List (String × Bool)) (found : Trigger.Evaluation)
    (evaluated : trigger.evaluate truths = .ok found) :
    found.trigger.links = trigger.links ∧ found.trigger.subscribers = trigger.subscribers := by
  obtain ⟨value, _, ⟨_, rfl⟩ | ⟨_, rfl⟩⟩ := evaluate_found trigger truths found evaluated
  · exact ⟨rfl, rfl⟩
  · exact ⟨rfl, rfl⟩

theorem consistent_evaluate (coherent : plant.Coherent jobs) (t : TriggerId) (trigger : Trigger)
    (there : plant.triggers[t]? = some trigger) (joined : Joined plant trigger) (stamp : Instant)
    (heard : ∀ job ∈ jobs, job ∈ plant.agenda ∨ ∃ n, job = .deliver (.trigger t) n) :
    (plant.evaluate t trigger stamp).2.Consistent := by
  obtain ⟨found, evaluated⟩ := evaluate_total trigger joined.compiled (plant.truths trigger.children)
  obtain ⟨_, _, children, _, active⟩ := evaluate_keeps trigger _ found evaluated
  obtain ⟨links, subscribers⟩ := evaluate_links trigger _ found evaluated
  rw [evaluate, evaluated]
  dsimp only
  generalize (⟨trigger.expression, _, _, stamp⟩ : Notification) = notification
  let told := (trigger.subscribers.map fun s => Job.deliver s.listener notification) ++
    ((if found.exhausted then [.exhaust t] else []) ++ [.leave (.trigger t)])
  have set : (plant.setTrigger t found.trigger).Coherent (told ++ plant.agenda) := by
    refine ⟨?_, ?_, ?_⟩
    · apply linked_set_trigger coherent.linked t trigger found.trigger there subscribers
      intro node ticket member
      rw [Trigger.ties, links] at member
      exact .inl member
    · apply tuned_set_trigger coherent.tuned t trigger found.trigger there
      · intro listens child member
        rw [children] at member
        rw [links]
        exact coherent.tuned.follows t trigger there (active ▸ listens) child member
      · rw [children]
        exact coherent.tuned.own t trigger there
    · apply fresh_set_trigger coherent.fresh t trigger found.trigger there
      · intro listens
        have wired := joined.wired (.inl (active ▸ listens))
        exact .inl ⟨evaluate_shows trigger found joined.compiled wired evaluated,
          evaluate_signal trigger _ found evaluated⟩
      · intro listens
        by_cases spent : found.trigger.remaining = 0
        · right
          rcases evaluate_exhausts trigger _ found evaluated listens spent with before | last
          · apply List.mem_append_right
            have due := (coherent.fresh.supplied t trigger there (active ▸ listens)).resolve_left
              fun left => left before
            exact (heard _ due).resolve_right (by simp)
          · simp [told, last]
        · exact .inl spent
      · intro job member
        exact (heard job member).imp (fun kept => List.mem_append_right _ kept) .inl
  have after : ∀ between : Plant, between.graph = (plant.setTrigger t found.trigger).graph →
      (between.push told).Coherent (told ++ plant.agenda) := by
    intro between same
    refine coherent_calm set ((calm_publish between _ notification _ ?_).behind same)
      fun _ member => member
    cases found.exhausted <;> simp [Job.kept?]
  obtain ⟨change, woken⟩ := wake_waiting_dispatch (plant.setTrigger t found.trigger) t
  rw [woken]
  split
  · exact after _ rfl
  · exact after _ rfl

theorem subscribe_variable_found (plant : Plant) (v : VariableId) (listener : Listener) :
    (plant.subscribeVariable v listener = (none, plant) ∧
        (listener.isShared = false → plant.vars[v]? = none)) ∨
      ∃ var, plant.vars[v]? = some var ∧
        plant.subscribeVariable v listener = (some plant.tickets, plant.issueTicket.2.setVariable v
          { var with subscribers := var.subscribers.add plant.tickets listener }) := by
  rw [subscribeVariable]
  cases there : plant.vars[v]? with
  | none => exact .inl ⟨rfl, fun _ => rfl⟩
  | some var =>
      dsimp only
      by_cases refused : var.subscribers.refuses listener = true
      · rw [if_pos refused]
        refine .inl ⟨rfl, fun alone => ?_⟩
        rw [Subscribers.refuses, alone] at refused
        contradiction
      · rw [if_neg refused]
        exact .inr ⟨var, rfl, rfl⟩

theorem subscribe_comparison_found (plant : Plant) (c : ComparisonId) (listener : Listener) :
    (plant.subscribeComparison c listener = (none, plant) ∧
        (listener.isShared = false → plant.comparisons[c]? = none)) ∨
      ∃ comparison, plant.comparisons[c]? = some comparison ∧
        plant.subscribeComparison c listener = (some plant.tickets, plant.issueTicket.2.setComparison c
          { comparison with subscribers := comparison.subscribers.add plant.tickets listener }) := by
  rw [subscribeComparison]
  cases there : plant.comparisons[c]? with
  | none => exact .inl ⟨rfl, fun _ => rfl⟩
  | some comparison =>
      dsimp only
      by_cases refused : comparison.subscribers.refuses listener = true
      · rw [if_pos refused]
        refine .inl ⟨rfl, fun alone => ?_⟩
        rw [Subscribers.refuses, alone] at refused
        contradiction
      · rw [if_neg refused]
        exact .inr ⟨comparison, rfl, rfl⟩

theorem subscribe_trigger_found (plant : Plant) (t : TriggerId) (listener : Listener) :
    plant.subscribeTrigger t listener = (none, plant) ∨
      ∃ trigger, plant.triggers[t]? = some trigger ∧
        plant.subscribeTrigger t listener = (some plant.tickets, plant.issueTicket.2.setTrigger t
          { trigger with subscribers := trigger.subscribers.add plant.tickets listener }) := by
  rw [subscribeTrigger]
  cases there : plant.triggers[t]? with
  | none => exact .inl rfl
  | some trigger =>
      dsimp only
      by_cases refused : trigger.subscribers.refuses listener = true
      · rw [if_pos refused]
        exact .inl rfl
      · rw [if_neg refused]
        exact .inr ⟨trigger, rfl, rfl⟩

theorem fresh_set_subscribers (fresh : plant.Fresh jobs) (c : ComparisonId) (comparison : Comparison)
    (there : plant.comparisons[c]? = some comparison) (subscribers : Subscribers) :
    (plant.setComparison c { comparison with subscribers := subscribers }).Fresh jobs := by
  refine fresh_set_comparison fresh c comparison _ there rfl rfl ?_ ?_ ?_
  · intro active
    exact (fresh.comparisons c comparison there active).imp_right fun awaits => ⟨active, rfl, awaits⟩
  · exact fun _ _ _ _ _ awaits => .inl awaits
  · exact fun _ member => .inl member

theorem tuned_set_subscribers (tuned : plant.Tuned) (c : ComparisonId) (comparison : Comparison)
    (there : plant.comparisons[c]? = some comparison) (subscribers : Subscribers) :
    (plant.setComparison c { comparison with subscribers := subscribers }).Tuned :=
  tuned_set_comparison tuned c comparison _ there rfl (tuned.hears c comparison there)
    fun _ _ _ _ _ hears => hears

theorem fresh_set_heard (fresh : plant.Fresh jobs) (t : TriggerId) (trigger : Trigger)
    (there : plant.triggers[t]? = some trigger) (verbose : Bool) (subscribers : Subscribers) :
    (plant.setTrigger t { trigger with verbose := verbose, subscribers := subscribers }).Fresh jobs := by
  refine fresh_set_trigger fresh t trigger _ there ?_ ?_ ?_
  · intro active
    exact (fresh.triggers t trigger there active).imp_left fun now => ⟨now.shows, now.signal⟩
  · exact fresh.supplied t trigger there
  · exact fun _ member => .inl member

theorem tuned_set_heard (tuned : plant.Tuned) (t : TriggerId) (trigger : Trigger)
    (there : plant.triggers[t]? = some trigger) (verbose : Bool) (subscribers : Subscribers) :
    (plant.setTrigger t { trigger with verbose := verbose, subscribers := subscribers }).Tuned :=
  tuned_set_trigger tuned t trigger _ there (tuned.follows t trigger there) (tuned.own t trigger there)

theorem ties_set_subscribers (c : ComparisonId) (comparison : Comparison)
    (there : plant.comparisons[c]? = some comparison) (subscribers : Subscribers) :
    (plant.setComparison c { comparison with subscribers := subscribers }).tiesOf = plant.tiesOf := by
  rw [ties_set_comparison c comparison _ there]
  exact Function.update_eq_self_iff.mpr (ties_comparison c comparison there).symm

theorem ties_set_heard (t : TriggerId) (trigger : Trigger) (there : plant.triggers[t]? = some trigger)
    (verbose : Bool) (subscribers : Subscribers) :
    (plant.setTrigger t { trigger with verbose := verbose, subscribers := subscribers }).tiesOf =
      plant.tiesOf := by
  rw [ties_set_trigger t trigger _ there]
  exact Function.update_eq_self_iff.mpr (ties_trigger t trigger there).symm

theorem coherent_issue (coherent : plant.Coherent jobs) : plant.issueTicket.2.Coherent jobs where
  linked := linked_same coherent.linked (Nat.le_succ _) rfl rfl fun _ _ kept => kept
  tuned := tuned_same coherent.tuned (Nat.le_refl _) rfl rfl fun _ member => member
  fresh := fresh_same coherent.fresh rfl rfl rfl fun _ member => member

structure Joins (plant : Plant) (node : Node) (listener : Listener)
    (result : Option Ticket × Plant) : Prop where
  tells : ∀ ticket ∈ result.1, ⟨ticket, listener⟩ ∈ result.2.listeners node
  listeners : ∀ other s, s ∈ plant.listeners other → s ∈ result.2.listeners other
  agenda : result.2.agenda = plant.agenda

theorem joins_refused (plant : Plant) (node : Node) (listener : Listener) :
    Joins plant node listener (none, plant) := ⟨by simp, fun _ _ member => member, rfl⟩

theorem joins_made (node : Node) (listener : Listener) (agenda : next.agenda = plant.agenda)
    (listeners : next.listeners = Function.update plant.listeners node
      ((plant.listeners node).add plant.tickets listener)) :
    Joins plant node listener (some plant.tickets, next) := by
  obtain ⟨new, old⟩ := joined_listener node listener listeners
  refine ⟨?_, old, agenda⟩
  rintro ticket same
  cases same
  exact new

theorem coherent_subscribe_variable (coherent : plant.Coherent jobs) (v : VariableId)
    (listener : Listener) (admitted : Node.admits (.var v) listener = true) :
    (plant.subscribeVariable v listener).2.Coherent jobs ∧
      Joins plant (.var v) listener (plant.subscribeVariable v listener) := by
  rcases subscribe_variable_found plant v listener with ⟨same, _⟩ | ⟨var, there, made⟩
  · rw [same]
    exact ⟨coherent, joins_refused plant _ listener⟩
  · rw [made]
    generalize joined : { var with subscribers := var.subscribers.add plant.tickets listener } = after
    have issued := coherent_issue coherent
    have listeners : (plant.issueTicket.2.setVariable v after).listeners =
        Function.update plant.listeners (.var v)
          ((plant.listeners (.var v)).add plant.tickets listener) := by
      rw [listeners_var v var there]
      subst joined
      exact listeners_set_variable v var _ there
    refine ⟨⟨?_, ?_, ?_⟩, joins_made _ listener rfl listeners⟩
    · exact linked_joins coherent.linked _ listener admitted rfl listeners rfl fun _ _ kept => kept
    · exact tuned_same issued.tuned (by simp [setVariable]) rfl rfl fun _ member => member
    · refine fresh_set_variable issued.fresh issued.linked issued.tuned v var after there (.inl ?_)
        fun _ member => member
      subst joined
      rfl

theorem coherent_subscribe_comparison (coherent : plant.Coherent jobs) (c : ComparisonId)
    (listener : Listener) (admitted : Node.admits (.comparison c) listener = true) :
    (plant.subscribeComparison c listener).2.Coherent jobs ∧
      Joins plant (.comparison c) listener (plant.subscribeComparison c listener) := by
  rcases subscribe_comparison_found plant c listener with ⟨same, _⟩ | ⟨comparison, there, made⟩
  · rw [same]
    exact ⟨coherent, joins_refused plant _ listener⟩
  · rw [made]
    have issued := coherent_issue coherent
    have listeners : (plant.issueTicket.2.setComparison c
        { comparison with subscribers := comparison.subscribers.add plant.tickets listener }).listeners =
        Function.update plant.listeners (.comparison c)
          ((plant.listeners (.comparison c)).add plant.tickets listener) := by
      rw [listeners_comparison c comparison there]
      exact listeners_set_comparison c comparison _ there
    refine ⟨⟨?_, ?_, ?_⟩, joins_made _ listener rfl listeners⟩
    · exact linked_joins coherent.linked _ listener admitted rfl listeners
        (ties_set_subscribers c comparison there _) fun _ _ kept => kept
    · exact tuned_set_subscribers issued.tuned c comparison there _
    · exact fresh_set_subscribers issued.fresh c comparison there _

theorem coherent_subscribe_trigger (coherent : plant.Coherent jobs) (t : TriggerId)
    (listener : Listener) (admitted : Node.admits (.trigger t) listener = true) :
    (plant.subscribeTrigger t listener).2.Coherent jobs ∧
      Joins plant (.trigger t) listener (plant.subscribeTrigger t listener) := by
  rcases subscribe_trigger_found plant t listener with same | ⟨trigger, there, made⟩
  · rw [same]
    exact ⟨coherent, joins_refused plant _ listener⟩
  · rw [made]
    have issued := coherent_issue coherent
    have listeners : (plant.issueTicket.2.setTrigger t
        { trigger with subscribers := trigger.subscribers.add plant.tickets listener }).listeners =
        Function.update plant.listeners (.trigger t)
          ((plant.listeners (.trigger t)).add plant.tickets listener) := by
      rw [listeners_trigger t trigger there]
      exact listeners_set_trigger t trigger _ there
    refine ⟨⟨?_, ?_, ?_⟩, joins_made _ listener rfl listeners⟩
    · exact linked_joins coherent.linked _ listener admitted rfl listeners
        (ties_set_heard t trigger there _ _) fun _ _ kept => kept
    · exact tuned_set_heard issued.tuned t trigger there _ _
    · exact fresh_set_heard issued.fresh t trigger there _ _

def Loose (plant : Plant) (node : Node) (ticket : Ticket) : Prop :=
  ∀ listener, (node, ticket) ∉ plant.tiesOf listener

theorem coherent_unsubscribe_variable (coherent : plant.Coherent jobs) (v : VariableId)
    (ticket : Ticket) (loose : plant.Loose (.var v) ticket) :
    (plant.unsubscribeVariable v ticket).Coherent jobs := by
  rw [unsubscribeVariable]
  split
  · exact coherent
  · next var there =>
      generalize parted : { var with subscribers := var.subscribers.remove ticket } = after
      refine ⟨?_, ?_, ?_⟩
      · refine linked_parts coherent.linked (.var v) ticket rfl ?_ rfl loose fun _ _ kept => kept
        rw [listeners_var v var there]
        subst parted
        exact listeners_set_variable v var _ there
      · exact tuned_same coherent.tuned (by simp [setVariable]) rfl rfl fun _ member => member
      · refine fresh_set_variable coherent.fresh coherent.linked coherent.tuned v var after there
          (.inl ?_) fun _ member => member
        subst parted
        rfl

theorem coherent_unsubscribe_comparison (coherent : plant.Coherent jobs) (c : ComparisonId)
    (ticket : Ticket) (loose : plant.Loose (.comparison c) ticket) :
    (plant.unsubscribeComparison c ticket).Coherent jobs := by
  rw [unsubscribeComparison]
  split
  · exact coherent
  · next comparison there =>
      refine ⟨?_, ?_, ?_⟩
      · refine linked_parts coherent.linked (.comparison c) ticket rfl ?_
          (ties_set_subscribers c comparison there _) loose fun _ _ kept => kept
        rw [listeners_comparison c comparison there]
        exact listeners_set_comparison c comparison _ there
      · exact tuned_set_subscribers coherent.tuned c comparison there _
      · exact fresh_set_subscribers coherent.fresh c comparison there _

theorem coherent_unsubscribe_trigger (coherent : plant.Coherent jobs) (t : TriggerId)
    (ticket : Ticket) (loose : plant.Loose (.trigger t) ticket) :
    (plant.unsubscribeTrigger t ticket).Coherent jobs := by
  rw [unsubscribeTrigger]
  split
  · exact coherent
  · next trigger there =>
      refine ⟨?_, ?_, ?_⟩
      · refine linked_parts coherent.linked (.trigger t) ticket rfl ?_
          (ties_set_heard t trigger there _ _) loose fun _ _ kept => kept
        rw [listeners_trigger t trigger there]
        exact listeners_set_trigger t trigger _ there
      · exact tuned_set_heard coherent.tuned t trigger there _ _
      · exact fresh_set_heard coherent.fresh t trigger there _ _

end

end Interlock.Plant
