import Interlock.Proofs.Plant.Edges
import Interlock.Proofs.Plant.Passing

/-!
What a trigger answers. A trigger that is prompted several times on the same values tells its handlers
each time: the first time also that its value has moved, and nothing more once its last transition is used
up.
-/

set_option autoImplicit false

namespace Interlock

open Interlock.Calendar (Instant)
open Interlock.Graph

-- What a trigger tells when it is prompted so many times, all at the same truth.
def Graph.Trigger.echoes (trigger : Trigger) (truth : Bool) (stamp : Instant) : Nat → List Notification
  | 0 => []
  | later + 1 =>
      let echo : Notification := ⟨trigger.expression, .updated, .bool truth, stamp⟩
      if truth = trigger.latest then echo :: List.replicate later echo
      else
        { echo with change := .changed } ::
          if trigger.remaining ≤ 1 then [] else List.replicate later echo

-- What a comparison tells its listeners.
def Graph.Comparison.word (comparison : Comparison) (plant : Plant) (stamp : Instant) : Notification :=
  ⟨comparison.expression, .ofSame (comparison.latest == plant.sample comparison),
    .bool (plant.sample comparison), stamp⟩

-- A trigger that listens evaluates at every prompt, until its transitions are used up.
inductive Graph.Trigger.Answers (truth : Bool) (stamp : Instant) :
    Nat → Trigger → Trigger → List Notification → Prop where
  | done (trigger : Trigger) : Answers truth stamp 0 trigger trigger []
  | idle (count : Nat) (trigger after : Trigger) (news : List Notification)
      (idle : trigger.active = false) (later : Answers truth stamp count trigger after news) :
      Answers truth stamp (count + 1) trigger after news
  | speaks (count : Nat) (trigger after : Trigger) (news : List Notification)
      (truths : List (String × Bool)) (found : Trigger.Evaluation) (active : trigger.active = true)
      (evaluated : trigger.evaluate truths = .ok found) (value : found.trigger.latest = truth)
      (later : Answers truth stamp count
        (if found.exhausted then found.trigger.halted else found.trigger) after news) :
      Answers truth stamp (count + 1) trigger after
        (⟨trigger.expression, found.change, .bool truth, stamp⟩ :: news)

section

variable {truth : Bool} {stamp : Instant} {count more : Nat} {trigger middle after : Trigger}
  {news later : List Notification}

theorem answers_append (first : Trigger.Answers truth stamp count trigger middle news)
    (second : Trigger.Answers truth stamp more middle after later) :
    Trigger.Answers truth stamp (count + more) trigger after (news ++ later) := by
  induction first with
  | done => rwa [Nat.zero_add]
  | idle count trigger middle news idle _ ih =>
      rw [Nat.add_right_comm]
      exact .idle _ trigger after _ idle (ih second)
  | speaks count trigger middle news truths found active evaluated value _ ih =>
      rw [Nat.add_right_comm]
      exact .speaks _ trigger after _ truths found active evaluated value (ih second)

theorem evaluate_speaks (truths : List (String × Bool)) (found : Trigger.Evaluation)
    (evaluated : trigger.evaluate truths = .ok found) (active : trigger.active = true) :
    found.trigger.sends = trigger.sends + 1 ∧
      ((found.trigger.latest = trigger.latest ∧ found.change = .updated ∧ found.exhausted = false) ∨
        (found.trigger.latest ≠ trigger.latest ∧ found.change = .changed ∧
          (found.exhausted = true ↔ trigger.remaining ≤ 1))) := by
  obtain ⟨value, _, ⟨same, rfl⟩ | ⟨moved, rfl⟩⟩ := evaluate_found trigger truths found evaluated
  · exact ⟨rfl, .inl ⟨rfl, rfl, rfl⟩⟩
  · refine ⟨rfl, .inr ⟨moved, rfl, ?_⟩⟩
    simp only [active, Bool.true_and, if_true, beq_iff_eq]
    omega

theorem answers_idle (answers : Trigger.Answers truth stamp count trigger after news)
    (idle : trigger.active = false) : news = [] ∧ after = trigger := by
  induction answers with
  | done => exact ⟨rfl, rfl⟩
  | idle _ _ _ _ _ _ ih => exact ih idle
  | speaks _ _ _ _ _ _ active =>
      rw [idle] at active
      contradiction

theorem answers_level (answers : Trigger.Answers truth stamp count trigger after news)
    (active : trigger.active = true) (level : trigger.latest = truth) :
    news = List.replicate count ⟨trigger.expression, .updated, .bool truth, stamp⟩ ∧
      after.sends = trigger.sends + count := by
  induction answers with
  | done => exact ⟨rfl, rfl⟩
  | idle _ _ _ _ idle =>
      rw [idle] at active
      contradiction
  | speaks count trigger after news truths found _ evaluated value _ ih =>
      obtain ⟨sends, moves⟩ := evaluate_speaks truths found evaluated active
      obtain ⟨_, change, more⟩ := moves.resolve_right fun moved => moved.1 (value.trans level.symm)
      have still := (evaluate_keeps trigger _ found evaluated).2.2.2.2.trans active
      rw [more, if_neg Bool.false_ne_true] at ih
      obtain ⟨rest, sent⟩ := ih still value
      rw [rest, sent, sends, change, evaluate_expression trigger _ found evaluated,
        List.replicate_succ]
      exact ⟨rfl, by omega⟩

theorem answers_echoes (answers : Trigger.Answers truth stamp count trigger after news)
    (active : trigger.active = true) :
    news = trigger.echoes truth stamp count ∧ after.sends = trigger.sends + news.length := by
  cases answers with
  | done => exact ⟨rfl, rfl⟩
  | idle _ _ _ _ idle =>
      rw [idle] at active
      contradiction
  | speaks count _ _ news truths found _ evaluated value later =>
      obtain ⟨sends, moves⟩ := evaluate_speaks truths found evaluated active
      have still := (evaluate_keeps trigger _ found evaluated).2.2.2.2.trans active
      have expression := evaluate_expression trigger _ found evaluated
      rw [Trigger.echoes]
      rcases moves with ⟨same, change, more⟩ | ⟨moved, change, last⟩
      · rw [more, if_neg Bool.false_ne_true] at later
        obtain ⟨rest, sent⟩ := answers_level later still value
        rw [if_pos (value.symm.trans same), rest, sent, sends, change, expression, List.length_cons,
          List.length_replicate]
        exact ⟨rfl, by omega⟩
      · rw [if_neg (value ▸ moved), change]
        by_cases ends : trigger.remaining ≤ 1
        · rw [last.mpr ends, if_pos rfl] at later
          obtain ⟨rfl, rfl⟩ := answers_idle later rfl
          rw [if_pos ends]
          exact ⟨rfl, sends⟩
        · rw [Bool.eq_false_iff.mpr (ends ∘ last.mp), if_neg Bool.false_ne_true] at later
          obtain ⟨rest, sent⟩ := answers_level later still value
          rw [if_neg ends, rest, sent, sends, expression, List.length_cons, List.length_replicate]
          exact ⟨rfl, by omega⟩

end

namespace Plant

def prompts (t : TriggerId) (children : List ComparisonId) : Listener → Nat
  | .trigger u => if u = t then 1 else 0
  | .comparison c => if c ∈ children then 1 else 0
  | .observer _ | .follower _ _ => 0

-- In front of the rest of the agenda, the expression of the trigger has a truth that stays.
structure TruthStays (t : TriggerId) (children : List ComparisonId) (truth : Bool) (rest : List Job)
    (plant : Plant) (trigger : Trigger) : Prop where
  poised : plant.Poised
  matched : plant.Matched
  there : plant.triggers[t]? = some trigger
  lasts : Lasts t rest plant
  shows : trigger.active = true → trigger.children = children ∧ plant.Shows trigger truth

def Replies (t : TriggerId) (children : List ComparisonId) (truth : Bool) (stamp : Instant)
    (rest : List Job) (told : List Listener) (plant : Plant) (trigger : Trigger) (count : Nat) : Prop :=
  ∃ next after heard news, Passes t stamp rest plant next heard ∧ next.agenda = rest ∧
    TruthStays t children truth rest next after ∧ trigger.Answers truth stamp count after news ∧
    ∀ o label, plant.Attends o label t → (∀ listener ∈ told, listener ≠ .observer o) → heard o = news

def Handled (t : TriggerId) (children : List ComparisonId) (truth : Bool) (stamp : Instant)
    (listener : Listener) : Prop :=
  ∀ plant rest trigger notification, plant.agenda = .deliver listener notification :: rest →
    notification.stamp = stamp → plant.Innocent listener → TruthStays t children truth rest plant trigger →
      Replies t children truth stamp rest [listener] plant trigger (prompts t children listener)

section

variable {t : TriggerId} {children : List ComparisonId} {truth : Bool} {stamp : Instant}
  {rest : List Job} {plant middle next : Plant} {trigger between : Trigger}
  {news : ObserverId → List Notification}

theorem truth_stays_kept (stays : TruthStays t children truth rest plant trigger)
    (passes : Passes t stamp rest plant next news) (same : next.triggers[t]? = plant.triggers[t]?) :
    TruthStays t children truth rest next trigger where
  poised := passes.poised
  matched := passes.matched
  there := same.trans stays.there
  lasts := lasts_eases stays.lasts passes.eases
  shows active := (stays.shows active).imp_right (shows_bound passes.eases.bound passes.eases.values truth)

theorem replies_aside (stays : TruthStays t children truth rest plant trigger) (listener : Listener)
    (nothing : ∃ next, Passes t stamp rest plant next (fun _ => []) ∧ next.agenda = rest ∧
      next.triggers[t]? = plant.triggers[t]?)
    (deaf : prompts t children listener = 0 ∨
      prompts t children listener = 1 ∧ trigger.active = false) :
    Replies t children truth stamp rest [listener] plant trigger (prompts t children listener) := by
  obtain ⟨next, passes, left, same⟩ := nothing
  refine ⟨next, trigger, _, [], passes, left, truth_stays_kept stays passes same, ?_, fun _ _ _ _ => rfl⟩
  rcases deaf with none | ⟨one, idle⟩
  · rw [none]
    exact .done trigger
  · rw [one]
    exact .idle 0 trigger trigger [] idle (.done trigger)

theorem handled_observer (o : ObserverId) : Handled t children truth stamp (.observer o) := by
  intro plant rest trigger notification agenda same innocent stays
  obtain ⟨next, passes, left, kept⟩ := passes_observer stays.poised stays.matched o notification agenda
    same innocent stays.lasts
  refine ⟨next, trigger, _, [], passes, left, truth_stays_kept stays passes kept, .done trigger, ?_⟩
  intro other label _ apart
  have elsewhere : o ≠ other := by
    rintro rfl
    exact apart _ (List.mem_singleton_self _) rfl
  simp [Job.notice?, elsewhere]

theorem handled_trigger (u : TriggerId) : Handled t children truth stamp (.trigger u) := by
  intro plant rest trigger notification agenda same innocent stays
  by_cases own : u = t
  · subst own
    have once : prompts u children (.trigger u) = 1 := if_pos rfl
    by_cases active : trigger.active = true
    · obtain ⟨next, found, evaluated, passes, left, after⟩ := passes_hear_own stays.poised stays.matched
        trigger stays.there active notification agenda same innocent stays.lasts
      obtain ⟨listed, shows⟩ := stays.shows active
      obtain ⟨_, _, kept, _, still⟩ := evaluate_keeps trigger _ found evaluated
      have joined := stays.poised.joined u trigger stays.there
      have shown := evaluate_shows trigger found joined.compiled (joined.wired (.inl active)) evaluated
      have value : found.trigger.latest = truth := shows_unique plant trigger found.trigger _ _
        (evaluate_expression trigger _ found evaluated) kept shows shown
      rw [value] at passes
      refine ⟨next, _, _, _, passes, left, ⟨passes.poised, passes.matched, after,
        lasts_eases stays.lasts passes.eases, fun listens => ?_⟩, ?_, fun _ _ _ _ => rfl⟩
      · cases ends : found.exhausted with
        | true =>
            rw [ends] at listens
            contradiction
        | false =>
            rw [value] at shown
            exact ⟨kept.trans listed, shows_bound passes.eases.bound passes.eases.values truth shown⟩
      · rw [once]
        exact .speaks 0 trigger _ [] _ found active evaluated value (.done _)
    · have idle := Bool.eq_false_iff.mpr active
      exact replies_aside stays _ (passes_hear_idle stays.poised stays.matched trigger stays.there idle
        notification agenda same stays.lasts) (.inr ⟨once, idle⟩)
  · exact replies_aside stays _ (passes_hear_other stays.poised stays.matched u own notification agenda
      same innocent stays.lasts) (.inl (if_neg own))

theorem replies_told (told : List Listener) (notification : Notification) (same : notification.stamp = stamp)
    (handled : ∀ listener ∈ told, Handled t children truth stamp listener)
    (agenda : plant.agenda = (told.map fun listener => .deliver listener notification) ++ rest)
    (innocent : ∀ listener ∈ told, plant.Innocent listener)
    (stays : TruthStays t children truth rest plant trigger) :
    Replies t children truth stamp rest told plant trigger (told.map (prompts t children)).sum := by
  induction told generalizing plant trigger with
  | nil =>
      exact ⟨plant, trigger, _, [], passes_refl stays.poised stays.matched, agenda, stays,
        .done trigger, fun _ _ _ _ => rfl⟩
  | cons listener told ih =>
      have behind : TruthStays t children truth
          ((told.map fun listener => .deliver listener notification) ++ rest) plant trigger :=
        ⟨stays.poised, stays.matched, stays.there, lasts_more _ stays.lasts, stays.shows⟩
      obtain ⟨middle, between, first, news, early, left, ready, answers, heard⟩ :=
        handled listener List.mem_cons_self plant _ trigger notification agenda same
          (innocent listener List.mem_cons_self) behind
      have stamped : Stamped stamp (told.map fun listener => .deliver listener notification) := by
        intro other sent member
        obtain ⟨_, _, known⟩ := List.mem_map.mp member
        cases known
        exact same
      have passed := passes_behind early stamped
      obtain ⟨next, after, second, more, late, done, last, further, reheard⟩ :=
        ih (fun other member => handled other (List.mem_cons_of_mem _ member)) left
          (fun other member => innocent_eases early.eases other
            (innocent other (List.mem_cons_of_mem _ member)))
          ⟨ready.poised, ready.matched, ready.there, lasts_eases stays.lasts early.eases, ready.shows⟩
      refine ⟨next, after, _, news ++ more, passed.trans late, done, last, ?_, fun o label attends apart => ?_⟩
      · rw [List.map_cons, List.sum_cons]
        exact answers_append answers further
      · rw [heard o label attends fun other member => apart other (by
          rw [List.mem_singleton.mp member]
          exact List.mem_cons_self),
          reheard o label (early.heard o label attends).1 fun other member =>
            apart other (List.mem_cons_of_mem _ member)]

theorem subscribed_once (matched : plant.Matched) (there : plant.triggers[t]? = some trigger)
    (c : ComparisonId) : (plant.listeners (.comparison c)).countP (fun s => s.listener == .trigger t) =
      if trigger.active = true ∧ c ∈ trigger.children then 1 else 0 := by
  have injective : Node.comparison.Injective := fun _ _ same => Node.comparison.inj same
  rw [← count_tickets_of, matched.ticketed.entries (.comparison c) (.trigger t) rfl, dues,
    ties_trigger t trigger there, Trigger.ties, count_tickets_for Node.comparison injective,
    matched.brood t trigger there]
  by_cases active : trigger.active = true
  · rw [if_pos active]
    by_cases member : c ∈ trigger.children
    · rw [if_pos ⟨active, member⟩, List.count_eq_one_of_mem (matched.distinct t trigger there) member]
    · rw [if_neg fun both => member both.2, List.count_eq_zero_of_not_mem member]
  · rw [if_neg active, if_neg fun both => active both.1, List.count_nil]

theorem prompts_subscribed (subscribers : Subscribers)
    (admitted : ∀ s ∈ subscribers, ∃ c, Node.admits (.comparison c) s.listener = true) :
    ((subscribers.map Subscriber.listener).map (prompts t children)).sum =
      subscribers.countP fun s => s.listener == .trigger t := by
  induction subscribers with
  | nil => rfl
  | cons s rest ih =>
      obtain ⟨c, admits⟩ := admitted s List.mem_cons_self
      rw [List.map_cons, List.map_cons, List.sum_cons, List.countP_cons,
        ih fun other member => admitted other (List.mem_cons_of_mem s member), Nat.add_comm]
      cases known : s.listener with
      | observer => simp [prompts]
      | trigger u => simp [prompts]
      | comparison | follower =>
          rw [known] at admits
          contradiction

theorem refresh_lists (plant : Plant) (c : ComparisonId) (comparison : Comparison) (stamp : Instant) :
    (plant.refresh c comparison stamp).2.agenda =
      (comparison.subscribers.map fun s => Job.deliver s.listener (comparison.word plant stamp)) ++
        ([.leave (.comparison c)] ++ plant.agenda) :=
  publish_agenda _ _ _ _

theorem passes_refresh (poised : plant.Poised) (matched : plant.Matched) (c : ComparisonId)
    (comparison : Comparison) (there : plant.comparisons[c]? = some comparison) (notification : Notification)
    (agenda : plant.agenda = .deliver (.comparison c) notification :: rest)
    (used : comparisonInUse { plant with agenda := rest } c = true) (lasts : Lasts t rest plant) :
    ∃ next, Passes t notification.stamp rest plant next (fun _ => []) ∧
      next.agenda = ((plant.listeners (.comparison c)).map fun s =>
        Job.deliver s.listener (comparison.word plant notification.stamp)) ++
          (.leave (.comparison c) :: rest) ∧
      next.triggers[t]? = plant.triggers[t]? := by
  have performed : { plant with agenda := rest }.perform (.deliver (.comparison c) notification) =
      (refresh { plant with agenda := rest } c comparison notification.stamp).2 := by
    rw [perform, deliver, hearVariable, there]
    exact if_pos used
  have eases := eases_refresh { plant with agenda := rest } c comparison there notification.stamp
  have hushed := (refresh_publishes { plant with agenda := rest } c comparison there notification.stamp).1
  have lists := refresh_lists { plant with agenda := rest } c comparison notification.stamp
  have triggers := (inert_refresh { plant with agenda := rest } c comparison notification.stamp there).triggers
  have first := passes_hushed (t := t) poised matched agenda (stamped_delivery _ notification rfl)
    (performed ▸ eases) (performed ▸ hushed)
  rw [performed] at first
  generalize (refresh { plant with agenda := rest } c comparison notification.stamp).2 = done
    at eases lists triggers first
  have lasting := lasts_eases lasts (eases_popped rest eases)
  refine ⟨_, first, (still_retire done).agenda.trans ?_, ?_⟩
  · rw [lists, listeners_comparison c comparison there]
    rfl
  · rw [retire_keeps_used (lasts_in_use _ lasting (lists.trans (List.append_assoc _ _ _).symm)), triggers]

theorem replies_refresh (c : ComparisonId) (comparison : Comparison)
    (there : plant.comparisons[c]? = some comparison) (notification : Notification)
    (agenda : plant.agenda = .deliver (.comparison c) notification :: rest)
    (used : comparisonInUse { plant with agenda := rest } c = true)
    (discreet : plant.Discreet (.comparison c)) (stays : TruthStays t children truth rest plant trigger) :
    Replies t children truth notification.stamp rest [.comparison c] plant trigger
      (prompts t children (.comparison c)) := by
  obtain ⟨middle, first, agenda, kept⟩ := passes_refresh stays.poised stays.matched c comparison there
    notification agenda used stays.lasts
  have listened := stays.poised.consistent.linked.layered (.comparison c)
  have ready := truth_stays_kept stays first kept
  have handled : ∀ listener ∈ (plant.listeners (.comparison c)).map Subscriber.listener,
      Handled t children truth notification.stamp listener := by
    intro listener member
    obtain ⟨s, listens, rfl⟩ := List.mem_map.mp member
    have admitted := listened s listens
    cases known : s.listener with
    | observer o => exact handled_observer o
    | trigger u => exact handled_trigger u
    | comparison | follower =>
        rw [known] at admitted
        contradiction
  have innocent := discreet_listeners first.eases (.comparison c) discreet
  obtain ⟨last, after, heard, news, told, left, still, answers, same⟩ := replies_told _
    (comparison.word plant notification.stamp) rfl handled (by rw [agenda, List.map_map]; rfl) innocent
    ⟨ready.poised, ready.matched, ready.there, lasts_more [.leave (.comparison c)] ready.lasts,
      ready.shows⟩
  have lasting := lasts_eases ready.lasts told.eases
  obtain ⟨next, ends, done, always⟩ := passes_leave told.poised told.matched
    (.comparison c) left lasting
  have passed := passes_behind told (stamped_silent (by simp))
  refine ⟨next, after, _, news, (first.trans passed).trans ends, done,
    truth_stays_kept ⟨still.poised, still.matched, still.there, lasting, still.shows⟩ ends always, ?_,
    fun o label attends _ => ?_⟩
  · rw [prompts_subscribed _ fun s listens => ⟨c, listened s listens⟩,
      subscribed_once stays.matched stays.there c] at answers
    by_cases active : trigger.active = true
    · rw [(stays.shows active).1] at answers
      simpa only [active, true_and, prompts, Comparison.word] using answers
    · have idle := Bool.eq_false_iff.mpr active
      rw [if_neg fun both => active both.1] at answers
      rw [prompts]
      split
      · exact .idle 0 trigger after news idle answers
      · exact answers
  · have apart := attends_apart attends (.comparison c) (by simp)
    rw [same o label (first.heard o label attends).1 apart, List.nil_append, List.append_nil]

theorem handled_comparison (c : ComparisonId) : Handled t children truth stamp (.comparison c) := by
  rintro plant rest trigger notification agenda rfl innocent stays
  by_cases needed : ∃ comparison, plant.comparisons[c]? = some comparison ∧
      comparisonInUse { plant with agenda := rest } c = true
  · obtain ⟨comparison, there, used⟩ := needed
    exact replies_refresh c comparison there notification agenda used innocent stays
  · have nothing := passes_idle stays.poised stays.matched agenda
      (stamped_delivery (.comparison c) notification rfl) (by
        rw [perform, deliver, hearVariable]
        cases there : plant.comparisons[c]? with
        | none => rfl
        | some comparison => exact if_neg fun used => needed ⟨comparison, there, used⟩) stays.lasts
    refine replies_aside stays _ nothing ?_
    rw [prompts]
    by_cases member : c ∈ children
    · refine .inr ⟨if_pos member, Bool.eq_false_iff.mpr fun active => needed ?_⟩
      rw [← (stays.shows active).1] at member
      have inside := (stays.poised.consistent.tuned.own t trigger stays.there c member).inside
      exact ⟨_, List.getElem?_eq_getElem inside,
        child_in_use { plant with agenda := rest } t trigger stays.there stays.lasts c member⟩
    · exact .inl (if_neg member)

end

end Plant

end Interlock
