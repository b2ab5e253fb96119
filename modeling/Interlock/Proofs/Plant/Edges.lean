import Interlock.Proofs.Plant.Settling

/-!
The edges of a trigger. Between its activation and its last transition a trigger tells each flip of the
truth of its expression once, in order, and counts it; with the last one it falls silent.
-/

set_option autoImplicit false

namespace Interlock

open Interlock.Calendar (Instant)
open Interlock.Graph

def flips : Bool → List Bool → List Bool
  | _, [] => []
  | last, truth :: rest => if truth = last then flips last rest else truth :: flips truth rest

theorem flips_append (last : Bool) (truths : List Bool) (truth : Bool) :
    flips last (truths ++ [truth]) =
      flips last truths ++ (if truth = truths.getLastD last then [] else [truth]) := by
  induction truths generalizing last with
  | nil => rfl
  | cons first rest ih =>
      rw [List.cons_append, flips, flips, List.getLastD_cons]
      by_cases same : first = last
      · subst same
        rw [if_pos rfl, if_pos rfl, ih]
      · rw [if_neg same, if_neg same, ih, List.cons_append]

theorem flips_last (last : Bool) (truths : List Bool) :
    (flips last truths).getLastD last = truths.getLastD last := by
  induction truths generalizing last with
  | nil => rfl
  | cons first rest ih =>
      rw [flips, List.getLastD_cons]
      by_cases same : first = last
      · subst same
        rw [if_pos rfl, ih]
      · rw [if_neg same, List.getLastD_cons, ih]

def Graph.Notification.edge? (notification : Notification) : Option Value :=
  if notification.change = .changed then some notification.value else none

def edges (notifications : List Notification) : List Value :=
  notifications.filterMap Notification.edge?

theorem edges_append (first second : List Notification) :
    edges (first ++ second) = edges first ++ edges second :=
  List.filterMap_append

-- A trigger that has been created or rearmed with an expression and a count of transitions.
structure Graph.Trigger.Primed (trigger : Trigger) (count : Nat) : Prop where
  stated : trigger.condition.isSome = true
  idle : trigger.active = false
  low : trigger.latest = false
  full : trigger.remaining = count

theorem created_primed (expression : String) (table : TableId) (condition : Formula.Condition)
    (children : List ComparisonId) (times : Int) :
    (Trigger.create expression table (some condition) children times).Primed (limitOf times) :=
  ⟨rfl, rfl, rfl, rfl⟩

theorem rearmed_primed (trigger : Trigger) (idle : trigger.active = false)
    (stated : trigger.condition.isSome = true) : trigger.rearm.Primed trigger.limit := by
  rw [Trigger.rearm, if_neg (by simp [idle])]
  exact ⟨stated, idle, Option.isNone_eq_false_iff.mpr stated, rfl⟩

namespace Plant

section

variable {plant next : Plant} {t : TriggerId} {armed trigger after : Trigger}

theorem shows_unique (plant : Plant) (trigger after : Trigger) (first second : Bool)
    (expression : after.expression = trigger.expression) (children : after.children = trigger.children)
    (shows : plant.Shows trigger first) (again : plant.Shows after second) : second = first := by
  obtain ⟨compiled, made, _, truth⟩ := shows
  obtain ⟨recompiled, remade, _, retruth⟩ := again
  rw [expression, made] at remade
  cases remade
  cases compiled with
  | none => exact retruth.trans truth.symm
  | some condition =>
      rw [children] at retruth
      exact Except.ok.inj (retruth.symm.trans truth)

theorem shows_bound (bound : Bound plant next) (values : next.valueOf = plant.valueOf) (truth : Bool)
    (shows : plant.Shows armed truth) : next.Shows armed truth := by
  refine shows_kept armed truth (fun child _ comparison there => ?_) shows
  obtain ⟨later, still, expression, relation⟩ := bound child comparison there
  exact ⟨later, still, expression, by rw [sample, sample, relation, values]⟩

theorem shows_evaluated (compiled : armed.Compiled) (wired : plant.Wired armed)
    (found : Trigger.Evaluation) (evaluated : armed.evaluate (plant.truths armed.children) = .ok found) :
    plant.Shows armed found.trigger.latest := by
  obtain ⟨made, same, _, shown⟩ := evaluate_shows armed found compiled wired evaluated
  refine ⟨made, ?_, wired, ?_⟩
  · rw [← same, evaluate_expression armed _ found evaluated]
  · rw [← (evaluate_keeps armed _ found evaluated).2.2.1]
    exact shown

def Reads (plant : Plant) (trigger : Trigger) (v : VariableId) : Prop :=
  ∃ child ∈ trigger.children, ∃ comparison ∈ plant.comparisons[child]?, v ∈ comparison.relation.vars

instance (plant : Plant) (trigger : Trigger) (v : VariableId) : Decidable (plant.Reads trigger v) :=
  inferInstanceAs (Decidable (∃ child ∈ trigger.children, ∃ comparison ∈ plant.comparisons[child]?,
    v ∈ comparison.relation.vars))

-- Assignments after one another, each with all that it causes, and the truth of the expression after
-- each of them that assigns a variable it reads.
inductive Assigned (armed : Trigger) (start : Plant) : List Bool → Plant → Prop where
  | start : Assigned armed start [] start
  | job (truths : List Bool) (plant next : Plant) (before : Assigned armed start truths plant)
      (stepped : plant.stepJob? = some next) : Assigned armed start truths next
  | read (truths : List Bool) (plant : Plant) (v : VariableId) (var : Variable) (value : Value)
      (truth : Bool) (before : Assigned armed start truths plant) (rest : plant.agenda = [])
      (there : plant.vars[v]? = some var) (reads : plant.Reads armed v)
      (shows : (plant.assign v var value).2.Shows armed truth) :
      Assigned armed start (truths ++ [truth]) (plant.assign v var value).2.retire
  | unread (truths : List Bool) (plant : Plant) (v : VariableId) (var : Variable) (value : Value)
      (before : Assigned armed start truths plant) (rest : plant.agenda = [])
      (there : plant.vars[v]? = some var) (aside : ¬ plant.Reads armed v) :
      Assigned armed start truths (plant.assign v var value).2.retire

inductive Phase (start plant : Plant) (t : TriggerId) (armed trigger : Trigger)
    (truths told : List Bool) : Prop where
  | level (active : trigger.active = true) (expression : trigger.expression = armed.expression)
      (children : trigger.children = armed.children) (all : told = flips false truths)
  | behind (active : trigger.active = true) (expression : trigger.expression = armed.expression)
      (children : trigger.children = armed.children) (ready : trigger.remaining ≠ 0)
      (moved : truths.getLastD false ≠ trigger.latest)
      (owed : flips false truths = told ++ [truths.getLastD false])
      (pending : ∀ o label, start.Attends o label t → edges (plant.notices o) = [])
  | spent (idle : trigger.active = false) (done : trigger.remaining = 0)
      (all : told = (flips false truths).take told.length)

structure Tally (start plant : Plant) (t : TriggerId) (count : Nat) (armed trigger : Trigger)
    (truths told : List Bool) : Prop where
  left : told.length + trigger.remaining = count
  latest : trigger.latest = told.getLastD false
  heard : ∀ o label, start.Attends o label t → plant.Attends o label t ∧
    edges (plant.heard label ++ plant.notices o) = edges (start.heard label) ++ told.map Value.bool
  drained : Due t plant → trigger.remaining = 0
  phase : Phase start plant t armed trigger truths told

section

variable {start : Plant} {count : Nat} {truths told : List Bool}

theorem evaluate_moves (truths : List (String × Bool)) (found : Trigger.Evaluation)
    (evaluated : trigger.evaluate truths = .ok found) (active : trigger.active = true) :
    (found.trigger.latest = trigger.latest ∧ found.change = .updated ∧ found.exhausted = false ∧
        found.trigger.remaining = trigger.remaining) ∨
      (found.trigger.latest ≠ trigger.latest ∧ found.change = .changed ∧
        (found.exhausted = true → found.trigger.remaining = 0) ∧
        found.trigger.remaining = trigger.remaining - 1) := by
  obtain ⟨value, _, ⟨same, rfl⟩ | ⟨moved, rfl⟩⟩ := evaluate_found trigger truths found evaluated
  · exact .inl ⟨rfl, rfl, rfl, rfl⟩
  · refine .inr ⟨moved, rfl, ?_, ?_⟩
    · simp [Trigger.send, active]
    · simp [Trigger.send, active]

theorem tally_hears (tally : Tally start plant t count armed trigger truths told)
    (news : List Notification) (hears : Hears t plant next news) (o : ObserverId) (label : String)
    (attends : start.Attends o label t) : next.Attends o label t ∧
      next.heard label ++ next.notices o = plant.heard label ++ (news ++ plant.notices o) := by
  obtain ⟨again, heard, grown, pending⟩ := hears o label (tally.heard o label attends).1
  exact ⟨again, by rw [grown, List.append_assoc, pending]⟩

theorem tally_no_news (tally : Tally start plant t count armed trigger truths told)
    (hears : Hears t plant next []) (o : ObserverId) (label : String) (attends : start.Attends o label t) :
    next.Attends o label t ∧ edges (next.heard label ++ next.notices o) =
      edges (start.heard label) ++ told.map Value.bool := by
  obtain ⟨again, same⟩ := tally_hears tally [] hears o label attends
  rw [same]
  exact ⟨again, (tally.heard o label attends).2⟩

theorem tally_same (tally : Tally start plant t count armed trigger truths told)
    (core : after.core = trigger.core) (hears : Hears t plant next []) (due : Due t next → Due t plant) :
    Tally start next t count armed after truths told := by
  have alike := core_alike core
  refine ⟨?_, alike.latest.trans tally.latest, tally_no_news tally hears, fun last => ?_, ?_⟩
  · rw [alike.remaining]
    exact tally.left
  · rw [alike.remaining]
    exact tally.drained (due last)
  · cases tally.phase with
    | level active expression children all =>
        exact .level (alike.active.trans active) (alike.expression.trans expression)
          (alike.children.trans children) all
    | behind active expression children ready moved owed pending =>
        refine .behind (alike.active.trans active) (alike.expression.trans expression)
          (alike.children.trans children) (alike.remaining ▸ ready) (alike.latest ▸ moved) owed ?_
        intro o label attends
        obtain ⟨_, heard, _, rest⟩ := hears o label (tally.heard o label attends).1
        have none := pending o label attends
        rw [← List.nil_append (plant.notices o), ← rest, edges_append] at none
        exact (List.append_eq_nil_iff.mp none).2
    | spent idle done all =>
        exact .spent (alike.active.trans idle) (alike.remaining.trans done) all

theorem tally_evaluated (tally : Tally start plant t count armed trigger truths told)
    (joined : Joined plant trigger) (shows : plant.Shows armed (truths.getLastD false))
    (found : Trigger.Evaluation) (stamp : Instant) (active : trigger.active = true)
    (evaluated : trigger.evaluate (plant.truths trigger.children) = .ok found)
    (core : after.core = found.trigger.core)
    (hears : Hears t plant next
      [⟨trigger.expression, found.change, .bool found.trigger.latest, stamp⟩])
    (due : Due t next → Due t plant ∨ found.exhausted = true) :
    ∃ more, Tally start next t count armed after truths more := by
  obtain ⟨_, _, children, _, still⟩ := evaluate_keeps trigger _ found evaluated
  have expression := evaluate_expression trigger _ found evaluated
  have shown := evaluate_shows trigger found joined.compiled (joined.wired (.inl active)) evaluated
  have alike := core_alike core
  have moves := evaluate_moves _ found evaluated active
  have listens : after.active = true := alike.active.trans (still.trans active)
  cases tally.phase with
  | level _ same_expression same_children all =>
      have truth : found.trigger.latest = trigger.latest := by
        rw [tally.latest, all, flips_last]
        exact shows_unique plant armed found.trigger _ _ (expression.trans same_expression)
          (children.trans same_children) shows shown
      obtain ⟨_, change, more, remaining⟩ := moves.resolve_right fun moved => moved.1 truth
      refine ⟨told, ?_, ?_, fun o label attends => ?_, fun last => ?_, ?_⟩
      · rw [alike.remaining, remaining]
        exact tally.left
      · rw [alike.latest, truth]
        exact tally.latest
      · obtain ⟨again, same⟩ := tally_hears tally _ hears o label attends
        have silent := (tally.heard o label attends).2
        rw [edges_append] at silent
        rw [same, change, edges_append, edges_append, ← silent]
        exact ⟨again, rfl⟩
      · rw [alike.remaining, remaining]
        exact tally.drained ((due last).resolve_right (by simp [more]))
      · exact .level listens (alike.expression.trans (expression.trans same_expression))
          (alike.children.trans (children.trans same_children)) all
  | behind _ same_expression same_children ready moved owed pending =>
      have truth : found.trigger.latest = truths.getLastD false :=
        shows_unique plant armed found.trigger _ _ (expression.trans same_expression)
          (children.trans same_children) shows shown
      obtain ⟨_, change, last_one, remaining⟩ := moves.resolve_left fun same =>
        moved (truth.symm.trans same.1)
      refine ⟨told ++ [truths.getLastD false], ?_, ?_, fun o label attends => ?_, fun last => ?_, ?_⟩
      · have left := tally.left
        rw [alike.remaining, remaining, List.length_append, List.length_singleton]
        omega
      · rw [alike.latest, truth, List.getLastD_concat]
      · obtain ⟨again, same⟩ := tally_hears tally _ hears o label attends
        have told_before := (tally.heard o label attends).2
        rw [edges_append, pending o label attends, List.append_nil] at told_before
        rw [same, change, truth, edges_append, edges_append, pending o label attends, told_before,
          List.map_append, List.append_assoc]
        exact ⟨again, rfl⟩
      · rw [alike.remaining]
        rcases due last with before | exhausted
        · exact absurd (tally.drained before) ready
        · exact last_one exhausted
      · exact .level listens (alike.expression.trans (expression.trans same_expression))
          (alike.children.trans (children.trans same_children)) owed.symm
  | spent idle =>
      rw [idle] at active
      contradiction

theorem tally_watched_move (tally : Tally start plant t count armed trigger truths told)
    (joined : Joined plant trigger) (shows : plant.Shows armed (truths.getLastD false))
    (moved : WatchedMove t plant next trigger after) :
    ∃ more, Tally start next t count armed after truths more := by
  cases moved.trigger_change with
  | same core hears due => exact ⟨told, tally_same tally core hears due⟩
  | evaluated found stamp active evaluated core hears due =>
      exact tally_evaluated tally joined shows found stamp active evaluated core hears due
  | ended last core hears =>
      have alike := core_alike core
      have done := tally.drained last
      refine ⟨told, ?_, alike.latest.trans tally.latest, tally_no_news tally hears, fun _ => ?_, ?_⟩
      · rw [alike.remaining]
        exact tally.left
      · exact alike.remaining.trans done
      · refine .spent alike.active (alike.remaining.trans done) ?_
        cases tally.phase with
        | level _ _ _ all => rw [← all, List.take_length]
        | behind _ _ _ ready => exact absurd done ready
        | spent _ _ all => exact all

theorem tally_rest (tally : Tally start plant t count armed trigger truths told) (poised : plant.Poised)
    (rest : plant.agenda = []) (there : plant.triggers[t]? = some trigger)
    (shows : plant.Shows armed (truths.getLastD false)) :
    (trigger.active = true ∧ trigger.remaining ≠ 0 ∧ trigger.expression = armed.expression ∧
        trigger.children = armed.children ∧ told = flips false truths) ∨
      (trigger.active = false ∧ trigger.remaining = 0 ∧
        told = (flips false truths).take told.length) := by
  have fresh := poised.consistent.fresh
  rw [rest] at fresh
  cases tally.phase with
  | level active expression children all =>
      have left := (fresh.supplied t trigger there active).resolve_right (by simp)
      exact .inl ⟨active, left, expression, children, all⟩
  | behind active expression children ready moved =>
      have truthful : plant.Truthful trigger := by
        rcases fresh.triggers t trigger there active with now | ⟨_, awaits⟩ | ⟨_, _, _, awaits⟩
        · exact now
        · contradiction
        · contradiction
      have same := shows_unique plant armed trigger _ _ expression children shows truthful.shows
      exact absurd same.symm moved
  | spent idle done all => exact .inr ⟨idle, done, all⟩

theorem tally_read (tally : Tally start plant t count armed trigger truths told) (poised : plant.Poised)
    (rest : plant.agenda = []) (there : plant.triggers[t]? = some trigger)
    (shows : plant.Shows armed (truths.getLastD false)) (truth : Bool) :
    Tally start plant t count armed trigger (truths ++ [truth]) told := by
  refine ⟨tally.left, tally.latest, tally.heard, tally.drained, ?_⟩
  have last : (truths ++ [truth]).getLastD false = truth := List.getLastD_concat
  rcases tally_rest tally poised rest there shows with
    ⟨active, ready, expression, children, all⟩ | ⟨idle, done, all⟩
  · by_cases same : truth = truths.getLastD false
    · refine .level active expression children ?_
      rw [flips_append, if_pos same, List.append_nil]
      exact all
    · refine .behind active expression children ready ?_ ?_ fun o _ _ => ?_
      · rw [last, tally.latest, all, flips_last]
        exact same
      · rw [last, flips_append, if_neg same, all]
      · rw [notices, rest]
        rfl
  · refine .spent idle done ?_
    have short : told.length ≤ (flips false truths).length := by
      rw [all, List.length_take]
      exact Nat.min_le_right _ _
    rw [flips_append, List.take_append_of_le_length short]
    exact all

end

theorem joined_retire (joined : ∀ t, plant.JoinedAt t) (t : TriggerId) : plant.retire.JoinedAt t :=
  retire_keeps_trigger (joined_kept t) plant (joined t)

structure Prompts (t : TriggerId) (plant next : Plant) (trigger after : Trigger) : Prop where
  there : next.triggers[t]? = some after
  core : after.core = trigger.core
  hears : Hears t plant next []
  due : Due t next → Due t plant
  watched : next.Watched t
  joined : ∀ t, next.JoinedAt t

theorem assign_prompts (poised : plant.Poised) (watched : plant.Watched t)
    (there : plant.triggers[t]? = some trigger) (v : VariableId) (var : Variable)
    (known : plant.vars[v]? = some var) (value : Value) :
    ∃ after, Prompts t plant (plant.assign v var value).2 trigger after := by
  have inert := inert_assign plant v var value
  obtain ⟨after, found, core⟩ := (inert.spares t).kept trigger there
  obtain ⟨hears, later⟩ := assign_hears watched v var known value
  exact ⟨after, found, core, hears, (due_adds t _ _ (inert.spares t).agenda).mp, later,
    fun other => joined_spares other plant _ (poised.joined other) (inert.spares other)⟩

theorem retire_own (watched : plant.Watched t) (there : plant.triggers[t]? = some trigger) :
    ∃ after, WatchedMove t plant plant.retire trigger after := by
  obtain ⟨between, moved⟩ :=
    skips_watched_move watched trigger there (.refl t plant) (skips_same (.refl plant) rfl)
  exact retire_watched_move moved

theorem values_assign (plant : Plant) (v : VariableId) (var : Variable) (value : Value) (id : VariableId)
    (apart : id ≠ v) : (plant.assign v var value).2.valueOf id = plant.valueOf id := by
  rw [assign]
  dsimp only
  split
  · rfl
  · simp [valueOf, publish, push, log, note, setVariable, readClock, Ne.symm apart]

theorem shows_aside (v : VariableId) (var : Variable) (value : Value) (truth : Bool)
    (aside : ¬ plant.Reads armed v) (shows : plant.Shows armed truth) :
    (plant.assign v var value).2.Shows armed truth := by
  refine shows_kept armed truth (fun child member comparison there => ?_) shows
  obtain ⟨later, still, expression, relation⟩ :=
    (inert_assign plant v var value).comparisons child comparison there
  refine ⟨later, still, expression, ?_⟩
  rw [sample, sample, relation]
  refine sample_congr _ _ _ fun id read => values_assign plant v var value id ?_
  rintro rfl
  exact aside ⟨child, member, comparison, there, read⟩

def Tallied (start plant : Plant) (t : TriggerId) (count : Nat) (armed : Trigger) (truths : List Bool) :
    Prop :=
  ∃ trigger told, plant.triggers[t]? = some trigger ∧ Tally start plant t count armed trigger truths told

structure Followed (start plant : Plant) (t : TriggerId) (count : Nat) (armed : Trigger)
    (truths : List Bool) : Prop where
  poised : plant.Poised
  watched : plant.Watched t
  shows : plant.Shows armed (truths.getLastD false)
  tally : Tallied start plant t count armed truths

theorem followed_retire {start : Plant} {count : Nat} {truths told : List Bool}
    (consistent : plant.Consistent) (joined : ∀ t, plant.JoinedAt t) (watched : plant.Watched t)
    (shows : plant.Shows armed (truths.getLastD false)) (there : plant.triggers[t]? = some trigger)
    (tally : Tally start plant t count armed trigger truths told) :
    Followed start plant.retire t count armed truths := by
  obtain ⟨after, moved⟩ := retire_own watched there
  obtain ⟨more, kept⟩ := tally_watched_move tally (joined t trigger there) shows moved
  exact ⟨poised_retire consistent (joined_retire joined), moved.watched,
    shows_bound moved.bound moved.values _ shows, after, more, moved.there, kept⟩

theorem followed_assign {start : Plant} {count : Nat} {truths : List Bool} (poised : plant.Poised)
    (watched : plant.Watched t) (v : VariableId) (var : Variable) (known : plant.vars[v]? = some var)
    (value : Value) (shows : (plant.assign v var value).2.Shows armed (truths.getLastD false))
    (tally : Tallied start plant t count armed truths) :
    Followed start (plant.assign v var value).2.retire t count armed truths := by
  obtain ⟨trigger, told, there, tally⟩ := tally
  obtain ⟨after, prompts⟩ := assign_prompts poised watched there v var known value
  have kept := tally_same tally prompts.core prompts.hears prompts.due
  exact followed_retire (consistent_assign poised.consistent v var known value) prompts.joined
    prompts.watched shows prompts.there kept

theorem assigned_followed {start origin : Plant} {count : Nat} {before truths : List Bool}
    (followed : Followed start origin t count armed before)
    (assigned : Assigned armed origin truths plant) :
    Followed start plant t count armed (before ++ truths) := by
  induction assigned with
  | start =>
      rw [List.append_nil]
      exact followed
  | job truths plant next earlier stepped ih =>
      obtain ⟨trigger, told, there, tally⟩ := ih.tally
      obtain ⟨after, moved⟩ := job_watched_move ih.poised ih.watched stepped trigger there
      obtain ⟨more, kept⟩ := tally_watched_move tally (ih.poised.joined t trigger there) ih.shows moved
      exact ⟨poised_move .job (.job next stepped) ih.poised, moved.watched,
        shows_bound moved.bound moved.values _ ih.shows, after, more, moved.there, kept⟩
  | read truths plant v var value truth earlier rest known reads shows ih =>
      obtain ⟨trigger, told, there, tally⟩ := ih.tally
      rw [← List.append_assoc]
      apply followed_assign ih.poised ih.watched v var known value
      · rw [List.getLastD_concat]
        exact shows
      · exact ⟨trigger, told, there, tally_read tally ih.poised rest there ih.shows truth⟩
  | unread truths plant v var value earlier rest known aside ih =>
      have shows := shows_aside v var value _ aside ih.shows
      exact followed_assign ih.poised ih.watched v var known value shows ih.tally

theorem assigned_settle {start : Plant} {truths : List Bool} (fuel : Nat)
    (assigned : Assigned armed start truths plant) : Assigned armed start truths (settle fuel plant) := by
  induction fuel generalizing plant with
  | zero => exact assigned
  | succ fuel ih =>
      rw [settle]
      cases stepped : plant.stepJob? with
      | none => exact assigned
      | some next => exact ih (.job truths plant next assigned stepped)

theorem followed_settles {start : Plant} {count : Nat} {truths : List Bool}
    (followed : Followed start plant t count armed truths) : ∃ fuel, (settle fuel plant).agenda = [] := by
  obtain ⟨trigger, _, there, _⟩ := followed.tally
  exact ripples_settle followed.poised followed.watched ⟨trigger, there⟩

structure Muted (origin plant : Plant) (t : TriggerId) (trigger : Trigger) : Prop where
  watched : plant.Watched t
  ended : ∃ after, plant.triggers[t]? = some after ∧ Ended trigger after
  heard : ∀ o label, origin.Attends o label t →
    plant.Attends o label t ∧ plant.heard label = origin.heard label ∧ plant.notices o = []

theorem muted_hears {origin : Plant} (muted : Muted origin plant t trigger)
    (hears : Hears t plant next []) (o : ObserverId) (label : String) (attends : origin.Attends o label t) :
    next.Attends o label t ∧ next.heard label = origin.heard label ∧ next.notices o = [] := by
  obtain ⟨now, same, silent⟩ := muted.heard o label attends
  obtain ⟨again, heard, grown, pending⟩ := hears o label now
  rw [silent] at pending
  obtain ⟨none, later⟩ := List.append_eq_nil_iff.mp pending
  exact ⟨again, by rw [grown, none, List.append_nil, same], later⟩

theorem ended_then {between : Trigger} (ended : Ended trigger between)
    (core : after.core = between.core) : Ended trigger after := by
  have alike := core_alike core
  exact ⟨alike.active.trans ended.idle, alike.latest.trans ended.latest,
    alike.remaining.trans ended.remaining⟩

theorem muted_watched_move {origin : Plant} {between : Trigger} (muted : Muted origin plant t trigger)
    (ended : Ended trigger between) (moved : WatchedMove t plant next between after) :
    Muted origin next t trigger := by
  cases moved.trigger_change with
  | same core hears =>
      exact ⟨moved.watched, ⟨after, moved.there, ended_then ended core⟩, muted_hears muted hears⟩
  | evaluated _ _ active =>
      rw [ended.idle] at active
      contradiction
  | ended _ core hears =>
      have halted := ended_halted between after core
      exact ⟨moved.watched, ⟨after, moved.there, halted.idle, halted.latest.trans ended.latest,
        halted.remaining.trans ended.remaining⟩, muted_hears muted hears⟩

theorem muted_assign {origin : Plant} (muted : Muted origin plant t trigger) (poised : plant.Poised)
    (v : VariableId) (var : Variable) (known : plant.vars[v]? = some var) (value : Value) :
    Muted origin (plant.assign v var value).2.retire t trigger ∧
      (plant.assign v var value).2.retire.Poised := by
  obtain ⟨between, there, ended⟩ := muted.ended
  obtain ⟨later, prompts⟩ := assign_prompts poised muted.watched there v var known value
  have still := ended_then ended prompts.core
  have prompted : Muted origin (plant.assign v var value).2 t trigger :=
    ⟨prompts.watched, ⟨later, prompts.there, still⟩, muted_hears muted prompts.hears⟩
  obtain ⟨after, moved⟩ := retire_own prompts.watched prompts.there
  exact ⟨muted_watched_move prompted still moved, poised_retire
    (consistent_assign poised.consistent v var known value) (joined_retire prompts.joined)⟩

theorem assigned_muted {origin : Plant} {truths : List Bool} (muted : Muted origin origin t trigger)
    (poised : origin.Poised) (assigned : Assigned armed origin truths plant) :
    Muted origin plant t trigger ∧ plant.Poised := by
  induction assigned with
  | start => exact ⟨muted, poised⟩
  | job truths plant next earlier stepped ih =>
      obtain ⟨muted, poised⟩ := ih
      obtain ⟨between, there, ended⟩ := muted.ended
      obtain ⟨after, moved⟩ := job_watched_move poised muted.watched stepped between there
      exact ⟨muted_watched_move muted ended moved, poised_move .job (.job next stepped) poised⟩
  | read truths plant v var value truth earlier rest known reads shows ih =>
      exact muted_assign ih.1 ih.2 v var known value
  | unread truths plant v var value earlier rest known aside ih =>
      exact muted_assign ih.1 ih.2 v var known value

theorem activate_filled {count : Nat} (plant : Plant) (t : TriggerId) (primed : trigger.Primed count)
    (positive : 0 < count) (filled : trigger.children ≠ []) :
    ∃ begun, plant.activateTrigger t trigger = .ok begun := by
  have kept : plant.childrenOf trigger = .ok (trigger.children, plant) := by
    rw [childrenOf, if_neg (by simpa using filled)]
  rw [activateTrigger, if_neg (by rw [primed.full]; omega), if_neg (by simp [primed.idle]), kept]
  dsimp only
  split
  · exact ⟨_, rfl⟩
  · exact ⟨_, rfl⟩

theorem activate_evaluates {jobs : List Job} (coherent : plant.Coherent jobs) (joined : Joined plant trigger)
    (there : plant.triggers[t]? = some trigger) (left : trigger.remaining ≠ 0) (idle : trigger.active = false)
    (activated : plant.activateTrigger t trigger = .ok next) :
    ∃ children links linked, Hushed plant linked ∧ linked.agenda = plant.agenda ∧
      linked.triggers[t]? = some (trigger.started children links) ∧
      linked.Wired (trigger.started children links) ∧
      next = (linked.evaluateNow t (trigger.started children links)).2 := by
  cases activation activated with
  | spent used => exact absurd used left
  | active _ listens =>
      rw [idle] at listens
      contradiction
  | begun _ _ children between _ made ran =>
      obtain ⟨kept, widens, spare⟩ := children_of_spare coherent t trigger there children made
      have linked := children_linked kept t children fun child member => (spare child member).inside
      have hushed := (hushed_children_of plant trigger children made).trans
        (hushed_link_children between t children)
      have wired := wired_bound between _ (inert_link_children between t children).comparisons _
        (children_of_wired plant trigger children between made joined.compiled
          fun filled => joined.wired (.inr filled))
      have found : (between.linkChildren t children).2.triggers[t]? = some trigger := by
        rw [linked.widens.triggers, widens.triggers, there]
      have set := hushed_set_trigger t trigger (trigger.started children (between.childLinks t children)) found rfl
      refine ⟨children, between.childLinks t children, between.engage t trigger children, ?_, ?_,
        set_trigger_there _ t trigger _ found, ?_, ?_⟩
      · exact hushed.trans (set.trans (hushed_log _ _ _ _ _))
      · exact linked.widens.agenda.trans widens.agenda
      · exact wired_bound _ _ (bound_refl _ _ rfl) _ wired
      · obtain rfl | ⟨error, details, failed, _⟩ := ran
        · rfl
        · obtain ⟨change, succeeds⟩ := evaluate_succeeds _ t
            (trigger.started children (between.childLinks t children)) joined.compiled _
          cases failed.symm.trans succeeds

theorem primed_tally {count : Nat} {started : Trigger} (hushed : Hushed plant next)
    (rest : next.agenda = []) (active : started.active = true) (low : started.latest = false)
    (full : started.remaining = count) (positive : 0 < count)
    (expression : started.expression = armed.expression) (children : started.children = armed.children)
    (first : Bool) :
    Tally plant next t count armed started [first] [] := by
  have silent : ∀ o, next.notices o = [] := by
    intro o
    rw [notices, rest]
    rfl
  refine ⟨(Nat.zero_add _).trans full, low, fun o label attends => ⟨attends_hushed attends hushed, ?_⟩,
    fun last => ?_, ?_⟩
  · rw [hushed.heard, silent, List.append_nil, List.map_nil, List.append_nil]
  · obtain ⟨job, member, _⟩ := last
    rw [rest] at member
    contradiction
  · cases first with
    | false => exact .level active expression children rfl
    | true =>
        refine .behind active expression children (by omega) ?_ rfl fun o _ _ => ?_
        · rw [low]
          simp
        · rw [silent]
          rfl

theorem activated_followed {count : Nat} (poised : plant.Poised) (watched : plant.Watched t)
    (rest : plant.agenda = []) (there : plant.triggers[t]? = some trigger) (primed : trigger.Primed count)
    (positive : 0 < count) (activated : plant.activateTrigger t trigger = .ok next) :
    ∃ armed first, next.triggers[t]? = some armed ∧ armed.Compiled ∧ next.Shows armed first ∧
      Followed plant next.retire t count armed [first] := by
  have held := poised.joined t trigger there
  have consistent := consistent_activate_trigger poised.consistent t trigger there held activated
  have joined : ∀ other, next.JoinedAt other := by
    intro other
    by_cases own : t = other
    · subst own
      exact activate_keeps (joined_kept t) plant trigger next (poised.joined t) there activated
    · exact joined_spares other plant next (poised.joined other)
        (spares_activate_trigger other plant t own trigger next activated)
  obtain ⟨children, links, linked, hushed, agenda, entered, wired, rfl⟩ :=
    activate_evaluates poised.consistent held there (by rw [primed.full]; omega) primed.idle activated
  have ready : Hushed plant linked.readClock.2 := hushed.trans (hushed_same _ _ rfl)
  have still : linked.readClock.2.agenda = [] := agenda.trans rest
  -- from here on the trigger listens, and its first evaluation tells what is owed
  have started : Joined linked.readClock.2 (trigger.started children links) :=
    ⟨held.compiled, fun _ => wired_bound linked _ (bound_refl _ _ rfl) _ wired⟩
  have listens : linked.readClock.2.triggers[t]? = some (trigger.started children links) := entered
  obtain ⟨found, evaluated, published⟩ := evaluate_publishes linked.readClock.2 t
    (trigger.started children links) listens held.compiled linked.readClock.1
  have armed : (linked.evaluateNow t (trigger.started children links)).2.triggers[t]? =
      some found.trigger := by
    rw [show (linked.evaluateNow t _).2.triggers = _ from published.triggers]
    exact List.getElem?_set_self (List.getElem?_eq_some_iff.mp entered).1
  have shown := evaluate_shows _ found started.compiled (started.wired (.inl rfl)) evaluated
  have shows := shows_bound published.bound published.hushed.values _ shown
  obtain ⟨stamp, hears⟩ := published_hears _ found listens published
  have low : (trigger.started children links).latest = false := primed.low
  have full : (trigger.started children links).remaining = count := primed.full
  have tally : Tally plant linked.readClock.2 t count found.trigger (trigger.started children links)
      [found.trigger.latest] [] :=
    primed_tally ready still rfl low full positive (evaluate_expression _ _ found evaluated).symm
      (evaluate_keeps _ _ found evaluated).2.2.1.symm _
  obtain ⟨told, kept⟩ := tally_evaluated tally started shown found stamp rfl evaluated rfl hears
    (published_due _ found published)
  have later := watched_hushed watched ready (by simp [still])
  refine ⟨found.trigger, found.trigger.latest, armed, (joined t _ armed).compiled, shows, ?_⟩
  exact followed_retire consistent joined (published_watched _ found published later) shows armed kept

theorem assigned_on {start : Plant} {truths : List Bool} (compiled : armed.Compiled)
    (wired : plant.Wired armed) (assigned : Assigned armed start truths plant) (rest : plant.agenda = [])
    (v : VariableId) (var : Variable) (known : plant.vars[v]? = some var) (value : Value) :
    ∃ more, Assigned armed start (truths ++ more) (plant.assign v var value).2.retire := by
  by_cases reads : plant.Reads armed v
  · have wired := wired_bound plant _ (inert_assign plant v var value).comparisons armed wired
    obtain ⟨found, evaluated⟩ :=
      evaluate_total armed compiled ((plant.assign v var value).2.truths armed.children)
    have shows := shows_evaluated compiled wired found evaluated
    exact ⟨[found.trigger.latest], .read truths plant v var value _ assigned rest known reads shows⟩
  · refine ⟨[], ?_⟩
    rw [List.append_nil]
    exact .unread truths plant v var value assigned rest known reads

-- Handlers have heard the flips up to the last one that counts, and the trigger knows how many are left.
structure Reports (start next : Plant) (t : TriggerId) (count : Nat) (truths : List Bool)
    (after : Trigger) : Prop where
  heard : ∀ o label, start.Attends o label t → edges (next.heard label) =
    edges (start.heard label) ++ ((flips false truths).take count).map Value.bool
  remaining : after.remaining = count - (flips false truths).length
  latest : after.latest = ((flips false truths).take count).getLastD false
  active : after.active = true ↔ (flips false truths).length < count

theorem followed_reports {start : Plant} {count : Nat} {truths : List Bool}
    (followed : Followed start plant t count armed truths) (rest : plant.agenda = []) :
    ∃ after, plant.triggers[t]? = some after ∧ Reports start plant t count truths after := by
  obtain ⟨after, told, there, tally⟩ := followed.tally
  have left := tally.left
  have heard : ∀ o label, start.Attends o label t →
      edges (plant.heard label) = edges (start.heard label) ++ told.map Value.bool := by
    intro o label attends
    have all := (tally.heard o label attends).2
    rw [notices, rest, List.filterMap_nil, List.append_nil] at all
    exact all
  refine ⟨after, there, ?_⟩
  rcases tally_rest tally followed.poised rest there followed.shows with
    ⟨active, ready, _, _, all⟩ | ⟨idle, done, all⟩
  · have short : (flips false truths).length ≤ count := by
      rw [← all]
      omega
    have whole : (flips false truths).take count = told := by
      rw [List.take_of_length_le short, all]
    refine ⟨by rw [whole]; exact heard, ?_, by rw [whole]; exact tally.latest, ?_⟩
    · rw [← all]
      omega
    · rw [← all]
      exact ⟨fun _ => by omega, fun _ => active⟩
  · have full : told.length = count := by omega
    rw [full] at all
    have enough : count ≤ (flips false truths).length := by
      have length := congrArg List.length all
      rw [List.length_take] at length
      omega
    refine ⟨by rw [← all]; exact heard, by omega, by rw [← all]; exact tally.latest, ?_⟩
    constructor
    · intro active
      rw [idle] at active
      contradiction
    · intro short
      omega

-- A run can always be worked off and continued. At rest the flips, beginning from false, are reported,
-- and after the last of them the trigger stays as it is and its handlers hear nothing more.
theorem edges_reported (reached : plant.Reached) (rest : plant.agenda = [])
    (there : plant.triggers[t]? = some trigger) (count : Nat) (primed : trigger.Primed count)
    (positive : 0 < count) (used : plant.triggerInUse t = true)
    (passive : ∀ observer ∈ plant.observers, observer.Passive) (begun : Plant)
    (activated : plant.activateTrigger t trigger = .ok begun) :
    ∃ armed first, begun.triggers[t]? = some armed ∧ begun.Shows armed first ∧
      ∀ truths next, Assigned armed begun.retire truths next →
        (∃ fuel, (settle fuel next).agenda = [] ∧
          Assigned armed begun.retire truths (settle fuel next)) ∧
        (next.agenda = [] →
          ∃ after, next.triggers[t]? = some after ∧ Reports plant next t count (first :: truths) after ∧
            (∀ v var value, next.vars[v]? = some var → ∃ more,
              Assigned armed begun.retire (truths ++ more) (next.assign v var value).2.retire) ∧
            (after.active = false → ∀ more last, Assigned armed next more last →
              (∃ still, last.triggers[t]? = some still ∧ Ended after still) ∧
                ∀ o label, plant.Attends o label t → last.heard label = next.heard label)) := by
  have watched : plant.Watched t := by
    have same : usage { plant with agenda := [] } = plant.usage := by rw [usage, usage, rest]
    refine ⟨?_, passive, by simp [rest]⟩
    rw [Retained, trigger_use_same same]
    exact used
  obtain ⟨armed, first, known, compiled, shows, begins⟩ := activated_followed (reached_poised reached)
    watched rest there primed positive activated
  refine ⟨armed, first, known, shows, fun truths next assigned => ?_⟩
  have followed := assigned_followed begins assigned
  obtain ⟨fuel, finished⟩ := followed_settles followed
  refine ⟨⟨fuel, finished, assigned_settle fuel assigned⟩, fun settled => ?_⟩
  obtain ⟨after, found, reports⟩ := followed_reports followed settled
  refine ⟨after, found, reports, fun v var value present => ?_, fun idle more last later => ?_⟩
  · obtain ⟨_, _, wired, _⟩ := followed.shows
    exact assigned_on compiled wired assigned settled v var present value
  · obtain ⟨_, _, _, tally⟩ := followed.tally
    have muted : Muted next next t after := by
      refine ⟨followed.watched, ⟨after, found, idle, rfl, rfl⟩, fun o label attends => ⟨attends, rfl, ?_⟩⟩
      rw [notices, settled]
      rfl
    obtain ⟨quiet, _⟩ := assigned_muted muted followed.poised later
    refine ⟨quiet.ended, fun o label attends => ?_⟩
    exact (quiet.heard o label (tally.heard o label attends).1).2.1

theorem activate_executes (plant : Plant) (name : String)
    (found : plant.trigger? name = some (t, trigger)) (activated : plant.activateTrigger t trigger = .ok next) :
    (plant.execute (.trigger (.activate name))).2 = next := by
  rw [execute, onTrigger, found]
  dsimp only
  rw [activated]

theorem set_executes (plant : Plant) (name : String) (v : VariableId) (var : Variable)
    (found : plant.namedVar? name = some (v, var)) (value : Value) :
    (plant.execute (.var (.set name value))).2 = (plant.assign v var value).2 := by
  rw [execute, onVariable, found]
  dsimp only
  split
  · next change later result => rw [result]
  · next error later result => rw [result]

theorem assigned_set {start : Plant} {truths : List Bool} (assigned : Assigned armed start truths plant)
    (rest : plant.agenda = []) (name : String) (v : VariableId) (var : Variable)
    (found : plant.namedVar? name = some (v, var)) (value : Value) (reads : plant.Reads armed v)
    (truth : Bool) (shows : (plant.assign v var value).2.Shows armed truth) :
    Assigned armed start (truths ++ [truth]) (plant.run (.var (.set name value))).2 := by
  have there := lookup_there plant plant.desk.table name v var found
  have settled := assigned_settle patience
    (.read truths plant v var value truth assigned rest there reads shows)
  rw [← set_executes plant name v var found value] at settled
  exact settled

def Finds (plant : Plant) (trigger : Trigger) (value : Bool) : Prop :=
  trigger.children.map plant.expressionOf = trigger.atoms.map some ∧
    (trigger.evaluate (plant.truths trigger.children)).toOption.map (fun found => found.trigger.latest) =
      some value

instance (plant : Plant) (trigger : Trigger) (value : Bool) : Decidable (plant.Finds trigger value) :=
  inferInstanceAs (Decidable (_ ∧ _))

theorem finds_shows (compiled : armed.Compiled) (value : Bool) (finds : plant.Finds armed value) :
    plant.Shows armed value := by
  obtain ⟨wired, evaluates⟩ := finds
  obtain ⟨found, evaluated⟩ := evaluate_total armed compiled (plant.truths armed.children)
  rw [evaluated] at evaluates
  cases evaluates
  exact shows_evaluated compiled wired found evaluated

theorem attends_found (plant : Plant) (o : ObserverId) (label : String) (t : TriggerId)
    (observers : ∀ found ∈ plant.observers.zipIdx, found.1.label = label ↔ found.2 = o)
    (inside : o < plant.observers.length)
    (once : (plant.listeners (.trigger t)).countP (fun s => s.listener == .observer o) = 1)
    (vars : ∀ var ∈ plant.vars, ∀ s ∈ var.subscribers, s.listener ≠ .observer o)
    (comparisons : ∀ comparison ∈ plant.comparisons, ∀ s ∈ comparison.subscribers,
      s.listener ≠ .observer o)
    (triggers : ∀ found ∈ plant.triggers.zipIdx, found.2 ≠ t → ∀ s ∈ found.1.subscribers,
      s.listener ≠ .observer o) : plant.Attends o label t := by
  refine ⟨?_, fun id observer there => ?_, once, fun node apart s member => ?_⟩
  · have own := List.getElem?_eq_getElem inside
    exact ⟨_, own, (observers (plant.observers[o], o) (List.mem_zipIdx_iff_getElem?.mpr own)).mpr rfl⟩
  · exact (observers (observer, id) (List.mem_zipIdx_iff_getElem?.mpr there)).mp
  · cases node with
    | var id =>
        cases there : plant.vars[id]? with
        | none => simp [listeners, subscribersOf, there] at member
        | some var =>
            rw [listeners_var id var there] at member
            exact vars var (List.mem_of_getElem? there) s member
    | comparison id =>
        cases there : plant.comparisons[id]? with
        | none => simp [listeners, subscribersOf, there] at member
        | some comparison =>
            rw [listeners_comparison id comparison there] at member
            exact comparisons comparison (List.mem_of_getElem? there) s member
    | trigger id =>
        cases there : plant.triggers[id]? with
        | none => simp [listeners, subscribersOf, there] at member
        | some trigger =>
            rw [listeners_trigger id trigger there] at member
            exact triggers (trigger, id) (List.mem_zipIdx_iff_getElem?.mpr there) (by simpa using apart) s
              member

end

-- A trigger with two transitions, and a handler that only observes.
def bench : Plant :=
  (blank ⟨0, 0⟩ true).runAll
    [.var (.make "x" (.bool false) false), .trigger (.make "t" "x==true" 2 false),
      .subscribe "h" .trigger "t" none false 0 []]

-- The trigger is activated, and its variable is set to these values.
def toggled (values : List Bool) : Plant :=
  (bench.run (.trigger (.activate "t"))).2.runAll
    (values.map fun value => .var (.set "x" (.bool value)))

theorem two_edges_reported :
    edges ((toggled [true, false, true]).heard "h") = [.bool true, .bool false] ∧
      ∃ after ∈ (toggled [true, false, true]).triggers[0]?,
        after.active = false ∧ after.remaining = 0 ∧ after.latest = false := by
  have reached : bench.Reached :=
    ⟨⟨0, 0⟩, true, run_all_runs (fun _ _ _ => true) (fun _ _ _ done _ => done.move) _ _
      (by decide +kernel)⟩
  have attends : bench.Attends 0 "h" 0 := attends_found bench 0 "h" 0 (by decide +kernel)
    (by decide +kernel) (by decide +kernel) (by decide +kernel) (by decide +kernel) (by decide +kernel)
  have spent : ∀ observer ∈ bench.observers, observer.remaining = 0 := by decide +kernel
  let begun := (bench.execute (.trigger (.activate "t"))).2
  have ready : ∃ found ∈ bench.trigger? "t", found.1 = 0 ∧ found.2.condition.isSome = true ∧
      found.2.active = false ∧ found.2.latest = false ∧ found.2.remaining = 2 ∧
      found.2.children ≠ [] := by
    decide +kernel
  obtain ⟨⟨t, trigger⟩, found, rfl, stated, idle, low, full, filled⟩ := ready
  have primed : trigger.Primed 2 := ⟨stated, idle, low, full⟩
  have there : bench.triggers[0]? = some trigger := found_there _ _ "t" 0 trigger found
  have activated : bench.activateTrigger 0 trigger = .ok begun := by
    obtain ⟨next, result⟩ := activate_filled bench 0 primed (by decide) filled
    exact result.trans (congrArg Except.ok (activate_executes bench "t" found result).symm)
  obtain ⟨armed, first, known, shows, reports⟩ := edges_reported reached
    (List.isEmpty_iff.mp (by decide +kernel)) there 2 primed (by decide)
    (by decide +kernel) (fun observer member => .inl (spent observer member)) begun activated
  have compiled : armed.Compiled := (activate_keeps (joined_kept 0) bench trigger begun
    ((reached_poised reached).joined 0) there activated armed known).compiled
  -- each call finds the plant at rest, and the truth after it is the value that it sets
  have step : ∀ (before truths : List Bool) (value : Bool),
      Assigned armed begun.retire truths (toggled before) →
      ((toggled before).agenda.isEmpty = true ∧ ∃ found ∈ (toggled before).namedVar? "x", found.1 = 0 ∧
        ∀ armed ∈ begun.triggers[0]?, (toggled before).Reads armed 0 ∧
          ((toggled before).assign 0 found.2 (.bool value)).2.Finds armed value) →
      Assigned armed begun.retire (truths ++ [value]) (toggled (before ++ [value])) := by
    rintro before truths value assigned ⟨empty, ⟨v, var⟩, named, rfl, each⟩
    obtain ⟨reads, finds⟩ := each armed known
    rw [toggled, List.map_append, runAll, List.foldl_append]
    exact assigned_set assigned (List.isEmpty_iff.mp empty) "x" 0 var named (.bool value) reads value
      (finds_shows compiled value finds)
  have once := step [] [] true (assigned_settle patience .start) (by decide +kernel)
  have twice := step [true] [true] false once (by decide +kernel)
  have thrice := step [true, false] [true, false] true twice (by decide +kernel)
  have dark : ∀ armed ∈ begun.triggers[0]?, begun.Finds armed false := by decide +kernel
  cases shows_unique begun armed armed false first rfl rfl
    (finds_shows compiled false (dark armed known)) shows
  obtain ⟨after, last, told, _⟩ := (reports _ _ thrice).2 (List.isEmpty_iff.mp (by decide +kernel))
  have silent : edges (bench.heard "h") = [] := by decide +kernel
  have heard := told.heard 0 "h" attends
  rw [silent] at heard
  have ended : after.active = false := Bool.eq_false_iff.mpr fun active =>
    absurd (told.active.mp active) (by decide)
  exact ⟨heard, after, last, ended, told.remaining, told.latest⟩

end Plant

end Interlock
