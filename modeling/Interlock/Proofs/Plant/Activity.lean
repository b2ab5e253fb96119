import Interlock.Proofs.Plant.Linking

/-!
How triggers come to be, and how their activity begins and ends. The comparisons of a trigger are made
for it and belong to it alone.
-/

set_option autoImplicit false

namespace Interlock

open Interlock.Calendar (Instant)
open Interlock.Graph

theorem Graph.bind_constant_var (now : Instant) (comparison text : String) (kind : Kind)
    (operand : Operand) (bound : bindConstant now comparison text kind = .ok operand) :
    operand.var? = none := by
  rw [bindConstant] at bound
  split at bound
  · cases bound
    rfl
  · contradiction

theorem Graph.bind_operands_vars (lookup : Lookup) (now : Instant) (comparison left right : String)
    (operands : Operand × Operand) (bound : bindOperands lookup now comparison left right = .ok operands)
    (v : VariableId) (reads : operands.1.var? = some v ∨ operands.2.var? = some v) :
    ∃ name var, lookup name = some (v, var) := by
  rw [bindOperands] at bound
  split at bound
  · next id var other another first second =>
      split at bound
      · cases bound
        rcases reads with same | same
        · cases same
          exact ⟨left, var, first⟩
        · cases same
          exact ⟨right, another, second⟩
      · contradiction
  · next id var first second =>
      cases constant : bindConstant now comparison right var.kind with
      | error error =>
          rw [constant] at bound
          contradiction
      | ok operand =>
          rw [constant] at bound
          cases bound
          rcases reads with same | same
          · cases same
            exact ⟨left, var, first⟩
          · rw [bind_constant_var now comparison right var.kind operand constant] at same
            contradiction
  · next id var first second =>
      cases constant : bindConstant now comparison left var.kind with
      | error error =>
          rw [constant] at bound
          contradiction
      | ok operand =>
          rw [constant] at bound
          cases bound
          rcases reads with same | same
          · rw [bind_constant_var now comparison left var.kind operand constant] at same
            contradiction
          · cases same
            exact ⟨right, var, second⟩
  · contradiction

theorem Graph.bind_vars (lookup : Lookup) (now : Instant) (comparison : String) (relation : Relation)
    (bound : bind lookup now comparison = .ok relation) (v : VariableId) (member : v ∈ relation.vars) :
    ∃ name var, lookup name = some (v, var) := by
  have reads : relation.left.var? = some v ∨ relation.right.var? = some v := by
    simpa [Relation.vars] using member
  rw [bind] at bound
  split at bound
  · next phrase _ =>
      cases phrase with
      | name text =>
          rw [bindPhrase] at bound
          split at bound
          · contradiction
          · next id var found =>
              split at bound
              · cases bound
                rcases reads with same | same
                · cases same
                  exact ⟨text, var, found⟩
                · contradiction
              · contradiction
      | relation left comparator right =>
          rw [bindPhrase] at bound
          cases operands : bindOperands lookup now comparison left right with
          | error error =>
              rw [operands] at bound
              contradiction
          | ok pair =>
              rw [operands] at bound
              cases bound
              exact bind_operands_vars lookup now comparison left right pair operands v reads
  · contradiction

namespace Plant

section

variable {plant next : Plant} {jobs more : List Job}

theorem appended_blank {α β : Type} (items : List α) (item : α) (held : α → List β)
    (blank : held item = []) (id : Nat) :
    (((items ++ [item])[id]?).map held).getD [] = ((items[id]?).map held).getD [] := by
  rw [List.getElem?_append]
  split
  · rfl
  · next outside =>
      rw [List.getElem?_eq_none (Nat.not_lt.mp outside)]
      cases id - items.length with
      | zero => exact blank
      | succ _ => rfl

theorem listeners_add_comparison (comparison : Comparison) (unheard : comparison.subscribers = []) :
    (plant.addComparison comparison).2.listeners = plant.listeners := by
  funext node
  cases node with
  | comparison id => exact appended_blank plant.comparisons comparison _ unheard id
  | var | trigger => rfl

theorem ties_add_comparison (comparison : Comparison) (idle : comparison.ties = []) :
    (plant.addComparison comparison).2.tiesOf = plant.tiesOf := by
  funext listener
  cases listener with
  | comparison id => exact appended_blank plant.comparisons comparison _ idle id
  | observer | trigger | follower => rfl

theorem listeners_add_trigger (trigger : Trigger) (unheard : trigger.subscribers = []) :
    (plant.addTrigger trigger).2.listeners = plant.listeners := by
  funext node
  cases node with
  | trigger id => exact appended_blank plant.triggers trigger _ unheard id
  | var | comparison => rfl

theorem ties_add_trigger (trigger : Trigger) (idle : trigger.ties = []) :
    (plant.addTrigger trigger).2.tiesOf = plant.tiesOf := by
  funext listener
  cases listener with
  | trigger id => exact appended_blank plant.triggers trigger _ idle id
  | observer | comparison | follower => rfl

theorem coherent_add_comparison (coherent : plant.Coherent jobs) (text : String) (relation : Relation)
    (latest : Bool) (bound : ∀ v ∈ relation.vars, v < plant.vars.length) :
    (plant.addComparison (.create text relation latest)).2.Coherent jobs where
  linked := linked_same coherent.linked (Nat.le_refl _) (listeners_add_comparison _ rfl)
    (ties_add_comparison _ rfl) fun _ _ kept => kept
  tuned := tuned_add_comparison coherent.tuned _ bound rfl
  fresh := fresh_add_comparison coherent.fresh _ rfl fun _ member => member

theorem widens_add_comparison (comparison : Comparison) (unheard : comparison.subscribers = []) :
    Widens plant (plant.addComparison comparison).2 := by
  refine ⟨rfl, rfl, rfl, rfl, rfl, fun node s member => ?_, fun c found there => ⟨found, ?_, id⟩⟩
  · rw [listeners_add_comparison comparison unheard]
    exact member
  · exact (List.getElem?_append_left (List.getElem?_eq_some_iff.mp there).1).trans there

theorem made_comparison_spare (coherent : plant.Coherent jobs) (table : TableId) (atom : String)
    (id : ComparisonId) (made : plant.makeComparison table atom = .ok (id, next)) :
    next.Coherent jobs ∧ Widens plant next ∧ next.Spare none id := by
  obtain ⟨relation, bound, rfl, rfl⟩ := comparison_made made
  have read : plant.readClock.2.Coherent jobs :=
    coherent_calm coherent (calm_same _ _ rfl) fun _ member => member
  have widens : Widens plant plant.readClock.2 :=
    ⟨rfl, rfl, rfl, rfl, rfl, fun _ _ member => member, fun _ found there => ⟨found, there, fun h => h⟩⟩
  refine ⟨coherent_add_comparison read atom relation _ fun v member => ?_,
    widens.trans (widens_add_comparison _ rfl), ?_, ?_, ?_⟩
  · obtain ⟨name, var, found⟩ := bind_vars _ _ _ relation bound v member
    exact (List.getElem?_eq_some_iff.mp (lookup_there _ table name v var found)).1
  · simp [addComparison, readClock]
  · intro known
    exact Nat.lt_irrefl _ (coherent.tuned.known _ known)
  · intro other trigger found member
    exact absurd (coherent.tuned.own other trigger found _ member).inside (Nat.lt_irrefl _)

theorem made_comparisons_spare (coherent : plant.Coherent jobs) (table : TableId)
    (atoms : List String) (ids : List ComparisonId)
    (made : plant.makeComparisons table atoms = .ok (ids, next)) :
    next.Coherent jobs ∧ Widens plant next ∧ ∀ id ∈ ids, next.Spare none id := by
  induction atoms generalizing plant ids with
  | nil =>
      cases made
      exact ⟨coherent, .refl _, by simp⟩
  | cons atom rest ih =>
      obtain ⟨id, between, others, first, later, rfl⟩ := comparisons_made made
      obtain ⟨kept, widens, spare⟩ := made_comparison_spare coherent table atom id first
      obtain ⟨coherent, widened, apart⟩ := ih kept others later
      refine ⟨coherent, widens.trans widened, fun other member => ?_⟩
      rcases List.mem_cons.mp member with rfl | inside
      · exact widens_spare widened none _ spare
      · exact apart other inside

theorem consistent_make_trigger (consistent : plant.Consistent) (table : TableId) (expression : String)
    (times : Int) (id : TriggerId) (made : plant.makeTrigger table expression times = .ok (id, next)) :
    next.Consistent := by
  obtain ⟨condition, children, between, _, found, _, rfl⟩ := trigger_made made
  obtain ⟨kept, widens, spare⟩ := made_comparisons_spare consistent table _ children found
  rw [← widens.agenda] at kept
  refine ⟨?_, ?_, ?_⟩
  · exact linked_same kept.linked (Nat.le_refl _) (listeners_add_trigger _ rfl)
      (ties_add_trigger _ rfl) fun _ _ kept => kept
  · exact tuned_add_trigger kept.tuned _ rfl spare
  · exact fresh_add_trigger kept.fresh _ rfl fun _ member => member

theorem coherent_add_variable (coherent : plant.Coherent jobs) (var : Variable)
    (unheard : var.subscribers = []) : (plant.addVariable var).2.Coherent jobs where
  linked := by
    refine linked_same coherent.linked (Nat.le_refl _) ?_ rfl fun _ _ kept => kept
    funext node
    cases node with
    | var id => exact appended_blank plant.vars var _ unheard id
    | comparison | trigger => rfl
  tuned := tuned_same coherent.tuned (by simp [addVariable]) rfl rfl fun _ member => member
  fresh := fresh_add_variable coherent.fresh coherent.tuned var fun _ member => member

theorem children_of_spare (coherent : plant.Coherent jobs) (t : TriggerId) (trigger : Trigger)
    (there : plant.triggers[t]? = some trigger) (children : List ComparisonId)
    (made : plant.childrenOf trigger = .ok (children, next)) :
    next.Coherent jobs ∧ Widens plant next ∧ ∀ child ∈ children, next.Spare (some t) child := by
  obtain ⟨_, built⟩ | ⟨_, rfl, rfl⟩ := children_made made
  · obtain ⟨kept, widens, spare⟩ := made_comparisons_spare coherent trigger.table _ children built
    refine ⟨kept, widens, fun child member => ?_⟩
    obtain ⟨inside, unnamed, apart⟩ := spare child member
    refine ⟨inside, unnamed, fun other another found shared => ?_⟩
    exact absurd (apart other another found shared) (by simp)
  · exact ⟨coherent, .refl _, coherent.tuned.own t trigger there⟩

theorem consistent_evaluate_now (coherent : plant.Coherent jobs) (t : TriggerId) (trigger : Trigger)
    (there : plant.triggers[t]? = some trigger) (joined : Joined plant trigger)
    (heard : ∀ job ∈ jobs, job ∈ plant.agenda ∨ ∃ n, job = .deliver (.trigger t) n) :
    (plant.evaluateNow t trigger).2.Consistent := by
  have read : plant.readClock.2.Coherent jobs :=
    coherent_calm coherent (calm_same _ _ rfl) fun _ member => member
  exact consistent_evaluate read t trigger there
    (joined_bound plant plant.readClock.2 trigger (bound_refl _ _ rfl) joined) _ heard

theorem consistent_activate_trigger (coherent : plant.Consistent) (t : TriggerId)
    (trigger : Trigger) (there : plant.triggers[t]? = some trigger) (joined : Joined plant trigger)
    (activated : plant.activateTrigger t trigger = .ok next) : next.Consistent := by
  cases activation activated with
  | spent => exact coherent_calm coherent (calm_same _ _ rfl) fun _ member => member
  | active => exact coherent
  | begun left idle children between _ made ran =>
      obtain ⟨kept, widens, spare⟩ := children_of_spare coherent t trigger there children made
      have linked := children_linked kept t children fun child member => (spare child member).inside
      have wired := wired_bound between _ (inert_link_children between t children).comparisons _
        (children_of_wired plant trigger children between made joined.compiled
          fun filled => joined.wired (.inr filled))
      have found : (between.linkChildren t children).2.triggers[t]? = some trigger := by
        rw [linked.widens.triggers, widens.triggers, there]
      -- the trigger is evaluated before anyone else can see it
      let due := Job.deliver (.trigger t) ⟨"", .updated, .bool false, between.now⟩
      have set : ((between.linkChildren t children).2.setTrigger t
          (trigger.started children (between.childLinks t children))).Coherent (due :: plant.agenda) := by
        refine ⟨?_, ?_, ?_⟩
        · refine linked_set_trigger linked.coherent.linked t trigger _ found rfl ?_
          intro node ticket member
          obtain ⟨⟨child, _⟩, link, same⟩ := List.mem_map.mp member
          cases same
          exact .inr (linked.listens child ticket link)
        · exact tuned_set_trigger linked.coherent.tuned t trigger _ found
            (fun _ => linked.complete)
            fun child member => widens_spare linked.widens (some t) child (spare child member)
        · refine fresh_set_trigger linked.coherent.fresh t trigger _ found ?_ ?_ ?_
          · exact fun _ => .inr (.inl ⟨_, List.mem_cons_self⟩)
          · exact fun _ => .inl left
          · exact fun _ member => .inl (List.mem_cons_of_mem _ member)
      have engaged : (between.engage t trigger children).Coherent (due :: plant.agenda) :=
        coherent_calm set (calm_same _ _ rfl) fun _ member => member
      have agenda : (between.linkChildren t children).2.agenda = plant.agenda :=
        linked.widens.agenda.trans widens.agenda
      have evaluated := consistent_evaluate_now engaged t (trigger.started children (between.childLinks t children))
        (set_trigger_there _ t trigger _ found) ⟨joined.compiled, fun _ => wired⟩
        fun job member => by
          rcases List.mem_cons.mp member with rfl | old
          · exact .inr ⟨_, rfl⟩
          · exact .inl (agenda ▸ old)
      obtain rfl | ⟨_, details, _, rfl⟩ := ran
      · exact evaluated
      · exact coherent_calm evaluated (calm_same _ _ rfl) fun _ member => member

theorem consistent_rearm_trigger (consistent : plant.Consistent) (t : TriggerId) :
    (plant.rearmTrigger t).Consistent := by
  rw [rearmTrigger]
  cases there : plant.triggers[t]? with
  | none => exact consistent
  | some trigger =>
      dsimp only
      by_cases active : trigger.active = true
      · rw [if_pos active]
        exact consistent
      · rw [if_neg active]
        have set : (plant.setTrigger t trigger.rearm).Consistent := by
          rw [Trigger.rearm, if_neg active]
          refine ⟨?_, ?_, ?_⟩
          · exact linked_set_trigger consistent.linked t trigger _ there rfl fun _ _ member => .inl member
          · exact tuned_set_trigger consistent.tuned t trigger _ there
              (fun wakes => absurd wakes active) (consistent.tuned.own t trigger there)
          · exact fresh_set_trigger consistent.fresh t trigger _ there
              (fun wakes => absurd wakes active) (fun wakes => absurd wakes active)
              fun _ member => .inl member
        obtain ⟨change, woken⟩ := wake_waiting_dispatch (plant.setTrigger t trigger.rearm) t
        rw [woken]
        exact consistent_calm set (calm_same _ _ rfl)

theorem set_unsubscribe (plant : Plant) (c : ComparisonId) (comparison : Comparison)
    (links : List (VariableId × Ticket)) :
    (links.foldl (fun plant (var, ticket) => plant.unsubscribeVariable var ticket) plant).setComparison c
        comparison =
      links.foldl (fun plant (var, ticket) => plant.unsubscribeVariable var ticket)
        (plant.setComparison c comparison) := by
  induction links generalizing plant with
  | nil => rfl
  | cons link rest ih =>
      rw [List.foldl_cons, List.foldl_cons, ih]
      congr 1
      dsimp only
      rw [unsubscribeVariable, unsubscribeVariable]
      have same : (plant.setComparison c comparison).vars = plant.vars := rfl
      rw [same]
      split <;> rfl

theorem coherent_unsubscribe_variables (coherent : plant.Coherent jobs)
    (links : List (VariableId × Ticket))
    (loose : ∀ v ticket, (v, ticket) ∈ links → plant.Loose (.var v) ticket) :
    (links.foldl (fun plant (var, ticket) => plant.unsubscribeVariable var ticket)
      plant).Coherent jobs := by
  induction links generalizing plant with
  | nil => exact coherent
  | cons link rest ih =>
      obtain ⟨v, ticket⟩ := link
      have ties : (plant.unsubscribeVariable v ticket).tiesOf = plant.tiesOf := by
        rw [unsubscribeVariable]
        split <;> rfl
      rw [List.foldl_cons]
      refine ih (coherent_unsubscribe_variable coherent v ticket (loose v ticket List.mem_cons_self)) ?_
      intro other another member listener
      rw [ties]
      exact loose other another (List.mem_cons_of_mem _ member) listener

theorem coherent_unsubscribe_comparisons (coherent : plant.Coherent jobs)
    (links : List (ComparisonId × Ticket))
    (loose : ∀ c ticket, (c, ticket) ∈ links → plant.Loose (.comparison c) ticket) :
    (links.foldl (fun plant (child, ticket) => plant.unsubscribeComparison child ticket)
      plant).Coherent jobs := by
  induction links generalizing plant with
  | nil => exact coherent
  | cons link rest ih =>
      obtain ⟨c, ticket⟩ := link
      have ties : (plant.unsubscribeComparison c ticket).tiesOf = plant.tiesOf := by
        rw [unsubscribeComparison]
        split
        · rfl
        · next comparison there => exact ties_set_subscribers c comparison there _
      rw [List.foldl_cons]
      refine ih (coherent_unsubscribe_comparison coherent c ticket
        (loose c ticket List.mem_cons_self)) ?_
      intro other another member listener
      rw [ties]
      exact loose other another (List.mem_cons_of_mem _ member) listener

theorem loose_after (linked : plant.Linked) (listener : Listener) (node : Node) (ticket : Ticket)
    (held : (node, ticket) ∈ plant.tiesOf listener)
    (ties : next.tiesOf = Function.update plant.tiesOf listener []) : next.Loose node ticket := by
  intro other member
  rw [ties] at member
  by_cases own : other = listener
  · subst own
    rw [Function.update_self] at member
    contradiction
  · rw [Function.update_of_ne own] at member
    exact own (tied_alone linked node ticket listener other held member)

theorem coherent_deactivate_comparison (coherent : plant.Coherent jobs) (c : ComparisonId)
    (unowned : plant.Unowned c) : (plant.deactivateComparison c).Coherent jobs := by
  rw [deactivateComparison]
  cases there : plant.comparisons[c]? with
  | none => exact coherent
  | some comparison =>
      dsimp only
      rw [set_unsubscribe]
      let after := { comparison with links := [] }
      have set : (plant.setComparison c after).Coherent jobs := by
        refine ⟨?_, ?_, ?_⟩
        · exact linked_set_comparison coherent.linked c comparison after there rfl
            (by simp [Comparison.ties, after])
        · refine tuned_set_comparison coherent.tuned c comparison after there rfl ?_ ?_
          · exact fun wakes => by simp [Comparison.isActive, after] at wakes
          · exact fun t trigger found active member => absurd member (unowned t trigger found active)
        · refine fresh_set_comparison coherent.fresh c comparison after there rfl rfl ?_ ?_ ?_
          · exact fun wakes => by simp [Comparison.isActive, after] at wakes
          · exact fun t trigger found active member => absurd member (unowned t trigger found active)
          · exact fun _ member => .inl member
      apply coherent_unsubscribe_variables set
      intro v ticket member
      refine loose_after coherent.linked (.comparison c) (.var v) ticket ?_
        (ties_set_comparison c comparison after there)
      rw [ties_comparison c comparison there]
      exact List.mem_map.mpr ⟨_, member, rfl⟩

theorem coherent_deactivate_comparisons (coherent : plant.Coherent jobs) (children : List ComparisonId)
    (unowned : ∀ child ∈ children, plant.Unowned child) :
    (children.foldl deactivateComparison plant).Coherent jobs := by
  induction children generalizing plant with
  | nil => exact coherent
  | cons child rest ih =>
      rw [List.foldl_cons]
      refine ih (coherent_deactivate_comparison coherent child (unowned child List.mem_cons_self)) ?_
      intro other member t trigger
      rw [(inert_deactivate_comparison plant child).triggers]
      exact unowned other (List.mem_cons_of_mem child member) t trigger

theorem coherent_deactivate_trigger (coherent : plant.Coherent jobs) (t : TriggerId)
    (drops : ∀ job ∈ jobs, job ∈ more ∨ job = .exhaust t) : (plant.deactivateTrigger t).Coherent more := by
  rw [deactivateTrigger]
  cases there : plant.triggers[t]? with
  | none =>
      refine coherent_drops coherent fun job member => (drops job member).imp_right ?_
      rintro rfl trigger found
      rw [there] at found
      contradiction
  | some trigger =>
      dsimp only
      by_cases active : trigger.active = true
      · rw [if_pos active]
        have set : (plant.setTrigger t trigger.halted).Coherent more := by
          refine ⟨?_, ?_, ?_⟩
          · exact linked_set_trigger coherent.linked t trigger trigger.halted there rfl
              (by simp [Trigger.ties, Trigger.halted])
          · exact tuned_set_trigger coherent.tuned t trigger trigger.halted there
              (fun up => absurd up Bool.false_ne_true) fun _ member => absurd member List.not_mem_nil
          · exact fresh_set_trigger coherent.fresh t trigger trigger.halted there
              (fun up => absurd up Bool.false_ne_true) (fun up => absurd up Bool.false_ne_true)
              fun job member => (drops job member).imp_right .inr
        have unlinked := coherent_unsubscribe_comparisons set trigger.links fun c ticket member => by
          refine loose_after coherent.linked (.trigger t) (.comparison c) ticket ?_
            (ties_set_trigger t trigger trigger.halted there)
          rw [ties_trigger t trigger there]
          exact List.mem_map.mpr ⟨_, member, rfl⟩
        have triggers := (inert_foldl
          (fun plant (link : ComparisonId × Ticket) => plant.unsubscribeComparison link.1 link.2)
          (fun plant link => inert_unsubscribe_comparison plant link.1 link.2) trigger.links
          (plant.setTrigger t trigger.halted)).triggers
        have stopped := coherent_deactivate_comparisons unlinked trigger.children fun child member => by
          intro other another found listens shared
          rw [triggers] at found
          by_cases own : other = t
          · subst own
            cases (set_trigger_there plant other trigger trigger.halted there).symm.trans found
            contradiction
          · have before := (set_trigger_other plant t other trigger.halted own).symm.trans found
            have same := (coherent.tuned.own t trigger there child member).apart other another before shared
            exact own (Option.some.inj same)
        exact coherent_calm stopped (calm_same _ _ rfl) fun _ member => member
      · rw [if_neg active]
        refine coherent_drops coherent fun job member => (drops job member).imp_right ?_
        rintro rfl other found
        cases there.symm.trans found
        simpa using active

theorem consistent_deactivate_trigger (coherent : plant.Coherent jobs) (t : TriggerId)
    (drops : ∀ job ∈ jobs, job ∈ plant.agenda ∨ job = .exhaust t) :
    (plant.deactivateTrigger t).Consistent := by
  rw [Consistent, (still_deactivate_trigger plant t).agenda]
  exact coherent_deactivate_trigger coherent t drops

end

end Plant

end Interlock
