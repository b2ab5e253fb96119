import Interlock.Proofs.Plant.Layers
import Interlock.Proofs.Plant.Summons

/-!
What a move does to a sequence. Either it answers a call on the sequence, or the task of the sequence
carries on with its step, or the course of the sequence stays as it is.
-/

set_option autoImplicit false

namespace Interlock

open Interlock.Graph
open Interlock.Schedule
open Interlock.Session (Command)

def Relists (c after : Course) : Prop := after.jobs ≠ c.jobs ∨ after.endings < c.endings

theorem not_relists (c after : Course) (jobs : after.jobs = c.jobs)
    (endings : c.endings ≤ after.endings) : ¬ Relists c after := by
  rintro (listed | ended)
  · exact listed jobs
  · exact Nat.not_lt.mpr endings ended

inductive Deals (id : SequenceId) : Option Summons → Course → Course → Prop where
  | stays (c : Course) : Deals id none c c
  | answers (summons : Summons) (c after : Course) (answers : Answers summons c after) :
      Deals id (some summons) c after
  | works (c after : Course) (stroke : Stroke id c after) (relists : Relists c after) :
      Deals id none c after

namespace Plant

def aimed (plant : Plant) (id : SequenceId) (name : String) (summons : Summons) : Option Summons :=
  match plant.sequence? name with
  | some (other, _) => if other = id then some summons else none
  | none => none

-- The steps of a schedule that can be made.
def scheduledSteps? (plant : Plant) (procedure : Config.Procedure) : Option (List Step) :=
  match procedure.activeSequence? with
  | none => none
  | some part =>
      match plant.makeSteps plant.desk.table part.steps with
      | .ok (steps, _) => some steps
      | .error _ => none

def summons? (plant : Plant) (id : SequenceId) : Command → Option Summons
  | .sequence (.make _ _) => if plant.sequences.length = id then some (.create []) else none
  | .sequence (.push name step count) =>
      match plant.desk.steps.lookup step with
      | some step => plant.aimed id name (.push (List.replicate count step))
      | none => none
  | .sequence (.activate name) => plant.aimed id name .activate
  | .sequence (.deactivate name) => plant.aimed id name .deactivate
  | .sequence (.setPaused name paused) => plant.aimed id name (if paused then .pause else .resume)
  | .sequence (.dispose name) => plant.aimed id name .dispose
  | .workspace (.schedule _ config _) =>
      if plant.sequences.length = id then (plant.scheduledSteps? config).map .create else none
  | .workspace .startSchedule =>
      match plant.desk.schedule with
      | some scheduled =>
          if scheduled.autoStart = true ∧ scheduled.sequence = id then some .activate else none
      | none => none
  | _ => none

def bids? (plant : Plant) (id : SequenceId) : Job → Option Summons
  | .command _ command => plant.summons? id command
  | _ => none

def asks? (plant : Plant) (id : SequenceId) : Deed → Option Summons
  | .call command => plant.summons? id command
  | .job =>
      match plant.agenda with
      | job :: rest => ({ plant with agenda := rest } : Plant).bids? id job
      | [] => none
  | .turn _ | .dispatch _ => none

theorem deals_same (id : SequenceId) (c after : Course) (same : after = c) : Deals id none c after := by
  rw [same]
  exact .stays c

theorem deals_quiet (plant next : Plant) (id : SequenceId) (quiet : Quiet plant next) :
    Deals id none (plant.course id) (next.course id) :=
  deals_same id _ _ (course_quiet plant next id quiet)

theorem deals_aimed (plant next : Plant) (id other : SequenceId) (name : String) (s : Sequence)
    (summons : Summons) (found : plant.sequence? name = some (other, s))
    (own : plant.sequences[other]? = some s →
      Answers summons (plant.course other) (next.course other))
    (apart : other ≠ id → next.course id = plant.course id) :
    Deals id (plant.aimed id name summons) (plant.course id) (next.course id) := by
  rw [aimed]
  rw [found]
  dsimp only
  by_cases mine : other = id
  · subst mine
    rw [if_pos rfl]
    exact .answers summons _ _ (own (found_there _ _ name other s found))
  · rw [if_neg mine]
    exact deals_same id _ _ (apart mine)

theorem deals_nameless (plant : Plant) (id : SequenceId) (name : String) (summons : Summons)
    (missing : plant.sequence? name = none) :
    Deals id (plant.aimed id name summons) (plant.course id) (plant.course id) := by
  rw [aimed]
  rw [missing]
  exact .stays _

theorem deals_created (plant next : Plant) (id : SequenceId) (name : String) (registry : RegistryId)
    (channel : ChannelId) (pollInterval : Nat) (queue : List Step)
    (created : next.course id = if id = plant.sequences.length then
      { plant.course id with
        sequence :=
          some { Sequence.create name registry channel pollInterval with queue := queue } }
      else plant.course id) :
    Deals id (if plant.sequences.length = id then some (.create queue) else none) (plant.course id)
      (next.course id) := by
  by_cases new : plant.sequences.length = id
  · rw [if_pos new, created, if_pos new.symm]
    have absent : (plant.course id).sequence = none := new ▸ absent_new plant
    exact .answers _ _ _ (.create _ name registry channel pollInterval queue absent)
  · rw [if_neg new, created, if_neg (Ne.symm new)]
    exact .stays _

theorem deals_on_sequence (plant : Plant) (command : Session.SequenceCommand) (id : SequenceId) :
    Deals id (plant.summons? id (.sequence command)) (plant.course id)
      ((plant.onSequence command).2.course id) := by
  cases command with
  | make name pollInterval =>
      rw [summons?, onSequence]
      dsimp only
      rw [course_inert _ _ id (inert_keep _ _)]
      exact deals_created plant _ id name _ _ pollInterval []
        (add_sequence_course plant name plant.desk.registry pollInterval id)
  | step name action trigger description =>
      cases trigger with
      | none => exact deals_quiet plant _ id (inert_keep_step plant name _).quiet
      | some trigger =>
          rw [onSequence]
          split
          · exact .stays _
          · exact deals_quiet plant _ id (inert_keep_step plant name _).quiet
  | stepOf name config =>
      rw [onSequence]
      split
      · exact .stays _
      · rename_i step next made
        exact deals_quiet plant _ id
          ((quiet_make_step plant _ config step next made).trans (inert_keep_step next name step).quiet)
  | push name step count =>
      rw [summons?, onSequence]
      cases known : plant.desk.steps.lookup step with
      | none =>
          cases plant.sequence? name with
          | none => exact .stays _
          | some found => exact .stays _
      | some listed =>
          cases found : plant.sequence? name with
          | none => exact deals_nameless plant id name _ found
          | some sequence =>
              obtain ⟨other, s⟩ := sequence
              exact deals_aimed plant _ id other name s _ found
                (fun held => answers_push plant other s held listed count)
                (fun apart => push_other plant other id apart listed count)
  | activate name =>
      rw [summons?, onSequence]
      cases found : plant.sequence? name with
      | none => exact deals_nameless plant id name _ found
      | some sequence =>
          obtain ⟨other, s⟩ := sequence
          dsimp only
          cases activated : plant.activateSequence other with
          | ok next =>
              exact deals_aimed plant next id other name s _ found
                (fun _ => answers_activate plant next other activated)
                (fun apart => activate_other plant next other id apart activated)
          | error failure =>
              exact deals_aimed plant plant id other name s _ found (fun _ => .vain _ _ (.inl rfl))
                (fun _ => rfl)
  | deactivate name =>
      rw [summons?, onSequence]
      cases found : plant.sequence? name with
      | none => exact deals_nameless plant id name _ found
      | some sequence =>
          obtain ⟨other, s⟩ := sequence
          exact deals_aimed plant _ id other name s _ found
            (fun held => answers_deactivate plant other s held) (deactivate_other plant other id)
  | setPaused name paused =>
      rw [summons?, onSequence]
      cases found : plant.sequence? name with
      | none => exact deals_nameless plant id name _ found
      | some sequence =>
          obtain ⟨other, s⟩ := sequence
          cases paused with
          | true =>
              exact deals_aimed plant _ id other name s _ found
                (fun held => answers_pause plant other s held) (pause_other plant other id)
          | false =>
              exact deals_aimed plant _ id other name s _ found
                (fun _ => answers_resume plant other) (resume_other plant other id)
  | dispose name =>
      rw [summons?, onSequence]
      cases found : plant.sequence? name with
      | none => exact deals_nameless plant id name _ found
      | some sequence =>
          obtain ⟨other, s⟩ := sequence
          exact deals_aimed plant _ id other name s _ found
            (fun held => answers_dispose plant other s held) (dispose_other plant other id)
  | state name =>
      rw [onSequence]
      split <;> exact .stays _

theorem schedule_created (plant : Plant) (procedure : Config.Procedure) (pollInterval : Nat)
    (id : SequenceId) :
    match plant.makeSchedule plant.desk.table plant.desk.registry procedure pollInterval with
    | .error _ => plant.scheduledSteps? procedure = none
    | .ok (_, next) => ∃ name registry channel queue, plant.scheduledSteps? procedure = some queue ∧
        next.course id = if id = plant.sequences.length then
          { plant.course id with
            sequence :=
              some { Sequence.create name registry channel pollInterval with queue := queue } }
          else plant.course id := by
  rw [makeSchedule, scheduledSteps?]
  cases procedure.activeSequence? with
  | none => rfl
  | some part =>
      dsimp only
      cases stepped : plant.makeSteps plant.desk.table part.steps with
      | error error => rfl
      | ok made =>
          obtain ⟨steps, after⟩ := made
          dsimp only
          have quiet := quiet_make_steps plant plant.desk.table part.steps steps after stepped
          have length : after.sequences.length = plant.sequences.length := by rw [quiet.sequences]
          have added : (after.addSequence part.name plant.desk.registry pollInterval).2.sequences[
              (after.addSequence part.name plant.desk.registry pollInterval).1]? =
            some (.create part.name plant.desk.registry after.channels.length pollInterval) :=
              List.getElem?_concat_length
          rw [added]
          refine ⟨part.name, plant.desk.registry, after.channels.length, steps, rfl, ?_⟩
          rw [course_log, ← length, ← course_quiet plant after id quiet]
          exact add_filled_course after part.name plant.desk.registry pollInterval steps id

theorem deals_on_workspace (plant : Plant) (command : Session.WorkspaceCommand) (id : SequenceId) :
    Deals id (plant.summons? id (.workspace command)) (plant.course id)
      ((plant.onWorkspace command).2.course id) := by
  cases command with
  | make document =>
      rw [onWorkspace]
      split
      · exact .stays _
      · rename_i config read
        have made := inert_make_workspace plant config
        split
        · rename_i failure next failed
          rw [failed] at made
          exact deals_quiet plant next id made.quiet
        · rename_i workspace next done
          rw [done] at made
          exact deals_quiet plant _ id (made.trans (inert_open_workspace next workspace)).quiet
  | start =>
      rw [onWorkspace]
      split
      · exact .stays _
      · rename_i devices known
        split
        · rename_i next started
          exact deals_quiet plant next id (inert_start_devices plant devices next started).quiet
        · exact .stays _
  | shutdown =>
      rw [onWorkspace]
      split
      · exact .stays _
      · exact deals_quiet plant _ id (inert_shutdown plant _).quiet
  | schedule name config pollInterval =>
      have created := schedule_created plant config pollInterval id
      rw [summons?, onWorkspace]
      cases made : plant.makeSchedule plant.desk.table plant.desk.registry config pollInterval with
      | error failure =>
          rw [made] at created
          dsimp only at created ⊢
          rw [created]
          split <;> exact .stays _
      | ok pair =>
          obtain ⟨scheduled, next⟩ := pair
          rw [made] at created
          obtain ⟨title, registry, channel, queue, steps, same⟩ := created
          have dealt := deals_created plant next id title registry channel pollInterval queue same
          rw [steps, Option.map_some]
          dsimp only
          cases next.sequences[scheduled.sequence]? with
          | none => exact dealt
          | some s =>
              dsimp only
              rw [course_inert next _ id (inert_keep _ _)]
              exact dealt
  | startSchedule =>
      rw [summons?, onWorkspace]
      cases plant.desk.schedule with
      | none => exact .stays _
      | some scheduled =>
          dsimp only
          rw [startScheduled]
          cases scheduled.autoStart with
          | false => exact .stays _
          | true =>
              by_cases mine : scheduled.sequence = id
              · rw [if_pos ⟨rfl, mine⟩]
                cases activated : plant.activateSequence scheduled.sequence with
                | error failure => exact .answers _ _ _ (.vain _ _ (.inl rfl))
                | ok next =>
                    rw [mine] at activated
                    exact .answers _ _ _ (answers_activate plant next id activated)
              · rw [if_neg (fun both => mine both.2)]
                cases activated : plant.activateSequence scheduled.sequence with
                | error failure => exact .stays _
                | ok next => exact deals_same id _ _ (activate_other plant next _ id mine activated)

theorem deals_execute (plant : Plant) (command : Command) (id : SequenceId) :
    Deals id (plant.summons? id command) (plant.course id) ((plant.execute command).2.course id) := by
  cases command with
  | var command => exact deals_quiet plant _ id (plant.variable_call command).inert.quiet
  | comparison command => exact deals_quiet plant _ id (plant.comparison_call command).inert.quiet
  | trigger command => exact deals_quiet plant _ id (plant.trigger_call command).quiet
  | channel command => exact deals_quiet plant _ id (plant.channel_call command).inert.quiet
  | device command => exact deals_quiet plant _ id (plant.device_call command).inert.quiet
  | sequence command => exact deals_on_sequence plant command id
  | workspace command => exact deals_on_workspace plant command id
  | subscribe name source publisher handler sendNow times script =>
      exact deals_quiet plant _ id
        (plant.subscribe_call name source publisher handler sendNow times script).quiet
  | unsubscribe name => exact deals_quiet plant _ id (plant.unsubscribe_call name).quiet

def Unlisted (job : Job) (plant next : Plant) : Prop := Adds (fun other => other ≠ job) plant next

theorem Unlisted.trans {job : Job} {plant middle next : Plant} (first : Unlisted job plant middle)
    (second : Unlisted job middle next) : Unlisted job plant next :=
  adds_trans _ _ _ _ first second

theorem ListsNoPart.unlisted {job : Job} {plant next : Plant} (partless : ListsNoPart plant next)
    (part : job.partOf? ≠ none) : Unlisted job plant next := by
  refine adds_weaken _ _ (fun other apart => ?_) _ _ partless
  rintro rfl
  exact part apart

theorem Detached.unlisted {job : Job} {plant next : Plant} (detached : Detached plant next)
    (part : job.partOf? ≠ none) : Unlisted job plant next := detached.lists_no_part.unlisted part

theorem unlisted_push (job : Job) (plant : Plant) (jobs : List Job)
    (absent : ∀ other ∈ jobs, other ≠ job) : Unlisted job plant (plant.push jobs) := ⟨jobs, rfl, absent⟩

theorem unlisted_leave_step (job : Job) (plant : Plant) (id : SequenceId)
    (earlier : job ≠ .next id) : Unlisted job plant (plant.leaveStep id) := by
  rw [leaveStep]
  split
  · exact adds_refl _ plant
  · rename_i s held
    exact ⟨[.next id], rfl, by simpa using earlier.symm⟩

theorem unlisted_begin (plant : Plant) (id : SequenceId) :
    Unlisted (.begin id) plant (plant.beginStep id) := by
  rw [beginStep]
  split
  · exact adds_refl _ plant
  · rename_i s step found
    refine Unlisted.trans ?_ ((detached_tell_stage _ s _ _ _).unlisted (by simp [Job.partOf?]))
    exact ⟨[.announce id (.stepStarted (s.executed + 1) step.source step.description),
      .act id step.actions], rfl, by simp⟩

theorem unlisted_act (plant : Plant) (id : SequenceId) (actions : List Action) :
    Unlisted (.act id actions) plant (plant.actNext id actions) := by
  cases actions with
  | nil => exact unlisted_push _ plant [.arm id] (by simp)
  | cons action rest =>
      rw [actNext]
      split
      · exact adds_refl _ plant
      · have part : (Job.act id (action :: rest)).partOf? ≠ none := by simp [Job.partOf?]
        have after := unlisted_push (.act id (action :: rest)) plant [.act id rest] (by simp)
        rw [act]
        dsimp only
        split
        · exact after.trans ((inert_log _ _ _ _ _).detached.unlisted part)
        · rename_i value given
          split
          · have told := unlisted_push (.act id (action :: rest)) (plant.push [.act id rest])
              [.announce id (.actionApplied action.path value)] (by simp)
            exact (after.trans told).trans
              (((inert_log _ _ _ _ _).trans (inert_write _ _ value)).detached.unlisted part)
          · exact after.trans (((inert_log _ _ _ _ _).detached.trans
              (detached_announce _ id _)).unlisted part)

theorem unlisted_arm (plant : Plant) (id : SequenceId) :
    Unlisted (.arm id) plant (plant.arm id) := by
  have part : (Job.arm id).partOf? ≠ none := by simp [Job.partOf?]
  have leaves := fun plant => unlisted_leave_step (.arm id) plant id (by simp)
  have rearmed (t : TriggerId) : Unlisted (.arm id) plant (plant.rearmTrigger t) :=
    (quiet_rearm_trigger plant t).lists_no_part.unlisted part
  have taken := plant.arm_case id
  generalize plant.arm id = next at taken ⊢
  cases taken with
  | leave => exact leaves plant
  | refuse s t trigger _ _ message details =>
      exact (rearmed t).trans (((inert_log _ _ _ _ _).detached.unlisted part).trans
        (((detached_deactivate _ id).unlisted part).trans (leaves _)))
  | engage s t trigger started next _ _ _ _ activated =>
      exact ((rearmed t).trans (unlisted_push (.arm id) (plant.rearmTrigger t) [.wait id] (by simp))).trans
        ((quiet_activate_trigger _ t _ _ activated).lists_no_part.unlisted part)

theorem unlisted_wait (plant : Plant) (id : SequenceId) :
    Unlisted (.wait id) plant (plant.waitForTrigger id) := by
  rw [waitForTrigger]
  split
  · exact unlisted_leave_step _ plant id (by simp)
  · dsimp only
    split
    · exact ⟨[.disarm id], rfl, by simp⟩
    · exact ⟨[], rfl, by simp⟩

theorem unlisted_disarm (plant : Plant) (id : SequenceId) :
    Unlisted (.disarm id) plant (plant.disarm id) := by
  have leaves := fun plant => unlisted_leave_step (.disarm id) plant id (by simp)
  have ended (t : TriggerId) : Unlisted (.disarm id) plant (plant.deactivateTrigger t) :=
    ⟨[], (still_deactivate_trigger plant t).agenda, by simp⟩
  have taken := plant.disarm_case id
  generalize plant.disarm id = next at taken ⊢
  cases taken with
  | leave => exact leaves plant
  | unmet s t | satisfied s t => exact (ended t).trans (leaves _)

theorem unlisted_next (plant : Plant) (id : SequenceId) :
    Unlisted (.next id) plant (plant.nextStep id) := by
  rw [nextStep]
  split
  · exact adds_refl _ plant
  · rename_i s held
    dsimp only
    split
    · exact ⟨[], rfl, by simp⟩
    · split
      · have idle := detached_set_sequence plant id { s with inFlight := false }
        exact (idle.trans (detached_finish _ id { s with inFlight := false })).unlisted
          (by simp [Job.partOf?])
      · split
        · exact ⟨[], rfl, by simp⟩
        · exact ⟨[.begin id], rfl, by simp⟩

theorem unlisted_perform (plant : Plant) (job : Job) (part : job.partOf? ≠ none) :
    Unlisted job plant (plant.perform job) := by
  cases job with
  | announce id progress => exact ⟨[], rfl, by simp⟩
  | begin id => exact unlisted_begin plant id
  | act id actions => exact unlisted_act plant id actions
  | arm id => exact unlisted_arm plant id
  | wait id => exact unlisted_wait plant id
  | disarm id => exact unlisted_disarm plant id
  | next id => exact unlisted_next plant id
  | deliver | tell | leave | exhaust | command | conclude | write | settleDown | keepSubscription
  | closeRun | complete => contradiction

theorem perform_relists (plant : Plant) (id : SequenceId) (job : Job) (part : job.partOf? = some id) :
    Relists (plant.pending id job) ((plant.perform job).course id) := by
  left
  intro same
  obtain ⟨jobs, grown, absent⟩ := unlisted_perform plant job (by simp [part])
  have listed : (jobs.filter fun job => job.partOf? == some id) ++
      plant.agenda.filter (fun job => job.partOf? == some id) = [job] ++ (plant.course id).jobs := by
    rw [← List.filter_append, ← grown]
    exact same
  have alone := List.append_cancel_right listed
  have member : job ∈ jobs.filter fun job => job.partOf? == some id := by simp [alone]
  exact absent job (List.mem_filter.mp member).1 rfl

theorem complete_relists (plant : Plant) (id : SequenceId) :
    Relists { plant.course id with endings := (plant.course id).endings + 1 }
      ((plant.complete id).course id) := by
  right
  have same : ((plant.complete id).course id).endings = (plant.course id).endings := by
    rw [complete]
    split
    · rfl
    · rename_i s held
      split <;> simp [held]
  rw [same]
  exact Nat.lt_succ_self _

theorem deals_run_command (plant : Plant) (label : String) (command : Command) (id : SequenceId) :
    Deals id (plant.summons? id command) (plant.course id)
      ((plant.runCommand label command).course id) := by
  obtain ⟨jobs, grown, _, same⟩ := run_command_next plant label command
  have dealt := deals_execute plant command id
  have kept : (plant.runCommand label command).course id = (plant.execute command).2.course id := by
    rw [same]
    simp [course, grown, Job.partOf?, Job.endOf?]
  rwa [kept]

theorem deals_job (plant next : Plant) (stepped : plant.stepJob? = some next) (id : SequenceId) :
    Deals id (plant.asks? id .job) (plant.course id) (next.course id) := by
  obtain ⟨job, rest, agenda, rfl⟩ := worked_off stepped
  have before := course_job plant job rest agenda id
  rw [course_retire, before, asks?, agenda]
  dsimp only
  generalize ({ plant with agenda := rest } : Plant) = ready
  have foreign : job.owner? = none → ∀ (summons : Option Summons) (after : Plant),
      Deals id summons (ready.course id) (after.course id) →
      Deals id summons
        { ready.course id with
          jobs := [job].filter (fun job => job.partOf? == some id) ++ (ready.course id).jobs,
          endings := [job].countP (fun job => job.endOf? == some id) + (ready.course id).endings }
        (after.course id) := by
    intro alien summons after deals
    obtain ⟨noPart, noEnd⟩ := foreign_part job alien
    simpa [noPart, noEnd] using deals
  have own : ∀ other : SequenceId, job.partOf? = some other → job.endOf? = none →
      (other = id → Stroke id (ready.pending id job) ((ready.perform job).course id)) →
      (other ≠ id → (ready.perform job).course id = ready.course id) →
      Deals id none
        { ready.course id with
          jobs := [job].filter (fun job => job.partOf? == some id) ++ (ready.course id).jobs,
          endings := [job].countP (fun job => job.endOf? == some id) + (ready.course id).endings }
        ((ready.perform job).course id) := by
    intro other part noEnd stroke apart
    by_cases mine : other = id
    · subst other
      have works := Deals.works _ _ (stroke rfl) (perform_relists ready id job part)
      simpa [part, noEnd, pending] using works
    · refine deals_same id _ _ ?_
      simp [part, noEnd, mine, apart mine]
  cases job with
  | deliver listener notification =>
      exact foreign rfl _ _ (deals_quiet ready _ id (quiet_deliver ready listener notification))
  | tell listener event =>
      exact foreign rfl _ _ (deals_quiet ready _ id (inert_tell ready listener event).quiet)
  | leave node => exact foreign rfl _ ready (.stays _)
  | exhaust trigger => exact foreign rfl _ _ (deals_quiet ready _ id (quiet_exhaust ready trigger))
  | command label command => exact foreign rfl _ _ (deals_run_command ready label command id)
  | conclude label reply =>
      exact foreign rfl _ _ (deals_quiet ready _ id (inert_note ready _ rfl).quiet)
  | write channel value =>
      exact foreign rfl _ _ (deals_quiet ready _ id (inert_write ready channel value).quiet)
  | settleDown device =>
      exact foreign rfl _ _ (deals_quiet ready _ id (inert_settle_down ready device).quiet)
  | keepSubscription name subscription =>
      exact foreign rfl _ _
        (deals_quiet ready _ id (inert_keep_subscription ready name subscription).quiet)
  | closeRun => exact foreign rfl _ _ (deals_quiet ready _ id (inert_dispatch ready _).quiet)
  | announce other progress =>
      refine own other rfl rfl ?_ ?_
      · rintro rfl
        have stroke := Stroke.announce (ready.pending other (.announce other progress)) progress _ rfl
        simpa [perform, pending] using stroke
      · intro apart
        simp [perform, apart]
  | begin other =>
      exact own other rfl rfl (fun mine => mine ▸ stroke_begin ready other) (begin_other ready other id)
  | act other actions =>
      exact own other rfl rfl (fun mine => mine ▸ stroke_act ready other actions)
        (fun apart => act_other ready other id apart actions)
  | arm other =>
      exact own other rfl rfl (fun mine => mine ▸ stroke_arm ready other) (arm_other ready other id)
  | wait other =>
      exact own other rfl rfl (fun mine => mine ▸ stroke_wait ready other) (wait_other ready other id)
  | disarm other =>
      exact own other rfl rfl (fun mine => mine ▸ stroke_disarm ready other)
        (disarm_other ready other id)
  | next other =>
      exact own other rfl rfl (fun mine => mine ▸ stroke_next ready other) (next_other ready other id)
  | complete other =>
      by_cases mine : other = id
      · subst other
        have works := Deals.works _ _ (stroke_complete ready id) (complete_relists ready id)
        simpa [perform, bids?, Job.partOf?, Job.endOf?, Nat.add_comm] using works
      · refine deals_same id _ _ ?_
        have same := complete_other ready other id mine
        simpa [perform, Job.partOf?, Job.endOf?, mine] using same

theorem turn_relists (plant : Plant) (other id : SequenceId) :
    (plant.turnSequence other).course id = plant.course id ∨
      Relists (plant.course id) ((plant.turnSequence other).course id) := by
  rw [turnSequence]
  split
  · exact .inl rfl
  · split
    · by_cases own : other = id
      · right; left
        simp [own, Job.partOf?]
      · left
        simp [own, Job.partOf?, Job.endOf?]
    · split
      · exact .inl rfl
      · split
        · by_cases own : other = id
          · right; left
            simp [own, Job.partOf?]
          · left
            simp [own, Job.partOf?, Job.endOf?]
        · left
          simp [sleepTask]
    · exact .inl rfl

theorem deals_turn (plant : Plant) (other id : SequenceId) :
    Deals id none (plant.course id) ((plant.turnSequence other).course id) := by
  obtain same | stroke := drift_turn plant other id
  · exact deals_same id _ _ same
  · obtain same | relists := turn_relists plant other id
    · exact deals_same id _ _ same
    · exact .works _ _ stroke relists

theorem move_deals (plant next : Plant) (deed : Deed) (move : Move plant deed next) (id : SequenceId) :
    Deals id (plant.asks? id deed) (plant.course id) (next.course id) := by
  cases move with
  | job _ stepped => exact deals_job plant next stepped id
  | call command =>
      rw [course_retire]
      exact deals_execute plant command id
  | turn runner =>
      rw [course_retire]
      cases runner with
      | sequence other => exact deals_turn plant other id
      | device device => exact deals_quiet plant _ id (inert_turn_device plant device).quiet
      | stopped => exact .stays _
  | dispatch change => exact deals_quiet plant _ id (inert_dispatch plant change).quiet

end Plant

end Interlock
