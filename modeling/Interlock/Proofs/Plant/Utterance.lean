import Interlock.Proofs.Plant.Delivery
import Interlock.Proofs.Plant.Retention

/-!
Messages that carry the value of their channel. Apart from hand-made messages and those of sequences, what
is published on a channel is the value that it holds then, and a channel changes its value only with such a
message.
-/

set_option autoImplicit false

namespace Interlock.Plant

open Interlock.Calendar (Instant)
open Interlock.Graph
open Interlock.Schedule (RegistryId SequenceId Sequence)
open Interlock.Session

def Elsewhere (c : ChannelId) (plant : Plant) (listener : Listener) : Prop :=
  ∃ d, d ≠ c ∧ ∃ s ∈ plant.subscribersOf (.channel d), s.listener = listener

structure Withholds (c : ChannelId) (plant next : Plant) : Prop where
  preserves : Preserves c plant next
  agenda : Hushes plant next

inductive Voices (c : ChannelId) (value : Value) (plant next : Plant) : Prop where
  | calls (channel : Channel) (stamp : Instant) (behind : List Job) (there : next.channels[c]? = some channel)
      (active : channel.active = true) (holds : channel.value = some value)
      (hushed : ∀ job ∈ behind, job.call? = none)
      (agenda : next.agenda = channel.calls (channel.valueEvent stamp value) ++ behind ++ plant.agenda)

inductive Utters (c : ChannelId) (plant next : Plant) : Prop where
  | elsewhere (preserves : Preserves c plant next) (jobs : List Job) (agenda : next.agenda = jobs ++ plant.agenda)
      (aside : ∀ job ∈ jobs, ∀ call ∈ job.call?, call.2.value = none ∨ Elsewhere c next call.1)
  | here (value : Value) (voices : Voices c value plant next)

def Unstaged (c : ChannelId) (plant : Plant) : Prop := ∀ s ∈ plant.sequences, s.channel ≠ c

-- A hand-made message brings any value to the listeners of the channel.
def handmade (plant : Plant) (c : ChannelId) : Command → Bool
  | .channel (.notify name _ _ value _) => value.isSome && (plant.ownChannel? name).any fun found => found.1 == c
  | _ => false

def Active (c : ChannelId) (plant : Plant) : Prop :=
  ∀ channel, plant.channels[c]? = some channel → channel.active = true

section

variable {c : ChannelId} {plant middle next : Plant}

theorem Mute.withholds (mute : Mute plant next) : Withholds c plant next := ⟨mute.preserves, mute.agenda⟩

theorem PublishesNothing.withholds (nothing : PublishesNothing plant next) (preserves : Preserves c plant next) :
    Withholds c plant next :=
  ⟨preserves, nothing.agenda⟩

theorem Withholds.trans (first : Withholds c plant middle) (second : Withholds c middle next) :
    Withholds c plant next :=
  ⟨first.preserves.trans second.preserves, adds_trans _ _ _ _ first.agenda second.agenda⟩

theorem withholds_same (same : next.airwaves = plant.airwaves) : Withholds c plant next :=
  (mute_same same).withholds

theorem Withholds.utters (withholds : Withholds c plant next) : Utters c plant next := by
  obtain ⟨jobs, agenda, hushed⟩ := withholds.agenda
  refine .elsewhere withholds.preserves jobs agenda fun job member call called => ?_
  rw [hushed job member] at called
  contradiction

theorem utters_same (same : next.airwaves = plant.airwaves) : Utters c plant next :=
  (withholds_same same).utters

theorem Withholds.behind (second : Withholds c middle next) (same : middle.airwaves = plant.airwaves) :
    Withholds c plant next := (withholds_same same).trans second

theorem Mute.utters (mute : Mute plant next) : Utters c plant next := mute.withholds.utters

theorem Withholds.voicing {value : Value} (first : Withholds c plant middle) (second : Voices c value middle next) :
    Voices c value plant next := by
  obtain ⟨earlier, listed, hushed⟩ := first.agenda
  obtain ⟨channel, stamp, behind, there, active, holds, silent, agenda⟩ := second
  refine ⟨channel, stamp, behind ++ earlier, there, active, holds, fun job member => ?_, ?_⟩
  · exact (List.mem_append.mp member).elim (silent job) (hushed job)
  · rw [agenda, listed, List.append_assoc, List.append_assoc, List.append_assoc]

theorem Withholds.uttering (first : Withholds c plant middle) (second : Utters c middle next) :
    Utters c plant next := by
  obtain ⟨earlier, listed, hushed⟩ := first.agenda
  cases second with
  | elsewhere preserves jobs agenda aside =>
    refine .elsewhere (first.preserves.trans preserves) (jobs ++ earlier) (by rw [agenda, listed, List.append_assoc])
      fun job member call called => ?_
    rcases List.mem_append.mp member with late | early
    · exact aside job late call called
    · rw [hushed job early] at called
      contradiction
  | here value voices => exact .here value (first.voicing voices)

theorem Utters.behind (second : Utters c middle next) (same : middle.airwaves = plant.airwaves) :
    Utters c plant next := (withholds_same same).uttering second

theorem Voices.then_quiet {value : Value} (first : Voices c value plant middle)
    (channels : next.channels = middle.channels) (listed : next.agenda = middle.agenda) :
    Voices c value plant next := by
  obtain ⟨channel, stamp, behind, there, active, holds, hushed, agenda⟩ := first
  exact ⟨channel, stamp, behind, by rw [channels, there], active, holds, hushed, listed.trans agenda⟩

theorem Utters.then_quiet (first : Utters c plant middle) (channels : next.channels = middle.channels)
    (listed : next.agenda = middle.agenda) : Utters c plant next := by
  cases first with
  | elsewhere preserves jobs agenda aside =>
    refine .elsewhere (preserves.then_same channels) jobs (listed.trans agenda) fun job member call called => ?_
    refine (aside job member call called).imp_right fun elsewhere => ?_
    obtain ⟨d, other, s, subscribed, same⟩ := elsewhere
    exact ⟨d, other, s, by rwa [subscribersOf, channels], same⟩
  | here value voices => exact .here value (voices.then_quiet channels listed)

theorem Utters.then_same (first : Utters c plant middle) (same : next.airwaves = middle.airwaves) :
    Utters c plant next := by
  simp only [airwaves, Prod.mk.injEq] at same
  exact first.then_quiet same.1 same.2.2.2

end

section

variable {c : ChannelId} (plant : Plant)

theorem utters_notify (id : ChannelId) (event : Event) (aside : event.value = none ∨ id ≠ c) :
    Utters c plant (plant.notify id event).2 := by
  cases there : plant.channels[id]? with
  | none =>
    rw [notify, there]
    exact (Mute.refl plant).utters
  | some channel =>
    obtain ⟨_, channels, agenda⟩ := notify_audience plant id channel event there
    refine .elsewhere (preserves_same channels) _ agenda fun job member call called => ?_
    rw [Channel.audience] at member
    split at member
    · obtain ⟨s, subscribed, rfl⟩ := List.mem_map.mp member
      cases called
      exact aside.imp_right fun other =>
        ⟨id, other, s, by rw [subscribersOf, channels, there]; exact subscribed, rfl⟩
    · contradiction

theorem voices_write (channel : Channel) (value : Value) (there : plant.channels[c]? = some channel)
    (active : channel.active = true) : Voices c value plant (plant.write c value) := by
  obtain ⟨channels, agenda⟩ := write_audience plant c channel value there
  refine ⟨{ channel with value := some value }, plant.readClock.1, [], ?_, active, rfl, by simp, ?_⟩
  · rw [channels, List.getElem?_set_self (List.getElem?_eq_some_iff.mp there).1]
  · rw [agenda, Channel.audience, if_pos active, List.append_nil]
    rfl

theorem utters_write (id : ChannelId) (value : Value) (active : plant.Active c) :
    Utters c plant (plant.write id value) := by
  cases there : plant.channels[id]? with
  | none =>
    rw [write, there]
    exact (Mute.refl plant).utters
  | some channel =>
    by_cases other : id ≠ c
    · rw [write, there]
      have held : Withholds c plant (plant.readClock.2.setChannel id { channel with value := some value }) :=
        ⟨preserves_hold_other _ id _ other, hushes_same rfl⟩
      exact held.uttering (utters_notify _ id _ (.inr other))
    · obtain rfl := not_not.mp other
      exact .here value (voices_write plant channel value there (active channel there))

theorem utters_repeat_value (id : ChannelId) : Utters c plant (plant.repeatValue id) := by
  cases there : plant.channels[id]? with
  | none =>
    rw [repeatValue, there]
    exact (Mute.refl plant).utters
  | some channel =>
    obtain ⟨channels, agenda⟩ := repeat_audience plant id channel there
    by_cases other : id ≠ c
    · rw [repeatValue, there]
      dsimp only
      split
      · exact (Mute.refl plant).utters
      · exact (utters_notify _ id _ (.inr other)).behind rfl
    · obtain rfl := not_not.mp other
      rw [Channel.repeats] at agenda
      cases held : channel.value with
      | none =>
        rw [held] at agenda
        exact (Withholds.mk (preserves_same channels) (hushes_same agenda)).utters
      | some value =>
        rw [held] at agenda
        dsimp only at agenda
        rw [Channel.audience] at agenda
        split at agenda
        · next active =>
          exact .here value ⟨channel, plant.readClock.1, [], by rw [channels, there], active, held, by simp,
            by rw [agenda, List.append_nil]⟩
        · exact (Withholds.mk (preserves_same channels) (hushes_same agenda)).utters

theorem unstaged_set {plant : Plant} (unstaged : plant.Unstaged c) (id : SequenceId) (s : Sequence)
    (other : s.channel ≠ c) : (plant.setSequence id s).Unstaged c := fun known member =>
  (List.mem_or_eq_of_mem_set member).elim (unstaged known) fun same => same ▸ other

theorem unstaged_same {next : Plant} (unstaged : plant.Unstaged c) (same : next.sequences = plant.sequences) :
    next.Unstaged c := fun s member => unstaged s (same ▸ member)

theorem set_active_sequences (id : ChannelId) (active : Bool) :
    (plant.setActive id active).sequences = plant.sequences := by
  unfold setActive
  split <;> rfl

theorem wake_task_sequences (id : SequenceId) (s : Sequence) :
    (plant.wakeTask id s).sequences = plant.sequences := by
  unfold wakeTask
  split <;> rfl

theorem utters_tell_stage (s : Sequence) (command : String) (value : Option Value) (description : String)
    (other : s.channel ≠ c) : Utters c plant (plant.tellStage s command value description) :=
  (utters_notify _ _ _ (.inr other)).behind rfl

theorem utters_finish (id : SequenceId) (s : Sequence) (other : s.channel ≠ c) :
    Utters c plant (plant.finish id s) := by
  unfold finish
  split
  · exact (mute_push plant [.complete id] (by simp [Job.call?])).withholds.uttering
      (utters_tell_stage _ _ _ _ _ other)
  · exact (Mute.refl plant).utters

theorem utters_proceed (id : SequenceId) (unstaged : plant.Unstaged c) : Utters c plant (plant.proceed id) := by
  unfold proceed
  split
  · exact (Mute.refl plant).utters
  · next s held =>
    have other := unstaged s (List.mem_of_getElem? held)
    split
    · exact (Mute.refl plant).utters
    · split
      · exact utters_same rfl
      · split
        · exact utters_finish plant id s other
        · exact utters_same rfl

theorem utters_activate_sequence (id : SequenceId) (next : Plant) (unstaged : plant.Unstaged c)
    (activated : plant.activateSequence id = .ok next) : Utters c plant next := by
  unfold activateSequence at activated
  split at activated
  · cases activated
    exact (Mute.refl plant).utters
  · next s held =>
    split at activated
    · contradiction
    · split at activated
      · cases activated
        exact (Mute.refl plant).utters
      · cases activated
        have other := unstaged s (List.mem_of_getElem? held)
        let run : Sequence := { s with active := true, executed := 0 }
        have opened : Withholds c plant ((plant.setState id run .running).setActive s.channel true) :=
          ((publishes_nothing_set_active (plant.setState id run .running) s.channel true).withholds
            (preserves_set_active _ _ _)).behind rfl
        have begun := opened.trans (mute_wake_task _ id run).withholds
        have apart : (((plant.setState id run .running).setActive s.channel true).wakeTask id run).Unstaged c :=
          unstaged_same _ (unstaged_set unstaged id { run with state := .running } other)
            ((wake_task_sequences _ id run).trans (set_active_sequences _ _ _))
        refine begun.uttering (Utters.behind (utters_proceed _ id ?_) rfl)
        exact unstaged_same _ apart rfl

theorem utters_resume (id : SequenceId) (unstaged : plant.Unstaged c) : Utters c plant (plant.resume id) := by
  unfold resume
  split
  · exact (Mute.refl plant).utters
  · next s held =>
    split
    · exact (Mute.refl plant).utters
    · split
      · exact utters_same rfl
      · have other := unstaged s (List.mem_of_getElem? held)
        have apart : (plant.setState id { s with paused := false } .running).Unstaged c :=
          unstaged_same _ (unstaged_set unstaged id { s with paused := false, state := .running } other) rfl
        refine Utters.behind (utters_proceed _ id ?_) rfl
        exact unstaged_same _ apart rfl

theorem utters_begin (id : SequenceId) (unstaged : plant.Unstaged c) : Utters c plant (plant.beginStep id) := by
  unfold beginStep
  split
  · exact (Mute.refl plant).utters
  · next s step found =>
    have other : s.channel ≠ c := by
      obtain ⟨_, held, _⟩ := current_found plant id s step found
      exact unstaged s (List.mem_of_getElem? held)
    refine Utters.behind (Withholds.uttering (mute_push _ _ ?_).withholds
      (utters_tell_stage _ _ _ _ _ other)) rfl
    simp [Job.call?]

theorem utters_act (id : SequenceId) (actions : List Interlock.Action) (active : plant.Active c) :
    Utters c plant (plant.actNext id actions) := by
  cases actions with
  | nil => exact (mute_push plant [.arm id] (by simp [Job.call?])).utters
  | cons action rest =>
    rw [actNext]
    split
    · exact (Mute.refl plant).utters
    · have after : Mute plant (plant.push [.act id rest]) := mute_push plant _ (by simp [Job.call?])
      unfold act
      dsimp only
      split
      · exact after.utters.then_same rfl
      · next value given =>
        split
        · have told : Mute plant ((plant.push [.act id rest]).push
              [.announce id (.actionApplied action.path value)]) :=
            after.trans (mute_push _ _ (by simp [Job.call?]))
          refine told.withholds.uttering (Utters.behind (utters_write _ _ value ?_) rfl)
          exact active
        · exact after.utters.then_same rfl

theorem utters_next (id : SequenceId) (unstaged : plant.Unstaged c) : Utters c plant (plant.nextStep id) := by
  unfold nextStep
  split
  · exact (Mute.refl plant).utters
  · next s held =>
    have other := unstaged s (List.mem_of_getElem? held)
    dsimp only
    split
    · exact utters_same rfl
    · split
      · exact (utters_finish _ id { s with inFlight := false } other).behind rfl
      · split
        · exact utters_same rfl
        · exact (mute_push _ _ (by simp [Job.call?])).utters.behind rfl

end

section

variable {c : ChannelId} {plant next : Plant}

theorem ChannelCall.utters {command : ChannelCommand} (call : plant.ChannelCall command next)
    (active : plant.Active c) (plain : plant.handmade c (.channel command) = false) : Utters c plant next := by
  cases call with
  | idle => exact utters_same rfl
  | make | enrol => exact Withholds.utters ⟨preserves_more plant _ _ rfl, hushes_same rfl⟩
  | register | unregister => exact Withholds.utters ⟨preserves_same rfl, hushes_same rfl⟩
  | write => exact utters_write plant _ _ active
  | setActive => exact ((publishes_nothing_set_active plant _ _).withholds (preserves_set_active plant _ _)).utters
  | rename name assigned d channel found =>
    have there := channel_found plant name d channel found
    exact Withholds.utters ⟨preserves_set_channel plant d channel _ there rfl, hushes_same rfl⟩
  | clear =>
      exact ((publishes_nothing_clear_subscribers plant _).withholds (preserves_clear_subscribers plant _)).utters
  | notify name source word value description d channel found =>
    refine Utters.behind (utters_notify _ d _ ?_) rfl
    by_contra! carries
    obtain ⟨bears, rfl⟩ := carries
    simp [handmade, found, Option.isSome_iff_ne_none.mpr bears] at plain

theorem SequenceCall.utters {command : SequenceCommand} (call : plant.SequenceCall command next)
    (unstaged : plant.Unstaged c) : Utters c plant next := by
  cases call with
  | idle | step => exact utters_same rfl
  | make name pollInterval =>
    exact ((publishes_nothing_add_sequence plant name plant.desk.registry pollInterval).withholds
      (preserves_more plant _ _ rfl)).utters.then_same rfl
  | stepOf name config step between made =>
    exact (mute_make_step plant _ config step between made).utters.then_same rfl
  | push => exact (mute_push_steps plant _ _ _).utters
  | activate name id s _ found activated => exact utters_activate_sequence plant id next unstaged activated
  | deactivate =>
      exact ((publishes_nothing_deactivate_sequence plant _).withholds
        (preserves_deactivate_sequence plant _)).utters
  | setPaused name paused id s found =>
    cases paused with
    | true => exact (mute_pause plant id).utters
    | false => exact utters_resume plant id unstaged
  | dispose =>
      exact ((publishes_nothing_dispose_sequence plant _).withholds (preserves_dispose_sequence plant _)).utters

theorem WorkspaceCall.utters {command : WorkspaceCommand} (call : plant.WorkspaceCall command next)
    (unstaged : plant.Unstaged c) : Utters c plant next := by
  have made (config : Config) : Utters c plant (plant.makeWorkspace config).2 :=
    ((publishes_nothing_make_workspace plant config).withholds (preserves_make_workspace plant config)).utters
  cases call with
  | idle => exact utters_same rfl
  | fail document config => exact made config
  | make document config => exact (made config).then_same rfl
  | start devices _ started => exact (mute_start_devices plant devices next started).utters
  | shutdown devices =>
    exact ((publishes_nothing_shutdown plant devices).withholds
      (preserves_foldl disposeDevice preserves_dispose_device devices plant)).utters
  | schedule name config pollInterval scheduled between built =>
    exact ((publishes_nothing_make_schedule plant _ _ config pollInterval scheduled between built).withholds
      (preserves_make_schedule plant _ _ config pollInterval scheduled between built)).utters.then_same rfl
  | startSchedule scheduled _ activated => exact utters_activate_sequence plant _ next unstaged activated

theorem Joining.withholds {id : String} {handler : Option String} {times : Nat} {script : List Command}
    (call : plant.Joining id handler times script next) : Withholds c plant next := by
  have joining (publisher : Publisher) (observer : ObserverId) (between : Plant)
      (made : plant.observerFor publisher id handler times script = some (observer, between)) :
      Withholds c plant (between.subscribe publisher (.observer observer)).2 :=
    (mute_observer_for plant publisher id handler times script observer between made).withholds.trans
      ((publishes_nothing_subscribe between publisher (.observer observer)).withholds
        (preserves_subscribe between publisher _))
  cases call with
  | idle => exact withholds_same rfl
  | refuse publisher observer between made => exact joining publisher observer between made
  | join publisher observer between ticket made =>
    exact (joining publisher observer between made).trans (mute_push _ _ (by simp [Job.call?])).withholds

theorem SubscribeCall.utters {id : String} {handler : Option String} {times : Nat} {script : List Command}
    (call : plant.SubscribeCall id handler times script next) : Utters c plant next := by
  cases call with
  | once _ first => exact first.withholds.utters
  | again publisher between first =>
    cases publisher with
    | node node => exact first.withholds.utters
    | channel d => exact first.withholds.uttering (utters_repeat_value between d)

theorem utters_execute (plant : Plant) (command : Command) (active : plant.Active c)
    (unstaged : plant.Unstaged c) (plain : plant.handmade c command = false) :
    Utters c plant (plant.execute command).2 := by
  cases command with
  | var command =>
    have call := plant.variable_call command
    exact (call.publishes_nothing.withholds call.preserves).utters
  | comparison command => exact (plant.comparison_call command).mute.utters
  | trigger command => exact (plant.trigger_call command).mute.utters
  | channel command => exact (plant.channel_call command).utters active plain
  | device command =>
    have call := plant.device_call command
    exact (call.publishes_nothing.withholds call.preserves).utters
  | sequence command => exact (plant.sequence_call command).utters unstaged
  | workspace command => exact (plant.workspace_call command).utters unstaged
  | subscribe id source name handler sendNow times script =>
    exact (plant.subscribe_call id source name handler sendNow times script).utters
  | unsubscribe id =>
    have call := plant.unsubscribe_call id
    exact (call.publishes_nothing.withholds call.preserves).utters

end

section

variable {c : ChannelId} (plant : Plant)

theorem utters_retire {next : Plant} (utters : Utters c plant next) : Utters c plant next.retire :=
  utters.then_quiet (mute_retire next).channels (still_retire next).agenda

theorem voices_run_command (label : String) (command : Command) (value : Value)
    (voices : Voices c value plant (plant.execute command).2) :
    Voices c value plant (plant.runCommand label command) := by
  obtain ⟨jobs, grown, _, same⟩ := run_command_next plant label command
  obtain ⟨channel, stamp, behind, there, active, holds, hushed, agenda⟩ := voices
  have own : jobs = channel.calls (channel.valueEvent stamp value) ++ behind :=
    List.append_cancel_right (grown.symm.trans agenda)
  rw [same]
  refine ⟨channel, stamp, behind ++ [.conclude label (plant.execute command).1], there, active, holds, ?_, ?_⟩
  · intro job member
    rcases List.mem_append.mp member with early | late
    · exact hushed job early
    · rw [List.mem_singleton.mp late]
      rfl
  · rw [own]
    simp

theorem utters_run_command (label : String) (command : Command) (active : plant.Active c)
    (unstaged : plant.Unstaged c) (plain : plant.handmade c command = false) :
    Utters c plant (plant.runCommand label command) := by
  cases utters_execute plant command active unstaged plain with
  | elsewhere preserves caused listed aside =>
    obtain ⟨jobs, grown, _, same⟩ := run_command_next plant label command
    rw [same]
    have own : jobs = caused := List.append_cancel_right (grown.symm.trans listed)
    refine .elsewhere (preserves.then_same rfl) (jobs ++ [.conclude label (plant.execute command).1])
      (List.append_cons jobs _ _) fun job member call called => ?_
    rcases List.mem_append.mp member with early | late
    · exact aside job (own ▸ early) call called
    · rw [List.mem_singleton.mp late] at called
      contradiction
  | here value voices => exact .here value (voices_run_command plant label command value voices)

theorem utters_perform (job : Job) (active : plant.Active c) (unstaged : plant.Unstaged c)
    (plain : ∀ label command, job = .command label command → plant.handmade c command = false) :
    Utters c plant (plant.perform job) := by
  cases job with
  | deliver listener notification => exact (mute_deliver plant listener notification).utters
  | tell listener event => exact (mute_tell plant listener event).utters
  | leave node => exact utters_same rfl
  | exhaust id => exact (mute_exhaust plant id).utters
  | command label command =>
    exact utters_run_command plant label command active unstaged (plain label command rfl)
  | conclude label reply => exact utters_same rfl
  | write id value => exact utters_write plant id value active
  | settleDown id => exact (mute_settle_down plant id).utters
  | keepSubscription name subscription => exact utters_same rfl
  | closeRun => exact utters_same rfl
  | announce id progress => exact utters_same rfl
  | begin id => exact utters_begin plant id unstaged
  | act id actions => exact utters_act plant id actions active
  | arm id => exact ((publishes_nothing_arm plant id).withholds (preserves_arm plant id)).utters
  | wait id => exact (mute_wait plant id).utters
  | disarm id => exact (mute_disarm plant id).utters
  | next id => exact utters_next plant id unstaged
  | complete id => exact ((publishes_nothing_complete plant id).withholds (preserves_complete plant id)).utters

end

theorem utters_move {c : ChannelId} {plant next : Plant} {deed : Deed} (move : Move plant deed next)
    (active : plant.Active c) (unstaged : plant.Unstaged c)
    (plain : ∀ command ∈ plant.order? deed, plant.handmade c command = false) :
    Utters c (plant.rested deed) next := by
  cases move with
  | job _ stepped =>
    obtain ⟨job, rest, agenda, rfl⟩ := worked_off stepped
    have uttered := utters_perform (c := c) { plant with agenda := rest } job active unstaged
      fun label command same => plain command (by rw [order?, agenda, same]; rfl)
    simp only [rested, agenda, List.tail_cons]
    exact utters_retire _ uttered
  | call command => exact utters_retire _ (utters_execute plant command active unstaged (plain command rfl))
  | turn runner => exact ((mute_turn plant runner).trans (mute_retire _)).utters
  | dispatch change => exact utters_same rfl

def writes? (plant : Plant) (deed : Deed) : Option (ChannelId × Value) :=
  match plant.order? deed, plant.worked? deed with
  | some (.channel (.write name value)), _ => (plant.channel? name).map fun found => (found.1, value)
  | none, some (.write id value) => some (id, value)
  | none, some (.act id (action :: _)) => do
      let s ← plant.sequences[id]?
      let value ← action.value
      let c ← Registry.resolve? (plant.registry s.registry) action.path
      return (c, value)
  | _, _ => none

section

variable {c : ChannelId} {value : Value} {plant next : Plant} {channel : Channel}

theorem voices_act (id : SequenceId) (s : Sequence) (action : Interlock.Action) (rest : List Interlock.Action)
    (held : plant.sequences[id]? = some s) (given : action.value = some value)
    (found : Registry.resolve? (plant.registry s.registry) action.path = some c)
    (there : plant.channels[c]? = some channel) (active : channel.active = true) :
    Voices c value plant (plant.actNext id (action :: rest)) := by
  rw [actNext, held]
  dsimp only
  rw [act, given]
  dsimp only
  rw [found]
  dsimp only
  have told : Withholds c plant ((plant.push [.act id rest]).push
      [.announce id (.actionApplied action.path value)]) :=
    ((mute_push plant _ (by simp [Job.call?])).trans (mute_push _ _ (by simp [Job.call?]))).withholds
  refine Withholds.voicing (told.trans (withholds_same ?_)) (voices_write _ channel value there active)
  rfl

theorem voices_ordered (name : String) (own : Channel) (found : plant.channel? name = some (c, own))
    (there : plant.channels[c]? = some channel) (active : channel.active = true) :
    Voices c value plant (plant.execute (.channel (.write name value))).2 := by
  rw [execute, onChannel, found]
  exact voices_write plant channel value there active

theorem voices_retire (voices : Voices c value plant next) : Voices c value plant next.retire :=
  voices.then_quiet (mute_retire next).channels (still_retire next).agenda

theorem written_voices {deed : Deed} (move : Move plant deed next) (writes : plant.writes? deed = some (c, value))
    (there : plant.channels[c]? = some channel) (active : channel.active = true) :
    Voices c value (plant.rested deed) next := by
  cases move with
  | job _ stepped =>
    obtain ⟨job, rest, agenda, rfl⟩ := worked_off stepped
    simp only [rested, agenda, List.tail_cons]
    refine voices_retire ?_
    rw [writes?.eq_def, order?, worked?, agenda, List.head?_cons] at writes
    split at writes
    · next name given ordered =>
      obtain ⟨⟨d, own⟩, found, same⟩ := Option.map_eq_some_iff.mp writes
      cases same
      split at ordered
      · next label _ _ listed =>
        cases listed
        cases ordered
        have voices : Voices d value { plant with agenda := rest }
            (execute { plant with agenda := rest } (.channel (.write name value))).2 :=
          voices_ordered name own found there active
        exact voices_run_command _ label _ value voices
      · contradiction
    · next id given _ worked =>
      cases worked
      cases writes
      exact voices_write _ channel value there active
    · next id action more _ worked =>
      cases worked
      simp only [Option.bind_eq_bind, Option.bind_eq_some_iff] at writes
      obtain ⟨s, held, given, bears, d, found, same⟩ := writes
      cases same
      exact voices_act id s action more held bears found there active
    · contradiction
  | call command =>
    rw [writes?.eq_def, order?] at writes
    split at writes
    · next name given ordered =>
      cases ordered
      obtain ⟨⟨_, own⟩, found, same⟩ := Option.map_eq_some_iff.mp writes
      cases same
      exact voices_retire (voices_ordered name own found there active)
    · contradiction
    · contradiction
    · contradiction
  | turn runner => contradiction
  | dispatch change => contradiction

end

end Interlock.Plant
