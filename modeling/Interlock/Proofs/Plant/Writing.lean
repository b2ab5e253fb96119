import Interlock.Proofs.Plant.Reaction

/-!
A step at work. It publishes its text and then performs its assignments one after the other; what a write
causes is over before the next assignment, and one that finds no channel is passed over.
-/

set_option autoImplicit false

namespace Interlock.Plant

open Interlock.Graph
open Interlock.Schedule (SequenceId Progress Sequence Step)
open Interlock.Session (Command progressOf)

section

variable {plant next performed : Plant} {job other : Job} {rest : List Job} {id : SequenceId} {registry : Directory}

theorem notify_apart (plant : Plant) (c : ChannelId) (event : Event) :
    (plant.notify c event).2.observers = plant.observers ∧
      (plant.notify c event).2.registries = plant.registries ∧
      (plant.notify c event).2.sequences = plant.sequences := by
  unfold notify
  split
  · exact ⟨rfl, rfl, rfl⟩
  · split
    · split <;> exact ⟨rfl, rfl, rfl⟩
    · exact ⟨rfl, rfl, rfl⟩

theorem write_apart (plant : Plant) (c : ChannelId) (value : Value) :
    (plant.write c value).observers = plant.observers ∧
      (plant.write c value).registries = plant.registries ∧
      (plant.write c value).sequences = plant.sequences := by
  rw [write]
  split
  · exact ⟨rfl, rfl, rfl⟩
  · next channel there =>
      exact notify_apart (plant.readClock.2.setChannel c { channel with value := some value }) c _

theorem notify_tells (plant : Plant) (c : ChannelId) (event : Event) :
    (plant.notify c event).2.channels = plant.channels ∧ ∃ told,
      (plant.notify c event).2.agenda = told ++ plant.agenda ∧
        ∀ job ∈ told, ∃ listener, job = .tell listener event := by
  cases there : plant.channels[c]? with
  | none =>
      rw [notify, there]
      exact ⟨rfl, [], rfl, by simp⟩
  | some channel =>
      obtain ⟨_, channels, agenda⟩ := notify_audience plant c channel event there
      refine ⟨channels, _, agenda, fun job member => ?_⟩
      rw [Channel.audience] at member
      split at member
      · obtain ⟨s, _, rfl⟩ := List.mem_map.mp member
        exact ⟨s.listener, rfl⟩
      · contradiction

theorem told_retired (plant : Plant) (id : SequenceId) :
    progressOf id plant.retire.trace = progressOf id plant.trace :=
  congrArg Course.told (course_retire plant id)

theorem writable_performed (writable : Writable id registry plant) (agenda : plant.agenda = job :: rest)
    (same : { plant with agenda := rest }.perform job = performed)
    (observers : performed.observers = plant.observers)
    (registries : performed.registries = plant.registries)
    (sequences : ∀ sequence, plant.sequences[id]? = some sequence →
      ∃ after, performed.sequences[id]? = some after ∧ after.registry = sequence.registry)
    (channels : performed.channels.length = plant.channels.length) :
    plant.stepJob? = some performed.retire ∧ Writable id registry performed.retire ∧
      performed.retire.channels = performed.channels ∧ performed.retire.agenda = performed.agenda := by
  have stepped : plant.stepJob? = some performed.retire := by
    rw [stepJob?, agenda]
    dsimp only
    rw [same]
  have mute := mute_retire performed
  refine ⟨stepped, ?_, mute.channels, (still_retire performed).agenda⟩
  refine writable_kept writable (poised_move .job (.job _ stepped) writable.poised) ?_ ?_
    (mute.registries.trans registries) ((congrArg List.length mute.channels).trans channels)
  · rw [Onlookers, (hushed_retire performed).observers, observers]
    exact writable.onlookers
  · rw [(quiet_retire performed).sequences]
    exact sequences

theorem announce_enacted (progress : Progress) (writable : Writable id registry plant)
    (agenda : plant.agenda = .announce id progress :: rest) :
    ∃ next, Enacts id plant [.report progress] next ∧ Writable id registry next ∧ next.agenda = rest := by
  obtain ⟨stepped, still, channels, left⟩ := writable_performed writable agenda rfl rfl rfl
    (fun sequence held => ⟨sequence, held, rfl⟩) rfl
  refine ⟨_, .single stepped (.reports _ progress channels ?_ ?_), still, left⟩
  · refine (told_retired _ id).trans ?_
    exact congrArg Course.told ((course_announce { plant with agenda := rest } id progress id).trans
      (if_pos rfl))
  · exact ⟨[], by rw [left, agenda]; rfl, by simp⟩

theorem silent_listed (agenda : plant.agenda = job :: rest) (left : next.agenda = [other] ++ rest)
    (quiet : other.bearsValue = false) : plant.Silent next := by
  refine ⟨[other], by rw [left, agenda]; rfl, fun job member => ?_⟩
  rw [List.mem_singleton.mp member]
  exact quiet

section

variable (plant) {s : Sequence} (action : Action) (more : List Action)
  (held : plant.sequences[id]? = some s)

include held

theorem act_bare (bare : action.value = none) : ∃ details, plant.actNext id (action :: more) =
    (plant.push [.act id more]).log .sequence .debug "Placeholder action, nothing written" details := by
  rw [actNext, held]
  dsimp only
  rw [act, bare]
  exact ⟨_, rfl⟩

theorem act_skips (value : Value) (given : action.value = some value)
    (missing : Registry.resolve? (plant.registry s.registry) action.path = none) :
    ∃ details, plant.actNext id (action :: more) =
      ((plant.push [.act id more]).log .sequence .warn "Action target not found, skipped" details).announce id
        (.actionSkipped action.path) := by
  rw [actNext, held]
  dsimp only
  rw [act, given]
  dsimp only
  rw [missing]
  exact ⟨_, rfl⟩

theorem act_applies (value : Value) (given : action.value = some value) (c : ChannelId)
    (found : Registry.resolve? (plant.registry s.registry) action.path = some c) :
    ∃ ready : Plant, plant.actNext id (action :: more) = ready.write c value ∧
      ready.agenda =
        [.announce id (.actionApplied action.path value), .act id more] ++ plant.agenda ∧
      ready.observers = plant.observers ∧ ready.registries = plant.registries ∧
      ready.sequences = plant.sequences ∧ ready.channels = plant.channels ∧
      progressOf id ready.trace = progressOf id plant.trace := by
  rw [actNext, held]
  dsimp only
  rw [act, given]
  dsimp only
  rw [found]
  exact ⟨_, rfl, rfl, rfl, rfl, rfl, rfl, rfl⟩

end

theorem applied_enacted (action : Action) (value : Value) (more : List Action) (c : ChannelId)
    (writable : Writable id registry plant) (agenda : plant.agenda = .act id (action :: more) :: rest)
    (given : action.value = some value) (found : Registry.resolve? registry action.path = some c) :
    ∃ next, Enacts id plant [.write c value, .report (.actionApplied action.path value)] next ∧
      Writable id registry next ∧ next.agenda = .act id more :: rest := by
  obtain ⟨s, held, resolves⟩ := writable.reads
  have inside : c < plant.channels.length := writable.stocked c (registry.found_among _ c found)
  have there := List.getElem?_eq_getElem inside
  obtain ⟨ready, performed, listed, observers, registries, sequences, channels, told⟩ :=
    act_applies { plant with agenda := rest } action more held value given c
      ((congrArg (Registry.resolve? · action.path) resolves).trans found)
  obtain ⟨changed, audience⟩ := write_audience ready c plant.channels[c] value
    ((congrArg (·[c]?) channels).trans there)
  obtain ⟨observed, registered, running⟩ := write_apart ready c value
  obtain ⟨stepped, still, _, left⟩ := writable_performed writable agenda performed
    (observed.trans observers) (registered.trans registries)
    (fun s held => ⟨s, (congrArg (·[id]?) (running.trans sequences)).trans held, rfl⟩)
    ((congrArg List.length changed).trans (List.length_set.trans (congrArg List.length channels)))
  have written : Enacts id plant [.write c value] (ready.write c value).retire :=
    .single stepped (.writes ready c _ value there channels told
      ⟨[.announce id (.actionApplied action.path value), .act id more], by rw [agenda]; exact listed,
        by simp [Job.bearsValue]⟩)
  rw [audience, listed] at left
  obtain ⟨between, reacted, settled, empty⟩ := reaction_ends _ still left fun job member => by
    rw [Channel.audience] at member
    split at member
    · obtain ⟨s, _, rfl⟩ := List.mem_map.mp member
      trivial
    · contradiction
  obtain ⟨next, reported, ended, done⟩ := announce_enacted _ settled empty
  exact ⟨next, written.trans (reacted.trans reported), ended, done⟩

theorem action_enacted (action : Action) (more : List Action) (writable : Writable id registry plant)
    (agenda : plant.agenda = .act id (action :: more) :: rest) :
    ∃ next, Enacts id plant (action.given?.toList.flatMap (Registry.effects registry)) next ∧
      Writable id registry next ∧ next.agenda = .act id more :: rest := by
  obtain ⟨s, held, resolves⟩ := writable.reads
  cases given : action.value with
  | none =>
      obtain ⟨details, performed⟩ := act_bare { plant with agenda := rest } action more held given
      obtain ⟨stepped, still, channels, left⟩ := writable_performed writable agenda performed rfl rfl
        (fun sequence held => ⟨sequence, held, rfl⟩) rfl
      rw [show action.given? = none by rw [Action.given?, given]; rfl]
      exact ⟨_, .single stepped (.nothing _ channels (told_retired _ id) (silent_listed agenda left rfl)),
        still, left⟩
  | some value =>
      have assigns : action.given? = some (action.path, value) := by
        rw [Action.given?, given]
        rfl
      rw [assigns, Option.toList_some, List.flatMap_singleton, Registry.effects]
      cases found : Registry.resolve? registry action.path with
      | some c => exact applied_enacted action value more c writable agenda given found
      | none =>
          obtain ⟨details, performed⟩ := act_skips { plant with agenda := rest } action more held value given
            ((congrArg (Registry.resolve? · action.path) resolves).trans found)
          obtain ⟨stepped, still, channels, left⟩ := writable_performed writable agenda performed rfl rfl
            (fun sequence held => ⟨sequence, held, rfl⟩) rfl
          refine ⟨_, .single stepped (.reports _ _ channels ?_ (silent_listed agenda left rfl)), still,
            left⟩
          refine (told_retired _ id).trans ?_
          exact congrArg Course.told ((course_announce _ id _ id).trans (if_pos rfl))

theorem actions_enacted (actions : List Action) (writable : Writable id registry plant)
    (agenda : plant.agenda = .act id actions :: rest) :
    ∃ next, Enacts id plant ((actions.filterMap Action.given?).flatMap (Registry.effects registry)) next ∧
      Writable id registry next ∧ next.agenda = .arm id :: rest := by
  induction actions generalizing plant with
  | nil =>
      obtain ⟨stepped, still, channels, left⟩ := writable_performed writable agenda rfl rfl rfl
        (fun sequence held => ⟨sequence, held, rfl⟩) rfl
      exact ⟨_, .single stepped (.nothing _ channels (told_retired _ id) (silent_listed agenda left rfl)),
        still, left⟩
  | cons action more ih =>
      obtain ⟨between, first, still, left⟩ := action_enacted action more writable agenda
      obtain ⟨last, others, ended, done⟩ := ih still left
      refine ⟨last, ?_, ended, done⟩
      have parts : (action :: more).filterMap Action.given? =
          action.given?.toList ++ more.filterMap Action.given? := by
        rw [List.filterMap_cons]
        cases action.given? <;> rfl
      rw [parts, List.flatMap_append]
      exact first.trans others

theorem begin_tells (plant : Plant) (s : Sequence) (step : Step)
    (current : plant.current? id = some (s, step)) :
    ∃ (ready : Plant) (stamp : Calendar.Instant),
      plant.beginStep id = (ready.notify s.channel
        ⟨s.name, stamp, Sequence.nextCommand, some (.text step.source), step.description⟩).2 ∧
      ready.agenda =
        [.announce id (.stepStarted (s.executed + 1) step.source step.description),
          .act id step.actions] ++ plant.agenda ∧
      ready.sequences = plant.sequences.set id { s with executed := s.executed + 1 } ∧
      ready.observers = plant.observers ∧ ready.registries = plant.registries ∧
      ready.channels = plant.channels ∧ progressOf id ready.trace = progressOf id plant.trace := by
  rw [beginStep, current]
  exact ⟨_, _, rfl, rfl, rfl, rfl, rfl, rfl, rfl⟩

theorem begun_enacted (s : Sequence) (step : Step) (current : plant.current? id = some (s, step))
    (writable : Writable id registry plant) (agenda : plant.agenda = .begin id :: rest) :
    ∃ next, Enacts id plant [.report (.stepStarted (s.executed + 1) step.source step.description)] next ∧
      Writable id registry next ∧ next.agenda = .act id step.actions :: rest := by
  obtain ⟨_, held, _⟩ := current_found plant id s step current
  obtain ⟨inside, _⟩ := List.getElem?_eq_some_iff.mp held
  obtain ⟨ready, stamp, performed, listed, sequences, observers, registries, channels, told⟩ :=
    begin_tells { plant with agenda := rest } s step current
  generalize published : (⟨s.name, stamp, Sequence.nextCommand, some (.text step.source),
    step.description⟩ : Event) = event at performed
  obtain ⟨observed, registered, running⟩ := notify_apart ready s.channel event
  obtain ⟨changed, calls, audience, each⟩ := notify_tells ready s.channel event
  rw [listed] at audience
  obtain ⟨stepped, still, same, left⟩ := writable_performed writable agenda performed
    (observed.trans observers) (registered.trans registries)
    (fun sequence before => by
      cases held.symm.trans before
      refine ⟨{ s with executed := s.executed + 1 }, ?_, rfl⟩
      rw [running, sequences]
      exact List.getElem?_set_self inside)
    (congrArg List.length (changed.trans channels))
  have unheard : progressOf id (ready.notify s.channel event).2.trace = progressOf id ready.trace :=
    congrArg Course.told (course_inert _ _ id (inert_notify ready s.channel event))
  have begun : Enacts id plant [] (ready.notify s.channel event).2.retire := by
    refine .single stepped (.nothing _ (same.trans (changed.trans channels))
      ((told_retired _ id).trans (unheard.trans told)) ?_)
    refine ⟨calls ++ [.announce id (.stepStarted (s.executed + 1) step.source step.description),
      .act id step.actions], by rw [left, audience, agenda, List.append_assoc]; rfl, fun job member => ?_⟩
    rcases List.mem_append.mp member with call | own
    · obtain ⟨listener, rfl⟩ := each job call
      have command : event.command = Sequence.nextCommand := congrArg Event.command published.symm
      rw [Job.bearsValue, command]
      decide
    · rcases List.mem_pair.mp own with rfl | rfl <;> rfl
  obtain ⟨between, reacted, settled, empty⟩ := reaction_ends calls still (left.trans audience)
    fun job member => by
      obtain ⟨listener, rfl⟩ := each job member
      trivial
  obtain ⟨next, reported, ended, done⟩ := announce_enacted _ settled empty
  exact ⟨next, begun.trans (reacted.trans reported), ended, done⟩

theorem step_enacted (s : Sequence) (step : Step) (current : plant.current? id = some (s, step))
    (writable : Writable id registry plant) (agenda : plant.agenda = .begin id :: rest) :
    ∃ last, Enacts id plant
        (.report (.stepStarted (s.executed + 1) step.source step.description) ::
          (step.actions.filterMap Action.given?).flatMap (Registry.effects registry)) last ∧
      last.agenda = .arm id :: rest := by
  obtain ⟨begun, first, still, left⟩ := begun_enacted s step current writable agenda
  obtain ⟨last, others, _, done⟩ := actions_enacted step.actions still left
  exact ⟨last, first.trans others, done⟩

theorem reached_stocked (reached : plant.Reached) : plant.Stocked := by
  obtain ⟨start, hasRuntime, moves⟩ := reached
  refine runs_invariant Stocked (fun plant deed next stocked move => ?_) _ plant ?_ moves
  · have rested : (plant.rested deed).Stocked := by cases deed <;> exact stocked
    cases publishes_once_move plant next deed move with
    | silent nothing => exact nothing.stocked rested
    | publishes _ _ _ _ _ kept => exact kept rested
  · intro registry listed c member
    rw [List.mem_singleton.mp listed] at member
    contradiction

theorem writable_reached (reached : plant.Reached) (onlookers : plant.Onlookers) (s : Sequence)
    (held : plant.sequences[id]? = some s) : Writable id (plant.registry s.registry) plant := by
  refine ⟨reached_poised reached, onlookers, ⟨s, held, rfl⟩, fun c member => ?_⟩
  rw [Plant.registry, List.getD_eq_getElem?_getD] at member
  cases there : plant.registries[s.registry]? with
  | none =>
      rw [there] at member
      contradiction
  | some found =>
      rw [there] at member
      exact reached_stocked reached found (List.mem_of_getElem? there) c member

-- What a step has done when its assignments are through and it turns to its trigger.
structure Written (id : SequenceId) (registry : Directory) (index : Nat) (text description : String)
    (plant last : Plant) : Prop where
  enacts : Enacts id plant
    (.report (.stepStarted index (Text.trimText text) description) :: Registry.textEffects registry text) last
  told : progressOf id last.trace =
    ((Registry.textEffects registry text).filterMap Effect.report?).reverse ++
      .stepStarted index (Text.trimText text) description :: progressOf id plant.trace
  channels : ∀ c : ChannelId, last.channels[c]? = (plant.channels[c]?).map fun channel =>
    { channel with value := (Registry.lastGiven registry text c).or channel.value }
  holds : ∀ (path : String) (c : ChannelId) (value : Value), Registry.resolve? registry path = some c →
    Registry.lastGiven registry text c = some value →
      ∃ channel, last.channels[c]? = some channel ∧ channel.value = some value

theorem step_writes_assignments (reached : plant.Reached) (onlookers : plant.Onlookers) (s : Sequence)
    (text : String) (trigger : Option TriggerId) (description : String)
    (current : plant.current? id = some (s, .create text trigger description))
    (agenda : plant.agenda = .begin id :: rest) :
    ∃ count, (settle count plant).agenda = .arm id :: rest ∧
      Written id (plant.registry s.registry) (s.executed + 1) text description plant (settle count plant) := by
  obtain ⟨_, held, _⟩ := current_found plant id s _ current
  have writable := writable_reached reached onlookers s held
  obtain ⟨last, enacts, done⟩ := step_enacted s _ current writable agenda
  rw [show (Step.create text trigger description).actions = Action.readList text from rfl,
    Action.read_assigns] at enacts
  obtain ⟨count, rfl⟩ := enacts_settles enacts
  have channels : ∀ c : ChannelId, (settle count plant).channels[c]? = (plant.channels[c]?).map fun channel =>
      { channel with
        value := (Registry.lastGiven (plant.registry s.registry) text c).or channel.value } := by
    intro c
    rw [enacts_channels enacts, Effect.carried, List.filterMap_cons]
    dsimp only [Effect.written?]
    rw [Registry.effects_written]
    rfl
  refine ⟨count, done, enacts, ?_, channels, fun path c value found given => ?_⟩
  · rw [enacts_told enacts, List.filterMap_cons]
    dsimp only [Effect.report?]
    rw [List.reverse_cons, List.append_assoc]
    rfl
  · have inside := writable.stocked c (Directory.found_among _ _ c found)
    refine ⟨_, (channels c).trans (by rw [List.getElem?_eq_getElem inside]; rfl), ?_⟩
    rw [given]
    rfl

end

-- A channel that is given twice under different spellings, an inactive one, a path that leads nowhere, and
-- entries that assign nothing; a variable follows the first channel, and its handler looks at the second.
def bathText : String := " bath:HEATER = true ,, Bath.Pump, Nowhere=1, BATH.PUMP=a=b, Bath.Heater=false ,=x "

def bathCommands : List Command :=
  [.channel (.make "heater" true none (some "Bath.Heater") false),
    .channel (.make "pump" false (some (.bool true)) (some "bath:pump") false),
    .channel (.make "lid" true (some (.text "shut")) (some "Lid") false),
    .var (.make "x" (.bool false) false), .var (.follow "f" "x" "heater"),
    .subscribe "h" .channel "heater" none false 9 [.channel (.read "pump"), .var (.get "x")],
    .sequence (.make "s" 10), .sequence (.step "fill" bathText none "first"),
    .sequence (.push "s" "fill" 1), .sequence (.activate "s")]

def beforeBath : Plant := ((blank ⟨0, 0⟩ true).runAll bathCommands).after (.turn (.sequence 0))

def seen (channel : Channel) : Option Value × Bool := (channel.value, channel.active)

def beginning : List Job → Option SequenceId
  | [.begin id] => some id
  | _ => none

theorem bath_written : ∃ count, (settle count beforeBath).agenda = [.arm 0] ∧
    progressOf 0 (settle count beforeBath).trace =
      [.actionSkipped "", .actionApplied "Bath.Heater" (.bool false),
        .actionApplied "BATH.PUMP" (.text "a=b"), .actionSkipped "Nowhere",
        .actionApplied "bath:HEATER" (.bool true), .stepStarted 1 (Text.trimText bathText) "first",
        .started "s"] ∧
    ((settle count beforeBath).channels[0]?).map seen = some (some (.bool false), true) ∧
    ((settle count beforeBath).channels[1]?).map seen = some (some (.text "a=b"), false) ∧
    ((settle count beforeBath).channels[2]?).map seen = some (some (.text "shut"), true) := by
  have commanded := run_all_runs (fun _ _ _ => true) (fun _ _ _ done _ => done.move) (blank ⟨0, 0⟩ true)
    bathCommands (by decide +kernel)
  have reached : beforeBath.Reached :=
    reached_move _ _ ⟨⟨0, 0⟩, true, commanded⟩ (.turn (.sequence 0)) (.turn (.sequence 0))
  have assigned : Action.assignments bathText = [("bath:HEATER", .bool true), ("Nowhere", .number 1),
      ("BATH.PUMP", .text "a=b"), ("Bath.Heater", .bool false), ("", .text "x")] := by
    decide +kernel
  have facts : (∀ observer ∈ beforeBath.observers, ∀ command ∈ observer.script, command.observes = true) ∧
      (beforeBath.current? 0).map (fun found => (found.2, found.1.registry, found.1.executed)) =
        some (.create bathText none "first", 0, 0) ∧
      beginning beforeBath.agenda = some 0 ∧
      progressOf 0 beforeBath.trace = [.started "s"] ∧
      beforeBath.registry 0 = [("bath.heater", 0), ("bath.pump", 1), ("lid", 2)] ∧
      (beforeBath.channels[0]?).map seen = some (none, true) ∧
      (beforeBath.channels[1]?).map seen = some (some (.bool true), false) ∧
      (beforeBath.channels[2]?).map seen = some (some (.text "shut"), true) := by
    decide +kernel
  obtain ⟨looks, taken, began, told, listed, first, second, third⟩ := facts
  obtain ⟨⟨s, step⟩, current, same⟩ := Option.map_eq_some_iff.mp taken
  simp only [Prod.mk.injEq] at same
  obtain ⟨rfl, registry, executed⟩ := same
  have agenda : beforeBath.agenda = [.begin 0] := by
    rw [beginning.eq_def] at began
    split at began
    · next id alone => rw [alone, Option.some.inj began]
    · contradiction
  obtain ⟨count, done, written⟩ := step_writes_assignments reached
    (fun observer member => .inr (looks observer member)) s bathText none "first" current agenda
  rw [registry, executed, listed] at written
  -- a channel shows what it was given last, or what it held before
  have shows : ∀ (c : ChannelId) (held : Option Value) (active : Bool),
      (beforeBath.channels[c]?).map seen = some (held, active) →
        ((settle count beforeBath).channels[c]?).map seen = some
          ((Registry.lastGiven [("bath.heater", 0), ("bath.pump", 1), ("lid", 2)] bathText c).or held,
            active) := by
    intro c held active before
    obtain ⟨channel, there, same⟩ := Option.map_eq_some_iff.mp before
    cases same
    rw [written.channels c, there]
    rfl
  simp only [Registry.lastGiven, assigned] at shows
  refine ⟨count, done, ?_, (shows 0 _ _ first).trans (by decide +kernel),
    (shows 1 _ _ second).trans (by decide +kernel), (shows 2 _ _ third).trans (by decide +kernel)⟩
  rw [written.told, Registry.textEffects, assigned, told]
  decide +kernel

end Interlock.Plant
