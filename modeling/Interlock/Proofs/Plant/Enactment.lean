import Interlock.Proofs.Plant.Delivery
import Interlock.Proofs.Plant.Passing
import Interlock.Proofs.Schedule.Assignment

/-!
What the assignments of a text come to. Those that find a channel write to it and are reported; the others
are reported as skipped. The plant enacts them as it works off its agenda: each job writes once, reports
once, or does neither.
-/

set_option autoImplicit false

namespace Interlock

open Interlock.Schedule (SequenceId Progress)
open Interlock.Session (progressOf)

inductive Effect where
  | write (id : ChannelId) (value : Value)
  | report (progress : Progress)
deriving DecidableEq

namespace Effect

def report? : Effect → Option Progress
  | write _ _ => none
  | report progress => some progress

def written? (id : ChannelId) : Effect → Option Value
  | write other value => if other = id then some value else none
  | report _ => none

def carry (channels : List Channel) : Effect → List Channel
  | write id value => channels.modify id fun channel => { channel with value := some value }
  | report _ => channels

theorem carried (effects : List Effect) (channels : List Channel) (id : ChannelId) :
    (effects.foldl carry channels)[id]? = (channels[id]?).map fun channel =>
      { channel with value := (effects.filterMap (written? id)).getLast?.or channel.value } := by
  induction effects generalizing channels with
  | nil => simp
  | cons effect rest ih =>
      rw [List.foldl_cons, ih]
      cases effect with
      | report progress => rfl
      | write other value =>
          rw [carry, List.getElem?_modify]
          by_cases same : other = id
          · cases channels[id]? <;> simp [written?, same, List.getLast?_cons, Option.or_some]
          · cases channels[id]? <;> simp [written?, same]

end Effect

namespace Registry

variable (registry : Directory)

def effects (assignment : String × Value) : List Effect :=
  match resolve? registry assignment.1 with
  | some id => [.write id assignment.2, .report (.actionApplied assignment.1 assignment.2)]
  | none => [.report (.actionSkipped assignment.1)]

def textEffects (text : String) : List Effect := (Action.assignments text).flatMap (effects registry)

def lastGiven (text : String) (id : ChannelId) : Option Value :=
  (((Action.assignments text).filter fun assignment => resolve? registry assignment.1 == some id).map
    Prod.snd).getLast?

theorem effects_written (assignments : List (String × Value)) (id : ChannelId) :
    (assignments.flatMap (effects registry)).filterMap (Effect.written? id) =
      (assignments.filter fun assignment => resolve? registry assignment.1 == some id).map Prod.snd := by
  induction assignments with
  | nil => rfl
  | cons assignment rest ih =>
      rw [List.flatMap_cons, List.filterMap_append, ih, List.filter_cons, effects]
      cases resolve? registry assignment.1 with
      | none => simp [Effect.written?]
      | some other => by_cases same : other = id <;> simp [Effect.written?, same]

end Registry

def Job.bearsValue : Job → Bool
  | .tell _ event => event.command == Event.valueCommand
  | _ => false

namespace Plant

def Silent (plant next : Plant) : Prop :=
  Adds (fun job => job.bearsValue = false) { plant with agenda := plant.agenda.tail } next

-- What the first job of the agenda does. A write finds its channel and stores and publishes there.
inductive Yields (id : SequenceId) (plant : Plant) : List Effect → Plant → Prop where
  | nothing (next : Plant) (channels : next.channels = plant.channels)
      (told : progressOf id next.trace = progressOf id plant.trace) (silent : plant.Silent next) :
      Yields id plant [] next
  | writes (ready : Plant) (c : ChannelId) (channel : Channel) (value : Value)
      (there : plant.channels[c]? = some channel) (channels : ready.channels = plant.channels)
      (told : progressOf id ready.trace = progressOf id plant.trace) (silent : plant.Silent ready) :
      Yields id plant [.write c value] (ready.write c value).retire
  | reports (next : Plant) (progress : Progress) (channels : next.channels = plant.channels)
      (told : progressOf id next.trace = progress :: progressOf id plant.trace)
      (silent : plant.Silent next) : Yields id plant [.report progress] next

-- The plant works off jobs, and these are their effects in order.
inductive Enacts (id : SequenceId) : Plant → List Effect → Plant → Prop where
  | refl (plant : Plant) : Enacts id plant [] plant
  | job (plant next last : Plant) (now later : List Effect) (stepped : plant.stepJob? = some next)
      (yields : Yields id plant now next) (rest : Enacts id next later last) :
      Enacts id plant (now ++ later) last

section

variable {id : SequenceId} {plant middle next last : Plant} {effects more : List Effect}

theorem Enacts.single (stepped : plant.stepJob? = some next) (yields : Yields id plant effects next) :
    Enacts id plant effects next := by
  rw [← List.append_nil effects]
  exact .job plant next next effects [] stepped yields (.refl next)

theorem Enacts.trans (first : Enacts id plant effects middle) (second : Enacts id middle more last) :
    Enacts id plant (effects ++ more) last := by
  induction first with
  | refl => exact second
  | job plant next middle now later stepped yields _ ih =>
      rw [List.append_assoc]
      exact .job plant next last now (later ++ more) stepped yields (ih second)

theorem enacts_settles (enacts : Enacts id plant effects last) : ∃ count, settle count plant = last := by
  induction enacts with
  | refl plant => exact ⟨0, rfl⟩
  | job plant next last now later stepped _ _ ih =>
      obtain ⟨count, settled⟩ := ih
      refine ⟨count + 1, ?_⟩
      rw [settle, stepped]
      exact settled

theorem write_modifies (plant : Plant) (c : ChannelId) (channel : Channel) (value : Value)
    (there : plant.channels[c]? = some channel) :
    (plant.write c value).channels =
      plant.channels.modify c fun channel => { channel with value := some value } := by
  rw [(write_audience plant c channel value there).1, List.modify_eq_set_getElem?, there]
  rfl

theorem yields_channels (yields : Yields id plant effects next) :
    next.channels = effects.foldl Effect.carry plant.channels := by
  cases yields with
  | nothing channels => assumption
  | writes ready c channel value there channels =>
      rw [(mute_retire _).channels, write_modifies ready c channel value (by rw [channels, there]), channels]
      rfl
  | reports progress channels => assumption

theorem enacts_channels (enacts : Enacts id plant effects last) :
    last.channels = effects.foldl Effect.carry plant.channels := by
  induction enacts with
  | refl => rfl
  | job plant next last now later _ yields _ ih => rw [ih, yields_channels yields, List.foldl_append]

theorem yields_told (yields : Yields id plant effects next) : progressOf id next.trace =
    (effects.filterMap Effect.report?).reverse ++ progressOf id plant.trace := by
  cases yields with
  | nothing channels told => assumption
  | writes ready c channel value _ _ told =>
      have same : ((ready.write c value).retire.course id).told = (ready.course id).told := by
        rw [course_retire, course_write]
      exact same.trans told
  | reports progress channels told => assumption

theorem enacts_told (enacts : Enacts id plant effects last) : progressOf id last.trace =
    (effects.filterMap Effect.report?).reverse ++ progressOf id plant.trace := by
  induction enacts with
  | refl => rfl
  | job plant next last now later _ yields _ ih =>
      rw [ih, yields_told yields, List.filterMap_append, List.reverse_append, List.append_assoc]

end

end Plant

end Interlock
