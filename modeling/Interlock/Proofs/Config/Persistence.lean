import Interlock.Proofs.Config.Shaping
import Interlock.Proofs.Toml.Document

/-!
A configuration survives printing. Every part of it is a table of plain entries and of lists of such
tables, so the document that it is printed as is read back, and the shapes make the same records of it.
-/

set_option autoImplicit false

namespace Interlock.Config

open Interlock.Toml (Tree Table Leaf Flat Laid Sits arranged hasHeader fits depthLimit)

section

variable {σ : Type} {budget : Nat}

theorem text_flat (content : String) : Flat (.text content) := .leaf _ (.text content)

theorem flag_flat (b : Bool) : Flat (.bool b) := .leaf _ (.bool b)

theorem texts_flat (contents : List String) : Flat (.array (contents.map .text)) := by
  refine .list _ fun item member => ?_
  obtain ⟨content, _, rfl⟩ := List.mem_map.mp member
  exact .text content

theorem plain_laid (shape : Shape σ) (sound : shape.Sound) (record : σ)
    (flat : ∀ field ∈ shape.fields, ∀ tree, field.written record = some tree → Flat tree) :
    Laid budget (shape.table record) := by
  refine .flats _ _ (fun entry member => ?_) (table_nodup sound record)
  obtain ⟨field, known, same⟩ := List.mem_filterMap.mp member
  obtain ⟨tree, written, rfl⟩ := Option.map_eq_some_iff.mp same
  exact flat field known tree written

theorem optional_text_flat (content : Option String) (tree : Tree)
    (written : Codec.text.optional.written content = some tree) : Flat tree := by
  cases content with
  | none => cases written
  | some content => cases written; exact text_flat content

theorem application_laid (part : Application) : Laid budget (applicationShape.table part) := by
  refine plain_laid _ application_sound _ ?_
  simp [applicationShape, Codec.field, Codec.text, text_flat]

theorem scheduler_laid (part : Scheduler) (small : fits part.pollInterval = true) :
    Laid budget (schedulerShape.table part) := by
  refine plain_laid _ scheduler_sound _ ?_
  have interval : Flat (.integer part.pollInterval) := .leaf _ (.integer _ small)
  simp [schedulerShape, Codec.field, Codec.count, Codec.flag, interval, flag_flat]

theorem device_laid (device : Device) (small : fits device.interval = true) :
    Laid budget (deviceShape.table device) := by
  refine plain_laid _ device_sound _ ?_
  have interval : Flat (.integer device.interval) := .leaf _ (.integer _ small)
  simp [deviceShape, Codec.field, Codec.text, Codec.count, Codec.list, interval, text_flat, texts_flat]

theorem channel_laid (channel : Channel) : Laid budget (channelShape.table channel) := by
  refine plain_laid _ channel_sound _ ?_
  have initial := optional_text_flat channel.initial
  simpa [channelShape, Codec.field, Codec.text, Codec.flag, text_flat, flag_flat] using initial

theorem variable_laid (var : Variable) : Laid budget (variableShape.table var) := by
  refine plain_laid _ variable_sound _ ?_
  have channel := optional_text_flat var.channel
  simpa [variableShape, Codec.field, Codec.text, text_flat] using channel

theorem step_laid (step : Step) : Laid budget (stepShape.table step) := by
  refine plain_laid _ step_sound _ ?_
  have action := optional_text_flat step.action
  have trigger := optional_text_flat step.trigger
  have description := optional_text_flat step.description
  simpa [stepShape, Codec.field] using ⟨action, trigger, description⟩

theorem records_sit (shape : Shape σ) (records : List σ)
    (laid : ∀ record ∈ records, Laid budget (shape.table record)) :
    Sits budget (.array (records.filterMap shape.codec.written)) := by
  have same : records.filterMap shape.codec.written = (records.map shape.table).map .table := by
    simp [Shape.codec, List.map_map, Function.comp_def]
  rw [same]
  cases records with
  | nil => exact .flat _ (.list [] (by simp))
  | cons record records =>
      refine .tables (shape.table record) (records.map shape.table) fun inner member => ?_
      rw [← List.map_cons, List.mem_map] at member
      obtain ⟨record, listed, rfl⟩ := member
      exact laid record listed

theorem nested_laid (front : Table) (entry : String × Tree) (flat : ∀ entry ∈ front, Flat entry.2)
    (last : Sits budget entry.2) (apart : ((front ++ [entry]).map Prod.fst).Nodup) :
    Laid (budget + 1) (front ++ [entry]) := by
  have plain : ∀ entry ∈ front, hasHeader entry.2 = false := fun entry member =>
    Toml.flat_headless _ (flat entry member)
  have same : arranged (front ++ [entry]) = front ++ [entry] := by
    have kept : front.filter (fun entry => !hasHeader entry.2) = front :=
      List.filter_eq_self.mpr fun entry member => by simp [plain entry member]
    have none : front.filter (fun entry => hasHeader entry.2) = [] :=
      List.filter_eq_nil_iff.mpr fun entry member => by simp [plain entry member]
    rw [arranged, List.filter_append, List.filter_append, kept, none]
    cases headed : hasHeader entry.2 <;> simp [headed]
  rw [← same]
  refine Toml.laid_arranged _ (fun other member => ?_) apart
  obtain first | rfl := List.mem_append.mp member |>.imp_right List.mem_singleton.mp
  · exact .flat _ (flat other first)
  · exact last

theorem sequence_laid (sequence : Sequence) : Laid (budget + 1) (sequenceShape.table sequence) := by
  refine nested_laid [("Name", .text sequence.name)] ("Step", .array _) ?_ ?_
    (table_nodup sequence_sound sequence)
  · simp [text_flat]
  · exact records_sit stepShape sequence.steps fun step _ => step_laid step

theorem procedure_laid (procedure : Procedure) :
    Laid (budget + 2) (procedureShape.table procedure) := by
  refine nested_laid [("Active", .text procedure.active), ("AutoStart", .bool procedure.autoStart),
    ("AutoExit", .bool procedure.autoExit)] ("Sequence", .array _) ?_ ?_
    (table_nodup procedure_sound procedure)
  · simp [text_flat, flag_flat]
  · exact records_sit sequenceShape procedure.sequences fun sequence _ => sequence_laid sequence

end

theorem table_sits (config : Config) (printable : config.isPrintable = true) :
    ∀ entry ∈ config.toTable, Sits (depthLimit - 2) entry.2 := by
  rw [isPrintable, Bool.and_eq_true, List.all_eq_true] at printable
  intro entry member
  obtain ⟨field, known, same⟩ := List.mem_filterMap.mp member
  obtain ⟨tree, written, rfl⟩ := Option.map_eq_some_iff.mp same
  simp only [shape, List.mem_cons, List.not_mem_nil, or_false] at known
  obtain rfl | rfl | rfl | rfl | rfl | rfl := known
  · cases written
    exact .table _ (application_laid config.application) (.inr rfl)
  · cases written
    exact .table _ (scheduler_laid config.scheduler printable.1) (.inr rfl)
  · cases written
    exact records_sit deviceShape config.devices fun device listed =>
      device_laid device (printable.2 device listed)
  · cases written
    exact records_sit channelShape config.channels fun channel _ => channel_laid channel
  · cases written
    exact records_sit variableShape config.vars fun var _ => variable_laid var
  · obtain ⟨_, _, _, _, _, procedure⟩ := config
    cases procedure with
    | none => cases written
    | some procedure =>
        cases written
        exact .table _ (procedure_laid procedure) (.inr rfl)

theorem read_print (config : Config) (printable : config.isPrintable = true) :
    read (Toml.write config.toTable) = .ok config := by
  have document := Toml.write_returns config.toTable (table_sits config printable)
    (table_nodup config_sound config)
  rw [read, document]
  exact shape_returns config_sound config _ (Toml.arranged_perm _)

def largestInteger : Nat := 9223372036854775807

theorem fits_interval (n : Nat) : fits n = true ↔ n ≤ largestInteger := by
  simp only [fits, Bool.and_eq_true, decide_eq_true_eq, largestInteger]
  omega

theorem printable_small (config : Config) : config.isPrintable = true ↔
    config.scheduler.pollInterval ≤ largestInteger ∧
      ∀ device ∈ config.devices, device.interval ≤ largestInteger := by
  simp only [isPrintable, Bool.and_eq_true, List.all_eq_true, fits_interval]

-- Whatever a configuration holds, its document is read as the same configuration. Only an interval that
-- is no integer of a document leaves it without one.
theorem printed_config_returns (config : Config) :
    (∀ document, config.print? = some document → read document = .ok config) ∧
      (config.print? = none ↔ largestInteger < config.scheduler.pollInterval ∨
        ∃ device ∈ config.devices, largestInteger < device.interval) := by
  have large : (largestInteger < config.scheduler.pollInterval ∨
      ∃ device ∈ config.devices, largestInteger < device.interval) ↔ ¬config.isPrintable = true := by
    rw [printable_small, not_and_or]
    push Not
    rfl
  rw [large, print?]
  split
  · next printable =>
      refine ⟨fun document printed => ?_, by simp [printable]⟩
      cases printed
      exact read_print config printable
  · next printable => exact ⟨fun document printed => (by cases printed), by simp [printable]⟩

-- Empty texts and lists, quotes, control characters and lines, keys left out and keys that look like
-- parts of a document.
def awkward : Config where
  application := ⟨"", "a\\\"b\n\n'''c\r\x07"⟩
  scheduler := ⟨largestInteger, true⟩
  devices := [⟨"[x]", "\"\"\"", 0, []⟩, ⟨"", "tick", 1000, ["", "'", "a\nb"]⟩]
  channels := []
  vars := [⟨"é", "\t", some ""⟩, ⟨"", "", none⟩]
  procedure := some ⟨"#", true, false,
    [⟨"", []⟩, ⟨"= 1", [⟨none, none, none⟩, ⟨some "", none, some "\n"⟩]⟩]⟩

theorem awkward_config_returns :
    ∃ document, awkward.print? = some document ∧ read document = .ok awkward :=
  ⟨_, rfl, (printed_config_returns awkward).1 _ rfl⟩

end Interlock.Config
