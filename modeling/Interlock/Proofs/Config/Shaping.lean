import Mathlib.Data.List.Nodup
import Interlock.Config.Layout

/-!
Records as TOML data and back. A record is read from its table, in whatever order the entries stand,
because every field writes a part of its own and reads what it writes.
-/

set_option autoImplicit false

namespace Interlock.Config

open Interlock.Toml (Tree Table)

-- What is written is read, and only one thing is not written at all.
structure Codec.Sound {α : Type} (codec : Codec α) : Prop where
  returns : ∀ a tree, codec.written a = some tree → codec.read tree = .ok a
  silent : ∀ a b, codec.written a = none → codec.written b = none → a = b

def Codec.Writes {α : Type} (codec : Codec α) : Prop := ∀ a, ∃ tree, codec.written a = some tree

theorem codec_injective {α : Type} (codec : Codec α) (sound : codec.Sound) (a b : α)
    (same : codec.written a = codec.written b) : a = b := by
  cases first : codec.written a with
  | none => exact sound.silent a b first (same ▸ first)
  | some tree =>
      have read := sound.returns a tree first
      rw [sound.returns b tree (same ▸ first)] at read
      exact (Except.ok.inj read).symm

theorem writes_sound {α : Type} (codec : Codec α) (writes : codec.Writes)
    (returns : ∀ a tree, codec.written a = some tree → codec.read tree = .ok a) : codec.Sound := by
  refine ⟨returns, fun a b none _ => ?_⟩
  obtain ⟨tree, written⟩ := writes a
  rw [none] at written
  contradiction

theorem text_sound : Codec.text.Sound :=
  writes_sound _ (fun _ => ⟨_, rfl⟩) fun _ _ written => by cases written; rfl

theorem flag_sound : Codec.flag.Sound :=
  writes_sound _ (fun _ => ⟨_, rfl⟩) fun _ _ written => by cases written; rfl

theorem count_sound : Codec.count.Sound :=
  writes_sound _ (fun _ => ⟨_, rfl⟩) fun n _ written => by
    cases written
    show (if (n : Int) < 0 then .error .outOfRange else .ok (n : Int).toNat) = Except.ok n
    rw [if_neg (Int.not_lt.mpr (Int.natCast_nonneg n)), Int.toNat_natCast]

theorem optional_sound {α : Type} (codec : Codec α) (sound : codec.Sound) (writes : codec.Writes) :
    codec.optional.Sound := by
  have given : ∀ a : α, codec.optional.written (some a) ≠ none := by
    intro a none
    obtain ⟨tree, written⟩ := writes a
    rw [show codec.optional.written (some a) = codec.written a from rfl, written] at none
    contradiction
  constructor
  · intro a tree written
    cases a with
    | none => contradiction
    | some a =>
        have read := sound.returns a tree written
        simp [Codec.optional, read, Except.map]
  · intro a b first second
    cases a with
    | some a => exact absurd first (given a)
    | none =>
        cases b with
        | none => rfl
        | some b => exact absurd second (given b)

theorem list_sound {α : Type} (codec : Codec α) (sound : codec.Sound) (writes : codec.Writes) :
    codec.list.Sound := by
  refine writes_sound _ (fun _ => ⟨_, rfl⟩) fun items tree written => ?_
  cases written
  show codec.readAll (items.filterMap codec.written) = .ok items
  induction items with
  | nil => rfl
  | cons a items ih =>
      obtain ⟨tree, written⟩ := writes a
      rw [List.filterMap_cons, written]
      dsimp only
      rw [Codec.readAll, sound.returns a tree written]
      dsimp only
      rw [ih]
      rfl

-- Every field reads what it writes and leaves the others alone; together they make up the record. What
-- a field does not write is what the record starts with.
structure Shape.Sound {σ : Type} (shape : Shape σ) : Prop where
  apart : (shape.fields.map Field.key).Nodup
  whole : ∀ first second, (∀ field ∈ shape.fields, field.written first = field.written second) →
    first = second
  returns : ∀ field ∈ shape.fields, ∀ record start tree, field.written record = some tree →
    ∃ next, field.read tree start = .ok next ∧ field.written next = some tree ∧
      ∀ other ∈ shape.fields, other.key ≠ field.key → other.written next = other.written start
  starts : ∀ field ∈ shape.fields, ∀ record, field.written record = none →
    field.written shape.start = none
  required : ∀ field ∈ shape.fields.take shape.required, ∀ record, ∃ tree, field.written record = some tree

section

variable {σ : Type} {shape : Shape σ}

theorem insert_field_perm (field : Field σ) (fields : List (Field σ)) :
    (Shape.insertField field fields).Perm (field :: fields) := by
  induction fields with
  | nil => exact .refl _
  | cons other fields ih =>
      rw [Shape.insertField]
      split
      · exact .refl _
      · exact (ih.cons other).trans (.swap field other fields)

theorem sorted_perm (fields : List (Field σ)) : (Shape.sorted fields).Perm fields := by
  induction fields with
  | nil => exact .refl _
  | cons field fields ih => exact (insert_field_perm field _).trans (ih.cons field)

theorem fields_read (sound : shape.Sound) (record : σ) (entries : Table)
    (held : ∀ field ∈ shape.fields, entries.lookup field.key = field.written record)
    (fields : List (Field σ)) (known : ∀ field ∈ fields, field ∈ shape.fields)
    (apart : (fields.map Field.key).Nodup) (start : σ)
    (blank : ∀ field ∈ fields, field.written start = field.written shape.start) :
    ∃ next, Shape.readFields entries fields start = .ok next ∧
      (∀ field ∈ fields, field.written next = field.written record) ∧
      ∀ other ∈ shape.fields, other.key ∉ fields.map Field.key → other.written next = other.written start := by
  induction fields generalizing start with
  | nil => exact ⟨start, rfl, by simp, fun _ _ _ => rfl⟩
  | cons field fields ih =>
      obtain ⟨first, others⟩ := List.forall_mem_cons.mp known
      obtain ⟨fresh, apart⟩ := List.nodup_cons.mp apart
      obtain ⟨own, blanks⟩ := List.forall_mem_cons.mp blank
      rw [Shape.readFields, held field first]
      cases written : field.written record with
      | none =>
          obtain ⟨next, read, taken, kept⟩ := ih others apart start blanks
          refine ⟨next, read, List.forall_mem_cons.mpr ⟨?_, taken⟩, fun other member new => ?_⟩
          · rw [kept field first fresh, own, sound.starts field first record written, written]
          · exact kept other member fun old => new (List.mem_cons_of_mem _ old)
      | some tree =>
          obtain ⟨middle, read, given, left⟩ := sound.returns field first record start tree written
          have other : ∀ other ∈ fields, other.key ≠ field.key := fun other member same =>
            fresh (same ▸ List.mem_map_of_mem member)
          obtain ⟨next, later, taken, kept⟩ := ih others apart middle fun field member => by
            rw [left field (others field member) (other field member), blanks field member]
          dsimp only
          rw [read]
          refine ⟨next, later, List.forall_mem_cons.mpr ⟨?_, taken⟩, fun other member new => ?_⟩
          · rw [kept field first fresh, given, written]
          · rw [List.map_cons, List.mem_cons, not_or] at new
            rw [kept other member new.2, left other member new.1]

theorem table_returns (sound : shape.Sound) (record : σ) (entries : Table)
    (held : ∀ field ∈ shape.fields, entries.lookup field.key = field.written record) :
    shape.readTable entries = .ok record := by
  have perm := sorted_perm shape.fields
  obtain ⟨next, read, taken, _⟩ := fields_read sound record entries held (Shape.sorted shape.fields)
    (fun field member => perm.subset member) ((perm.map Field.key).nodup_iff.mpr sound.apart) shape.start
    fun _ _ => rfl
  have same : next = record := sound.whole next record fun field member =>
    taken field (perm.symm.subset member)
  have given : (shape.fields.take shape.required).all (fun field => (entries.lookup field.key).isSome) =
      true := by
    refine List.all_eq_true.mpr fun field member => ?_
    obtain ⟨tree, written⟩ := sound.required field member record
    rw [held field (List.mem_of_mem_take member), written]
    rfl
  rw [Shape.readTable, read]
  dsimp only
  rw [if_pos given, same]

theorem table_keys (shape : Shape σ) (record : σ) :
    ((shape.table record).map Prod.fst).Sublist (shape.fields.map Field.key) := by
  rw [Shape.table]
  induction shape.fields with
  | nil => exact .slnil
  | cons field fields ih =>
      rw [List.filterMap_cons, List.map_cons]
      cases field.written record with
      | none => exact ih.cons _
      | some tree => exact ih.cons_cons _

theorem table_nodup (sound : shape.Sound) (record : σ) : ((shape.table record).map Prod.fst).Nodup :=
  (table_keys shape record).nodup sound.apart

theorem lookup_held (sound : shape.Sound) (record : σ) (entries : Table)
    (perm : entries.Perm (shape.table record)) :
    ∀ field ∈ shape.fields, entries.lookup field.key = field.written record := by
  intro field member
  have nodup : (entries.map Prod.fst).Nodup := (perm.map _).nodup_iff.mpr (table_nodup sound record)
  cases written : field.written record with
  | some tree =>
      have listed : (field.key, tree) ∈ shape.table record :=
        List.mem_filterMap.mpr ⟨field, member, by rw [written]; rfl⟩
      obtain ⟨front, behind, rfl⟩ := List.append_of_mem (perm.symm.subset listed)
      refine List.lookup_eq_some_iff.mpr ⟨front, behind, rfl, fun entry first => ?_⟩
      rw [List.map_append, List.nodup_append] at nodup
      have other := nodup.2.2 entry.1 (List.mem_map_of_mem first) field.key (by simp)
      simpa using Ne.symm other
  | none =>
      refine List.lookup_eq_none_iff.mpr fun entry listed => ?_
      obtain ⟨other, known, same⟩ := List.mem_filterMap.mp (perm.subset listed)
      obtain ⟨tree, given, rfl⟩ := Option.map_eq_some_iff.mp same
      have apart : field.key ≠ other.key := by
        intro alike
        rw [List.inj_on_of_nodup_map sound.apart member known alike, given] at written
        contradiction
      simpa using apart

theorem shape_returns (sound : shape.Sound) (record : σ) (entries : Table)
    (perm : entries.Perm (shape.table record)) : shape.readTable entries = .ok record :=
  table_returns sound record entries (lookup_held sound record entries perm)

theorem shape_writes (shape : Shape σ) : shape.codec.Writes := fun _ => ⟨_, rfl⟩

theorem shape_codec_sound (sound : shape.Sound) : shape.codec.Sound :=
  writes_sound _ (shape_writes shape) fun record tree written => by
    cases written
    exact shape_returns sound record _ (.refl _)

theorem field_returns {α : Type} (codec : Codec α) (sound : codec.Sound) (key : String) (get : σ → α)
    (set : α → σ → σ) (others : List (Field σ)) (own : ∀ a record, get (set a record) = a)
    (aside : ∀ other ∈ others, other.key ≠ key →
      ∀ a record, other.written (set a record) = other.written record) :
    ∀ record start tree, (codec.field key get set).written record = some tree →
      ∃ next, (codec.field key get set).read tree start = .ok next ∧
        (codec.field key get set).written next = some tree ∧
        ∀ other ∈ others, other.key ≠ key → other.written next = other.written start := by
  intro record start tree written
  have read : codec.read tree = .ok (get record) := sound.returns (get record) tree written
  refine ⟨set (get record) start, ?_, ?_, fun other member apart => aside other member apart _ _⟩
  · rw [Codec.field]
    dsimp only
    rw [read]
    rfl
  · rw [Codec.field]
    dsimp only
    rw [own]
    exact written

end

theorem optional_text_sound : Codec.text.optional.Sound := optional_sound _ text_sound fun _ => ⟨_, rfl⟩

theorem text_list_sound : Codec.text.list.Sound := list_sound _ text_sound fun _ => ⟨_, rfl⟩

theorem shapes_sound {σ : Type} {shape : Shape σ} (sound : shape.Sound) : shape.codec.list.Sound :=
  list_sound _ (shape_codec_sound sound) (shape_writes shape)

theorem application_sound : applicationShape.Sound where
  apart := by decide
  whole := by
    rintro ⟨_, _⟩ ⟨_, _⟩ same
    simp only [applicationShape, List.forall_mem_cons] at same
    obtain ⟨name, level, -⟩ := same
    cases codec_injective _ text_sound _ _ name
    cases codec_injective _ text_sound _ _ level
    rfl
  returns := by
    intro field member
    simp only [applicationShape, List.mem_cons, List.not_mem_nil, or_false] at member
    obtain rfl | rfl := member
    · exact field_returns _ text_sound _ _ _ _ (fun _ _ => rfl) (by simp [applicationShape, Codec.field])
    · exact field_returns _ text_sound _ _ _ _ (fun _ _ => rfl) (by simp [applicationShape, Codec.field])
  starts := by simp [applicationShape, Codec.field, Codec.text]
  required := by simp [applicationShape, Codec.field, Codec.text]

theorem scheduler_sound : schedulerShape.Sound where
  apart := by decide
  whole := by
    rintro ⟨_, _⟩ ⟨_, _⟩ same
    simp only [schedulerShape, List.forall_mem_cons] at same
    obtain ⟨interval, verbose, -⟩ := same
    cases codec_injective _ count_sound _ _ interval
    cases codec_injective _ flag_sound _ _ verbose
    rfl
  returns := by
    intro field member
    simp only [schedulerShape, List.mem_cons, List.not_mem_nil, or_false] at member
    obtain rfl | rfl := member
    · exact field_returns _ count_sound _ _ _ _ (fun _ _ => rfl) (by simp [schedulerShape, Codec.field])
    · exact field_returns _ flag_sound _ _ _ _ (fun _ _ => rfl) (by simp [schedulerShape, Codec.field])
  starts := by simp [schedulerShape, Codec.field, Codec.count, Codec.flag]
  required := by simp [schedulerShape, Codec.field]

theorem device_sound : deviceShape.Sound where
  apart := by decide
  whole := by
    rintro ⟨_, _, _, _⟩ ⟨_, _, _, _⟩ same
    simp only [deviceShape, List.forall_mem_cons] at same
    obtain ⟨name, driver, interval, channels, -⟩ := same
    cases codec_injective _ text_sound _ _ name
    cases codec_injective _ text_sound _ _ driver
    cases codec_injective _ count_sound _ _ interval
    cases codec_injective _ text_list_sound _ _ channels
    rfl
  returns := by
    intro field member
    simp only [deviceShape, List.mem_cons, List.not_mem_nil, or_false] at member
    obtain rfl | rfl | rfl | rfl := member
    · exact field_returns _ text_sound _ _ _ _ (fun _ _ => rfl) (by simp [deviceShape, Codec.field])
    · exact field_returns _ text_sound _ _ _ _ (fun _ _ => rfl) (by simp [deviceShape, Codec.field])
    · exact field_returns _ count_sound _ _ _ _ (fun _ _ => rfl) (by simp [deviceShape, Codec.field])
    · exact field_returns _ text_list_sound _ _ _ _ (fun _ _ => rfl) (by simp [deviceShape, Codec.field])
  starts := by simp [deviceShape, Codec.field, Codec.text, Codec.count, Codec.list]
  required := by simp [deviceShape, Codec.field, Codec.text]

theorem channel_sound : channelShape.Sound where
  apart := by decide
  whole := by
    rintro ⟨_, _, _⟩ ⟨_, _, _⟩ same
    simp only [channelShape, List.forall_mem_cons] at same
    obtain ⟨path, initial, active, -⟩ := same
    cases codec_injective _ text_sound _ _ path
    cases codec_injective _ optional_text_sound _ _ initial
    cases codec_injective _ flag_sound _ _ active
    rfl
  returns := by
    intro field member
    simp only [channelShape, List.mem_cons, List.not_mem_nil, or_false] at member
    obtain rfl | rfl | rfl := member
    · exact field_returns _ text_sound _ _ _ _ (fun _ _ => rfl) (by simp [channelShape, Codec.field])
    · exact field_returns _ optional_text_sound _ _ _ _
        (fun _ _ => rfl) (by simp [channelShape, Codec.field])
    · exact field_returns _ flag_sound _ _ _ _ (fun _ _ => rfl) (by simp [channelShape, Codec.field])
  starts := by simp [channelShape, Codec.field, Codec.optional, Codec.text, Codec.flag]
  required := by simp [channelShape, Codec.field, Codec.text]

theorem variable_sound : variableShape.Sound where
  apart := by decide
  whole := by
    rintro ⟨_, _, _⟩ ⟨_, _, _⟩ same
    simp only [variableShape, List.forall_mem_cons] at same
    obtain ⟨name, initial, channel, -⟩ := same
    cases codec_injective _ text_sound _ _ name
    cases codec_injective _ text_sound _ _ initial
    cases codec_injective _ optional_text_sound _ _ channel
    rfl
  returns := by
    intro field member
    simp only [variableShape, List.mem_cons, List.not_mem_nil, or_false] at member
    obtain rfl | rfl | rfl := member
    · exact field_returns _ text_sound _ _ _ _ (fun _ _ => rfl) (by simp [variableShape, Codec.field])
    · exact field_returns _ text_sound _ _ _ _ (fun _ _ => rfl) (by simp [variableShape, Codec.field])
    · exact field_returns _ optional_text_sound _ _ _ _
        (fun _ _ => rfl) (by simp [variableShape, Codec.field])
  starts := by simp [variableShape, Codec.field, Codec.optional, Codec.text]
  required := by simp [variableShape, Codec.field, Codec.text]

theorem step_sound : stepShape.Sound where
  apart := by decide
  whole := by
    rintro ⟨_, _, _⟩ ⟨_, _, _⟩ same
    simp only [stepShape, List.forall_mem_cons] at same
    obtain ⟨action, trigger, description, -⟩ := same
    cases codec_injective _ optional_text_sound _ _ action
    cases codec_injective _ optional_text_sound _ _ trigger
    cases codec_injective _ optional_text_sound _ _ description
    rfl
  returns := by
    intro field member
    simp only [stepShape, List.mem_cons, List.not_mem_nil, or_false] at member
    obtain rfl | rfl | rfl := member
    · exact field_returns _ optional_text_sound _ _ _ _ (fun _ _ => rfl) (by simp [stepShape, Codec.field])
    · exact field_returns _ optional_text_sound _ _ _ _ (fun _ _ => rfl) (by simp [stepShape, Codec.field])
    · exact field_returns _ optional_text_sound _ _ _ _ (fun _ _ => rfl) (by simp [stepShape, Codec.field])
  starts := by simp [stepShape, Codec.field, Codec.optional, Codec.text]
  required := by simp [stepShape, Codec.field, Codec.text]

theorem sequence_sound : sequenceShape.Sound where
  apart := by decide
  whole := by
    rintro ⟨_, _⟩ ⟨_, _⟩ same
    simp only [sequenceShape, List.forall_mem_cons] at same
    obtain ⟨name, steps, -⟩ := same
    cases codec_injective _ text_sound _ _ name
    cases codec_injective _ (shapes_sound step_sound) _ _ steps
    rfl
  returns := by
    intro field member
    simp only [sequenceShape, List.mem_cons, List.not_mem_nil, or_false] at member
    obtain rfl | rfl := member
    · exact field_returns _ text_sound _ _ _ _ (fun _ _ => rfl) (by simp [sequenceShape, Codec.field])
    · exact field_returns _ (shapes_sound step_sound) _ _ _ _
        (fun _ _ => rfl) (by simp [sequenceShape, Codec.field])
  starts := by simp [sequenceShape, Codec.field, Codec.text, Codec.list, Shape.codec]
  required := by simp [sequenceShape, Codec.field, Codec.text]

theorem procedure_sound : procedureShape.Sound where
  apart := by decide
  whole := by
    rintro ⟨_, _, _, _⟩ ⟨_, _, _, _⟩ same
    simp only [procedureShape, List.forall_mem_cons] at same
    obtain ⟨active, start, exit, sequences, -⟩ := same
    cases codec_injective _ text_sound _ _ active
    cases codec_injective _ flag_sound _ _ start
    cases codec_injective _ flag_sound _ _ exit
    cases codec_injective _ (shapes_sound sequence_sound) _ _ sequences
    rfl
  returns := by
    intro field member
    simp only [procedureShape, List.mem_cons, List.not_mem_nil, or_false] at member
    obtain rfl | rfl | rfl | rfl := member
    · exact field_returns _ text_sound _ _ _ _ (fun _ _ => rfl) (by simp [procedureShape, Codec.field])
    · exact field_returns _ flag_sound _ _ _ _ (fun _ _ => rfl) (by simp [procedureShape, Codec.field])
    · exact field_returns _ flag_sound _ _ _ _ (fun _ _ => rfl) (by simp [procedureShape, Codec.field])
    · exact field_returns _ (shapes_sound sequence_sound) _ _ _ _
        (fun _ _ => rfl) (by simp [procedureShape, Codec.field])
  starts := by simp [procedureShape, Codec.field, Codec.text, Codec.flag, Codec.list, Shape.codec]
  required := by simp [procedureShape, Codec.field, Codec.text]

theorem procedure_part_sound : procedureShape.codec.optional.Sound :=
  optional_sound _ (shape_codec_sound procedure_sound) (shape_writes procedureShape)

theorem config_sound : shape.Sound where
  apart := by decide
  whole := by
    rintro ⟨_, _, _, _, _, _⟩ ⟨_, _, _, _, _, _⟩ same
    simp only [shape, List.forall_mem_cons] at same
    obtain ⟨application, scheduler, devices, channels, vars, procedure, -⟩ := same
    cases codec_injective _ (shape_codec_sound application_sound) _ _ application
    cases codec_injective _ (shape_codec_sound scheduler_sound) _ _ scheduler
    cases codec_injective _ (shapes_sound device_sound) _ _ devices
    cases codec_injective _ (shapes_sound channel_sound) _ _ channels
    cases codec_injective _ (shapes_sound variable_sound) _ _ vars
    cases codec_injective _ procedure_part_sound _ _ procedure
    rfl
  returns := by
    intro field member
    simp only [shape, List.mem_cons, List.not_mem_nil, or_false] at member
    obtain rfl | rfl | rfl | rfl | rfl | rfl := member
    · exact field_returns _ (shape_codec_sound application_sound) _ _ _ _
        (fun _ _ => rfl) (by simp [shape, Codec.field])
    · exact field_returns _ (shape_codec_sound scheduler_sound) _ _ _ _
        (fun _ _ => rfl) (by simp [shape, Codec.field])
    · exact field_returns _ (shapes_sound device_sound) _ _ _ _
        (fun _ _ => rfl) (by simp [shape, Codec.field])
    · exact field_returns _ (shapes_sound channel_sound) _ _ _ _
        (fun _ _ => rfl) (by simp [shape, Codec.field])
    · exact field_returns _ (shapes_sound variable_sound) _ _ _ _
        (fun _ _ => rfl) (by simp [shape, Codec.field])
    · exact field_returns _ procedure_part_sound _ _ _ _ (fun _ _ => rfl) (by simp [shape, Codec.field])
  starts := by simp [shape, Config.standard, Codec.field, Codec.optional, Codec.list, Shape.codec]
  required := by simp [shape, Codec.field]

end Interlock.Config
