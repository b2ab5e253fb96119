import Mathlib.Data.List.Basic
import Interlock.Proofs.Text.Trimming
import Interlock.Schedule.Step

/-!
The assignments of a text. Fields stand between commas; one that holds an equals sign assigns what stands
behind the first of them, up to the comma, to what stands in front of it. Fields without one and blank
fields assign nothing. What a text lists is legible: written out between commas it is listed again, and a
comma between two texts only puts their lists one behind the other.
-/

set_option autoImplicit false

namespace Interlock

namespace Text

section

variable (c : Char) (cs before behind : List Char)

theorem split_all_fields : splitAll c cs = cs.splitOn c := by
  induction cs with
  | nil => rfl
  | cons d rest ih =>
      rw [List.splitOn] at ih
      rw [splitAll, List.splitOn, List.splitOnP_cons_eq_if_modifyHead, ih]
      by_cases same : d = c
      · simp [same]
      · rw [if_neg same, if_neg (by simpa using same)]
        cases fields : List.splitOnP (· == c) rest with
        | nil => exact absurd fields (List.splitOnP_ne_nil _ _)
        | cons field fields => rfl

theorem split_first_found (apart : c ∉ before) : splitFirst c (before ++ c :: behind) = some (before, behind) := by
  induction before with
  | nil => simp [splitFirst]
  | cons d rest ih =>
      rw [List.mem_cons, not_or] at apart
      rw [List.cons_append, splitFirst, if_neg (Ne.symm apart.1), ih apart.2]
      rfl

theorem split_first_missing (missing : c ∉ cs) : splitFirst c cs = none := by
  induction cs with
  | nil => rfl
  | cons d rest ih =>
      rw [List.mem_cons, not_or] at missing
      rw [splitFirst, if_neg (Ne.symm missing.1), ih missing.2]
      rfl

theorem first_occurrence (found : c ∈ cs) :
    c ∉ cs.takeWhile (· != c) ∧ cs = cs.takeWhile (· != c) ++ c :: (cs.dropWhile (· != c)).tail := by
  induction cs with
  | nil => contradiction
  | cons d rest ih =>
      by_cases same : d = c
      · simp [same]
      · have later : c ∈ rest := (List.mem_cons.mp found).resolve_left (Ne.symm same)
        obtain ⟨apart, parts⟩ := ih later
        rw [List.takeWhile_cons_of_pos (by simpa using same), List.dropWhile_cons_of_pos (by simpa using same)]
        exact ⟨by simp [Ne.symm same, apart], congrArg (d :: ·) parts⟩

end

end Text

namespace Action

def assignment? (field : List Char) : Option (String × Value) :=
  if '=' ∈ field then
    some (trimmed (field.takeWhile (· != '=')), .infer (trimmed (field.dropWhile (· != '=')).tail))
  else none

def assignments (text : String) : List (String × Value) :=
  (text.toList.splitOn ',').filterMap assignment?

def given? (action : Action) : Option (String × Value) := action.value.map fun value => (action.path, value)

theorem entry_assigns (field : List Char) : (ofEntry (Text.trim field)).given? = assignment? field := by
  rw [assignment?]
  split
  · next found =>
      obtain ⟨apart, parts⟩ := Text.first_occurrence '=' field found
      generalize field.takeWhile (· != '=') = before at apart parts ⊢
      generalize (field.dropWhile (· != '=')).tail = behind at parts ⊢
      have outside : '=' ∉ Text.trimStart before := fun member =>
        apart ((List.dropWhile_sublist _).subset member)
      rw [parts, Text.trim_around '=' before behind (by decide), ofEntry,
        Text.split_first_found '=' _ _ outside]
      dsimp only [given?, value, trimmed, Option.map_some]
      rw [Text.trim_start_twice, Text.trim_end_twice]
  · next missing =>
      have still : '=' ∉ Text.trim field := fun member => missing (Text.trim_members '=' field member)
      rw [ofEntry, Text.split_first_missing '=' _ still]
      rfl

theorem blank_assigns (field : List Char) (blank : Text.trim field = []) : assignment? field = none := by
  rw [assignment?, if_neg]
  intro found
  obtain ⟨_, parts⟩ := Text.first_occurrence '=' field found
  rw [parts, Text.trim_around '=' _ _ (by decide)] at blank
  simp at blank

theorem read_assigns (text : String) : (readList text).filterMap given? = assignments text := by
  rw [readList, ofList, Text.split_all_fields, assignments, List.filterMap_map, List.filterMap_filter,
    List.filterMap_map]
  refine List.filterMap_congr fun field _ => ?_
  dsimp only [Function.comp_apply]
  split
  · exact entry_assigns field
  · next empty => exact (blank_assigns field (by simpa using empty)).symm

end Action

namespace Text

theorem trim_twice (cs : List Char) : trim (trim cs) = trim cs :=
  trim_bare _ (trim_opens cs) (trim_closes cs)

theorem split_apart (c : Char) (cs : List Char) : ∀ field ∈ cs.splitOn c, c ∉ field := by
  induction cs with
  | nil => simp
  | cons d rest ih =>
      rw [List.splitOn_cons_eq_if_modifyHead]
      split
      · simpa using ih
      · next other =>
          cases split : rest.splitOn c with
          | nil => simp
          | cons field fields =>
              rw [split, List.forall_mem_cons] at ih
              rw [List.modifyHead_cons, List.forall_mem_cons, List.mem_cons, not_or]
              exact ⟨⟨fun same => other (by simp [same]), ih.1⟩, ih.2⟩

theorem settled_ends (cs : List Char) (settled : trim cs = cs) : trimStart cs = cs ∧ trimEnd cs = cs :=
  ⟨drop_solid cs (settled ▸ trim_opens cs), trim_end_bare cs (settled ▸ trim_closes cs)⟩

end Text

namespace Action

-- An action that its own text stands for: no part begins or ends with a blank or holds a comma, the path
-- holds no equals sign, and without a literal it is not empty.
structure Legible (action : Action) : Prop where
  path : Text.trim action.path.toList = action.path.toList
  single : ',' ∉ action.path.toList
  plain : '=' ∉ action.path.toList
  literal : ∀ literal ∈ action.literal, Text.trim literal.toList = literal.toList ∧ ',' ∉ literal.toList
  filled : action.literal = none → action.path.toList ≠ []

-- A field as it is listed: without a comma, without blanks around it, and not empty.
structure Entry (entry : List Char) : Prop where
  single : ',' ∉ entry
  settled : Text.trim entry = entry
  filled : entry ≠ []

def entries (cs : List Char) : List (List Char) :=
  ((cs.splitOn ',').map Text.trim).filter fun entry => !entry.isEmpty

def displayList (actions : List Action) : String := ",".intercalate (actions.map display)

theorem trimmed_settled (cs : List Char) : Text.trim (trimmed cs).toList = (trimmed cs).toList := by
  rw [trimmed, String.toList_ofList, Text.trim_twice]

theorem trimmed_outside (c : Char) (cs : List Char) (outside : c ∉ cs) : c ∉ (trimmed cs).toList := by
  rw [trimmed, String.toList_ofList]
  exact fun member => outside (Text.trim_members c cs member)

theorem settled_trimmed (text : String) (settled : Text.trim text.toList = text.toList) :
    trimmed text.toList = text := by
  rw [trimmed, settled, String.ofList_toList]

theorem entry_legible (entry : List Char) (listed : Entry entry) : (ofEntry entry).Legible := by
  by_cases assigned : '=' ∈ entry
  · obtain ⟨apart, parts⟩ := Text.first_occurrence '=' entry assigned
    generalize entry.takeWhile (· != '=') = before at apart parts
    generalize (entry.dropWhile (· != '=')).tail = behind at parts
    have outside := listed.single
    rw [parts, List.mem_append, List.mem_cons, not_or, not_or] at outside
    rw [parts, ofEntry, Text.split_first_found '=' before behind apart]
    constructor
    · exact trimmed_settled before
    · exact trimmed_outside ',' before outside.1
    · exact trimmed_outside '=' before apart
    · rintro _ ⟨⟩
      exact ⟨trimmed_settled behind, trimmed_outside ',' behind outside.2.2⟩
    · intro missing
      contradiction
  · rw [ofEntry, Text.split_first_missing '=' entry assigned]
    constructor
    · exact trimmed_settled entry
    · exact trimmed_outside ',' entry listed.single
    · exact trimmed_outside '=' entry assigned
    · intro literal given
      contradiction
    · intro _
      rw [trimmed, String.toList_ofList, listed.settled]
      exact listed.filled

theorem legible_entry (action : Action) (legible : action.Legible) :
    Entry action.display.toList ∧ ofEntry action.display.toList = action := by
  obtain ⟨path, _ | literal⟩ := action
  · have single := legible.single
    have plain := legible.plain
    have settled := legible.path
    have filled := legible.filled rfl
    dsimp only [display] at *
    refine ⟨⟨single, settled, filled⟩, ?_⟩
    rw [ofEntry, Text.split_first_missing '=' _ plain]
    dsimp only
    rw [settled_trimmed path settled]
  · have shown : (Action.mk path (some literal)).display.toList = path.toList ++ '=' :: literal.toList := by
      simp [display]
    obtain ⟨given, outside⟩ := legible.literal literal rfl
    rw [shown]
    refine ⟨⟨?_, ?_, by simp⟩, ?_⟩
    · simp [legible.single, outside]
    · rw [Text.trim_around '=' _ _ (by decide), (Text.settled_ends _ legible.path).1,
        (Text.settled_ends _ given).2]
    · rw [ofEntry, Text.split_first_found '=' _ _ legible.plain]
      dsimp only
      rw [settled_trimmed path legible.path, settled_trimmed literal given]

theorem list_entries (cs : List Char) : ofList cs = (entries cs).map ofEntry := by
  rw [ofList, Text.split_all_fields, entries]

theorem entries_listed (cs : List Char) : ∀ entry ∈ entries cs, Entry entry := by
  intro entry member
  obtain ⟨trimmed, filled⟩ := List.mem_filter.mp member
  obtain ⟨field, split, rfl⟩ := List.mem_map.mp trimmed
  constructor
  · exact fun comma => Text.split_apart ',' cs field split (Text.trim_members ',' field comma)
  · exact Text.trim_twice field
  · simpa using filled

theorem list_legible (text : String) : ∀ action ∈ readList text, action.Legible := by
  intro action member
  rw [readList, list_entries] at member
  obtain ⟨entry, listed, rfl⟩ := List.mem_map.mp member
  exact entry_legible entry (entries_listed _ entry listed)

theorem entries_intercalate (listed : List (List Char)) (each : ∀ entry ∈ listed, Entry entry) :
    entries ([','].intercalate listed) = listed := by
  by_cases nothing : listed = []
  · subst nothing
    rfl
  · have settled : listed.map Text.trim = listed :=
      (List.map_congr_left fun entry member => (each entry member).settled).trans (List.map_id' listed)
    rw [entries, List.splitOn_intercalate ',' (fun entry member => (each entry member).single) nothing, settled,
      List.filter_eq_self]
    exact fun entry member => by simpa using (each entry member).filled

theorem display_list_reads (actions : List Action) (legible : ∀ action ∈ actions, action.Legible) :
    readList (displayList actions) = actions := by
  have shown : (displayList actions).toList =
      [','].intercalate (actions.map fun action => action.display.toList) := by
    rw [displayList, String.toList_intercalate, List.map_map]
    rfl
  have listed : ∀ entry ∈ actions.map fun action => action.display.toList, Entry entry := by
    intro entry member
    obtain ⟨action, present, rfl⟩ := List.mem_map.mp member
    exact (legible_entry action (legible action present)).1
  rw [readList, list_entries, shown, entries_intercalate _ listed, List.map_map]
  exact (List.map_congr_left fun action present => (legible_entry action (legible action present)).2).trans
    (List.map_id' actions)

theorem entries_append (before behind : List Char) :
    entries (before ++ ',' :: behind) = entries before ++ entries behind := by
  rw [entries, List.splitOn_append_cons_self, List.map_append, List.filter_append, entries, entries]

theorem lists_reprint (text more : String) :
    readList (displayList (readList text)) = readList text ∧
      readList (text ++ "," ++ more) = readList text ++ readList more := by
  constructor
  · exact display_list_reads _ (list_legible text)
  · simp [readList, list_entries, entries_append]

end Action

end Interlock
