import Interlock.Channel.Registry
import Interlock.Device.Basic
import Interlock.Proofs.Text.Casing

/-!
Canonical paths. A canonical path is its own canonical form, and paths that differ in their separators,
in the case of ASCII letters or in the blanks at their ends have the same one. Behind the name of a device,
canonical paths tell apart no more than the device does, and as much where ASCII letters are all that is
lower-cased.
-/

set_option autoImplicit false

namespace Interlock.Path

open Interlock.Text (Passes Settled Simple isBlank lower lowerChar trim trimStart)

theorem canonical_text (path : String) :
    (canonical path).toList = (lower (trim path.toList)).map unifySeparator :=
  String.toList_ofList

theorem separator_same {α : Type} (read : Char → α) (marks : read '.' = read ':') (c : Char) :
    read (unifySeparator c) = read c := by
  unfold unifySeparator
  split
  · next colon => rw [colon, marks]
  · rfl

theorem separator_lowered (c : Char) : lowerChar (unifySeparator c) = (lowerChar c).map unifySeparator := by
  by_cases colon : c = ':'
  · rw [colon]
    rfl
  · have kept : (lowerChar c).map unifySeparator = lowerChar c := by
      refine (List.map_congr_left fun d member => if_neg ?_).trans (List.map_id _)
      rintro rfl
      rcases Text.lower_char_cases c ':' member with same | ⟨large, _⟩
      · exact colon same.symm
      · exact absurd large (by decide)
    rw [kept, unifySeparator, if_neg colon]

theorem separators_pass : Passes unifySeparator unifySeparator where
  blank := separator_same isBlank rfl
  ignorable := separator_same Text.isCaseIgnorable rfl
  cased := separator_same Text.isCased rfl
  sigma c := decide_eq_decide.mp (separator_same (fun c => decide (c = 'Σ')) (by decide) c)
  final := by decide
  inner := by decide
  lowered := separator_lowered

theorem unified_twice (cs : List Char) :
    (cs.map unifySeparator).map unifySeparator = cs.map unifySeparator := by
  rw [List.map_map]
  refine List.map_congr_left fun c _ => ?_
  exact separator_same unifySeparator rfl c

theorem canonical_settled (path : String) : ∀ c ∈ (canonical path).toList, Settled c := by
  rw [canonical_text]
  refine List.forall_mem_map.mpr fun c member => ?_
  unfold unifySeparator
  split
  · exact Text.settled_below '.' (by decide)
  · exact Text.lower_yields_settled _ c member

theorem canonical_twice (path : String) : canonical (canonical path) = canonical path := by
  have trimmed : trim (canonical path).toList = (canonical path).toList := by
    rw [canonical_text, Text.trim_map _ _ separators_pass.blank, Text.lower_trimmed]
  rw [← String.toList_inj, canonical_text, trimmed, Text.lower_settled _ (canonical_settled path),
    canonical_text, unified_twice]

theorem folded_canonical (path other : String)
    (same : path.toList.map Char.toLower = other.toList.map Char.toLower) :
    canonical path = canonical other := by
  have folded : ∀ path : String,
      Text.lower (Text.trim path.toList) = Text.lower (Text.trim (path.toList.map Char.toLower)) :=
    fun path => ((Text.folding_passes.lower_trim path.toList).trans (List.map_id _)).symm
  rw [canonical, canonical, folded, folded other, same]

-- Another way to write a path: with other separators, with other cases of ASCII letters, or with more
-- blanks at the ends.
inductive Respelled : String → String → Prop where
  | separators (path other : String)
      (same : path.toList.map unifySeparator = other.toList.map unifySeparator) : Respelled path other
  | letters (path other : String) (same : path.toList.map Char.toLower = other.toList.map Char.toLower) :
      Respelled path other
  | blanks (front cs behind : List Char) (blank : ∀ c ∈ front ++ behind, isBlank c = true) :
      Respelled (String.ofList cs) (String.ofList (front ++ cs ++ behind))

theorem respelled_canonical (path other : String) (respelled : Respelled path other) :
    canonical path = canonical other := by
  cases respelled with
  | separators _ _ same =>
      have unified : ∀ path : String, canonical path =
          String.ofList (lower (trim (path.toList.map unifySeparator))) := by
        intro path
        rw [separators_pass.lower_trim, canonical]
      rw [unified, unified, same]
  | letters _ _ same => exact folded_canonical path other same
  | blanks front cs behind blank =>
      rw [canonical, canonical, String.toList_ofList, String.toList_ofList,
        Text.trim_outer cs front behind blank]

-- A name without characters that only paths identify: ':' is not in it, no letters but those of ASCII
-- change in lower case, and no blank is at its end.
structure Telling (name : String) : Prop where
  simple : ∀ c ∈ name.toList, Simple c
  noColon : ':' ∉ name.toList
  ended : ∀ c ∈ name.toList.getLast?, isBlank c = false

theorem ascii_simple (c : Char) (ascii : c.toNat < 128) : Simple c := by
  have each : ∀ n < 128, Simple (Char.ofNat n) := by decide
  have own := each c.toNat ascii
  rwa [Char.ofNat_toNat] at own

theorem ascii_telling (name : String) (ascii : ∀ c ∈ name.toList, c.toNat < 128 ∧ c ≠ ':')
    (ended : ∀ c ∈ name.toList.getLast?, isBlank c = false) : Telling name where
  simple c member := ascii_simple c (ascii c member).1
  noColon member := (ascii ':' member).2 rfl
  ended := ended

theorem telling_lowered (name : String) (telling : Telling name) :
    (name.toList.map Char.toLower).map unifySeparator = name.toList.map Char.toLower := by
  refine (List.map_congr_left fun d member => if_neg ?_).trans (List.map_id _)
  rintro rfl
  obtain ⟨c, inside, low⟩ := List.mem_map.mp member
  rcases Text.to_lower_cases c with same | ⟨i, bound, _, letter⟩
  · rw [same] at low
    exact telling.noColon (low ▸ inside)
  · have apart : ∀ i < 26, Char.ofNat (97 + i) ≠ ':' := by decide
    exact apart i bound (letter.symm.trans low)

theorem telling_canonical (front name : String) (telling : Telling name) :
    ∃ first, (canonical (front ++ "." ++ name)).toList = first ++ '.' :: name.toList.map Char.toLower ∧
      first.length = ((trimStart front.toList).flatMap lowerChar).length := by
  have text : (front ++ "." ++ name).toList = front.toList ++ '.' :: name.toList := by simp
  have trimmed : trim (front ++ "." ++ name).toList = trimStart front.toList ++ '.' :: name.toList := by
    rw [text, Text.trim_around '.' _ _ (by decide), Text.trim_end_bare _ telling.ended]
  have simple : ∀ c ∈ '.' :: name.toList, Simple c :=
    List.forall_mem_cons.mpr ⟨by rfl, telling.simple⟩
  obtain ⟨first, parts, count⟩ := Text.lower_from_append [] (trimStart front.toList) ('.' :: name.toList)
  refine ⟨first.map unifySeparator, ?_, by rw [List.length_map, count]⟩
  rw [canonical_text, trimmed, lower, parts, Text.lower_from_simple _ _ simple, List.map_append,
    List.map_cons, List.map_cons, telling_lowered name telling]
  rfl

theorem telling_apart (front a b : String) (first : Telling a) (second : Telling b)
    (same : canonical (front ++ "." ++ a) = canonical (front ++ "." ++ b)) : sameLogical a b = true := by
  obtain ⟨before, own, count⟩ := telling_canonical front a first
  obtain ⟨ahead, other, length⟩ := telling_canonical front b second
  rw [same, other] at own
  obtain ⟨_, behind⟩ := List.append_inj own (length.trans count.symm)
  exact beq_iff_eq.mpr (List.cons.inj behind).2.symm

-- Of other names there are pairs that the device tells apart and their paths do not.
example : ∀ pair ∈ [("Öl", "öl"), ("A:B", "A.B"), ("Now", "Now ")], sameLogical pair.1 pair.2 = false ∧
    canonical ("Bath." ++ pair.1) = canonical ("Bath." ++ pair.2) := by decide

end Interlock.Path
