import Mathlib.Data.List.DropRight
import Mathlib.Data.List.TakeWhile
import Interlock.Text.Blank

/-!
Blanks at the ends of a text. A text that neither begins nor ends with a blank is left as it is, and what
is trimmed is such a text.
-/

set_option autoImplicit false

namespace Interlock.Text

section

variable (c : Char) (cs before behind : List Char)

theorem trim_start_around (solid : isBlank c = false) :
    trimStart (before ++ c :: behind) = trimStart before ++ c :: behind := by
  rw [trimStart, List.dropWhile_append]
  split
  · next empty =>
      rw [trimStart, List.isEmpty_iff.mp empty, List.dropWhile_cons_of_neg (by simp [solid])]
      rfl
  · rfl

theorem trim_end_around (solid : isBlank c = false) :
    trimEnd (before ++ c :: behind) = before ++ c :: trimEnd behind := by
  have turned := trim_start_around c behind.reverse before.reverse solid
  rw [trimStart, trimStart] at turned
  rw [trimEnd, trimEnd, List.reverse_append, List.reverse_cons, List.append_assoc, List.singleton_append,
    turned]
  simp

theorem trim_around (solid : isBlank c = false) :
    trim (before ++ c :: behind) = trimStart before ++ c :: trimEnd behind := by
  rw [trim, trim_start_around c before behind solid, trim_end_around c _ behind solid]

theorem trim_start_twice : trim (trimStart cs) = trim cs := by
  rw [trim, trim, trimStart, trimStart, List.dropWhile_idempotent]

theorem trim_blank (blank : ∀ c ∈ cs, isBlank c = true) : trim cs = [] := by
  rw [trim, trimStart, List.dropWhile_eq_nil_iff.mpr blank]
  rfl

theorem trim_end_twice : trim (trimEnd cs) = trim cs := by
  by_cases blank : ∀ c ∈ cs, isBlank c = true
  · have gone : trimEnd cs = [] := List.rdropWhile_eq_nil_iff.mpr blank
    rw [gone, trim_blank cs blank]
    rfl
  · -- from the last solid character on there is nothing left to cut
    obtain ⟨c, member, solid⟩ := by simpa using blank
    obtain ⟨before, behind, rfl⟩ := List.append_of_mem member
    have again : trimEnd (trimEnd behind) = trimEnd behind := List.rdropWhile_idempotent _ _
    rw [trim_end_around c before behind solid, trim_around c before _ solid, again,
      trim_around c before behind solid]

theorem trim_members (member : c ∈ trim cs) : c ∈ cs := by
  have inside : c ∈ trimStart cs := by
    rw [trim, trimEnd, List.mem_reverse] at member
    exact List.mem_reverse.mp ((List.dropWhile_sublist _).subset member)
  exact (List.dropWhile_sublist _).subset inside

end

section

variable (cs : List Char)

theorem drop_solid (opens : ∀ c ∈ cs.head?, isBlank c = false) : cs.dropWhile isBlank = cs := by
  cases cs with
  | nil => rfl
  | cons c rest => rw [List.dropWhile_cons_of_neg (by simp [opens c rfl])]

theorem drop_opens : ∀ c ∈ (cs.dropWhile isBlank).head?, isBlank c = false := by
  intro c first
  have solid := List.head?_dropWhile_not isBlank cs
  rw [Option.mem_def.mp first] at solid
  exact solid

theorem trim_end_bare (closes : ∀ c ∈ cs.getLast?, isBlank c = false) : trimEnd cs = cs := by
  have turned := drop_solid cs.reverse (by rwa [List.head?_reverse])
  rw [trimEnd, turned, List.reverse_reverse]

theorem trim_bare (opens : ∀ c ∈ cs.head?, isBlank c = false)
    (closes : ∀ c ∈ cs.getLast?, isBlank c = false) : trim cs = cs := by
  rw [trim, trimStart, drop_solid cs opens, trim_end_bare cs closes]

theorem trim_solid (solid : ∀ c ∈ cs, isBlank c = false) : trim cs = cs :=
  trim_bare cs (fun c first => solid c (List.mem_of_mem_head? first))
    fun c last => solid c (List.mem_of_mem_getLast? last)

theorem trim_opens : ∀ c ∈ (trim cs).head?, isBlank c = false := by
  have opens := drop_opens cs
  rw [trim, trimStart]
  generalize cs.dropWhile isBlank = started at opens ⊢
  cases started with
  | nil => simp [trimEnd]
  | cons c rest =>
      have solid := opens c rfl
      have kept := trim_end_around c [] rest solid
      rw [List.nil_append, List.nil_append] at kept
      rw [kept]
      exact opens

theorem trim_closes : ∀ c ∈ (trim cs).getLast?, isBlank c = false := by
  rw [trim, trimEnd, List.getLast?_reverse]
  exact drop_opens _

theorem trim_outer (front behind : List Char) (blank : ∀ c ∈ front ++ behind, isBlank c = true) :
    trim (front ++ cs ++ behind) = trim cs := by
  rw [List.forall_mem_append] at blank
  by_cases hollow : ∀ c ∈ cs, isBlank c = true
  · rw [trim_blank cs hollow, trim_blank]
    exact List.forall_mem_append.mpr ⟨List.forall_mem_append.mpr ⟨blank.1, hollow⟩, blank.2⟩
  · obtain ⟨c, member, solid⟩ := by simpa using hollow
    obtain ⟨before, after, rfl⟩ := List.append_of_mem member
    have opened : trimStart (front ++ before) = trimStart before := List.dropWhile_append_of_pos blank.1
    have closed : trimEnd (after ++ behind) = trimEnd after := by
      rw [trimEnd, trimEnd, List.reverse_append,
        List.dropWhile_append_of_pos fun c member => blank.2 c (List.mem_reverse.mp member)]
    rw [List.append_assoc, List.append_assoc, List.cons_append, ← List.append_assoc,
      trim_around c _ _ solid, trim_around c _ _ solid, opened, closed]

theorem trim_map (change : Char → Char) (blind : ∀ c, isBlank (change c) = isBlank c) :
    trim (cs.map change) = (trim cs).map change := by
  have drop : ∀ cs : List Char, (cs.map change).dropWhile isBlank = (cs.dropWhile isBlank).map change := by
    intro cs
    rw [List.dropWhile_map]
    congr 2
    exact funext blind
  rw [trim, trim, trimStart, trimStart, drop, trimEnd, trimEnd, ← List.map_reverse, drop, List.map_reverse]

end

end Interlock.Text
