import Interlock.Proofs.Text.Lowering
import Interlock.Proofs.Text.Trimming

/-!
What lower-casing does to a text as a whole. It makes no blanks, so what is trimmed stays trimmed. It
passes on a change of characters that is not seen by what decides on the form of the others, and does not
tell texts apart that differ in the case of ASCII letters alone.
-/

set_option autoImplicit false

namespace Interlock.Text

theorem images_solid : ∀ span ∈ lowerSpans, 64 < span.image span.first ∧
    ∀ range ∈ blankRanges, span.image span.last < range.1 ∨ range.2 < span.image span.first := by
  decide +kernel

theorem lower_char_cases (c d : Char) (member : d ∈ lowerChar c) :
    d = c ∨ 64 < d.toNat ∧ isBlank d = false := by
  rw [lowerChar] at member
  split at member
  · have each : ∀ d ∈ ['i', '\u0307'], 64 < d.toNat ∧ isBlank d = false :=
      List.forall_mem_cons.mpr ⟨by decide, List.forall_mem_singleton.mpr (by decide)⟩
    exact .inr (each d member)
  · obtain rfl := List.mem_singleton.mp member
    rcases lower_code_cases c.toNat lowerSpans with same | ⟨span, listed, image, least, most, fits⟩
    · rw [same, Char.ofNat_toNat]
      exact .inl rfl
    · obtain ⟨valid, _⟩ := image_fixed span c.toNat listed least most fits
      obtain ⟨large, apart⟩ := images_solid span listed
      have code : (Char.ofNat (span.image c.toNat)).toNat = span.image c.toNat := by
        rw [Char.ofNat, dif_pos valid]
        rfl
      have low : span.image span.first ≤ span.image c.toNat := by
        unfold LowerSpan.image
        omega
      have high : span.image c.toNat ≤ span.image span.last := by
        unfold LowerSpan.image
        omega
      rw [image]
      refine .inr ⟨by omega, Bool.eq_false_iff.mpr fun blank => ?_⟩
      obtain ⟨range, member, first, last⟩ := in_ranges_sound _ _ blank
      have sides := apart range member
      omega

theorem lower_from_cons (before : List Char) (c : Char) (rest : List Char) :
    ∃ piece, lowerFrom before (c :: rest) = piece ++ lowerFrom (c :: before) rest ∧
      piece.length = (lowerChar c).length ∧ (isBlank c = false → ∀ d ∈ piece, isBlank d = false) := by
  rw [lowerFrom]
  split
  · next sigma =>
      rw [sigma]
      split
      · exact ⟨_, rfl, by decide, fun _ => List.forall_mem_singleton.mpr rfl⟩
      · exact ⟨_, rfl, by decide, fun _ => List.forall_mem_singleton.mpr rfl⟩
  · refine ⟨_, rfl, rfl, fun solid d member => ?_⟩
    rcases lower_char_cases c d member with rfl | ⟨_, apart⟩
    · exact solid
    · exact apart

theorem lower_piece_filled (c : Char) (piece : List Char) (count : piece.length = (lowerChar c).length) :
    piece ≠ [] := by
  rintro rfl
  rw [lowerChar] at count
  split at count <;> contradiction

section

variable (before cs : List Char)

theorem lower_from_opens (opens : ∀ c ∈ cs.head?, isBlank c = false) :
    ∀ d ∈ (lowerFrom before cs).head?, isBlank d = false := by
  cases cs with
  | nil => simp [lowerFrom]
  | cons c rest =>
      obtain ⟨piece, parts, count, solid⟩ := lower_from_cons before c rest
      intro d first
      rw [parts, List.head?_append_of_ne_nil _ (lower_piece_filled c piece count)] at first
      exact solid (opens c rfl) d (List.mem_of_mem_head? first)

theorem lower_from_closes (closes : ∀ c ∈ cs.getLast?, isBlank c = false) :
    ∀ d ∈ (lowerFrom before cs).getLast?, isBlank d = false := by
  induction cs generalizing before with
  | nil => simp [lowerFrom]
  | cons c rest ih =>
      obtain ⟨piece, parts, _, solid⟩ := lower_from_cons before c rest
      rw [parts]
      cases rest with
      | nil =>
          intro d last
          rw [lowerFrom, List.append_nil] at last
          exact solid (closes c rfl) d (List.mem_of_mem_getLast? last)
      | cons next others =>
          obtain ⟨piece, more, count, _⟩ := lower_from_cons (c :: before) next others
          have later : lowerFrom (c :: before) (next :: others) ≠ [] := by
            simp [more, lower_piece_filled next piece count]
          rw [List.getLast?_append_of_ne_nil _ later]
          exact ih _ fun d last => closes d (by rwa [List.getLast?_cons_cons])

end

theorem lower_trimmed (cs : List Char) : trim (lower (trim cs)) = lower (trim cs) :=
  trim_bare _ (lower_from_opens [] _ (trim_opens cs)) (lower_from_closes [] _ (trim_closes cs))

structure Passes (change result : Char → Char) : Prop where
  blank : ∀ c, isBlank (change c) = isBlank c
  ignorable : ∀ c, isCaseIgnorable (change c) = isCaseIgnorable c
  cased : ∀ c, isCased (change c) = isCased c
  sigma : ∀ c, change c = 'Σ' ↔ c = 'Σ'
  final : result 'ς' = 'ς'
  inner : result 'σ' = 'σ'
  lowered : ∀ c, lowerChar (change c) = (lowerChar c).map result

section

variable {change result : Char → Char} (passes : Passes change result) (before cs : List Char)

include passes

theorem Passes.ahead : casedAhead (cs.map change) = casedAhead cs := by
  have drop : (cs.map change).dropWhile isCaseIgnorable = (cs.dropWhile isCaseIgnorable).map change := by
    rw [List.dropWhile_map]
    congr 2
    exact funext passes.ignorable
  rw [casedAhead, casedAhead, drop]
  cases cs.dropWhile isCaseIgnorable with
  | nil => rfl
  | cons c rest => exact passes.cased c

theorem Passes.lower_from :
    lowerFrom (before.map change) (cs.map change) = (lowerFrom before cs).map result := by
  induction cs generalizing before with
  | nil => rfl
  | cons c rest ih =>
      have later := ih (c :: before)
      rw [List.map_cons] at later
      rw [List.map_cons, lowerFrom, lowerFrom, later, List.map_append]
      simp only [passes.ahead, passes.sigma, passes.lowered]
      split
      · split
        · simp [passes.final]
        · simp [passes.inner]
      · rfl

theorem Passes.lower_trim : lower (trim (cs.map change)) = (lower (trim cs)).map result := by
  rw [trim_map cs change passes.blank]
  exact passes.lower_from [] (trim cs)

end

theorem to_lower_cases (c : Char) :
    c.toLower = c ∨ ∃ i < 26, c = Char.ofNat (65 + i) ∧ c.toLower = Char.ofNat (97 + i) := by
  by_cases upper : 65 ≤ c.toNat ∧ c.toNat ≤ 90
  · have letters : ∀ i < 26, (Char.ofNat (65 + i)).toLower = Char.ofNat (97 + i) := by decide
    have own : c = Char.ofNat (65 + (c.toNat - 65)) := by
      rw [Nat.add_sub_cancel' upper.1, Char.ofNat_toNat]
    refine .inr ⟨c.toNat - 65, by omega, own, ?_⟩
    have low := letters (c.toNat - 65) (by omega)
    rwa [← own] at low
  · refine .inl (dif_neg fun also => upper ?_)
    have least : 'A'.val.toNat ≤ c.val.toNat := UInt32.le_iff_toNat_le.mp also.1
    have most : c.val.toNat ≤ 'Z'.val.toNat := UInt32.le_iff_toNat_le.mp also.2
    exact ⟨least, most⟩

theorem folded_same {α : Type} (read : Char → α)
    (letters : ∀ i < 26, read (Char.ofNat (97 + i)) = read (Char.ofNat (65 + i))) (c : Char) :
    read c.toLower = read c := by
  rcases to_lower_cases c with same | ⟨i, bound, upper, low⟩
  · rw [same]
  · rw [low, upper, letters i bound]

theorem folding_passes : Passes Char.toLower id where
  blank := folded_same isBlank (by decide)
  ignorable := folded_same isCaseIgnorable (by decide)
  cased := folded_same isCased (by decide)
  sigma c := decide_eq_decide.mp (folded_same (fun c => decide (c = 'Σ')) (by decide) c)
  final := rfl
  inner := rfl
  lowered c := (folded_same lowerChar (by decide) c).trans (List.map_id _).symm

-- Lower-casing a text and folding its ASCII letters do the same to the character.
def Simple (c : Char) : Prop := lowerChar c = [c.toLower]

instance (c : Char) : Decidable (Simple c) := inferInstanceAs (Decidable (_ = _))

theorem lower_from_simple (before cs : List Char) (simple : ∀ c ∈ cs, Simple c) :
    lowerFrom before cs = cs.map Char.toLower := by
  induction cs generalizing before with
  | nil => rfl
  | cons c rest ih =>
      have own := simple c List.mem_cons_self
      have noSigma : c ≠ 'Σ' := by
        rintro rfl
        exact absurd own (by decide)
      have later := ih (c :: before) fun d member => simple d (List.mem_cons_of_mem c member)
      rw [lowerFrom, if_neg noSigma, own, later]
      rfl

theorem lower_from_append (before front rest : List Char) :
    ∃ first, lowerFrom before (front ++ rest) = first ++ lowerFrom (front.reverse ++ before) rest ∧
      first.length = (front.flatMap lowerChar).length := by
  induction front generalizing before with
  | nil => exact ⟨[], rfl, rfl⟩
  | cons c others ih =>
      obtain ⟨later, parts, count⟩ := ih (c :: before)
      obtain ⟨piece, own, single, _⟩ := lower_from_cons before c (others ++ rest)
      refine ⟨piece ++ later, ?_, ?_⟩
      · rw [List.cons_append, own, parts, List.reverse_cons, List.append_assoc, List.append_assoc]
        rfl
      · rw [List.length_append, single, count, List.flatMap_cons, List.length_append]

end Interlock.Text
