import Interlock.Text.Blank
import Interlock.Text.Case
import Interlock.Text.Letter

/-!
Lower-casing is idempotent: it yields characters that it leaves as they are wherever they stand. The
tables are checked range by range.
-/

set_option autoImplicit false

namespace Interlock.Text

def Settled (c : Char) : Prop := c ≠ 'Σ' ∧ lowerChar c = [c]

instance (c : Char) : Decidable (Settled c) := inferInstanceAs (Decidable (_ ∧ _))

theorem lower_from_settled (before cs : List Char) (settled : ∀ c ∈ cs, Settled c) :
    lowerFrom before cs = cs := by
  induction cs generalizing before with
  | nil => rfl
  | cons c rest ih =>
      obtain ⟨noSigma, alone⟩ := settled c (by simp)
      have later := ih (c :: before) fun d member => settled d (by simp [member])
      rw [lowerFrom, if_neg noSigma, alone, later]
      rfl

theorem lower_settled (cs : List Char) (settled : ∀ c ∈ cs, Settled c) : lower cs = cs :=
  lower_from_settled [] cs settled

theorem in_ranges_sound (code : Nat) (ranges : List (Nat × Nat)) (inside : inRanges code ranges = true) :
    ∃ range ∈ ranges, range.1 ≤ code ∧ code ≤ range.2 := by
  induction ranges with
  | nil => simp [inRanges] at inside
  | cons range rest ih =>
      obtain ⟨first, last⟩ := range
      rw [inRanges] at inside
      split at inside
      · contradiction
      · split at inside
        · exact ⟨(first, last), by simp, by omega, by assumption⟩
        · obtain ⟨other, member, bounds⟩ := ih inside
          exact ⟨other, by simp [member], bounds⟩

theorem continues_not_blank (c : Char) (continued : continuesName c = true) : isBlank c = false := by
  have apart : ∀ range ∈ blankRanges, ∀ i < range.2 - range.1 + 1,
      inRanges (range.1 + i) letterRanges = false ∧ inRanges (range.1 + i) numeralRanges = false ∧
        range.1 + i ≠ '_'.toNat := by decide +kernel
  refine Bool.eq_false_iff.mpr fun blank => ?_
  obtain ⟨range, member, least, most⟩ := in_ranges_sound _ _ blank
  obtain ⟨noLetter, noNumeral, noLine⟩ := apart range member (c.toNat - range.1) (by omega)
  rw [show range.1 + (c.toNat - range.1) = c.toNat by omega] at noLetter noNumeral noLine
  simp only [continuesName, isLetter, isNumeral, noLetter, noNumeral, Bool.false_or, beq_iff_eq] at continued
  exact noLine (congrArg Char.toNat continued)

theorem middle_not_blank (c : Char) (least : 33 ≤ c.toNat) (most : c.toNat < 65) : isBlank c = false := by
  have apart : ∀ range ∈ blankRanges, range.2 < 33 ∨ 65 ≤ range.1 := by decide
  refine Bool.eq_false_iff.mpr fun blank => ?_
  obtain ⟨range, member, first, last⟩ := in_ranges_sound _ _ blank
  have sides := apart range member
  omega

def LowerSpan.image (span : LowerSpan) (code : Nat) : Nat := ((code : Int) + span.shift).toNat

def LowerSpan.alternating (span : LowerSpan) : Bool := span.step == 2 || span.first == span.last

theorem lower_code_cases (code : Nat) (spans : List LowerSpan) :
    lowerCode code spans = code ∨ ∃ span ∈ spans, lowerCode code spans = span.image code ∧
      span.first ≤ code ∧ code ≤ span.last ∧ (code - span.first) % span.step = 0 := by
  induction spans with
  | nil => exact .inl rfl
  | cons span rest ih =>
      rw [lowerCode]
      split
      · exact .inl rfl
      · split
        · rename_i reached fits
          simp only [Bool.and_eq_true, decide_eq_true_eq, beq_iff_eq] at fits
          exact .inr ⟨span, by simp, rfl, by omega, fits⟩
        · rcases ih with same | ⟨other, member, image⟩
          · exact .inl same
          · exact .inr ⟨other, by simp [member], image⟩

def unmapped (low high : Nat) (alternating : Bool) : List LowerSpan → Bool
  | [] => true
  | span :: rest =>
      Nat.blt high span.first ||
        (Nat.blt span.last low || (alternating && span.step == 2 && low % 2 != span.first % 2)) &&
          unmapped low high alternating rest

theorem unmapped_fixed (low high code : Nat) (alternating : Bool) (spans : List LowerSpan)
    (clear : unmapped low high alternating spans = true) (least : low ≤ code) (most : code ≤ high)
    (parity : alternating = true → code % 2 = low % 2) : lowerCode code spans = code := by
  induction spans with
  | nil => rfl
  | cons span rest ih =>
      simp only [unmapped, Bool.or_eq_true, Bool.and_eq_true, Nat.blt_eq, beq_iff_eq, bne_iff_ne] at clear
      rw [lowerCode]
      by_cases before : code < span.first
      · rw [if_pos before]
      · rcases clear with above | ⟨missed, later⟩
        · omega
        · have free : ¬ (decide (code ≤ span.last) && (code - span.first) % span.step == 0) = true := by
            intro mapped
            simp only [Bool.and_eq_true, decide_eq_true_eq, beq_iff_eq] at mapped
            rcases missed with below | ⟨⟨alternates, two⟩, apart⟩
            · omega
            · have same := parity alternates
              rw [two] at mapped
              omega
          rw [if_neg before, if_neg free, ih later]

def LowerSpan.Clear (span : LowerSpan) : Prop :=
  unmapped (span.image span.first) (span.image span.last) span.alternating lowerSpans = true ∧
    0 ≤ span.first + span.shift ∧
    (span.image span.last < 'İ'.toNat ∨ 'İ'.toNat < span.image span.first) ∧
    (span.image span.last < 0xd800 ∨ 0xdfff < span.image span.first ∧ span.image span.last < 0x110000)

theorem lower_spans_clear : ∀ span ∈ lowerSpans, span.Clear := by
  unfold LowerSpan.Clear
  decide +kernel

theorem image_fixed (span : LowerSpan) (code : Nat) (member : span ∈ lowerSpans)
    (least : span.first ≤ code) (most : code ≤ span.last) (fits : (code - span.first) % span.step = 0) :
    (span.image code).isValidChar ∧ span.image code ≠ 'İ'.toNat ∧
      lowerCode (span.image code) lowerSpans = span.image code := by
  obtain ⟨clear, nonnegative, dotless, valid⟩ := lower_spans_clear span member
  have low : span.image span.first ≤ span.image code := by
    unfold LowerSpan.image
    omega
  have high : span.image code ≤ span.image span.last := by
    unfold LowerSpan.image
    omega
  refine ⟨?_, by omega, unmapped_fixed _ _ _ _ _ clear low high fun alternates => ?_⟩
  · simp only [Nat.isValidChar]
    omega
  · simp only [LowerSpan.alternating, Bool.or_eq_true, beq_iff_eq] at alternates
    unfold LowerSpan.image
    rcases alternates with two | single
    · rw [two] at fits
      omega
    · rw [show code = span.first by omega]

theorem settled_of_code (c : Char) (noDotted : c.toNat ≠ 'İ'.toNat)
    (fixed : lowerCode c.toNat lowerSpans = c.toNat) : Settled c := by
  refine ⟨?_, ?_⟩
  · rintro rfl
    exact absurd fixed (by decide)
  · rw [lowerChar, if_neg fun same => noDotted (congrArg Char.toNat same), fixed, Char.ofNat_toNat]

theorem settled_below (c : Char) (low : c.toNat < 65) : Settled c := by
  have fixed : lowerCode c.toNat lowerSpans = c.toNat := by
    rw [show lowerSpans = ⟨65, 90, 1, 32⟩ :: lowerSpans.tail from rfl, lowerCode, if_pos low]
  have dotted : 'İ'.toNat = 304 := rfl
  exact settled_of_code c (by omega) fixed

theorem lower_char_settled (c d : Char) (member : d ∈ lowerChar c) : Settled d := by
  rw [lowerChar] at member
  split at member
  · have each : ∀ d ∈ ['i', '\u0307'], Settled d :=
      List.forall_mem_cons.mpr ⟨by decide, List.forall_mem_singleton.mpr (by decide)⟩
    exact each d member
  · rename_i noDotted
    obtain rfl := List.mem_singleton.mp member
    rcases lower_code_cases c.toNat lowerSpans with same | ⟨span, listed, image, least, most, fits⟩
    · rw [same, Char.ofNat_toNat]
      exact settled_of_code c (fun code => noDotted (Char.toNat_inj.mp code)) same
    · obtain ⟨valid, dotless, fixed⟩ := image_fixed span c.toNat listed least most fits
      have code : (Char.ofNat (span.image c.toNat)).toNat = span.image c.toNat := by
        rw [Char.ofNat, dif_pos valid]
        rfl
      rw [image]
      exact settled_of_code _ (by rwa [code]) (by rw [code, fixed])

theorem lower_from_yields_settled (before cs : List Char) (d : Char) (member : d ∈ lowerFrom before cs) :
    Settled d := by
  induction cs generalizing before with
  | nil => simp [lowerFrom] at member
  | cons c rest ih =>
      rw [lowerFrom] at member
      rcases List.mem_append.mp member with first | later
      · split at first
        · split at first
          · obtain rfl := List.mem_singleton.mp first
            decide +kernel
          · obtain rfl := List.mem_singleton.mp first
            decide
        · exact lower_char_settled c d first
      · exact ih _ later

theorem lower_yields_settled (cs : List Char) (d : Char) (member : d ∈ lower cs) : Settled d :=
  lower_from_yields_settled [] cs d member

def Verbatim (c : Char) : Prop := Settled c ∧ isBlank c = false

instance (c : Char) : Decidable (Verbatim c) := inferInstanceAs (Decidable (_ ∧ _))

theorem lower_verbatim (cs : List Char) (verbatim : ∀ c ∈ cs, Verbatim c) : lower (stripBlanks cs) = cs := by
  have kept : stripBlanks cs = cs := List.filter_eq_self.mpr fun c member => by simp [(verbatim c member).2]
  rw [kept, lower_settled _ fun c member => (verbatim c member).1]

theorem middle_verbatim (c : Char) (least : 33 ≤ c.toNat) (most : c.toNat < 65) : Verbatim c :=
  ⟨settled_below c most, middle_not_blank c least most⟩

theorem name_verbatim (c : Char) (continued : continuesName c = true) (settled : Settled c) : Verbatim c :=
  ⟨settled, continues_not_blank c continued⟩

theorem infinity_verbatim : ∀ c ∈ ['i', 'n', 'f'], Verbatim c :=
  List.forall_mem_cons.mpr ⟨by decide, List.forall_mem_cons.mpr
    ⟨by decide, List.forall_mem_singleton.mpr (by decide)⟩⟩

end Interlock.Text
