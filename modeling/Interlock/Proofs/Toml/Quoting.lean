import Mathlib.Data.List.TakeWhile
import Interlock.Toml.Lexeme
import Interlock.Toml.Writer

/-!
Texts in quotes. Whichever way of quoting a text takes, it is read back whole: escapes spell what they
stand for, and no quote within the text ends it.
-/

set_option autoImplicit false

namespace Interlock.Toml

open Interlock.Number (takeChar)

def Ended (rest : List Char) : Prop := ∀ c ∈ rest.head?, c = '\n' ∨ c = ',' ∨ c = ']'

theorem ended_line (rest : List Char) : Ended ('\n' :: rest) := by simp [Ended]

theorem take_char_four (a b c d : Char) (rest : List Char) :
    takeChar 4 (a :: b :: c :: d :: rest) = (takeChar 4 [a, b, c, d]).map fun found => (found.1, rest) := by
  rw [takeChar, takeChar, Number.takeDigits, Number.takeDigits]
  by_cases digits : [a, b, c, d].all (Number.isDigitOf 16) = true
  · simp [digits, Function.comp_def]
  · simp [digits]

theorem not_plain (c : Char) (control : isPlain c = false) : c.toNat < 128 := by
  rw [isPlain, Bool.or_eq_false_iff, Bool.and_eq_false_iff] at control
  obtain low | delete := control.2
  · have below : ¬ ' ' ≤ c := by simpa using low
    have code : ¬ ' '.toNat ≤ c.toNat := below
    have space : ' '.toNat = 32 := rfl
    omega
  · have code : c.toNat = 127 := by simpa using delete
    omega

theorem control_spelled (c : Char) (control : isPlain c = false) (rest : List Char) :
    takeChar 4 ('0' :: '0' :: hexDigit (c.toNat / 16) :: hexDigit (c.toNat % 16) :: rest) =
      some (c, rest) := by
  have each : ∀ n < 128, isPlain (Char.ofNat n) = false →
      takeChar 4 ['0', '0', hexDigit (n / 16), hexDigit (n % 16)] = some (Char.ofNat n, []) := by
    decide
  have spelled := each c.toNat (not_plain c control) (by rwa [Char.ofNat_toNat])
  rw [take_char_four, spelled, Char.ofNat_toNat]
  rfl

-- A character stands for itself, or an escape spells it.
inductive Spelled (c : Char) : List Char → Prop where
  | itself (plain : isPlain c = true) (quote : c ≠ '"') (slash : c ≠ '\\') : Spelled c [c]
  | escape (mark : Char) (spelling : List Char) (space : isSpace mark = false) (line : mark ≠ '\n')
      (turn : mark ≠ '\r') (read : ∀ rest, readEscape (mark :: (spelling ++ rest)) = some (c, rest)) :
      Spelled c ('\\' :: mark :: spelling)

theorem escape_spelled (c : Char) : Spelled c (escape c) := by
  rw [escape]
  split
  · next marked =>
      obtain rfl | rfl := marked <;> exact .escape _ [] (by decide) (by decide) (by decide) (fun _ => rfl)
  · next unmarked =>
      obtain ⟨quote, slash⟩ := not_or.mp unmarked
      split
      · next same => exact .escape 't' [] (by decide) (by decide) (by decide) (fun _ => by rw [same]; rfl)
      split
      · next same => exact .escape 'n' [] (by decide) (by decide) (by decide) (fun _ => by rw [same]; rfl)
      split
      · next same => exact .escape 'r' [] (by decide) (by decide) (by decide) (fun _ => by rw [same]; rfl)
      split
      · next code =>
          refine .escape 'b' [] (by decide) (by decide) (by decide) fun _ => ?_
          rw [← Char.ofNat_toNat c, code]
          rfl
      split
      · next code =>
          refine .escape 'f' [] (by decide) (by decide) (by decide) fun _ => ?_
          rw [← Char.ofNat_toNat c, code]
          rfl
      split
      · next plain => exact .itself plain quote slash
      · next control =>
          refine .escape 'u' _ (by decide) (by decide) (by decide) fun rest => ?_
          exact control_spelled c (Bool.eq_false_iff.mpr control) rest

theorem read_quoted_escaped (cs rest : List Char) (fuel : Nat)
    (enough : (cs.flatMap escape).length < fuel) :
    readQuoted fuel (cs.flatMap escape ++ '"' :: rest) = some (cs, rest) := by
  induction cs generalizing fuel with
  | nil =>
      obtain ⟨fuel, rfl⟩ := Nat.exists_eq_succ_of_ne_zero (Nat.ne_of_gt (Nat.zero_lt_of_lt enough))
      simp [readQuoted]
  | cons c cs ih =>
      obtain ⟨fuel, rfl⟩ := Nat.exists_eq_succ_of_ne_zero (Nat.ne_of_gt (Nat.zero_lt_of_lt enough))
      rw [List.flatMap_cons, List.length_append] at enough
      rw [List.flatMap_cons, List.append_assoc]
      have spelled := escape_spelled c
      generalize escape c = text at enough spelled
      cases spelled with
      | itself plain quote slash =>
          rw [List.length_singleton] at enough
          simp [readQuoted, plain, quote, slash, ih fuel (by omega)]
      | escape mark spelling _ _ _ read =>
          rw [List.length_cons, List.length_cons] at enough
          simp [readQuoted, read, ih fuel (by omega)]

theorem read_literal_plain (cs rest : List Char) (plain : ∀ c ∈ cs, isPlain c = true ∧ c ≠ '\'') :
    readLiteral (cs ++ '\'' :: rest) = some (cs, rest) := by
  induction cs with
  | nil => rfl
  | cons c cs ih =>
      obtain ⟨first, others⟩ := List.forall_mem_cons.mp plain
      simp [readLiteral, first.1, first.2, ih others]

theorem longest_run_reaches (mark : Char) (run : Nat) (cs : List Char) :
    run + (cs.takeWhile (· == mark)).length ≤ longestRun mark run cs := by
  induction cs generalizing run with
  | nil => exact Nat.le_refl run
  | cons c cs ih =>
      rw [longestRun, List.takeWhile_cons]
      by_cases same : c = mark
      · have behind := ih (run + 1)
        simp only [same, beq_self_eq_true, if_true, List.length_cons]
        omega
      · simp only [same, beq_iff_eq, if_false, List.length_nil]
        omega

theorem longest_run_rest (mark c : Char) (run : Nat) (cs : List Char) :
    ∃ behind, longestRun mark behind cs ≤ longestRun mark run (c :: cs) := by
  rw [longestRun]
  split
  · exact ⟨_, Nat.le_refl _⟩
  · exact ⟨0, Nat.le_max_right _ _⟩

theorem longest_run_absent (mark : Char) (run : Nat) (cs : List Char) (none : longestRun mark run cs = 0) :
    ∀ c ∈ cs, c ≠ mark := by
  induction cs generalizing run with
  | nil => simp
  | cons c cs ih =>
      have reached := longest_run_reaches mark run (c :: cs)
      obtain ⟨behind, less⟩ := longest_run_rest mark c run cs
      refine List.forall_mem_cons.mpr ⟨?_, ih behind (by omega)⟩
      rintro rfl
      simp only [List.takeWhile_cons, beq_self_eq_true, if_true, List.length_cons] at reached
      omega

theorem closing_few (mark : Char) (cs rest : List Char) (few : (cs.takeWhile (· == mark)).length ≤ 2)
    (apart : ∀ c ∈ rest.head?, c ≠ mark) :
    closing? mark (cs ++ mark :: mark :: mark :: rest) =
      if cs.all (· == mark) then some (cs, rest) else none := by
  by_cases marks : cs.all (· == mark) = true
  · rw [List.takeWhile_eq_self_iff.mpr (List.all_eq_true.mp marks)] at few
    have same : cs = List.replicate cs.length mark :=
      List.eq_replicate_of_mem fun c member => by simpa using List.all_eq_true.mp marks c member
    have taken : (cs ++ mark :: mark :: mark :: rest).takeWhile (· == mark) =
        cs ++ [mark, mark, mark] := by
      rw [List.takeWhile_append_of_pos (List.all_eq_true.mp marks)]
      cases rest with
      | nil => simp
      | cons c others => simp [apart c (by simp)]
    have left : (cs ++ mark :: mark :: mark :: rest).drop (cs.length + 3) = rest := by
      simp [List.drop_append]
    rw [if_pos marks, closing?, taken, List.length_append]
    dsimp only [List.length_cons, List.length_nil]
    rw [if_neg (by omega), Nat.add_sub_cancel, Nat.min_eq_right few, left, ← same]
  · have taken : (cs ++ mark :: mark :: mark :: rest).takeWhile (· == mark) =
        cs.takeWhile (· == mark) := by
      rw [List.takeWhile_append, if_neg]
      intro whole
      have every := List.takeWhile_eq_self_iff.mp
        (List.IsPrefix.eq_of_length (List.takeWhile_prefix _) whole)
      exact marks (List.all_eq_true.mpr every)
    rw [if_neg marks, closing?, taken]
    dsimp only
    rw [if_pos (by omega)]

theorem escape_opens (c : Char) :
    ∃ d text, escape c = d :: text ∧ d ≠ '"' ∧ d ≠ '\n' ∧ d ≠ '\r' := by
  have spelled := escape_spelled c
  generalize escape c = text at spelled
  cases spelled with
  | itself plain quote slash =>
      refine ⟨c, [], rfl, quote, ?_, ?_⟩
      all_goals
        rintro rfl
        contradiction
  | escape => exact ⟨_, _, rfl, by decide⟩

theorem escape_long_few (run : Nat) (cs : List Char) (few : run ≤ 2) :
    run + ((escapeLong run cs).takeWhile (· == '"')).length ≤ 2 := by
  induction cs generalizing run with
  | nil => exact few
  | cons c cs ih =>
      rw [escapeLong]
      split
      · split
        · next full => simp [full]
        · next more =>
            have behind := ih (run + 1) (by omega)
            simp only [List.takeWhile_cons, beq_self_eq_true, if_true, List.length_cons]
            omega
      · split
        · exact few
        · obtain ⟨d, text, opens, quote, _⟩ := escape_opens c
          simpa [opens, quote] using few

theorem escape_long_quotes (run : Nat) (cs : List Char)
    (quotes : (escapeLong run cs).all (· == '"') = true) : escapeLong run cs = cs := by
  induction cs generalizing run with
  | nil => rfl
  | cons c cs ih =>
      rw [escapeLong] at quotes ⊢
      split at quotes
      · next same =>
          rw [if_pos same]
          split at quotes
          · simp at quotes
          · next more =>
              rw [if_neg more, ih (run + 1) (by simpa using quotes), same]
      · split at quotes
        · simp at quotes
        · obtain ⟨d, text, opens, quote, _⟩ := escape_opens c
          simp [opens, quote] at quotes

theorem new_line_other (c : Char) (rest : List Char) (line : c ≠ '\n') (turn : c ≠ '\r') :
    newline? (c :: rest) = none := by
  rw [newline?.eq_def]
  split
  · next same => exact absurd (List.cons.inj same).1 line
  · next same => exact absurd (List.cons.inj same).1 turn
  · rfl

theorem ends_no_line (c : Char) (rest : List Char) (space : isSpace c = false) (line : c ≠ '\n')
    (turn : c ≠ '\r') : endsLine (c :: rest) = false := by
  simp [endsLine, skipSpaces, space, new_line_other c rest line turn]

theorem plain_on_line (c : Char) (plain : isPlain c = true) : c ≠ '\n' ∧ c ≠ '\r' := by
  constructor
  all_goals
    rintro rfl
    contradiction

inductive LongSpelled : Char → List Char → Prop where
  | spelled (c : Char) (text : List Char) (spelled : Spelled c text) : LongSpelled c text
  | mark : LongSpelled '"' ['"']
  | line : LongSpelled '\n' ['\n']

theorem escape_long_cons (c : Char) (cs : List Char) (run : Nat) (few : run ≤ 2) :
    ∃ text next, LongSpelled c text ∧ 0 < text.length ∧ next ≤ 2 ∧
      escapeLong run (c :: cs) = text ++ escapeLong next cs := by
  rw [escapeLong]
  split
  · next quote =>
      subst quote
      split
      · have spelled : Spelled '"' ['\\', '"'] :=
          .escape '"' [] (by decide) (by decide) (by decide) fun _ => rfl
        exact ⟨_, 0, .spelled _ _ spelled, by decide, by decide, rfl⟩
      · exact ⟨_, run + 1, .mark, by decide, by omega, rfl⟩
  · split
    · next line =>
        subst line
        exact ⟨_, 0, .line, by decide, by decide, rfl⟩
    · obtain ⟨d, text, opens, _⟩ := escape_opens c
      exact ⟨_, 0, .spelled _ _ (escape_spelled c), by simp [opens], by decide, rfl⟩

theorem read_long_spelled (c : Char) (text more : List Char) (fuel : Nat) (spelled : LongSpelled c text)
    (within : closing? '"' (text ++ more) = none) :
    readLongQuoted (fuel + 1) (text ++ more) =
      (readLongQuoted fuel more).map fun (cs, rest) => (c :: cs, rest) := by
  cases spelled with
  | mark =>
      rw [List.singleton_append] at within ⊢
      rw [readLongQuoted, within]
      rfl
  | line =>
      rw [List.singleton_append] at within ⊢
      rw [readLongQuoted, within]
      simp [newline?]
  | spelled _ _ spelled =>
      cases spelled with
      | itself plain quote slash =>
          obtain ⟨line, turn⟩ := plain_on_line c plain
          rw [List.singleton_append] at within ⊢
          rw [readLongQuoted, within]
          simp [new_line_other c more line turn, slash, plain]
      | escape mark spelling space line turn read =>
          rw [List.cons_append, List.cons_append] at within ⊢
          rw [readLongQuoted, within]
          simp [new_line_other '\\' _ (by decide) (by decide), ends_no_line mark _ space line turn, read]

theorem read_long_escaped (cs rest : List Char) (run fuel : Nat) (few : run ≤ 2)
    (apart : ∀ c ∈ rest.head?, c ≠ '"') (enough : (escapeLong run cs).length < fuel) :
    readLongQuoted fuel (escapeLong run cs ++ '"' :: '"' :: '"' :: rest) = some (cs, rest) := by
  induction cs generalizing run fuel with
  | nil =>
      obtain ⟨fuel, rfl⟩ := Nat.exists_eq_succ_of_ne_zero (Nat.ne_of_gt (Nat.zero_lt_of_lt enough))
      rw [escapeLong, List.nil_append, readLongQuoted]
      rw [show closing? '"' ('"' :: '"' :: '"' :: rest) = some ([], rest) from
        closing_few '"' [] rest (by simp) apart]
  | cons c cs ih =>
      obtain ⟨fuel, rfl⟩ := Nat.exists_eq_succ_of_ne_zero (Nat.ne_of_gt (Nat.zero_lt_of_lt enough))
      have start := escape_long_few run (c :: cs) few
      have closes := closing_few '"' (escapeLong run (c :: cs)) rest (by omega) apart
      by_cases quotes : (escapeLong run (c :: cs)).all (· == '"') = true
      · rw [if_pos quotes, escape_long_quotes run (c :: cs) quotes] at closes
        rw [escape_long_quotes run (c :: cs) quotes, List.cons_append, readLongQuoted,
          ← List.cons_append, closes]
      · obtain ⟨text, next, spelled, shown, fits, same⟩ := escape_long_cons c cs run few
        rw [if_neg quotes, same, List.append_assoc] at closes
        rw [same, List.length_append] at enough
        rw [same, List.append_assoc, read_long_spelled c text _ fuel spelled closes,
          ih next fuel fits (by omega)]
        rfl

theorem read_long_literal (cs rest : List Char) (run fuel : Nat) (sparse : longestRun '\'' run cs ≤ 2)
    (plain : ∀ c ∈ cs, isPlain c = true ∨ c = '\n') (apart : ∀ c ∈ rest.head?, c ≠ '\'')
    (enough : cs.length < fuel) :
    readLongLiteral fuel (cs ++ '\'' :: '\'' :: '\'' :: rest) = some (cs, rest) := by
  induction cs generalizing run fuel with
  | nil =>
      obtain ⟨fuel, rfl⟩ := Nat.exists_eq_succ_of_ne_zero (Nat.ne_of_gt (Nat.zero_lt_of_lt enough))
      rw [List.nil_append, readLongLiteral]
      rw [show closing? '\'' ('\'' :: '\'' :: '\'' :: rest) = some ([], rest) from
        closing_few '\'' [] rest (by simp) apart]
  | cons c cs ih =>
      obtain ⟨fuel, rfl⟩ := Nat.exists_eq_succ_of_ne_zero (Nat.ne_of_gt (Nat.zero_lt_of_lt enough))
      have start := longest_run_reaches '\'' run (c :: cs)
      have closes := closing_few '\'' (c :: cs) rest (by omega) apart
      obtain ⟨behind, less⟩ := longest_run_rest '\'' c run cs
      obtain ⟨first, others⟩ := List.forall_mem_cons.mp plain
      rw [List.length_cons] at enough
      rw [List.cons_append] at closes ⊢
      rw [readLongLiteral, closes]
      by_cases marks : (c :: cs).all (· == '\'') = true
      · rw [if_pos marks]
      · have later := ih behind fuel (by omega) others (by omega)
        rw [if_neg marks]
        obtain plain | rfl := first
        · obtain ⟨line, turn⟩ := plain_on_line c plain
          simp [new_line_other c _ line turn, plain, later]
        · simp [newline?, later]

theorem plain_without_control (cs : List Char) (clear : cs.any isControl = false) :
    ∀ c ∈ cs, isPlain c = true ∨ c = '\n' := by
  intro c member
  have free := List.any_eq_false.mp clear c member
  by_cases plain : isPlain c = true
  · exact .inl plain
  · refine .inr ?_
    simpa [isControl, plain] using free

theorem skip_new_line_other (text : List Char) (ahead : ∀ c ∈ text.head?, c ≠ '\n' ∧ c ≠ '\r') :
    skipNewline text = text := by
  cases text with
  | nil => rfl
  | cons c rest =>
      obtain ⟨line, turn⟩ := ahead c (by simp)
      simp [skipNewline, new_line_other c rest line turn]

theorem quoting_literal (traits : Traits) (chosen : traits.quoting = .literal) :
    traits.control = false ∧ traits.apostrophes = 0 ∧ traits.newline = false ∧
      (traits.backslash = true ∨ traits.quotes ≠ 0) := by
  rw [Traits.quoting] at chosen
  split at chosen
  · contradiction
  · next needs =>
      split at chosen
      · next clear =>
          simp only [Bool.and_eq_true, Bool.not_eq_true', decide_eq_true_eq] at needs clear
          refine ⟨clear.1.1, clear.1.2, clear.2, ?_⟩
          by_contra neither
          simp only [not_or, Bool.not_eq_true, not_not] at neither
          exact needs ⟨⟨⟨clear.1.1, neither.1⟩, neither.2⟩, clear.2⟩
      · split at chosen
        · contradiction
        · split at chosen
          · contradiction
          · split at chosen <;> contradiction

theorem quoting_long_literal (traits : Traits) (chosen : traits.quoting = .longLiteral) :
    traits.control = false ∧ traits.apostrophes ≤ 2 := by
  rw [Traits.quoting] at chosen
  repeat' split at chosen
  all_goals first | contradiction | skip
  next clear => simpa using clear

theorem skip_start (cs text : List Char) (escaped : cs.contains '\n' = false →
    ∀ c ∈ text.head?, c ≠ '\n' ∧ c ≠ '\r') :
    skipNewline ((if cs.contains '\n' then ['\n'] else []) ++ text) = text := by
  by_cases line : cs.contains '\n' = true
  · rw [if_pos line]
    rfl
  · rw [if_neg line]
    exact skip_new_line_other text (escaped (Bool.eq_false_iff.mpr line))

theorem escape_long_ahead (cs rest : List Char) (line : cs.contains '\n' = false) :
    ∀ c ∈ (escapeLong 0 cs ++ '"' :: rest).head?, c ≠ '\n' ∧ c ≠ '\r' := by
  cases cs with
  | nil => simp [escapeLong]
  | cons c cs =>
      obtain ⟨d, text, opens, _, other⟩ := escape_opens c
      have unlike : c ≠ '\n' := by
        rintro rfl
        simp at line
      rw [escapeLong, if_neg unlike]
      split
      · simp
      · simpa [opens] using other

theorem literal_ahead (cs rest : List Char) (plain : ∀ c ∈ cs, isPlain c = true ∨ c = '\n')
    (line : cs.contains '\n' = false) : ∀ c ∈ (cs ++ '\'' :: rest).head?, c ≠ '\n' ∧ c ≠ '\r' := by
  cases cs with
  | nil => simp
  | cons c cs =>
      have first := (List.forall_mem_cons.mp plain).1
      obtain plain | rfl := first
      · simpa using plain_on_line c plain
      · simp at line

section

variable {cs rest : List Char}

theorem reads_quoted (apart : ∀ c ∈ rest.head?, c ≠ '"') :
    readText ('"' :: (cs.flatMap escape ++ '"' :: rest)) = some (String.ofList cs, rest) := by
  have single : ∀ more, cs.flatMap escape ++ '"' :: rest ≠ '"' :: '"' :: more := by
    intro more
    cases cs with
    | nil =>
        intro opens
        rw [List.flatMap_nil, List.nil_append, List.cons.injEq] at opens
        exact apart '"' (by rw [opens.2]; rfl) rfl
    | cons c cs =>
        obtain ⟨d, text, opens, quote, _⟩ := escape_opens c
        simp [opens, quote]
  have read := read_quoted_escaped cs rest ((cs.flatMap escape ++ '"' :: rest).length + 1)
    (by rw [List.length_append]; omega)
  rw [readText]
  · rw [read]
    rfl
  · exact single

theorem reads_literal (plain : ∀ c ∈ cs, isPlain c = true ∧ c ≠ '\'') (filled : cs ≠ []) :
    readText ('\'' :: (cs ++ '\'' :: rest)) = some (String.ofList cs, rest) := by
  have single : ∀ more, cs ++ '\'' :: rest ≠ '\'' :: '\'' :: more := by
    obtain ⟨c, others, rfl⟩ := List.exists_cons_of_ne_nil filled
    simp [(plain c (by simp)).2]
  rw [readText]
  · rw [read_literal_plain cs rest plain]
    rfl
  · exact single

theorem reads_long_quoted (apart : ∀ c ∈ rest.head?, c ≠ '"') :
    readText ('"' :: '"' :: '"' :: ((if cs.contains '\n' then ['\n'] else []) ++
      (escapeLong 0 cs ++ '"' :: '"' :: '"' :: rest))) = some (String.ofList cs, rest) := by
  rw [readText, skip_start cs _ (escape_long_ahead cs _)]
  rw [read_long_escaped cs rest 0 _ (by decide) apart (by simp only [List.length_append]; omega)]
  rfl

theorem reads_long_literal (plain : ∀ c ∈ cs, isPlain c = true ∨ c = '\n')
    (sparse : longestRun '\'' 0 cs ≤ 2) (apart : ∀ c ∈ rest.head?, c ≠ '\'') :
    readText ('\'' :: '\'' :: '\'' :: ((if cs.contains '\n' then ['\n'] else []) ++
      (cs ++ '\'' :: '\'' :: '\'' :: rest))) = some (String.ofList cs, rest) := by
  rw [readText, skip_start cs _ (literal_ahead cs _ plain)]
  rw [read_long_literal cs rest 0 _ sparse plain apart (by simp only [List.length_append]; omega)]
  rfl

end

theorem read_quote (content : String) (rest : List Char) (ended : Ended rest) :
    readText (quote content ++ rest) = some (content, rest) := by
  have quotes : ∀ c ∈ rest.head?, c ≠ '"' := fun c first => by
    obtain rfl | rfl | rfl := ended c first <;> decide
  have apostrophes : ∀ c ∈ rest.head?, c ≠ '\'' := fun c first => by
    obtain rfl | rfl | rfl := ended c first <;> decide
  obtain ⟨cs, same⟩ : ∃ cs, content.toList = cs := ⟨_, rfl⟩
  have whole : content = String.ofList cs := by rw [← same, String.ofList_toList]
  have newline : (Traits.of cs).newline = cs.contains '\n' := rfl
  rw [quote, same]
  cases chosen : (Traits.of cs).quoting with
  | quoted =>
      rw [whole, ← reads_quoted quotes]
      simp
  | literal =>
      obtain ⟨control, none, line, needs⟩ := quoting_literal _ chosen
      have filled : cs ≠ [] := by
        rintro rfl
        simp [Traits.of, longestRun] at needs
      have plain : ∀ c ∈ cs, isPlain c = true ∧ c ≠ '\'' := by
        refine fun c member => ⟨?_, longest_run_absent '\'' 0 cs none c member⟩
        refine (plain_without_control cs control c member).resolve_right ?_
        rintro rfl
        simp [newline, member] at line
      rw [whole, ← reads_literal plain filled]
      simp
  | longQuoted =>
      rw [whole, ← reads_long_quoted quotes]
      simp [newline]
  | longLiteral =>
      obtain ⟨control, sparse⟩ := quoting_long_literal _ chosen
      rw [whole, ← reads_long_literal (plain_without_control cs control) sparse apostrophes]
      simp [newline]

theorem quote_opens (content : String) : ∃ c text, quote content = c :: text ∧ (c = '"' ∨ c = '\'') := by
  rw [quote]
  cases (Traits.of content.toList).quoting <;> exact ⟨_, _, rfl, by decide⟩

end Interlock.Toml
