import Interlock.Proofs.Number.Layout
import Interlock.Proofs.Toml.Quoting
import Interlock.Toml.Reader

/-!
Values and keys on a line. A text, a whole number, a truth value or a list of these reads back from what
is written for it, and so does every path of keys that is short enough.
-/

set_option autoImplicit false

namespace Interlock.Toml

open Interlock.Number (spanDigits takeDigits digits isDigit isDigitOf ofDigits digit_other digits_unsigned)

theorem digit_decimal (c : Char) (digit : isDigit c = true) : isDigitOf 10 c = true := by
  have code := Number.digit_code c digit
  have small : c.toNat - 48 < 10 := by omega
  simp [isDigitOf, Number.digitOf?, digit, small]

theorem ended_no_digit (rest : List Char) (ended : Ended rest) : ∀ c ∈ rest.head?, isDigitOf 10 c = false := by
  intro c first
  obtain rfl | rfl | rfl := ended c first <;> decide

theorem span_digits_run (ds rest : List Char) (digits : ∀ c ∈ ds, isDigit c = true) (ended : Ended rest) :
    spanDigits 10 (ds ++ rest) = (ds, rest) := by
  induction ds with
  | nil =>
      cases rest with
      | nil => rfl
      | cons c rest =>
          have other := ended_no_digit _ ended c rfl
          rw [List.nil_append]
          unfold spanDigits
          simp [other]
  | cons c ds ih =>
      obtain ⟨first, others⟩ := List.forall_mem_cons.mp digits
      have apart : ∀ d more, ds ++ rest ≠ '_' :: d :: more := by
        intro d more same
        cases ds with
        | nil =>
            rw [List.nil_append] at same
            have marked := ended '_' (by rw [same]; rfl)
            revert marked
            decide
        | cons e ds =>
            have digit := others e (by simp)
            rw [(List.cons.inj same).1] at digit
            contradiction
      rw [List.cons_append, spanDigits, if_pos (digit_decimal c first), ih others]
      exact apart

theorem take_digits_run (count m : Nat) (ds rest behind : List Char) (ended : Ended rest)
    (taken : takeDigits 10 count (ds ++ rest) = some (m, behind)) : behind = ds.drop count ++ rest := by
  rw [takeDigits] at taken
  split at taken
  · next whole =>
      obtain ⟨long, all⟩ := whole
      cases taken
      have within : count ≤ ds.length := by
        by_contra short
        rw [List.take_append, List.take_of_length_le (by omega)] at long all
        obtain ⟨left, same⟩ := Nat.exists_eq_succ_of_ne_zero (n := count - ds.length) (by omega)
        cases rest with
        | nil => simp at long; omega
        | cons c rest =>
            have other := ended_no_digit _ ended c rfl
            simp [same, other] at all
      rw [List.drop_append_of_le_length within]
  · contradiction

theorem mark_missing (mark : Char) (ds rest : List Char) (digits : ∀ c ∈ ds, isDigit c = true)
    (ended : Ended rest) (count : Nat) (digit : isDigit mark = false)
    (apart : ¬ (mark = '\n' ∨ mark = ',' ∨ mark = ']')) :
    skipMark mark (ds.drop count ++ rest) = none := by
  cases text : ds.drop count ++ rest with
  | nil => rfl
  | cons c more =>
      rw [skipMark, if_neg]
      rintro rfl
      cases left : ds.drop count with
      | nil =>
          rw [left, List.nil_append] at text
          exact apart (ended c (by rw [text]; rfl))
      | cons d others =>
          rw [left] at text
          obtain ⟨rfl, _⟩ := List.cons.inj text
          have member : d ∈ ds := List.mem_of_mem_drop (by rw [left]; exact List.mem_cons_self)
          rw [digits d member] at digit
          contradiction

theorem field_marked (mark : Char) (count least most : Nat) (ds rest : List Char)
    (digits : ∀ c ∈ ds, isDigit c = true) (ended : Ended rest) (digit : isDigit mark = false)
    (apart : ¬ (mark = '\n' ∨ mark = ',' ∨ mark = ']')) :
    ((readField count least most (ds ++ rest)).bind fun found => skipMark mark found.2) = none := by
  rw [readField]
  split
  · next m behind taken =>
      split
      · rw [take_digits_run count m ds rest behind ended taken]
        exact mark_missing mark ds rest digits ended count digit apart
      · rfl
  · rfl

theorem digits_no_date (ds rest : List Char) (digits : ∀ c ∈ ds, isDigit c = true) (ended : Ended rest) :
    readDate (ds ++ rest) = none := by
  have day := field_marked '-' 4 0 9999 ds rest digits ended rfl (by decide)
  have time := field_marked ':' 2 0 23 ds rest digits ended rfl (by decide)
  have noDay : skipDay (ds ++ rest) = none := by
    rw [skipDay]
    cases field : readField 4 0 9999 (ds ++ rest) with
    | none => rfl
    | some found =>
        rw [field] at day
        simp only [Option.bind_some] at day
        simp [day]
  have noTime : skipTime (ds ++ rest) = none := by
    rw [skipTime]
    cases field : readField 2 0 23 (ds ++ rest) with
    | none => rfl
    | some found =>
        rw [field] at time
        simp only [Option.bind_some] at time
        simp [time]
  rw [readDate, skipDate, noDay]
  dsimp only
  rw [noTime]
  rfl

theorem decimal_read (negative : Bool) (n : Nat) (rest : List Char) (ended : Ended rest)
    (small : fits (if negative then -(n : Int) else n) = true) :
    readDecimal negative (digits n ++ rest) =
      some (.integer (if negative then -(n : Int) else n), rest) := by
  have span := span_digits_run (digits n) rest (Number.digits_are_digits n) ended
  have whole : readWhole (digits n ++ rest) = some (digits n, rest) := by
    rw [readWhole, span]
    have filled := Number.digits_filled n
    have canonical := Number.digits_canonical n
    generalize digits n = ds at filled canonical
    split
    · next same => exact absurd (Prod.mk.inj same).1 filled
    · next d more same => exact absurd (Prod.mk.inj same).1 (canonical _ _)
    · rfl
  have fraction : readFraction rest = some ([], rest) := by
    cases rest with
    | nil => rfl
    | cons c rest => obtain rfl | rfl | rfl := ended c rfl <;> rfl
  have exponent : readExponent rest = some (0, rest) := by
    cases rest with
    | nil => rfl
    | cons c rest => obtain rfl | rfl | rfl := ended c rfl <;> rfl
  rw [readDecimal, whole]
  dsimp only
  rw [fraction]
  dsimp only
  rw [exponent]
  dsimp only
  rw [if_pos rfl, Number.of_digits_digits, integer?, if_pos small]
  rfl

theorem digits_open (n : Nat) : ∃ c ds, digits n = c :: ds ∧ isDigit c = true := by
  obtain ⟨c, ds, same⟩ := List.exists_cons_of_ne_nil (Number.digits_filled n)
  exact ⟨c, ds, same, Number.digits_are_digits n c (by rw [same]; exact List.mem_cons_self)⟩

theorem scalar_number (c : Char) (rest : List Char) (other : c ≠ 't' ∧ c ≠ 'f')
    (date : readDate (c :: rest) = none) : readScalar (c :: rest) = readNumber (c :: rest) := by
  rw [readScalar]
  · rw [date]
  · exact fun _ same => other.1 (List.cons.inj same).1
  · exact fun _ same => other.2 (List.cons.inj same).1

theorem number_decimal (negative : Bool) (cs body : List Char)
    (based : ∀ c rest, cs = '0' :: c :: rest → c ≠ 'x' ∧ c ≠ 'o' ∧ c ≠ 'b')
    (signed : Number.splitSign cs = (negative, body)) (named : readNamed negative body = none) :
    readNumber cs = readDecimal negative body := by
  rw [readNumber]
  · rw [signed]
    dsimp only
    rw [named]
  · exact fun rest same => (based _ rest same).1 rfl
  · exact fun rest same => (based _ rest same).2.1 rfl
  · exact fun rest same => (based _ rest same).2.2 rfl

theorem digit_no_name (negative : Bool) (c : Char) (rest : List Char) (digit : isDigit c = true) :
    readNamed negative (c :: rest) = none := by
  rw [readNamed]
  · exact fun _ same => digit_other c 'i' digit rfl (List.cons.inj same).1
  · exact fun _ same => digit_other c 'n' digit rfl (List.cons.inj same).1

theorem digits_not_based (n : Nat) (rest : List Char) (ended : Ended rest) (c : Char) (more : List Char)
    (same : digits n ++ rest = '0' :: c :: more) : c ≠ 'x' ∧ c ≠ 'o' ∧ c ≠ 'b' := by
  have all := Number.digits_are_digits n
  obtain ⟨d, ds, opens, _⟩ := digits_open n
  rw [opens] at all
  rw [opens, List.cons_append] at same
  have behind := (List.cons.inj same).2
  cases ds with
  | nil =>
      have marked := ended c (by rw [← List.nil_append rest, behind]; rfl)
      obtain rfl | rfl | rfl := marked <;> decide
  | cons e es =>
      have digit := all e (by simp)
      rw [(List.cons.inj behind).1] at digit
      exact ⟨digit_other c 'x' digit rfl, digit_other c 'o' digit rfl, digit_other c 'b' digit rfl⟩

theorem signed_no_date (rest : List Char) : readDate ('-' :: rest) = none := by
  have none : ∀ count, takeDigits 10 (count + 1) ('-' :: rest) = none := by
    intro count
    rw [takeDigits, if_neg]
    rintro ⟨_, all⟩
    simp [show isDigitOf 10 '-' = false from rfl] at all
  simp [readDate, skipDate, skipDay, skipTime, readField, none]

theorem integer_opens (n : Int) : ∃ c ds, integerText n = c :: ds ∧ (c = '-' ∨ isDigit c = true) := by
  rw [integerText]
  split
  · exact ⟨'-', _, rfl, .inl rfl⟩
  · obtain ⟨c, ds, opens, digit⟩ := digits_open n.natAbs
    exact ⟨c, ds, opens, .inr digit⟩

theorem integer_start (c d : Char) (start : c = '-' ∨ isDigit c = true) (other : isDigit d = false)
    (sign : d ≠ '-') : c ≠ d := by
  obtain rfl | digit := start
  · exact sign.symm
  · exact digit_other c d digit other

theorem integer_read (n : Int) (rest : List Char) (ended : Ended rest) (small : fits n = true) :
    readScalar (integerText n ++ rest) = some (.integer n, rest) := by
  have all := Number.digits_are_digits n.natAbs
  obtain ⟨c, ds, opens, digit⟩ := digits_open n.natAbs
  rw [integerText]
  split
  · next negative =>
      have value : (if true then -(n.natAbs : Int) else n.natAbs) = n := by
        simp only [if_true]
        omega
      have read := decimal_read true n.natAbs rest ended (by rw [value]; exact small)
      rw [value] at read
      rw [List.cons_append, scalar_number '-' _ (by decide) (signed_no_date _),
        number_decimal true _ _ (by simp) rfl ?_, read]
      rw [opens]
      exact digit_no_name true c _ digit
  · next positive =>
      have value : (if false then -(n.natAbs : Int) else n.natAbs) = n := by
        simp only [Bool.false_eq_true, if_false]
        omega
      have read := decimal_read false n.natAbs rest ended (by rw [value]; exact small)
      rw [value] at read
      have date := digits_no_date (digits n.natAbs) rest all ended
      have based := digits_not_based n.natAbs rest ended
      rw [opens, List.cons_append] at read date based ⊢
      rw [scalar_number c _ ⟨digit_other c 't' digit rfl, digit_other c 'f' digit rfl⟩ date,
        number_decimal false _ _ based (digits_unsigned c _ digit) (digit_no_name false c _ digit), read]

inductive Leaf : Tree → Prop where
  | text (content : String) : Leaf (.text content)
  | integer (n : Int) (small : fits n = true) : Leaf (.integer n)
  | bool (b : Bool) : Leaf (.bool b)

def Begun (text : List Char) : Prop :=
  ∃ c rest, text = c :: rest ∧ isSpace c = false ∧ c ≠ '#' ∧ c ≠ '\n' ∧ c ≠ '\r' ∧ c ≠ ']'

theorem leaf_begun (tree : Tree) (leaf : Leaf tree) (rest : List Char) : Begun (valueText tree ++ rest) := by
  cases leaf with
  | text content =>
      obtain ⟨c, text, opens, mark⟩ := quote_opens content
      refine ⟨c, text ++ rest, by rw [valueText, opens]; rfl, ?_⟩
      obtain rfl | rfl := mark <;> decide
  | integer n =>
      obtain ⟨c, ds, opens, start⟩ := integer_opens n
      refine ⟨c, ds ++ rest, by rw [valueText, opens]; rfl, ?_, ?_⟩
      · have blank := integer_start c ' ' start rfl (by decide)
        have tab := integer_start c '\t' start rfl (by decide)
        simp [isSpace, blank, tab]
      · exact ⟨integer_start c _ start rfl (by decide), integer_start c _ start rfl (by decide),
          integer_start c _ start rfl (by decide), integer_start c _ start rfl (by decide)⟩
  | bool b => cases b <;> exact ⟨_, _, rfl, by decide⟩

theorem leaf_read (tree : Tree) (leaf : Leaf tree) (rest : List Char) (ended : Ended rest)
    (fuel depth : Nat) : readTree (fuel + 1) depth (valueText tree ++ rest) = some (tree, rest) := by
  cases leaf with
  | text content =>
      have read := read_quote content rest ended
      obtain ⟨c, text, opens, mark⟩ := quote_opens content
      rw [opens, List.cons_append] at read
      rw [valueText, opens, List.cons_append, readTree, if_pos mark, read]
      rfl
  | integer n small =>
      have read := integer_read n rest ended small
      obtain ⟨c, ds, opens, start⟩ := integer_opens n
      rw [opens, List.cons_append] at read
      rw [valueText, opens, List.cons_append, readTree, if_neg, if_neg, if_neg, read]
      · exact integer_start c _ start rfl (by decide)
      · exact integer_start c _ start rfl (by decide)
      · exact not_or.mpr ⟨integer_start c _ start rfl (by decide),
          integer_start c _ start rfl (by decide)⟩
  | bool b => cases b <;> rfl

theorem skip_gaps_found (fuel : Nat) (cs : List Char) (c : Char) (rest : List Char)
    (found : skipSpaces cs = c :: rest) (mark : c ≠ '#') (line : c ≠ '\n') (turn : c ≠ '\r') :
    skipGaps (fuel + 1) cs = c :: rest := by
  rw [skipGaps, found]
  split
  · next same => exact absurd (List.cons.inj same).1 mark
  · rw [new_line_other c rest line turn]

theorem skip_gaps_item (cs : List Char) (begun : Begun cs) :
    skipGaps (("\n    ".toList ++ cs).length + 1) ("\n    ".toList ++ cs) = cs := by
  obtain ⟨c, rest, rfl, space, mark, line, turn, _⟩ := begun
  have skipped : skipSpaces ("    ".toList ++ c :: rest) = c :: rest := by
    rw [skipSpaces, List.dropWhile_append_of_pos (List.all_eq_true.mp (by decide)), List.dropWhile_cons, space]
    rfl
  have behind : skipGaps (("\n    ".toList ++ c :: rest).length + 1) ("\n    ".toList ++ c :: rest) =
      skipGaps (("    ".toList ++ c :: rest).length + 1) ("    ".toList ++ c :: rest) := rfl
  rw [behind, skip_gaps_found _ _ c rest skipped mark line turn]

theorem skip_gaps_begun (fuel : Nat) (cs : List Char) (begun : Begun cs) : skipGaps (fuel + 1) cs = cs := by
  obtain ⟨c, rest, rfl, space, mark, line, turn, _⟩ := begun
  exact skip_gaps_found fuel _ c rest (by simp [skipSpaces, space]) mark line turn

theorem begun_open (cs : List Char) (begun : Begun cs) : ∀ rest, cs = ']' :: rest → False := by
  obtain ⟨c, more, rfl, _, _, _, _, other⟩ := begun
  exact fun rest same => other (List.cons.inj same).1

theorem items_done (fuel depth : Nat) (cs rest : List Char)
    (gap : skipGaps (cs.length + 1) cs = ']' :: rest) : readItems (fuel + 1) depth cs = some ([], rest) := by
  rw [readItems, gap]
  rfl

theorem items_more (fuel depth : Nat) (cs begun : List Char) (item : Tree) (rest : List Char)
    (gap : skipGaps (cs.length + 1) cs = begun) (others : ∀ rest, begun = ']' :: rest → False)
    (read : readTree fuel depth begun = some (item, ',' :: rest))
    (behind : skipGaps ((',' :: rest).length + 1) (',' :: rest) = ',' :: rest) :
    readItems (fuel + 1) depth cs =
      (readItems fuel depth rest).map fun (items, rest) => (item :: items, rest) := by
  rw [readItems, gap]
  split
  · next rest => exact (others rest rfl).elim
  · rw [read]
    dsimp only
    rw [behind]
    rfl

theorem items_last (fuel depth : Nat) (cs : List Char) (item : Tree) (rest : List Char)
    (begun : Begun cs) (read : readTree fuel depth cs = some (item, ']' :: rest)) :
    readItems (fuel + 1) depth cs = some ([item], rest) := by
  rw [readItems, skip_gaps_begun _ cs begun]
  split
  · exact (begun_open _ begun _ rfl).elim
  · rw [read]
    dsimp only
    rw [skip_gaps_found _ (']' :: rest) ']' rest rfl (by decide) (by decide) (by decide)]
    rfl

theorem items_text_cons (item : Tree) (items : List Tree) :
    itemsText (item :: items) = "\n    ".toList ++ valueText item ++ [','] ++ itemsText items := rfl

theorem items_read (items : List Tree) (leaves : ∀ item ∈ items, Leaf item) (rest : List Char)
    (fuel depth : Nat) (enough : items.length < fuel) :
    readItems (fuel + 1) depth (itemsText items ++ '\n' :: ']' :: rest) = some (items, rest) := by
  induction items generalizing fuel with
  | nil =>
      have gap := skip_gaps_found (rest.length + 1) (']' :: rest) ']' rest rfl (by decide) (by decide)
        (by decide)
      exact items_done fuel depth _ rest gap
  | cons item items ih =>
      obtain ⟨leaf, others⟩ := List.forall_mem_cons.mp leaves
      obtain ⟨fuel, rfl⟩ := Nat.exists_eq_succ_of_ne_zero (Nat.ne_of_gt (Nat.zero_lt_of_lt enough))
      have later := ih others fuel (by simpa using enough)
      have text : itemsText (item :: items) ++ '\n' :: ']' :: rest =
          "\n    ".toList ++ (valueText item ++ ',' :: (itemsText items ++ '\n' :: ']' :: rest)) := by
        rw [items_text_cons]
        generalize "\n    ".toList = gap
        simp
      generalize itemsText items ++ '\n' :: ']' :: rest = more at text later
      have begun := leaf_begun item leaf (',' :: more)
      have read := leaf_read item leaf (',' :: more) (by simp [Ended]) fuel depth
      have gap := skip_gaps_found more.length.succ (',' :: more) ',' more rfl (by decide) (by decide)
        (by decide)
      rw [text, items_more fuel.succ depth _ _ item more (skip_gaps_item _ begun) (begun_open _ begun) read
        gap, later]
      rfl

inductive Flat : Tree → Prop where
  | leaf (tree : Tree) (leaf : Leaf tree) : Flat tree
  | list (items : List Tree) (leaves : ∀ item ∈ items, Leaf item) : Flat (.array items)

theorem items_length (items : List Tree) : items.length ≤ (itemsText items).length := by
  induction items with
  | nil => exact Nat.le_refl 0
  | cons item items ih =>
      simp only [items_text_cons, List.length_append, List.length_cons]
      omega

theorem flat_read (tree : Tree) (flat : Flat tree) (rest : List Char) (ended : Ended rest) (fuel : Nat)
    (enough : (valueText tree).length < fuel) :
    readTree (fuel + 1) depthLimit (valueText tree ++ rest) = some (tree, rest) := by
  cases flat with
  | leaf _ leaf => exact leaf_read tree leaf rest ended fuel depthLimit
  | list items leaves =>
      obtain ⟨fuel, rfl⟩ := Nat.exists_eq_succ_of_ne_zero (Nat.ne_of_gt (Nat.zero_lt_of_lt enough))
      have opens : ∀ cs, readTree (fuel + 2) depthLimit ('[' :: cs) =
          (readItems (fuel + 1) 79 cs).map fun (items, rest) => (.array items, rest) := fun cs => rfl
      cases items with
      | nil =>
          have gap := skip_gaps_found (rest.length + 1) (']' :: rest) ']' rest rfl (by decide) (by decide)
            (by decide)
          have done := items_done fuel 79 (']' :: rest) rest gap
          have text : valueText (.array []) ++ rest = '[' :: ']' :: rest := rfl
          rw [text, opens, done]
          rfl
      | cons item items =>
          obtain ⟨leaf, _⟩ := List.forall_mem_cons.mp leaves
          cases items with
          | nil =>
              have text : valueText (.array [item]) ++ rest = '[' :: (valueText item ++ ']' :: rest) := by
                simp [valueText]
              have long : 0 < fuel := by
                simp only [valueText, List.length_cons, List.length_append, List.length_nil] at enough
                omega
              obtain ⟨fuel, rfl⟩ := Nat.exists_eq_succ_of_ne_zero (Nat.ne_of_gt long)
              have read := leaf_read item leaf (']' :: rest) (by simp [Ended]) fuel 79
              rw [text, opens, items_last fuel.succ 79 _ item rest (leaf_begun item leaf _) read]
              rfl
          | cons other items =>
              have text : valueText (.array (item :: other :: items)) ++ rest =
                  '[' :: (itemsText (item :: other :: items) ++ '\n' :: ']' :: rest) := by
                simp [valueText]
              have long := items_length (item :: other :: items)
              have fits : (item :: other :: items).length < fuel := by
                have same := congrArg List.length text
                simp only [List.length_append, List.length_cons] at same enough
                omega
              rw [text, opens, items_read _ leaves rest fuel 79 fits]
              rfl

theorem value_read (tree : Tree) (flat : Flat tree) (rest : List Char) (ended : Ended rest) :
    readTree (2 * (valueText tree ++ rest).length + 2) depthLimit (valueText tree ++ rest) =
      some (tree, rest) := by
  refine flat_read tree flat rest ended _ ?_
  rw [List.length_append]
  omega

theorem bare_other (c d : Char) (bare : isBare c = true) (other : isBare d = false) : c ≠ d := by
  rintro rfl
  rw [bare] at other
  contradiction

theorem key_begun (key : String) (rest : List Char) :
    ∃ c more, keyText key ++ rest = c :: more ∧ (isBare c = true ∨ c = '"') := by
  rw [keyText]
  split
  · next plain =>
      simp only [Bool.and_eq_true, Bool.not_eq_true', List.isEmpty_eq_false_iff, List.all_eq_true] at plain
      obtain ⟨c, more, same⟩ := List.exists_cons_of_ne_nil plain.1
      refine ⟨c, more ++ rest, by rw [same]; rfl, .inl (plain.2 c ?_)⟩
      rw [same]
      exact List.mem_cons_self
  · exact ⟨'"', _, rfl, .inr rfl⟩

theorem part_read (key : String) (rest : List Char) (apart : ∀ c ∈ rest.head?, isBare c = false) :
    readPart (keyText key ++ rest) = some (key, rest) := by
  obtain ⟨cs, same⟩ : ∃ cs, key.toList = cs := ⟨_, rfl⟩
  have whole : key = String.ofList cs := by rw [← same, String.ofList_toList]
  rw [keyText, same]
  split
  · next plain =>
      simp only [Bool.and_eq_true, Bool.not_eq_true', List.isEmpty_eq_false_iff, List.all_eq_true] at plain
      obtain ⟨filled, bare⟩ := plain
      have taken : (cs ++ rest).takeWhile isBare = cs ∧ (cs ++ rest).dropWhile isBare = rest := by
        rw [List.takeWhile_append_of_pos bare, List.dropWhile_append_of_pos bare]
        cases rest with
        | nil => simp
        | cons c others => simp [apart c (by simp)]
      obtain ⟨c, more, opens⟩ := List.exists_cons_of_ne_nil filled
      have first : isBare c = true := bare c (by rw [opens]; exact List.mem_cons_self)
      rw [readPart]
      · dsimp only
        rw [taken.1, taken.2, if_neg (by simpa using filled), whole]
        rfl
      · intro _ quoted
        rw [opens] at quoted
        exact bare_other c '"' first rfl (List.cons.inj quoted).1
      · intro _ quoted
        rw [opens] at quoted
        exact bare_other c '\'' first rfl (List.cons.inj quoted).1
  · have read := read_quoted_escaped cs rest ((cs.flatMap escape ++ '"' :: rest).length + 1)
      (by rw [List.length_append]; omega)
    rw [List.append_assoc, List.cons_append, readPart, List.singleton_append, read, whole]
    rfl

theorem key_still (key : String) (rest : List Char) : skipSpaces (keyText key ++ rest) = keyText key ++ rest := by
  obtain ⟨c, more, opens, start⟩ := key_begun key rest
  have space : isSpace c = false := by
    obtain bare | rfl := start
    · have blank := bare_other c ' ' bare rfl
      have tab := bare_other c '\t' bare rfl
      simp [isSpace, blank, tab]
    · rfl
  rw [opens, skipSpaces, List.dropWhile_cons, space]
  rfl

theorem path_read (path : List String) (rest : List Char) (budget : Nat) (filled : path ≠ [])
    (short : path.length ≤ budget) (apart : ∀ c ∈ rest.head?, isBare c = false)
    (ends : ∀ more, skipSpaces rest = '.' :: more → False) :
    readParts budget (pathText path ++ rest) = some (path, skipSpaces rest) := by
  induction path generalizing budget with
  | nil => contradiction
  | cons key path ih =>
      obtain ⟨budget, rfl⟩ := Nat.exists_eq_succ_of_ne_zero (n := budget) (by
        rintro rfl
        simp at short)
      cases path with
      | nil =>
          have text : pathText [key] = keyText key := rfl
          rw [text, readParts, key_still, part_read key rest apart]
          dsimp only
          split
          · next more same => exact (ends more same).elim
          · rfl
      | cons next path =>
          have text : pathText (key :: next :: path) ++ rest =
              keyText key ++ '.' :: (pathText (next :: path) ++ rest) := by
            simp [pathText, joinWith]
          have later := ih budget (by simp) (by simpa using short)
          have dot : skipSpaces ('.' :: (pathText (next :: path) ++ rest)) =
              '.' :: (pathText (next :: path) ++ rest) := rfl
          rw [text, readParts, key_still, part_read key _ (by simp; rfl)]
          dsimp only
          rw [dot]
          exact congrArg (Option.map _) later

end Interlock.Toml
