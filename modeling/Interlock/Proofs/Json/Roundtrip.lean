import Interlock.Proofs.Json.Numeral

/-!
What the writer of JSON texts writes, the reader reads: the same document, with the literal of each finite number
and with nothing for the others.
-/

set_option autoImplicit false

namespace Interlock.Json

open Interlock.Number (digits isDigit)

-- Characters without a letter of their own for an escape are written by their numbers.
inductive Stands : Piece → Char → Prop where
  | char (c : Char) : Stands (.char c) c
  | control (c : Char) (small : c.toNat < 32) : Stands (.codeUnit c.toNat) c

theorem hex_digits (n : Nat) (small : n < 32) (rest : List Char) :
    Number.takeDigits 16 4 ('0' :: '0' :: hexDigit (n / 16) :: hexDigit (n % 16) :: rest) = some (n, rest) := by
  have each : ∀ n < 32, (['0', '0', hexDigit (n / 16), hexDigit (n % 16)].all (Number.isDigitOf 16)) = true ∧
      Number.ofDigitsIn 16 ['0', '0', hexDigit (n / 16), hexDigit (n % 16)] = n := by decide
  obtain ⟨digits, value⟩ := each n small
  rw [Number.takeDigits]
  simp only [List.take_succ_cons, List.take_zero, List.drop_succ_cons, List.drop_zero, List.length_cons,
    List.length_nil, digits, value, and_self, if_true]

theorem read_escaped (c : Char) : ∃ piece, Stands piece c ∧ ∀ fuel rest gathered,
    readPieces (fuel + 1) (escapeChar c ++ rest) gathered = readPieces fuel rest (piece :: gathered) := by
  have coded : ∀ n, c.toNat = n → c = Char.ofNat n := by
    rintro n rfl
    exact (Char.ofNat_toNat c).symm
  unfold escapeChar
  split
  · next quote => exact ⟨.char c, .char c, by simp [quote, readPieces, escaped]⟩
  split
  · next slash => exact ⟨.char c, .char c, by simp [slash, readPieces, escaped]⟩
  split
  · next newline => exact ⟨.char c, .char c, by simp [newline, readPieces, escaped]⟩
  split
  · next back => exact ⟨.char c, .char c, by simp [back, readPieces, escaped]⟩
  split
  · next tab => exact ⟨.char c, .char c, by simp [tab, readPieces, escaped]⟩
  split
  · next eight => exact ⟨.char c, .char c, by simp [coded 8 eight, readPieces, escaped]⟩
  split
  · next twelve => exact ⟨.char c, .char c, by simp [coded 12 twelve, readPieces, escaped]⟩
  split
  · next small =>
    exact ⟨.codeUnit c.toNat, .control c small, fun fuel rest gathered => by simp [readPieces, hex_digits _ small]⟩
  · next quote slash _ _ _ _ _ large =>
    exact ⟨.char c, .char c, fun fuel rest gathered => by simp [readPieces, quote, slash, large]⟩

theorem read_pieces (content rest : List Char) (fuel : Nat) (gathered : List Piece)
    (enough : content.length < fuel) : ∃ pieces, List.Forall₂ Stands pieces content ∧
      readPieces fuel (content.flatMap escapeChar ++ '"' :: rest) gathered =
        some (gathered.reverse ++ pieces, rest) := by
  induction content generalizing fuel gathered with
  | nil =>
      obtain ⟨fuel, rfl⟩ := Nat.exists_eq_add_one_of_ne_zero (Nat.ne_of_gt (Nat.lt_of_le_of_lt (Nat.zero_le _) enough))
      exact ⟨[], .nil, by simp [readPieces]⟩
  | cons c content ih =>
      obtain ⟨fuel, rfl⟩ := Nat.exists_eq_add_one_of_ne_zero (Nat.ne_of_gt (Nat.lt_of_le_of_lt (Nat.zero_le _) enough))
      obtain ⟨piece, stands, read⟩ := read_escaped c
      obtain ⟨pieces, all, reads⟩ := ih fuel (piece :: gathered) (by simpa using enough)
      refine ⟨piece :: pieces, .cons stands all, ?_⟩
      rw [List.flatMap_cons, List.append_assoc, read, reads, List.reverse_cons, List.append_assoc]
      rfl

theorem join_pieces (content : List Char) (pieces : List Piece) (all : List.Forall₂ Stands pieces content) :
    joinPieces pieces = some content := by
  induction all with
  | nil => rfl
  | @cons _ c _ _ stands all ih =>
      cases stands with
      | char => rw [joinPieces, ih, Option.map_some]
      | control _ small =>
          have high : isHigh c.toNat = false := by simp [isHigh]; omega
          have low : isLow c.toNat = false := by simp [isLow]; omega
          have single : Char.ofNat c.toNat = c := Char.ofNat_toNat c
          cases all with
          | nil => simp [joinPieces, high, low, single]
          | cons next all =>
              cases next with
              | char d => simpa [joinPieces, high, low, single] using ih
              | control d _ => simp [joinPieces, high, low, single, ih]

theorem escaped_longer (content : List Char) : content.length ≤ (content.flatMap escapeChar).length := by
  have some : ∀ c, 0 < (escapeChar c).length := by
    intro c
    unfold escapeChar
    repeat' split
    all_goals simp
  induction content with
  | nil => exact Nat.le_refl _
  | cons c content ih =>
      have first := some c
      rw [List.flatMap_cons, List.length_append, List.length_cons]
      omega

theorem read_quoted (content : String) (rest : List Char) :
    readString (content.toList.flatMap escapeChar ++ '"' :: rest) = some (some content, rest) := by
  have longer := escaped_longer content.toList
  obtain ⟨pieces, all, reads⟩ := read_pieces content.toList rest
    ((content.toList.flatMap escapeChar ++ '"' :: rest).length + 1) [] (by rw [List.length_append]; omega)
  rw [readString, reads, List.reverse_nil, List.nil_append, Option.map_some]
  dsimp only
  rw [join_pieces _ _ all, Option.map_some, String.ofList_toList]

theorem repr_digits (n : Nat) : n.repr.toList = digits n := by
  rw [Nat.toList_repr]
  have single : ∀ n < 10, n.digitChar = Number.digitChar n := by decide
  induction n using Nat.strongRecOn with
  | ind n ih =>
    rw [digits]
    split
    · next small => rw [Nat.toDigits_of_lt_base small, single n small]
    · have last : n % 10 < 10 := Nat.mod_lt n (by decide)
      have parts : n = 10 * (n / 10) + n % 10 := (Nat.div_add_mod n 10).symm
      rw [← ih (n / 10) (by omega), ← single _ last, ← Nat.toDigits_of_lt_base (b := 10) last,
        Nat.toDigits_append_toDigits (by decide) (by omega) last, ← parts]

def Literal.ofCount (n : Nat) : Literal := ⟨false, digits n, [], none⟩

theorem count_proper (n : Nat) : (Literal.ofCount n).Proper :=
  ⟨Number.digits_are_digits n, Number.digits_filled n, Number.digits_canonical n, by simp [Literal.ofCount]⟩

def ofNumber (x : Float) : Document :=
  match Number.exact x with
  | .finite negative quanta => .number (Literal.ofQuanta negative quanta)
  | .infinite _ | .undefined => .null

theorem number_text (x : Float) :
    (∃ literal, Literal.Proper literal ∧ ofNumber x = .number literal ∧ (numberText x).toList = literal.spelling) ∨
      ofNumber x = .null ∧ numberText x = "null" := by
  rw [ofNumber, numberText, Number.toMarkedText]
  cases Number.exact x with
  | finite negative quanta =>
      refine .inl ⟨Literal.ofQuanta negative quanta, of_decimal_proper _ _, rfl, ?_⟩
      rw [Option.getD_some, String.toList_ofList, Literal.ofQuanta, of_decimal_spelling]
  | infinite | undefined => exact .inr ⟨rfl, rfl⟩

theorem skip_solid (c : Char) (rest : List Char) (solid : isSpace c = false) : skipSpaces (c :: rest) = c :: rest :=
  List.dropWhile_cons_of_neg (by simp [solid])

mutual

def Tree.document : Tree → Document
  | .null => .null
  | .bool b => .bool b
  | .count n => .number (Literal.ofCount n)
  | .number x => ofNumber x
  | .text content => .text (some content)
  | .object members => .object (documents members)

def documents : List (String × Tree) → List (Option String × Document)
  | [] => []
  | (name, member) :: rest => (some name, member.document) :: documents rest

end

section

variable (fuel : Nat) (rest : List Char)

theorem read_literal (literal : Literal) (proper : literal.Proper) (closes : Closes rest) :
    readDocument (fuel + 1) (literal.spelling ++ rest) = some (.number literal, rest) := by
  have read := read_spelling literal rest proper closes
  have head : ∃ c others, literal.spelling = c :: others ∧ (isDigit c = true ∨ c = '-') := by
    obtain ⟨d, ds, whole⟩ := List.exists_cons_of_ne_nil proper.filled
    cases negative : literal.negative with
    | true => exact ⟨'-', _, by rw [Literal.spelling, negative]; rfl, .inr rfl⟩
    | false =>
        refine ⟨d, _, by rw [Literal.spelling, negative, whole]; rfl, .inl (proper.whole d ?_)⟩
        rw [whole]
        exact List.mem_cons_self
  obtain ⟨c, others, split, opens⟩ := head
  rw [split] at read ⊢
  rw [List.cons_append] at read ⊢
  have apart : ∀ d, isDigit d = false → d ≠ '-' → c ≠ d := by
    rintro d other sign rfl
    rcases opens with digit | rfl
    · rw [digit] at other
      contradiction
    · exact sign rfl
  have solid : isSpace c = false := by
    simp only [isSpace, beq_eq_false_iff_ne.mpr (apart ' ' rfl (by decide)),
      beq_eq_false_iff_ne.mpr (apart '\t' rfl (by decide)), beq_eq_false_iff_ne.mpr (apart '\n' rfl (by decide)),
      beq_eq_false_iff_ne.mpr (apart '\r' rfl (by decide)), Bool.or_self]
  rw [readDocument, skip_solid c _ solid]
  dsimp only
  rw [if_neg (apart '"' rfl (by decide)), if_neg (apart '[' rfl (by decide)), if_neg (apart '\x7b' rfl (by decide)),
    if_neg (apart 'n' rfl (by decide)), if_neg (apart 't' rfl (by decide)), if_neg (apart 'f' rfl (by decide)), read,
    Option.map_some]

theorem quote_text (content : String) :
    (quote content).toList ++ rest = '"' :: (content.toList.flatMap escapeChar ++ '"' :: rest) := by
  rw [quote, String.toList_ofList, List.append_assoc]
  rfl

theorem read_text (content : String) :
    readDocument (fuel + 1) ((quote content).toList ++ rest) = some (.text (some content), rest) := by
  rw [quote_text, readDocument, skip_solid '"' _ rfl]
  dsimp only
  rw [if_pos rfl, read_quoted, Option.map_some]

theorem read_object (after : List Char) : readDocument (fuel + 1) ('\x7b' :: '"' :: after) =
    (readMembers fuel ('"' :: after)).map fun (members, rest) => (.object members, rest) := by
  rw [readDocument, skip_solid '\x7b' _ rfl]
  dsimp only
  rw [if_neg (by decide), if_neg (by decide), if_pos rfl, skip_solid '"' _ rfl]
  rfl

theorem read_member (name : String) (after : List Char) :
    readMembers (fuel + 1) ((quote name).toList ++ ':' :: after) =
      match readDocument fuel after with
      | none => none
      | some (member, rest) =>
          match skipSpaces rest with
          | '\x7d' :: rest => some ([(some name, member)], rest)
          | ',' :: rest => (readMembers fuel rest).map fun (members, rest) => ((some name, member) :: members, rest)
          | _ => none := by
  rw [quote_text, readMembers, skip_solid '"' _ rfl]
  split
  · next rest same =>
    obtain ⟨_, rfl⟩ := List.cons.inj same
    rw [read_quoted]
    dsimp only
    rw [skip_solid ':' _ rfl]
    split
    · next rest same =>
      obtain ⟨_, rfl⟩ := List.cons.inj same
      rfl
    · next other => exact absurd rfl (other after)
  · next other => exact absurd rfl (other _)

end

theorem closes_mark (c : Char) (rest : List Char) (mark : c = ',' ∨ c = '\x7d') : Closes (c :: rest) := by
  rintro d ⟨rfl⟩
  rcases mark with rfl | rfl
  · decide
  · decide

theorem object_text (members : List (String × Tree)) :
    (Tree.object members).render.toList = '\x7b' :: ((renderMembers members).toList ++ ['\x7d']) := by
  rw [Tree.render, String.toList_append, String.toList_append]
  rfl

theorem last_text (name : String) (member : Tree) :
    (renderMembers [(name, member)]).toList = (quote name).toList ++ ':' :: member.render.toList := by
  rw [renderMembers, String.toList_append, String.toList_append, List.append_assoc]
  rfl

theorem member_text (name : String) (member : Tree) (next : String × Tree) (others : List (String × Tree)) :
    (renderMembers ((name, member) :: next :: others)).toList =
      (quote name).toList ++ ':' :: (member.render.toList ++ ',' :: (renderMembers (next :: others)).toList) := by
  rw [renderMembers, String.toList_append, String.toList_append, String.toList_append, String.toList_append,
    List.append_assoc, List.append_assoc, List.append_assoc]
  · rfl
  · simp

theorem members_open (name : String) (member : Tree) (others : List (String × Tree)) :
    ∃ after, (renderMembers ((name, member) :: others)).toList = '"' :: after := by
  cases others with
  | nil => exact ⟨_, (last_text name member).trans (quote_text _ name)⟩
  | cons next others => exact ⟨_, (member_text name member next others).trans (quote_text _ name)⟩

theorem count_text (n : Nat) : n.repr.toList = (Literal.ofCount n).spelling := by
  rw [repr_digits]
  simp [Literal.spelling, Literal.ofCount, Number.signText, fractionText, powerText]

-- Fuel that outlasts a text is enough to read it. What follows a member begins with a mark.
structure Reads (fuel : Nat) : Prop where
  tree : ∀ (tree : Tree) rest, Closes rest → tree.render.toList.length < fuel →
    readDocument fuel (tree.render.toList ++ rest) = some (tree.document, rest)
  members : ∀ name member others rest, (renderMembers ((name, member) :: others)).toList.length < fuel →
    readMembers fuel ((renderMembers ((name, member) :: others)).toList ++ '\x7d' :: rest) =
      some (documents ((name, member) :: others), rest)

section

variable (fuel : Nat) (inner : Reads fuel) (rest : List Char)

include inner

theorem reads_tree (tree : Tree) (closes : Closes rest) (enough : tree.render.toList.length < fuel + 1) :
    readDocument (fuel + 1) (tree.render.toList ++ rest) = some (tree.document, rest) := by
  cases tree with
  | null => rfl
  | bool b => cases b <;> rfl
  | count n =>
      rw [Tree.render, count_text]
      exact read_literal fuel rest _ (count_proper n) closes
  | number x =>
      rw [Tree.render, Tree.document]
      rcases number_text x with ⟨literal, proper, same, text⟩ | ⟨same, text⟩
      · rw [same, text]
        exact read_literal fuel rest literal proper closes
      · rw [same, text]
        rfl
  | text content => exact read_text fuel rest content
  | object members =>
      have text := object_text members
      rw [text, List.length_cons, List.length_append, List.length_singleton] at enough
      rw [text, List.cons_append, List.append_assoc, Tree.document]
      cases members with
      | nil => rfl
      | cons first others =>
          obtain ⟨name, member⟩ := first
          have read := inner.members name member others rest (by omega)
          obtain ⟨after, opens⟩ := members_open name member others
          rw [opens, List.cons_append] at read ⊢
          rw [read_object, List.singleton_append, read, Option.map_some]

theorem reads_members (name : String) (member : Tree) (others : List (String × Tree))
    (enough : (renderMembers ((name, member) :: others)).toList.length < fuel + 1) :
    readMembers (fuel + 1) ((renderMembers ((name, member) :: others)).toList ++ '\x7d' :: rest) =
      some (documents ((name, member) :: others), rest) := by
  cases others with
  | nil =>
      rw [last_text, List.length_append, List.length_cons] at enough
      rw [last_text, List.append_assoc, List.cons_append, read_member,
        inner.tree member _ (closes_mark _ _ (.inr rfl)) (by omega)]
      rfl
  | cons next others =>
      obtain ⟨following, subject⟩ := next
      rw [member_text, List.length_append, List.length_cons, List.length_append, List.length_cons] at enough
      have reads := inner.members following subject others rest (by omega)
      rw [member_text, List.append_assoc, List.cons_append, List.append_assoc, List.cons_append, read_member,
        inner.tree member _ (closes_mark _ _ (.inl rfl)) (by omega)]
      dsimp only
      rw [skip_solid ',' _ rfl]
      exact congrArg (Option.map fun found => ((some name, member.document) :: found.1, found.2)) reads

end

theorem reads_all (fuel : Nat) : Reads fuel := by
  induction fuel with
  | zero =>
      exact ⟨fun _ _ _ none => absurd none (Nat.not_lt_zero _), fun _ _ _ _ none => absurd none (Nat.not_lt_zero _)⟩
  | succ fuel ih =>
      exact ⟨fun tree rest => reads_tree fuel ih rest tree,
        fun name member others rest => reads_members fuel ih rest name member others⟩

theorem read_render (tree : Tree) : Document.read tree.render = some tree.document := by
  have read := (reads_all (2 * tree.render.toList.length + 2)).tree tree [] (fun _ none => nomatch none) (by omega)
  rw [List.append_nil] at read
  rw [Document.read, read]
  rfl

end Interlock.Json
