import Interlock.Proofs.Formula.Rendering

/-!
Compiling the infix text of a compiled expression. The text derives the tree that it is the text of,
but an infinite number is spelled as a name and read as one.
-/

set_option autoImplicit false

namespace Interlock.Formula

open Interlock.Text (Settled Verbatim middle_verbatim continuesName)
open Interlock.Number (isDigit Positional signText)

theorem normalize_verbatim (text : String) (verbatim : ∀ c ∈ text.toList, Verbatim c) :
    normalize text = text := by
  rw [normalize, Text.lower_verbatim _ verbatim, String.ofList_toList]

theorem digit_verbatim (c : Char) (digit : isDigit c = true) : Verbatim c := by
  have code := Number.digit_code c digit
  exact middle_verbatim c (by omega) (by omega)

theorem operator_verbatim (c : Char) (operator : isOperator c = true) : Verbatim c := by
  simp only [isOperator, Bool.or_eq_true, beq_iff_eq] at operator
  rcases operator with ((rfl | rfl) | rfl) | rfl <;> exact middle_verbatim _ (by decide) (by decide)

theorem sign_verbatim (negative : Bool) : ∀ c ∈ signText negative, Verbatim c := by
  cases negative with
  | false => simp [signText]
  | true => exact List.forall_mem_singleton.mpr (middle_verbatim '-' (by decide) (by decide))

theorem positional_verbatim (cs : List Char) (decimal : Number.Decimal) (laid : Positional cs decimal) :
    ∀ c ∈ cs, Verbatim c := by
  cases laid with
  | whole _ digits _ => exact fun c member => digit_verbatim c (digits c member)
  | fraction ds fs digits _ behind =>
      refine List.forall_mem_append.mpr ⟨fun c member => digit_verbatim c (digits c member),
        List.forall_mem_cons.mpr ⟨middle_verbatim '.' (by decide) (by decide), ?_⟩⟩
      exact fun c member => digit_verbatim c (behind c member)

theorem name_verbatim (name : List Char) (named : Name name) (settled : ∀ c ∈ name, Settled c) :
    ∀ c ∈ name, Verbatim c := by
  refine fun c member => Text.name_verbatim c ?_ (settled c member)
  cases named with
  | letters first rest starts continued =>
      rcases List.mem_cons.mp member with rfl | later
      · simp only [Text.startsName, Bool.or_eq_true] at starts
        simp only [continuesName, Bool.or_eq_true]
        exact starts.imp_left .inl
      · exact continued c later

theorem number_verbatim (value : Float) (defined : Number.exact value ≠ .undefined) :
    ∀ c ∈ (Number.toPlainText value).toList, Verbatim c := by
  cases classified : Number.exact value with
  | finite negative quanta =>
      obtain ⟨cs, decimal, text, laid, _⟩ := Number.plain_text_finite value negative quanta classified
      rw [text]
      exact List.forall_mem_append.mpr ⟨sign_verbatim negative, positional_verbatim cs decimal laid⟩
  | infinite negative =>
      rw [Number.plain_text_infinite value negative classified]
      exact List.forall_mem_append.mpr ⟨sign_verbatim negative, Text.infinity_verbatim⟩
  | undefined => contradiction

theorem joined_verbatim (texts : List String) (each : ∀ text ∈ texts, ∀ c ∈ text.toList, Verbatim c) :
    ∀ c ∈ (String.intercalate "," texts).toList, Verbatim c := by
  induction texts with
  | nil => simp
  | cons text rest ih =>
      have front := each text (by simp)
      have behind := ih fun other member => each other (by simp [member])
      cases rest with
      | nil => simpa using front
      | cons next others =>
          rw [String.intercalate_cons_cons, String.toList_append, String.toList_append]
          exact List.forall_mem_append.mpr ⟨List.forall_mem_append.mpr ⟨front,
            List.forall_mem_singleton.mpr (middle_verbatim ',' (by decide) (by decide))⟩, behind⟩

theorem enclosed_verbatim (text : String) (verbatim : ∀ c ∈ text.toList, Verbatim c) :
    ∀ c ∈ ("(" ++ text ++ ")").toList, Verbatim c := by
  rw [String.toList_append, String.toList_append]
  exact List.forall_mem_append.mpr ⟨List.forall_mem_append.mpr
    ⟨List.forall_mem_singleton.mpr (middle_verbatim '(' (by decide) (by decide)), verbatim⟩,
    List.forall_mem_singleton.mpr (middle_verbatim ')' (by decide) (by decide))⟩

theorem text_verbatim (tree : Tree) (legible : tree.Legible) : ∀ c ∈ tree.text.toList, Verbatim c := by
  induction legible with
  | number value defined => exact number_verbatim value defined
  | parameter name named settled => exact name_verbatim _ named settled
  | combine symbol left right operator _ _ leftVerbatim rightVerbatim =>
      have middle : ∀ c ∈ (left.text ++ String.ofList [symbol] ++ right.text).toList, Verbatim c := by
        rw [String.toList_append, String.toList_append, String.toList_ofList]
        exact List.forall_mem_append.mpr ⟨List.forall_mem_append.mpr ⟨leftVerbatim,
          List.forall_mem_singleton.mpr (operator_verbatim symbol operator)⟩, rightVerbatim⟩
      rw [Tree.combine_text]
      simpa only [String.append_assoc] using enclosed_verbatim _ middle
  | call name operands named settled arity each eachVerbatim =>
      have inside := joined_verbatim (operands.map Tree.text) fun text member => by
        obtain ⟨operand, listed, rfl⟩ := List.mem_map.mp member
        exact eachVerbatim operand listed
      have whole := List.forall_mem_append.mpr
        ⟨name_verbatim _ named settled, enclosed_verbatim _ inside⟩
      rw [Tree.call_text]
      simpa only [String.toList_append, List.append_assoc] using whole

def Token.Infinite (token : Token) : Prop :=
  token.role = .number ∧ ∃ x negative, token.content = .number x ∧ Number.exact x = .infinite negative

namespace Tree

def rereadNumber (value : Float) : Tree :=
  match Number.exact value with
  | .infinite false => parameter "inf"
  | .infinite true => negated (parameter "inf")
  | _ => number value

mutual
def reread : Tree → Tree
  | .node token operands =>
      match token.role, token.content with
      | .number, .number value => rereadNumber value
      | _, _ => .node token (rereads operands)

def rereads : List Tree → List Tree
  | [] => []
  | tree :: rest => reread tree :: rereads rest
end

theorem rereads_map (trees : List Tree) : rereads trees = trees.map reread := by
  induction trees with
  | nil => rfl
  | cons tree rest ih => rw [rereads, ih, List.map_cons]

theorem combine_reread (symbol : Char) (left right : Tree) :
    (combine symbol left right).reread = combine symbol left.reread right.reread := rfl

theorem call_reread (name : String) (operands : List Tree) :
    (call name operands).reread = call name (operands.map reread) := by
  rw [call, call, reread, rereads_map, List.length_map]
  rfl

end Tree

theorem positional_numeral (cs : List Char) (decimal : Number.Decimal) (laid : Positional cs decimal) :
    Numeral cs := by
  cases laid with
  | whole _ digits filled =>
      obtain ⟨c, member⟩ := List.exists_mem_of_ne_nil cs filled
      have numeral := Numeral.parts cs [] [] digits .absent .absent ⟨c, by simpa using member, digits c member⟩
      simpa using numeral
  | fraction ds fs digits filled behind =>
      obtain ⟨c, member⟩ := List.exists_mem_of_ne_nil ds filled
      have numeral := Numeral.parts ds ('.' :: fs) [] digits (.present fs behind) .absent
        ⟨c, by simp [member], digits c member⟩
      simpa using numeral

theorem positional_value (cs : List Char) (decimal : Number.Decimal) (laid : Positional cs decimal) :
    valueOf cs = decimal.toFloat false ∧ valueOf ('-' :: cs) = decimal.toFloat true := by
  have read := Number.positional_read cs decimal laid
  obtain ⟨c, rest, rfl, starts⟩ := numeral_head cs (positional_numeral cs decimal laid)
  rw [valueOf, valueOf, read_of_decimal false _ _ decimal (split_sign_number c rest starts) read,
    read_of_decimal true ('-' :: c :: rest) _ decimal rfl read]
  exact ⟨rfl, rfl⟩

theorem infinity_operand : Operand ['i', 'n', 'f'] (.parameter "inf") :=
  .primary _ _ (.parameter ['i', 'n', 'f']
    (.letters 'i' ['n', 'f'] rfl (List.forall_mem_cons.mpr ⟨rfl, List.forall_mem_singleton.mpr rfl⟩)))

theorem number_operand (value : Float) (defined : Number.exact value ≠ .undefined) :
    Operand (Number.toPlainText value).toList (Tree.rereadNumber value) := by
  cases classified : Number.exact value with
  | finite negative quanta =>
      obtain ⟨cs, decimal, text, laid, same⟩ := Number.plain_text_finite value negative quanta classified
      obtain ⟨positive, minus⟩ := positional_value cs decimal laid
      have numeral := positional_numeral cs decimal laid
      have kept : Tree.rereadNumber value = .number value := by
        rw [Tree.rereadNumber, classified]
      rw [text, kept, ← same]
      refine .primary _ _ ?_
      cases negative with
      | false => exact positive ▸ .number cs numeral
      | true => exact minus ▸ .negative cs numeral
  | infinite negative =>
      rw [Number.plain_text_infinite value negative classified, Tree.rereadNumber, classified]
      cases negative with
      | false => exact infinity_operand
      | true => exact .minus _ _ rfl infinity_operand
  | undefined => contradiction

theorem operand_expression (text : List Char) (tree : Tree) (operand : Operand text tree) :
    Expression text tree := by
  have whole := Expression.chain text [] tree [] operand .done
  rwa [List.append_nil] at whole

theorem assemble_pair (symbol : Char) (left right : Tree) :
    assemble left [(symbol, right)] = .combine symbol left right := by
  unfold assemble
  rw [joinFactors]
  split <;> rfl

theorem combine_expression (symbol : Char) (left right : List Char) (first second : Tree)
    (operator : isOperator symbol = true) (leading : Operand left first) (behind : Operand right second) :
    Expression (left ++ symbol :: right) (.combine symbol first second) := by
  have trailing := Continuation.more symbol right [] second [] operator behind .done
  have whole := Expression.chain left _ first _ leading trailing
  rwa [assemble_pair, List.append_nil] at whole

theorem joined_fields (operand : Tree) (others : List Tree)
    (each : ∀ tree ∈ operand :: others, Operand tree.text.toList tree.reread) :
    Fields (String.intercalate "," ((operand :: others).map Tree.text)).toList
      ((operand :: others).map Tree.reread) := by
  induction others generalizing operand with
  | nil =>
      have only := operand_expression _ _ (each operand (by simp))
      simpa using Fields.last _ _ only
  | cons next rest ih =>
      have first := operand_expression _ _ (each operand (by simp))
      have others := ih next fun tree member => each tree (by simp [member])
      simpa using Fields.more _ _ _ _ first others

theorem text_operand (tree : Tree) (legible : tree.Legible) : Operand tree.text.toList tree.reread := by
  induction legible with
  | number value defined => exact number_operand value defined
  | parameter name named settled =>
      have whole := Primary.parameter _ named
      rw [String.ofList_toList] at whole
      exact .primary _ _ whole
  | combine symbol left right operator _ _ leading behind =>
      have whole := Primary.group _ _ (combine_expression symbol _ _ _ _ operator leading behind)
      rw [Tree.combine_text, Tree.combine_reread]
      simpa using Operand.primary _ _ whole
  | call name operands named settled arity each eachOperand =>
      have arguments : Arguments (String.intercalate "," (operands.map Tree.text)).toList
          (operands.map Tree.reread) := by
        cases operands with
        | nil => exact .none
        | cons operand others => exact .some _ _ (joined_fields operand others eachOperand)
      have whole := Primary.call _ _ _ named arguments (by rw [String.ofList_toList, arity, List.length_map])
      rw [Tree.call_text, Tree.call_reread]
      rw [String.ofList_toList] at whole
      simpa using Operand.primary _ _ whole

theorem text_compiles (tree : Tree) (legible : tree.Legible) :
    compileArithmetic tree.text = .ok tree.reread.postorder := by
  refine derived_compiles tree.text tree.reread ?_
  rw [normalize_verbatim _ (text_verbatim tree legible)]
  exact operand_expression _ _ (text_operand tree legible)

def Stream.nameCount (stream : Stream) : Nat := stream.countP fun token => token.role = .parameter

theorem agrees_name_count (first second : Stream) (agree : first.agrees second = true) :
    first.nameCount = second.nameCount := by
  induction first generalizing second with
  | nil =>
      cases second with
      | nil => rfl
      | cons => simp [Stream.agrees] at agree
  | cons a rest ih =>
      cases second with
      | nil => simp [Stream.agrees] at agree
      | cons b others =>
          simp only [Stream.agrees, Token.agrees, Bool.and_eq_true, beq_iff_eq] at agree
          obtain ⟨⟨⟨⟨_, role⟩, _⟩, _⟩, later⟩ := agree
          have counts := ih others later
          simp only [Stream.nameCount, List.countP_cons, role] at counts ⊢
          omega

theorem agrees_self (stream : Stream) (each : ∀ token ∈ stream, token.agrees token = true) :
    stream.agrees stream = true := by
  induction stream with
  | nil => rfl
  | cons token rest ih =>
      obtain ⟨first, later⟩ := List.forall_mem_cons.mp each
      simp only [Stream.agrees, first, ih later, Bool.and_self]

theorem postorders_fit (fits : Token → Prop) (trees : List Tree)
    (each : ∀ tree ∈ trees, ∀ token ∈ tree.postorder, fits token) :
    ∀ token ∈ Tree.postorders trees, fits token := by
  induction trees with
  | nil => simp [Tree.postorders]
  | cons tree rest ih =>
      rw [Tree.postorders]
      exact List.forall_mem_append.mpr
        ⟨each tree (by simp), ih fun other member => each other (by simp [member])⟩

theorem legible_agrees (tree : Tree) (legible : tree.Legible) :
    ∀ token ∈ tree.postorder, token.agrees token = true := by
  induction legible with
  | number value defined =>
      refine List.forall_mem_singleton.mpr ?_
      simp [Token.agrees, Token.number, Content.agrees, Number.defined_equal value defined]
  | parameter name =>
      have zero : ((0 : Float) == 0) = true := Number.defined_equal 0 (by decide +kernel)
      refine List.forall_mem_singleton.mpr ?_
      simp [Token.agrees, Token.parameter, Content.agrees, zero]
  | combine symbol left right _ _ _ leftAgrees rightAgrees =>
      have each : ∀ operand ∈ [left, right], ∀ token ∈ operand.postorder, token.agrees token = true :=
        List.forall_mem_cons.mpr ⟨leftAgrees, List.forall_mem_singleton.mpr rightAgrees⟩
      refine List.forall_mem_append.mpr ⟨postorders_fit _ _ each, List.forall_mem_singleton.mpr ?_⟩
      simp [Token.agrees, Token.operator, Content.agrees]
  | call name operands _ _ _ _ each =>
      refine List.forall_mem_append.mpr ⟨postorders_fit _ _ each, List.forall_mem_singleton.mpr ?_⟩
      simp [Token.agrees, Token.call, Content.agrees]

-- A stream and what its text is read as. An infinite number adds a name, and nothing takes one away.
inductive Respelled (before after : Stream) : Prop where
  | kept (finite : ∀ token ∈ before, ¬ token.Infinite) (same : after = before)
  | renamed (infinite : ∃ token ∈ before, token.Infinite) (more : before.nameCount < after.nameCount)

theorem name_count_append (first second : Stream) :
    Stream.nameCount (first ++ second) = first.nameCount + second.nameCount := List.countP_append

theorem respelled_append (first firstAfter second secondAfter : Stream)
    (front : Respelled first firstAfter) (behind : Respelled second secondAfter) :
    Respelled (first ++ second) (firstAfter ++ secondAfter) := by
  rcases front with ⟨frontFinite, rfl⟩ | ⟨⟨token, member, infinite⟩, frontMore⟩
  · rcases behind with ⟨finite, rfl⟩ | ⟨⟨token, member, infinite⟩, more⟩
    · exact .kept (List.forall_mem_append.mpr ⟨frontFinite, finite⟩) rfl
    · refine .renamed ⟨token, by simp [member], infinite⟩ ?_
      rw [name_count_append, name_count_append]
      omega
  · refine .renamed ⟨token, by simp [member], infinite⟩ ?_
    rw [name_count_append, name_count_append]
    rcases behind with ⟨_, rfl⟩ | ⟨_, more⟩ <;> omega

theorem respelled_token (token : Token) (finite : ¬ token.Infinite) : Respelled [token] [token] :=
  .kept (List.forall_mem_singleton.mpr finite) rfl

theorem respelled_operands (operands : List Tree)
    (each : ∀ operand ∈ operands, Respelled operand.postorder operand.reread.postorder) :
    Respelled (Tree.postorders operands) (Tree.postorders (operands.map Tree.reread)) := by
  induction operands with
  | nil => exact .kept (by simp [Tree.postorders]) rfl
  | cons operand others ih =>
      exact respelled_append _ _ _ _ (each operand (by simp))
        (ih fun other member => each other (by simp [member]))

theorem number_respelled (value : Float) :
    Respelled [.number value] (Tree.rereadNumber value).postorder := by
  have finite_kept (finite : ∀ negative, Number.exact value ≠ .infinite negative)
      (kept : Tree.rereadNumber value = .number value) :
      Respelled [.number value] (Tree.rereadNumber value).postorder := by
    rw [kept]
    refine respelled_token _ ?_
    rintro ⟨_, other, negative, same, infinite⟩
    obtain rfl := Content.number.inj same
    exact finite negative infinite
  cases classified : Number.exact value with
  | finite negative quanta => exact finite_kept (by simp [classified]) (by rw [Tree.rereadNumber, classified])
  | undefined => exact finite_kept (by simp [classified]) (by rw [Tree.rereadNumber, classified])
  | infinite negative =>
      refine .renamed ⟨_, List.mem_singleton.mpr rfl, rfl, value, negative, rfl, classified⟩ ?_
      rw [Tree.rereadNumber, classified]
      cases negative <;> exact Nat.zero_lt_one

theorem legible_respelled (tree : Tree) (legible : tree.Legible) :
    Respelled tree.postorder tree.reread.postorder := by
  induction legible with
  | number value _ => exact number_respelled value
  | parameter name => exact respelled_token _ (by rintro ⟨number, _⟩; contradiction)
  | combine symbol left right _ _ _ leftSpelled rightSpelled =>
      have each : ∀ operand ∈ [left, right], Respelled operand.postorder operand.reread.postorder :=
        List.forall_mem_cons.mpr ⟨leftSpelled, List.forall_mem_singleton.mpr rightSpelled⟩
      exact respelled_append _ _ _ _ (respelled_operands _ each)
        (respelled_token (.operator symbol) (by rintro ⟨number, _⟩; contradiction))
  | call name operands _ _ _ _ each =>
      rw [Tree.call_reread, Tree.call, Tree.call, List.length_map]
      exact respelled_append _ _ _ _ (respelled_operands _ each)
        (respelled_token (.call name operands.length) (by rintro ⟨number, _⟩; contradiction))

theorem infix_recompiles (expression : String) (stream : Stream)
    (ok : compileArithmetic expression = .ok stream) :
    ∃ again, compileArithmetic stream.toInfix = .ok again ∧
      (again.agrees stream = true ↔ ∀ token ∈ stream, ¬ token.Infinite) := by
  obtain ⟨tree, derived⟩ := compile_derived expression stream ok
  have legible := compiled_legible expression tree derived
  rw [derived_compiles expression tree derived] at ok
  obtain rfl := Except.ok.inj ok
  refine ⟨tree.reread.postorder, ?_, ?_⟩
  · rw [Stream.to_infix_postorder tree legible]
    exact text_compiles tree legible
  · rcases legible_respelled tree legible with ⟨finite, same⟩ | ⟨⟨token, member, infinite⟩, more⟩
    · rw [same]
      exact ⟨fun _ => finite, fun _ => agrees_self _ (legible_agrees tree legible)⟩
    · refine ⟨fun agree => ?_, fun finite => absurd infinite (finite token member)⟩
      have counts := agrees_name_count _ _ agree
      omega

-- A sign of its own, a call without arguments and a literal past the largest number.
theorem overflowing_infix_recompiles :
    ∃ stream again, compileArithmetic "-2*Pow(-x,.5)+pi()-1e999" = .ok stream ∧
      compileArithmetic stream.toInfix = .ok again ∧ again.agrees stream = false := by
  have overflows : (compileArithmetic "-2*Pow(-x,.5)+pi()-1e999").toOption.any (fun stream =>
      stream.contains (.number (Number.infinity false))) = true := by decide +kernel
  cases compiled : compileArithmetic "-2*Pow(-x,.5)+pi()-1e999" with
  | error error =>
      rw [compiled] at overflows
      contradiction
  | ok stream =>
      rw [compiled] at overflows
      have member : Token.number (Number.infinity false) ∈ stream := List.contains_iff_mem.mp overflows
      obtain ⟨again, recompiled, agreement⟩ := infix_recompiles _ stream compiled
      refine ⟨stream, again, rfl, recompiled, Bool.eq_false_iff.mpr fun agree => ?_⟩
      refine agreement.mp agree _ member ⟨rfl, _, false, rfl, ?_⟩
      decide +kernel

end Interlock.Formula
