import Interlock.Plant.Desk
import Interlock.Proofs.Value.Order

/-!
Comparisons seen from the other side. With its operands exchanged and its symbol turned round, a
comparison binds when it did before, says the same of every state, and fails with the same fault.
-/

set_option autoImplicit false

namespace Interlock

open Interlock.Calendar (Instant)
open Interlock.Text (stripBlanks)

namespace Comparator

def mirror : Comparator → Comparator
  | equal => equal
  | notEqual => notEqual
  | greater => less
  | greaterOrEqual => lessOrEqual
  | less => greater
  | lessOrEqual => greaterOrEqual

theorem test_mirror (comparator : Comparator) (ordering : Option Ordering) :
    comparator.mirror.test (ordering.map Ordering.swap) = comparator.test ordering := by
  cases comparator <;> rcases ordering with _ | (_ | _ | _) <;> rfl

def symbols : List String := ["=", "==", "!=", ">", ">=", "<", "<="]

theorem symbol_listed {symbol : String} {comparator : Comparator}
    (read : ofSymbol? symbol = some comparator) : symbol ∈ symbols := by
  by_contra unlisted
  simp only [symbols, List.mem_cons, List.not_mem_nil, or_false, not_or] at unlisted
  simp [ofSymbol?, unlisted] at read

theorem symbols_relate : ∀ symbol ∈ symbols, symbol.toList ≠ [] ∧
    ∀ c ∈ symbol.toList, Graph.isRelationChar c = true ∧ Text.isBlank c = false := by
  have each : ∀ symbol ∈ symbols, symbol.toList ≠ [] ∧
      (symbol.toList.all fun c => Graph.isRelationChar c && !Text.isBlank c) = true := by decide
  simpa [List.all_eq_true] using each

end Comparator

namespace Graph

namespace Relation

def mirror (relation : Relation) : Relation :=
  ⟨relation.right, relation.comparator.mirror, relation.left⟩

theorem sample_mirror (relation : Relation) (valueOf : VariableId → Option Value) :
    relation.mirror.sample valueOf = relation.sample valueOf := by
  rw [sample, sample, ← Comparator.test_mirror relation.comparator]
  refine congrArg relation.comparator.mirror.test ?_
  simp only [mirror]
  cases relation.left.value? valueOf with
  | none => cases relation.right.value? valueOf <;> rfl
  | some left =>
    cases relation.right.value? valueOf with
    | none => rfl
    | some right => exact Value.compare_swap left right

end Relation

-- The same fault, found from the other side. Each one names its own text.
inductive Opposed (comparison counterpart : String) : BindingError → BindingError → Prop where
  | noVariable : Opposed comparison counterpart (.noVariable comparison) (.noVariable counterpart)
  | typeMismatch (left right : Kind) :
      Opposed comparison counterpart (.typeMismatch comparison left right)
        (.typeMismatch counterpart right left)
  | invalidConstant (constant : String) (kind : Kind) :
      Opposed comparison counterpart (.invalidConstant comparison constant kind)
        (.invalidConstant counterpart constant kind)
  | malformed : Opposed comparison counterpart (.malformed comparison) (.malformed counterpart)

inductive Reflects {α : Type} (comparison counterpart : String) (mirror : α → α) :
    Except BindingError α → Except BindingError α → Prop where
  | bound (found : α) : Reflects comparison counterpart mirror (.ok found) (.ok (mirror found))
  | failed (error fault : BindingError) (opposed : Opposed comparison counterpart error fault) :
      Reflects comparison counterpart mirror (.error error) (.error fault)

section

variable {comparison counterpart : String}

theorem reflects_map {α β : Type} {mirror : α → α} {image : β → β} {found other : Except BindingError α}
    (build turned : α → β) (turns : ∀ a, turned (mirror a) = image (build a))
    (reflects : Reflects comparison counterpart mirror found other) :
    Reflects comparison counterpart image (found.map build) (other.map turned) := by
  cases reflects with
  | bound a =>
    rw [Except.map, Except.map, turns]
    exact .bound (build a)
  | failed error fault opposed => exact .failed error fault opposed

variable {left right : String} {lookup : Lookup} {now : Instant}

theorem bind_constant_opposed (text : String) (kind : Kind) :
    Reflects comparison counterpart id (bindConstant now comparison text kind)
      (bindConstant now counterpart text kind) := by
  unfold bindConstant
  cases Value.readAs now text kind with
  | some value => exact .bound (Operand.constant value)
  | none => exact .failed _ _ (.invalidConstant text kind)

theorem bind_operands_mirrored :
    Reflects comparison counterpart Prod.swap (bindOperands lookup now comparison left right)
      (bindOperands lookup now counterpart right left) := by
  unfold bindOperands
  cases lookup left with
  | some found =>
    cases lookup right with
    | some other =>
      obtain ⟨v, var⟩ := found
      obtain ⟨w, second⟩ := other
      by_cases same : var.kind = second.kind
      · simp only [if_pos same, if_pos same.symm]
        exact .bound (Operand.var v, Operand.var w)
      · simp only [if_neg same, if_neg (Ne.symm same)]
        exact .failed _ _ (.typeMismatch var.kind second.kind)
    | none => exact reflects_map _ _ (fun _ => rfl) (bind_constant_opposed right found.2.kind)
  | none =>
    cases lookup right with
    | some other => exact reflects_map _ _ (fun _ => rfl) (bind_constant_opposed left other.2.kind)
    | none => exact .failed _ _ .noVariable

theorem bind_phrase_mirrored (comparator : Comparator) :
    Reflects comparison counterpart Relation.mirror
      (bindPhrase lookup now comparison (.relation left comparator right))
      (bindPhrase lookup now counterpart (.relation right comparator.mirror left)) :=
  reflects_map _ _ (fun _ => rfl) bind_operands_mirrored

end

theorem parts_around {left right marks : List Char} (filled : marks ≠ [])
    (relates : ∀ c ∈ marks, isRelationChar c = true)
    (before : ∀ c ∈ left, isRelationChar c = false) (behind : ∀ c ∈ right, isRelationChar c = false) :
    (left ++ (marks ++ right)).takeWhile (fun c => !isRelationChar c) = left ∧
      (left ++ (marks ++ right)).dropWhile (fun c => !isRelationChar c) = marks ++ right ∧
      (marks ++ right).takeWhile isRelationChar = marks ∧
      (marks ++ right).dropWhile isRelationChar = right := by
  have outside : ∀ c ∈ left, (!isRelationChar c) = true := fun c member => by rw [before c member]; rfl
  rw [List.takeWhile_append_of_pos outside, List.dropWhile_append_of_pos outside,
    List.takeWhile_append_of_pos relates, List.dropWhile_append_of_pos relates]
  obtain ⟨mark, rest, rfl⟩ := List.exists_cons_of_ne_nil filled
  have stops := relates mark List.mem_cons_self
  cases right with
  | nil => simp [stops]
  | cons c cs => simp [stops, behind c List.mem_cons_self]

theorem phrase_around {left right : List Char} {symbol : String} {comparator : Comparator}
    (read : Comparator.ofSymbol? symbol = some comparator)
    (before : ∀ c ∈ left, isRelationChar c = false) (behind : ∀ c ∈ right, isRelationChar c = false) :
    Phrase.read (left ++ (symbol.toList ++ right)) =
      if left = [] ∨ right = [] then none
      else some (.relation (String.ofList left) comparator (String.ofList right)) := by
  obtain ⟨filled, relates⟩ := Comparator.symbols_relate symbol (Comparator.symbol_listed read)
  obtain ⟨first, rest, marks, last⟩ := parts_around filled (fun c member => (relates c member).1) before behind
  have single : right.any isRelationChar = false := by simpa using behind
  simp only [Phrase.read, first, rest, marks, last, single, String.ofList_toList, read]
  cases left <;> cases right <;> simp [filled]

theorem strip_around (left right : String) {symbol : String} {comparator : Comparator}
    (read : Comparator.ofSymbol? symbol = some comparator) :
    strip (left ++ symbol ++ right) = strip left ++ (symbol.toList ++ strip right) := by
  have whole : stripBlanks symbol.toList = symbol.toList :=
    List.filter_eq_self.mpr fun c member => by
      rw [((Comparator.symbols_relate symbol (Comparator.symbol_listed read)).2 c member).2]
      rfl
  simp only [strip, String.toList_append, stripBlanks, List.filter_append, List.append_assoc]
  exact congrArg (fun marks => _ ++ (marks ++ _)) whole

section

variable {left right symbol mirrored : String} {comparator : Comparator}

theorem bind_mirrored (lookup : Lookup) (now : Instant)
    (read : Comparator.ofSymbol? symbol = some comparator)
    (reversed : Comparator.ofSymbol? mirrored = some comparator.mirror)
    (leftFree : ∀ c ∈ left.toList, isRelationChar c = false)
    (rightFree : ∀ c ∈ right.toList, isRelationChar c = false) :
    Reflects (left ++ symbol ++ right) (right ++ mirrored ++ left) Relation.mirror
      (bind lookup now (left ++ symbol ++ right)) (bind lookup now (right ++ mirrored ++ left)) := by
  have stripped {text : String} (free : ∀ c ∈ text.toList, isRelationChar c = false) :
      ∀ c ∈ strip text, isRelationChar c = false := fun c member => free c (List.mem_of_mem_filter member)
  rw [bind, bind, strip_around left right read, strip_around right left reversed,
    phrase_around read (stripped leftFree) (stripped rightFree),
    phrase_around reversed (stripped rightFree) (stripped leftFree)]
  by_cases blank : strip left = [] ∨ strip right = []
  · rw [if_pos blank, if_pos blank.symm]
    exact .failed _ _ .malformed
  · rw [if_neg blank, if_neg (mt Or.symm blank)]
    exact bind_phrase_mirrored comparator

end

end Graph

namespace Plant

open Interlock.Graph

theorem comparison_mirrored (plant : Plant) (table : TableId) (left right symbol mirrored : String)
    (comparator : Comparator) (read : Comparator.ofSymbol? symbol = some comparator)
    (reversed : Comparator.ofSymbol? mirrored = some comparator.mirror)
    (leftFree : ∀ c ∈ left.toList, isRelationChar c = false)
    (rightFree : ∀ c ∈ right.toList, isRelationChar c = false) :
    (∀ id made, plant.makeComparison table (left ++ symbol ++ right) = .ok (id, made) →
      ∃ turned comparison counterpart,
        plant.makeComparison table (right ++ mirrored ++ left) = .ok (id, turned) ∧
        made.comparisons[id]? = some comparison ∧ turned.comparisons[id]? = some counterpart ∧
        counterpart.relation = comparison.relation.mirror ∧ counterpart.latest = comparison.latest ∧
        ∀ later : Plant, later.sample counterpart = later.sample comparison) ∧
    (∀ error, plant.makeComparison table (left ++ symbol ++ right) = .error error →
      ∃ fault, plant.makeComparison table (right ++ mirrored ++ left) = .error fault ∧
        Opposed (left ++ symbol ++ right) (right ++ mirrored ++ left) error fault) := by
  have reflects := bind_mirrored (plant.readClock.2.lookup table) plant.readClock.1 read reversed
    leftFree rightFree
  simp only [makeComparison]
  generalize bind _ _ (left ++ symbol ++ right) = found at reflects ⊢
  generalize bind _ _ (right ++ mirrored ++ left) = other at reflects ⊢
  cases reflects with
  | bound relation =>
    refine ⟨fun id made same => ?_, fun error => nofun⟩
    cases same
    have kept (valueOf) : relation.mirror.sample valueOf = relation.sample valueOf :=
      relation.sample_mirror valueOf
    exact ⟨_, _, _, rfl, List.getElem?_concat_length, List.getElem?_concat_length, rfl, kept _,
      fun later => kept later.valueOf⟩
  | failed error fault opposed =>
    refine ⟨fun id made => nofun, fun other failed => ?_⟩
    cases failed
    exact ⟨fault, rfl, opposed⟩

-- A variable of texts, compared with one that no variable is called by.
def moded : Plant := ((blank ⟨0, 0⟩ true).execute (.var (.make "mode" (.text "run") false))).2

theorem moded_mirrored :
    ∃ made comparison turned counterpart, moded.makeComparison 0 "mode >= idle" = .ok (0, made) ∧
      made.comparisons[0]? = some comparison ∧ comparison.latest = true ∧
      moded.makeComparison 0 " idle<=mode " = .ok (0, turned) ∧ turned.comparisons[0]? = some counterpart ∧
      counterpart.latest = true ∧ ∀ later : Plant, later.sample counterpart = later.sample comparison := by
  have bound : ∃ found ∈ (moded.makeComparison 0 "mode >= idle").toOption, found.1 = 0 ∧
      ∃ comparison ∈ found.2.comparisons[0]?, comparison.latest = true := by
    decide +kernel
  obtain ⟨⟨_, made⟩, found, rfl, comparison, there, holds⟩ := bound
  cases same : moded.makeComparison 0 "mode >= idle" with
  | error error =>
    rw [same] at found
    contradiction
  | ok result =>
    rw [same] at found
    cases found
    have free : ("mode ".toList.all fun c => !isRelationChar c) = true ∧
        (" idle".toList.all fun c => !isRelationChar c) = true := by decide
    simp only [List.all_eq_true, Bool.not_eq_true'] at free
    obtain ⟨turned, first, counterpart, binds, here, other, _, latest, samples⟩ :=
      (comparison_mirrored moded 0 "mode " " idle" ">=" "<=" .greaterOrEqual rfl rfl free.1 free.2).1 0 made same
    cases there.symm.trans here
    exact ⟨made, comparison, turned, counterpart, rfl, there, holds, binds, other, latest.trans holds, samples⟩

end Plant

end Interlock
