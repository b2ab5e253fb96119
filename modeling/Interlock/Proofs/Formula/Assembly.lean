import Interlock.Proofs.Formula.Grammar

/-!
What the yard does with a chain of operands: the stream it closes with lists the tree that is put
together from the chain.
-/

set_option autoImplicit false

namespace Interlock.Formula

namespace Yard

def Agree (least : Nat) (yard other : Yard) : Prop :=
  ∀ strength, strength ≤ least → yard.release strength = other.release strength

theorem close_agree (least : Nat) (yard other : Yard) (agree : Agree least yard other) :
    yard.close = other.close := by
  rw [close, close, agree 0 (Nat.zero_le least)]

theorem push_agree (least : Nat) (yard other : Yard) (agree : Agree least yard other) (symbol : Char)
    (strength : Nat) (bound : strength ≤ least) :
    yard.push symbol strength = other.push symbol strength := by
  rw [push, push, agree strength bound]

theorem release_top (output : Stream) (top : Waiting) (waiting : List Waiting) (strength : Nat)
    (bound : strength ≤ top.strength) :
    Yard.release ⟨output, top :: waiting⟩ strength =
      Yard.release ⟨output ++ [.operator top.symbol], waiting⟩ strength := by
  simp [release, bound]

theorem release_weaker (output : Stream) (waiting : List Waiting) (strength : Nat)
    (weaker : ∀ held ∈ waiting, held.strength < strength) :
    Yard.release ⟨output, waiting⟩ strength = ⟨output, waiting⟩ := by
  cases waiting with
  | nil => simp [release]
  | cons top others =>
      have kept : ¬ strength ≤ top.strength := Nat.not_le.mpr (weaker top (by simp))
      simp [release, kept]

theorem release_all (output : Stream) (waiting : List Waiting) (strength : Nat)
    (all : ∀ held ∈ waiting, strength ≤ held.strength) :
    Yard.release ⟨output, waiting⟩ strength =
      ⟨output ++ waiting.map fun held => Token.operator held.symbol, []⟩ := by
  induction waiting generalizing output with
  | nil => simp [release]
  | cons top others ih =>
      rw [release_top output top others strength (all top (by simp)),
        ih _ fun held member => all held (by simp [member])]
      simp

theorem held_agree (output : Stream) (symbol : Char) (strength : Nat) (waiting : List Waiting) :
    Agree strength ⟨output, ⟨symbol, strength⟩ :: waiting⟩ ⟨output ++ [.operator symbol], waiting⟩ :=
  fun weaker bound => release_top output ⟨symbol, strength⟩ waiting weaker bound

theorem combine_agree (output : Stream) (symbol : Char) (strength : Nat) (waiting : List Waiting)
    (left right : Tree) :
    Agree strength ⟨output ++ left.postorder ++ right.postorder, ⟨symbol, strength⟩ :: waiting⟩
      ⟨output ++ (Tree.combine symbol left right).postorder, waiting⟩ := by
  have listed : output ++ (Tree.combine symbol left right).postorder =
      output ++ left.postorder ++ right.postorder ++ [.operator symbol] := by
    simp [Tree.combine, Tree.postorder, Tree.postorders, List.append_assoc]
  rw [listed]
  exact held_agree _ symbol strength waiting

def runItems (yard : Yard) (chain : Chain) : Yard :=
  chain.foldl (fun held (symbol, operand) =>
    (held.push symbol (strengthOf symbol)).emit operand.postorder) yard

theorem run_items_agree (least : Nat) (yard other : Yard) (agree : Agree least yard other)
    (chain : Chain) (bound : ∀ item ∈ chain, strengthOf item.1 ≤ least) :
    (runItems yard chain).close = (runItems other chain).close := by
  cases chain with
  | nil => exact close_agree least yard other agree
  | cons item rest =>
      have pushed := push_agree least yard other agree item.1 (strengthOf item.1)
        (bound item (by simp))
      simp only [runItems, List.foldl_cons, pushed]

theorem strength_bounds (symbol : Char) : strengthOf symbol ≤ 2 := by
  unfold strengthOf
  split <;> decide

theorem strength_factor (symbol : Char) (factor : symbol = '*' ∨ symbol = '/') :
    strengthOf symbol = 2 := by
  rw [strengthOf, if_pos factor]

theorem strength_term (symbol : Char) (term : ¬ (symbol = '*' ∨ symbol = '/')) :
    strengthOf symbol = 1 := by
  rw [strengthOf, if_neg term]

theorem run_factors (output : Stream) (waiting : List Waiting)
    (sums : ∀ held ∈ waiting, held.strength = 1) (first : Tree) (chain : Chain) :
    (runItems ⟨output ++ first.postorder, waiting⟩ chain).close =
      (runItems ⟨output ++ (joinFactors first chain).1.postorder, waiting⟩
        (joinFactors first chain).2).close := by
  induction chain generalizing output waiting first with
  | nil => rfl
  | cons item rest ih =>
      obtain ⟨symbol, operand⟩ := item
      by_cases factor : symbol = '*' ∨ symbol = '/'
      · have kept := release_weaker (output ++ first.postorder) waiting 2 fun held member => by
          rw [sums held member]
          decide
        have agree := combine_agree output symbol 2 waiting first operand
        rw [joinFactors, if_pos factor, ← ih output waiting sums,
          ← run_items_agree 2 _ _ agree rest fun item _ => strength_bounds item.1]
        simp only [runItems, List.foldl_cons, strength_factor symbol factor, push, kept, hold, emit]
      · have gone := fun tree : Tree =>
          release_all (output ++ tree.postorder) waiting 1 fun held member =>
            Nat.le_of_eq (sums held member).symm
        have later := ih (output ++ first.postorder ++ waiting.map fun held => Token.operator held.symbol)
          [⟨symbol, 1⟩] (by simp) operand
        rw [joinFactors, if_neg factor]
        simp only [runItems, List.foldl_cons, strength_term symbol factor, push, gone, hold, emit]
        exact later

theorem run_terms (first : Tree) (terms : Chain)
    (sums : ∀ item ∈ terms, ¬ (item.1 = '*' ∨ item.1 = '/')) :
    (runItems ⟨first.postorder, []⟩ terms).close = (joinTerms first terms).postorder := by
  induction terms generalizing first with
  | nil => simp [runItems, joinTerms, close, release]
  | cons item rest ih =>
      obtain ⟨symbol, operand⟩ := item
      have term := sums (symbol, operand) (by simp)
      have agree := combine_agree [] symbol 1 [] first operand
      have later := ih (.combine symbol first operand) fun other member =>
        sums other (by simp [member])
      rw [joinTerms, List.foldl_cons]
      rw [← joinTerms, ← later]
      rw [← List.nil_append (Tree.combine symbol first operand).postorder,
        ← run_items_agree 1 _ _ agree rest fun item member =>
          Nat.le_of_eq (strength_term item.1 (sums item (by simp [member])))]
      simp [runItems, strength_term symbol term, push, release, hold, emit]

theorem join_factors_terms (first : Tree) (chain : Chain) :
    ∀ item ∈ (joinFactors first chain).2, ¬ (item.1 = '*' ∨ item.1 = '/') := by
  induction chain generalizing first with
  | nil => simp [joinFactors]
  | cons item rest ih =>
      obtain ⟨symbol, operand⟩ := item
      by_cases factor : symbol = '*' ∨ symbol = '/'
      · rw [joinFactors, if_pos factor]
        exact ih _
      · rw [joinFactors, if_neg factor]
        intro other member
        rcases List.mem_cons.mp member with same | later
        · rw [same]
          exact factor
        · exact ih _ other later

theorem close_items (first : Tree) (chain : Chain) :
    (runItems (empty.emit first.postorder) chain).close = (assemble first chain).postorder := by
  have factors := run_factors [] [] (by simp) first chain
  rw [List.nil_append, List.nil_append] at factors
  rw [assemble, ← run_terms _ _ (join_factors_terms first chain), ← factors]
  rfl

end Yard

end Interlock.Formula
