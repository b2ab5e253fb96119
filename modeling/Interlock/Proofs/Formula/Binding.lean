import Interlock.Formula.Condition
import Interlock.Proofs.Formula.Enclosure

/-!
The comparisons of a condition. Their texts are free of blanks, and once all of them are bound nothing
is left of what was bound before.
-/

set_option autoImplicit false

namespace Interlock.Formula

namespace Stream

def addName (names : List String) (token : Token) : List String :=
  if names.contains token.name then names else names ++ [token.name]

theorem add_names_mem (tokens : List Token) (names : List String) (name : String) :
    name ∈ tokens.foldl addName names ↔ name ∈ names ∨ ∃ token ∈ tokens, token.name = name := by
  induction tokens generalizing names with
  | nil => simp
  | cons token rest ih =>
      have added : name ∈ addName names token ↔ name ∈ names ∨ token.name = name := by
        unfold addName
        split
        · rename_i known
          have member : token.name ∈ names := by simpa using known
          constructor
          · exact .inl
          · rintro (old | rfl)
            · exact old
            · exact member
        · simp [eq_comm]
      rw [List.foldl_cons, ih, added]
      simp [or_assoc]

theorem add_names_nodup (tokens : List Token) (names : List String) (distinct : names.Nodup) :
    (tokens.foldl addName names).Nodup := by
  induction tokens generalizing names with
  | nil => exact distinct
  | cons token rest ih =>
      refine ih _ ?_
      unfold addName
      split
      · exact distinct
      · rename_i unknown
        have fresh : token.name ∉ names := by simpa using unknown
        rw [List.nodup_append]
        refine ⟨distinct, by simp, ?_⟩
        intro old known new member
        rw [List.mem_singleton.mp member]
        rintro rfl
        exact fresh known

theorem add_names_map (change : Token → Token) (same : ∀ token, (change token).name = token.name)
    (tokens : List Token) (names : List String) :
    (tokens.map change).foldl addName names = tokens.foldl addName names := by
  induction tokens generalizing names with
  | nil => rfl
  | cons token rest ih =>
      rw [List.map_cons, List.foldl_cons, List.foldl_cons, ih]
      simp only [addName, same]

theorem names_of_mem (role : Role) (stream : Stream) (name : String) :
    name ∈ stream.namesOf role ↔ ∃ token ∈ stream, token.role = role ∧ token.name = name := by
  have gathered := add_names_mem (stream.filter fun token => token.role = role) [] name
  simp only [List.not_mem_nil, false_or, List.mem_filter, decide_eq_true_eq, and_assoc] at gathered
  exact gathered

theorem names_of_nodup (role : Role) (stream : Stream) : (stream.namesOf role).Nodup :=
  add_names_nodup _ [] .nil

theorem atoms_mem (stream : Stream) (name : String) :
    name ∈ stream.atoms ↔ ∃ token ∈ stream, token.role = .atom ∧ token.name = name :=
  names_of_mem .atom stream name

theorem atoms_nodup (stream : Stream) : stream.atoms.Nodup := names_of_nodup .atom stream

theorem atoms_map (change : Token → Token) (role : ∀ token, (change token).role = token.role)
    (name : ∀ token, (change token).name = token.name) (stream : Stream) :
    atoms (stream.map change) = stream.atoms := by
  have filtered : (stream.map change).filter (fun token => token.role = .atom) =
      (stream.filter fun token => token.role = .atom).map change := by
    rw [List.filter_map]
    congr 2
    funext token
    simp [role]
  have named := add_names_map change name (stream.filter fun token => token.role = .atom) []
  rw [← filtered] at named
  exact named

end Stream

def Token.bound (truth : String → Option Bool) (token : Token) : Token :=
  if token.role = .atom then { token with content := .flag ((truth token.name).getD false) }
  else token

namespace Condition

theorem bind_atoms (condition : Condition) (atom : String) (truth : Bool) :
    (condition.bind atom truth).atoms = condition.atoms := by
  refine Stream.atoms_map _ (fun token => ?_) (fun token => ?_) condition.stream
  · split <;> rfl
  · split <;> rfl

theorem bind_each_stream (atoms : List String) (truth : String → Bool) (condition : Condition) :
    (atoms.foldl (fun bound atom => bound.bind atom (truth atom)) condition).stream =
      condition.stream.map fun token =>
        if token.role = .atom ∧ token.name ∈ atoms then
          { token with content := .flag (truth token.name) }
        else token := by
  induction atoms generalizing condition with
  | nil => simp
  | cons atom rest ih =>
      rw [List.foldl_cons, ih, bind, List.map_map]
      refine List.map_congr_left fun token _ => ?_
      by_cases role : token.role = .atom
      · by_cases same : token.name = atom
        · subst same
          by_cases later : token.name ∈ rest <;> simp [role, later]
        · simp [role, same]
      · simp [role]

theorem bind_all_stream (condition : Condition) (truth : String → Option Bool) :
    (condition.bindAll truth).stream = condition.stream.map (Token.bound truth) := by
  rw [bindAll, bind_each_stream]
  refine List.map_congr_left fun token member => ?_
  by_cases role : token.role = .atom
  · have known : token.name ∈ condition.atoms :=
      (Stream.atoms_mem condition.stream token.name).mpr ⟨token, member, role, rfl⟩
    simp [Token.bound, role, known]
  · simp [Token.bound, role]

theorem bind_all_bind (condition : Condition) (atom : String) (value : Bool)
    (truth : String → Option Bool) :
    ((condition.bind atom value).bindAll truth).stream = (condition.bindAll truth).stream := by
  rw [bind_all_stream, bind_all_stream, bind, List.map_map]
  refine List.map_congr_left fun token _ => ?_
  by_cases role : token.role = .atom
  · by_cases same : token.name = atom <;> simp [Token.bound, role, same]
  · simp [Token.bound, role]

theorem evaluate_with_bind (condition : Condition) (atom : String) (value : Bool)
    (truth : String → Option Bool) :
    (condition.bind atom value).evaluateWith truth = condition.evaluateWith truth := by
  rw [evaluateWith, evaluate, bind_all_bind, evaluateWith, evaluate]

-- One pass over a list of truths that has each comparison of the condition once.
def bindList (condition : Condition) (truths : List (String × Bool)) : Condition :=
  truths.foldl (fun bound (atom, truth) => bound.bind atom truth) condition

theorem bind_list_atoms (condition : Condition) (truths : List (String × Bool)) :
    (condition.bindList truths).atoms = condition.atoms := by
  induction truths generalizing condition with
  | nil => rfl
  | cons first rest ih => exact (ih _).trans (bind_atoms condition first.1 first.2)

theorem evaluate_with_bind_list (condition : Condition) (truths : List (String × Bool))
    (truth : String → Option Bool) :
    (condition.bindList truths).evaluateWith truth = condition.evaluateWith truth := by
  induction truths generalizing condition with
  | nil => rfl
  | cons first rest ih => exact (ih _).trans (evaluate_with_bind condition first.1 first.2 truth)

theorem truths_by_name (truths : List (String × Bool)) (distinct : (truths.map Prod.fst).Nodup) :
    truths = (truths.map Prod.fst).map fun atom => (atom, (truths.lookup atom).getD false) := by
  induction truths with
  | nil => rfl
  | cons first rest ih =>
      obtain ⟨atom, truth⟩ := first
      rw [List.map_cons, List.nodup_cons] at distinct
      obtain ⟨fresh, distinct⟩ := distinct
      rw [List.map_cons, List.map_cons, List.lookup_cons_self, Option.getD_some]
      congr 1
      refine (ih distinct).trans (List.map_congr_left fun other member => ?_)
      have apart : other ≠ atom := fun same => fresh (same ▸ member)
      rw [List.lookup_cons, beq_eq_false_iff_ne.mpr apart]

theorem bind_list_all (condition : Condition) (truths : List (String × Bool))
    (each : truths.map Prod.fst = condition.atoms) :
    condition.bindList truths = condition.bindAll fun atom => truths.lookup atom := by
  have distinct : (truths.map Prod.fst).Nodup := by
    rw [each]
    exact Stream.atoms_nodup condition.stream
  rw [bindList, truths_by_name truths distinct, List.foldl_map, bindAll, ← each]
  simp only [← truths_by_name truths distinct]

end Condition

def AtomsFrom (kind : Char → Prop) (stream : Stream) : Prop :=
  ∀ token ∈ stream, token.role = .atom → ∀ c ∈ token.name.toList, kind c

theorem atoms_from_append (kind : Char → Prop) (left right : Stream) (first : AtomsFrom kind left)
    (second : AtomsFrom kind right) : AtomsFrom kind (left ++ right) := by
  intro token member
  rcases List.mem_append.mp member with early | late
  · exact first token early
  · exact second token late

theorem atoms_from_operators (kind : Char → Prop) (operators : List Waiting) :
    AtomsFrom kind (operators.map fun operator => Token.operator operator.symbol) := by
  intro token member role
  obtain ⟨operator, _, rfl⟩ := List.mem_map.mp member
  contradiction

theorem atoms_from_release (kind : Char → Prop) (yard : Yard) (strength : Nat)
    (output : AtomsFrom kind yard.output) : AtomsFrom kind (yard.release strength).output :=
  atoms_from_append kind _ _ output (atoms_from_operators kind _)

theorem atoms_from_emit_atom (kind : Char → Prop) (atom : List Char) (yard : Yard)
    (gathered : ∀ c ∈ atom, kind c) (output : AtomsFrom kind yard.output) :
    AtomsFrom kind (emitAtom atom yard).output := by
  unfold emitAtom
  split
  · exact output
  · refine atoms_from_append kind _ _ output fun token member _ c inside => ?_
    rw [List.mem_singleton.mp member] at inside
    exact gathered c (by simpa [Token.atom] using inside)

theorem skip_same_mem (c d : Char) (cs : List Char) (member : d ∈ skipSame c cs) : d ∈ cs := by
  cases cs with
  | nil => exact member
  | cons head rest =>
      rw [skipSame] at member
      split at member
      · exact List.mem_cons_of_mem _ member
      · exact member

theorem scan_condition_atoms (kind : Char → Prop) (whole : String) (cs : List Char) (yard : Yard)
    (atom : List Char) (stream : Stream) (made : scanCondition whole cs yard atom = .ok stream)
    (input : ∀ c ∈ cs, kind c) (gathered : ∀ c ∈ atom, kind c)
    (output : AtomsFrom kind yard.output) : AtomsFrom kind stream := by
  fun_induction scanCondition whole cs yard atom generalizing stream with
  | case1 yard atom =>
      cases made
      exact atoms_from_release kind _ 0 (atoms_from_emit_atom kind atom yard gathered output)
  | case2 | case3 | case4 | case6 | case8 => contradiction
  | case5 yard atom rest _ body after found _ group within inner later =>
      have joined := split_group_join 0 rest body after found
      have body_input : ∀ c ∈ body, kind c := fun c member => input c (by simp [joined, member])
      have after_input : ∀ c ∈ after, kind c := fun c member => input c (by simp [joined, member])
      have group_atoms := inner group within body_input (by simp) (by simp [AtomsFrom, Yard.empty])
      exact later stream made after_input (by simp)
        (atoms_from_append kind _ _ output group_atoms)
  | case7 yard atom behind _ _ ih =>
      have exclamation := input '!' (by simp)
      have equals := input '=' (by simp)
      refine ih stream made (fun c member => input c (by simp [member])) ?_ output
      intro c member
      rcases List.mem_append.mp member with old | new
      · exact gathered c old
      · have marks : c = '!' ∨ c = '=' := by simpa using new
        rcases marks with rfl | rfl
        · exact exclamation
        · exact equals
  | case9 yard atom behind _ _ _ _ ih =>
      exact ih stream made (fun c member => input c (by simp [member])) (by simp) output
  | case10 yard atom d rest _ _ _ _ _ ih =>
      refine ih stream made (fun c member => input c ?_) (by simp)
        (atoms_from_release kind _ _ (atoms_from_emit_atom kind atom yard gathered output))
      exact List.mem_cons_of_mem _ (skip_same_mem d c rest member)
  | case11 yard atom d rest _ _ _ _ ih =>
      refine ih stream made (fun c member => input c (by simp [member])) ?_ output
      intro c member
      rcases List.mem_append.mp member with old | new
      · exact gathered c old
      · rw [List.mem_singleton.mp new]
        exact input d (by simp)

theorem compile_logic_scanned (source : String) (stream : Stream)
    (compiled : compileLogic source = .ok stream) :
    ∃ whole, scanCondition whole (Text.stripBlanks source.toList) .empty [] = .ok stream ∧
      stream.check = .ok () := by
  unfold compileLogic at compiled
  dsimp only at compiled
  rw [String.toList_ofList] at compiled
  split at compiled
  · contradiction
  · next scanned made =>
      split at compiled
      · contradiction
      · next valid =>
          cases compiled
          exact ⟨_, made, (Stream.validate_ok stream _).mp valid⟩

theorem compile_stream (source : String) (condition : Condition)
    (compiled : Condition.compile source = .ok condition) :
    compileLogic source = .ok condition.stream := by
  unfold Condition.compile at compiled
  split at compiled
  · contradiction
  · next stream logic =>
      cases compiled
      exact logic

theorem compiled_atoms_clear (source : String) (condition : Condition)
    (compiled : Condition.compile source = .ok condition) (atom : String)
    (member : atom ∈ condition.atoms) : Text.stripBlanks atom.toList = atom.toList := by
  obtain ⟨whole, made, _⟩ :=
    compile_logic_scanned source condition.stream (compile_stream source condition compiled)
  have input : ∀ c ∈ Text.stripBlanks source.toList, Text.isBlank c = false := by
    intro c inside
    rw [Text.stripBlanks, List.mem_filter] at inside
    simpa using inside.2
  have clear : AtomsFrom (fun c => Text.isBlank c = false) condition.stream :=
    scan_condition_atoms _ whole _ .empty [] condition.stream made input (by simp)
      (by simp [AtomsFrom, Yard.empty])
  obtain ⟨token, inside, role, rfl⟩ := (Stream.atoms_mem condition.stream atom).mp member
  rw [Text.stripBlanks, List.filter_eq_self]
  intro c within
  simp [clear token inside role c within]

end Interlock.Formula
