import Interlock.Proofs.Formula.Binding

/-!
Compiled conditions have a truth. The compiler writes comparisons and connectives only, and the arity
check has followed the stack of the evaluation.
-/

set_option autoImplicit false

namespace Interlock.Formula

inductive IsConnective : Char → Prop where
  | not : IsConnective '!'
  | and : IsConnective '&'
  | or : IsConnective '|'

inductive Token.Logical : Token → Prop where
  | atom (text : String) (truth : Bool) : Logical { Token.atom text with content := .flag truth }
  | connective (symbol : Char) (known : IsConnective symbol) : Logical (.operator symbol)

def Stream.Logical (stream : Stream) : Prop := ∀ token ∈ stream, token.Logical

structure Yard.Logical (yard : Yard) : Prop where
  output : yard.output.Logical
  waiting : ∀ operator ∈ yard.waiting, IsConnective operator.symbol

theorem logic_run (stream : Stream) (logical : stream.Logical) (stack : List Bool) (height : Nat)
    (deep : stream.depth stack.length = .ok height) :
    ∃ after, logic.run stream stack = .ok after ∧ after.length = height := by
  induction stream generalizing stack with
  | nil =>
      cases deep
      exact ⟨stack, rfl, rfl⟩
  | cons token rest ih =>
      have behind : Stream.Logical rest := fun other member => logical other (by simp [member])
      cases logical token (by simp) with
      | atom text truth => exact ih behind (truth :: stack) deep
      | connective symbol known =>
          cases known with
          | not =>
              cases stack with
              | nil => contradiction
              | cons top below => exact ih behind ((!top) :: below) deep
          | and =>
              cases stack with
              | nil => contradiction
              | cons top below =>
                  cases below with
                  | nil => contradiction
                  | cons next bottom => exact ih behind ((next && top) :: bottom) deep
          | or =>
              cases stack with
              | nil => contradiction
              | cons top below =>
                  cases below with
                  | nil => contradiction
                  | cons next bottom => exact ih behind ((next || top) :: bottom) deep

theorem checked_depth (stream : Stream) (checked : stream.check = .ok ()) :
    stream.depth 0 = .ok 1 := by
  unfold Stream.check at checked
  split at checked
  · contradiction
  · contradiction
  · assumption
  · contradiction

theorem logic_evaluates (stream : Stream) (logical : stream.Logical) (deep : stream.depth 0 = .ok 1) :
    ∃ truth, logic.evaluate stream = .ok truth := by
  obtain ⟨stack, run, single⟩ := logic_run stream logical [] 1 deep
  obtain ⟨truth, rfl⟩ := List.length_eq_one_iff.mp single
  exact ⟨truth, by rw [Semantics.evaluate, run]⟩

theorem depth_map (change : Token → Token) (same : ∀ token, (change token).arity = token.arity)
    (stream : Stream) (height : Nat) (result : Nat) (deep : stream.depth height = .ok result) :
    Stream.depth (stream.map change) height = .ok result := by
  induction stream generalizing height with
  | nil => exact deep
  | cons token rest ih =>
      rw [Stream.depth] at deep
      rw [List.map_cons, Stream.depth, same]
      split at deep
      · contradiction
      · rename_i enough
        rw [if_neg enough]
        exact ih _ deep

theorem bind_logical (condition : Condition) (atom : String) (truth : Bool)
    (logical : condition.stream.Logical) : (condition.bind atom truth).stream.Logical := by
  intro token member
  obtain ⟨origin, inside, rfl⟩ := List.mem_map.mp member
  split
  · next named =>
      cases logical origin inside with
      | atom text old => exact .atom text truth
      | connective symbol known => exact absurd named.1 (by simp [Token.operator])
  · exact logical origin inside

theorem bind_depth (condition : Condition) (atom : String) (truth : Bool)
    (deep : condition.stream.depth 0 = .ok 1) : (condition.bind atom truth).stream.depth 0 = .ok 1 := by
  refine depth_map _ (fun token => ?_) condition.stream 0 1 deep
  split <;> rfl

theorem bind_list_evaluates (condition : Condition) (truths : List (String × Bool))
    (logical : condition.stream.Logical) (deep : condition.stream.depth 0 = .ok 1) :
    ∃ truth, (condition.bindList truths).evaluate = .ok truth := by
  induction truths generalizing condition with
  | nil => exact logic_evaluates condition.stream logical deep
  | cons first rest ih =>
      exact ih _ (bind_logical condition first.1 first.2 logical)
        (bind_depth condition first.1 first.2 deep)

theorem logical_append (left right : Stream) (first : left.Logical) (second : right.Logical) :
    Stream.Logical (left ++ right) := by
  intro token member
  rcases List.mem_append.mp member with early | late
  · exact first token early
  · exact second token late

theorem logical_release (yard : Yard) (strength : Nat) (logical : yard.Logical) :
    (yard.release strength).Logical := by
  constructor
  · refine logical_append _ _ logical.output fun token member => ?_
    obtain ⟨operator, inside, rfl⟩ := List.mem_map.mp member
    exact .connective _ (logical.waiting operator ((List.takeWhile_sublist _).subset inside))
  · exact fun operator inside => logical.waiting operator ((List.dropWhile_sublist _).subset inside)

theorem logical_emit_atom (atom : List Char) (yard : Yard) (logical : yard.Logical) :
    (emitAtom atom yard).Logical := by
  unfold emitAtom
  split
  · exact logical
  · refine ⟨logical_append _ _ logical.output fun token member => ?_, logical.waiting⟩
    rw [List.mem_singleton.mp member]
    exact .atom _ false

theorem logical_hold (yard : Yard) (symbol : Char) (strength : Nat) (known : IsConnective symbol)
    (logical : yard.Logical) : (yard.hold symbol strength).Logical := by
  refine ⟨logical.output, fun operator member => ?_⟩
  rcases List.mem_cons.mp member with rfl | old
  · exact known
  · exact logical.waiting operator old

theorem scan_condition_logical (whole : String) (cs : List Char) (yard : Yard) (atom : List Char)
    (stream : Stream) (made : scanCondition whole cs yard atom = .ok stream)
    (logical : yard.Logical) : stream.Logical := by
  fun_induction scanCondition whole cs yard atom generalizing stream with
  | case1 yard atom =>
      cases made
      exact (logical_release _ 0 (logical_emit_atom atom yard logical)).output
  | case2 | case3 | case4 | case6 | case8 => contradiction
  | case5 yard atom rest _ body after found _ group within inner later =>
      have grouped := inner group within ⟨by simp [Stream.Logical, Yard.empty], by simp [Yard.empty]⟩
      exact later stream made ⟨logical_append _ _ logical.output grouped, logical.waiting⟩
  | case7 yard atom behind _ _ ih => exact ih stream made logical
  | case9 yard atom behind _ _ _ _ ih => exact ih stream made (logical_hold yard _ _ .not logical)
  | case10 yard atom d rest _ _ _ known _ ih =>
      have connective : IsConnective d := by
        rcases known with rfl | rfl
        · exact .and
        · exact .or
      exact ih stream made
        (logical_hold _ _ _ connective (logical_release _ _ (logical_emit_atom atom yard logical)))
  | case11 yard atom d rest _ _ _ _ ih => exact ih stream made logical

theorem compiled_evaluates (source : String) (condition : Condition)
    (compiled : Condition.compile source = .ok condition) (truths : List (String × Bool)) :
    ∃ truth, (condition.bindList truths).evaluate = .ok truth := by
  obtain ⟨whole, made, checked⟩ :=
    compile_logic_scanned source condition.stream (compile_stream source condition compiled)
  have logical := scan_condition_logical whole _ .empty [] condition.stream made
    ⟨by simp [Stream.Logical, Yard.empty], by simp [Yard.empty]⟩
  exact bind_list_evaluates condition truths logical (checked_depth condition.stream checked)

end Interlock.Formula
