import Mathlib.Data.String.Basic
import Interlock.Plant.Desk
import Interlock.Proofs.Channel.Canonical
import Interlock.Proofs.Channel.Enrolment

/-!
Registration and removal. Whatever calls a new registry has answered, a path is resolved to the channel of
the last call under its canonical form, if that call registers one; every call is answered with what its
path was resolved to before it.
-/

set_option autoImplicit false

namespace Interlock

open Interlock.Schedule (RegistryId)

namespace Directory

section

variable (directory : Directory) (key other : String) (id : Nat)

theorem find_remove_self : (directory.remove key).find? key = none := by
  rw [find?, List.lookup_eq_none_iff]
  intro entry member
  have apart := bne_iff_ne.mp (List.mem_filter.mp member).2
  exact bne_iff_ne.mpr (Ne.symm apart)

theorem find_remove_ne (apart : other ≠ key) : (directory.remove key).find? other = directory.find? other := by
  induction directory with
  | nil => rfl
  | cons entry rest ih =>
      rw [find?, remove] at ih
      rw [find?, find?, remove, List.lookup_cons]
      by_cases gone : entry.1 = key
      · rw [List.filter_cons_of_neg (by simp [gone]), ih, gone, beq_false_of_ne apart]
        rfl
      · rw [List.filter_cons_of_pos (by simp [gone]), List.lookup_cons, ih]
        rfl

theorem mem_keys_insert : other ∈ (directory.insert key id).keys ↔ other = key ∨ other ∈ directory.keys := by
  induction directory with
  | nil => simp [insert, keys]
  | cons entry rest ih =>
      rw [keys] at ih
      rw [insert]
      split
      · next same => simp [keys, same]
      · split
        · simp [keys]
        · rw [keys, keys, List.map_cons, List.map_cons, List.mem_cons, List.mem_cons, ih, keys, or_left_comm]

theorem sorted_insert (sorted : directory.keys.Pairwise (· < ·)) :
    (directory.insert key id).keys.Pairwise (· < ·) := by
  induction directory with
  | nil => exact List.pairwise_singleton _ _
  | cons entry rest ih =>
      have parts := List.pairwise_cons.mp sorted
      rw [insert]
      split
      · next same =>
          rw [keys, List.map_cons, same]
          exact sorted
      · next apart =>
          split
          · next less =>
              refine List.pairwise_cons.mpr ⟨?_, sorted⟩
              exact List.forall_mem_cons.mpr ⟨less, fun later member => less.trans (parts.1 later member)⟩
          · next notLess =>
              refine List.pairwise_cons.mpr ⟨fun later member => ?_, ih parts.2⟩
              rcases (mem_keys_insert rest key later id).mp member with rfl | old
              · exact lt_of_le_of_ne (not_lt.mp notLess) (Ne.symm apart)
              · exact parts.1 later old

theorem keys_remove : (directory.remove key).keys.Sublist directory.keys := List.filter_sublist.map Prod.fst

theorem sorted_remove (sorted : directory.keys.Pairwise (· < ·)) :
    (directory.remove key).keys.Pairwise (· < ·) :=
  sorted.sublist (keys_remove directory key)

theorem find_sorted (sorted : directory.keys.Pairwise (· < ·)) (entry : String × Nat)
    (member : entry ∈ directory) : directory.find? entry.1 = some entry.2 := by
  induction directory with
  | nil => contradiction
  | cons first rest ih =>
      have parts := List.pairwise_cons.mp sorted
      rw [find?, List.lookup_cons]
      rcases List.mem_cons.mp member with rfl | later
      · rw [beq_self_eq_true]
      · have less := parts.1 entry.1 (List.mem_map_of_mem later)
        rw [beq_false_of_ne less.ne']
        exact ih parts.2 later

end

end Directory

namespace Registry

inductive Call where
  | register (path : String) (id : ChannelId)
  | remove (path : String)

def Call.path : Call → String
  | .register path _ => path
  | .remove path => path

-- What a path stands for behind calls: the last one under its canonical form registers a channel.
def Stands (calls : List Call) (path : String) (id : ChannelId) : Prop :=
  ∃ before written after, calls = before ++ .register written id :: after ∧
    Path.canonical written = Path.canonical path ∧
    ∀ call ∈ after, Path.canonical call.path ≠ Path.canonical path

theorem stands_nil (path : String) (id : ChannelId) : ¬ Stands [] path id := by
  rintro ⟨before, written, after, parts, _⟩
  simp at parts

theorem stands_snoc (calls : List Call) (call : Call) (path : String) (id : ChannelId) :
    Stands (calls ++ [call]) path id ↔
      (∃ written, call = .register written id ∧ Path.canonical written = Path.canonical path) ∨
        Path.canonical call.path ≠ Path.canonical path ∧ Stands calls path id := by
  constructor
  · rintro ⟨before, written, after, parts, same, last⟩
    rcases List.eq_nil_or_concat after with rfl | ⟨rest, latest, rfl⟩
    · obtain ⟨_, own⟩ := List.append_inj' parts rfl
      exact .inl ⟨written, List.singleton_inj.mp own, same⟩
    · rw [List.concat_eq_append] at parts last
      rw [← List.cons_append, ← List.append_assoc] at parts
      obtain ⟨rfl, own⟩ := List.append_inj' parts rfl
      rw [List.singleton_inj.mp own]
      exact .inr ⟨last latest (by simp), before, written, rest, rfl, same,
        fun call member => last call (by simp [member])⟩
  · rintro (⟨written, rfl, same⟩ | ⟨apart, before, written, after, rfl, same, last⟩)
    · exact ⟨calls, written, [], rfl, same, by simp⟩
    · refine ⟨before, written, after ++ [call], by simp, same, ?_⟩
      exact List.forall_mem_append.mpr ⟨last, List.forall_mem_singleton.mpr apart⟩

section

variable (calls : List Call) (path written : String) (id own : ChannelId)

theorem stands_other (call : Call) (apart : Path.canonical call.path ≠ Path.canonical path) :
    Stands (calls ++ [call]) path id ↔ Stands calls path id := by
  rw [stands_snoc]
  constructor
  · rintro (⟨written, rfl, same⟩ | ⟨_, stands⟩)
    · exact absurd same apart
    · exact stands
  · exact fun stands => .inr ⟨apart, stands⟩

variable (same : Path.canonical written = Path.canonical path)

include same

theorem stands_registered : Stands (calls ++ [.register written own]) path id ↔ own = id := by
  rw [stands_snoc]
  constructor
  · rintro (⟨_, latest, _⟩ | ⟨apart, _⟩)
    · exact (Call.register.inj latest).2
    · exact absurd same apart
  · rintro rfl
    exact .inl ⟨written, rfl, same⟩

theorem stands_removed : ¬ Stands (calls ++ [.remove written]) path id := by
  rw [stands_snoc]
  rintro (⟨_, latest, _⟩ | ⟨apart, _⟩)
  · contradiction
  · exact apart same

end

-- A directory in order whose entries are under canonical paths and hold what these stand for.
structure Mirrors (directory : Directory) (calls : List Call) : Prop where
  resolved : ∀ path id, resolve? directory path = some id ↔ Stands calls path id
  sorted : directory.keys.Pairwise (· < ·)
  canonical : ∀ key ∈ directory.keys, Path.canonical key = key

section

variable {directory : Directory} {calls : List Call} (mirrors : Mirrors directory calls)

theorem mirrors_empty : Mirrors [] [] where
  resolved path id := iff_of_false (by simp [resolve?, Directory.find?]) (stands_nil path id)
  sorted := .nil
  canonical := by simp [Directory.keys]

include mirrors

theorem mirrors_register (path : String) (id : ChannelId) :
    Mirrors (register directory path id) (calls ++ [.register path id]) where
  resolved other found := by
    rw [resolve?, register]
    by_cases same : Path.canonical path = Path.canonical other
    · rw [stands_registered calls other path found id same, ← same, Directory.find_insert_self,
        Option.some.injEq]
    · rw [stands_other calls other found (.register path id) same,
        Directory.find_insert_ne _ _ _ _ (Ne.symm same)]
      exact mirrors.resolved other found
  sorted := Directory.sorted_insert _ _ _ mirrors.sorted
  canonical key member := by
    have inserted := Directory.mem_keys_insert directory (Path.canonical path) key id
    rcases inserted.mp member with rfl | old
    · exact Path.canonical_twice path
    · exact mirrors.canonical key old

theorem mirrors_remove (path : String) :
    Mirrors (unregister directory path) (calls ++ [.remove path]) where
  resolved other found := by
    rw [resolve?, unregister]
    by_cases same : Path.canonical path = Path.canonical other
    · rw [← same, Directory.find_remove_self]
      exact iff_of_false (by simp) (stands_removed calls other path found same)
    · rw [stands_other calls other found (.remove path) same,
        Directory.find_remove_ne _ _ _ (Ne.symm same)]
      exact mirrors.resolved other found
  sorted := Directory.sorted_remove _ _ mirrors.sorted
  canonical key member :=
    mirrors.canonical key ((Directory.keys_remove directory (Path.canonical path)).subset member)

end

-- Besides, each entry is found under its own path, a path is listed exactly if it stands for a channel, and
-- it is resolved the same way however it is written.
structure Maps (directory : Directory) (calls : List Call) : Prop extends Mirrors directory calls where
  entered : ∀ entry ∈ directory, resolve? directory entry.1 = some entry.2
  listed : ∀ path, Path.canonical path ∈ directory.keys ↔ ∃ id, Stands calls path id
  respelled : ∀ path other, Path.Respelled path other → resolve? directory path = resolve? directory other

theorem mirrors_maps (directory : Directory) (calls : List Call) (mirrors : Mirrors directory calls) :
    Maps directory calls where
  toMirrors := mirrors
  entered entry member := by
    rw [resolve?, mirrors.canonical entry.1 (List.mem_map_of_mem member)]
    exact Directory.find_sorted _ mirrors.sorted entry member
  listed path := by
    simp only [← mirrors.resolved]
    constructor
    · intro member
      obtain ⟨entry, inside, same⟩ := List.mem_map.mp member
      rw [resolve?, ← same]
      exact ⟨entry.2, Directory.find_sorted _ mirrors.sorted entry inside⟩
    · rintro ⟨id, found⟩
      obtain ⟨before, behind, rfl, _⟩ := List.lookup_eq_some_iff.mp found
      simp [Directory.keys]
  respelled path other respelled := by
    rw [resolve?, resolve?, Path.respelled_canonical path other respelled]

end Registry

namespace Plant

open Interlock.Registry (Call Mirrors Maps Stands)

def unregister (plant : Plant) (registry : RegistryId) (path : String) : Option ChannelId × Plant :=
  (Registry.resolve? (plant.registry registry) path,
    plant.setRegistry registry (Registry.unregister (plant.registry registry) path))

theorem unregister_command (plant : Plant) (path : String) :
    plant.onChannel (.unregister path) =
      let (old, next) := plant.unregister plant.desk.registry path
      (.removed (plant.assignedName? old), next) := rfl

def answer (plant : Plant) (registry : RegistryId) : Call → Option ChannelId × Plant
  | .register path id => plant.register registry path id
  | .remove path => plant.unregister registry path

def answers (plant : Plant) (registry : RegistryId) : List Call → List (Option ChannelId) × Plant
  | [] => ([], plant)
  | call :: rest =>
      let (old, next) := plant.answer registry call
      let (later, last) := next.answers registry rest
      (old :: later, last)

-- Each answer names what the path of its call stood for before the call.
def Recounts (past calls : List Call) (answers : List (Option ChannelId)) : Prop :=
  answers.length = calls.length ∧ ∀ i call answer, calls[i]? = some call → answers[i]? = some answer →
    ∀ id, answer = some id ↔ Stands (past ++ calls.take i) call.path id

section

variable {plant : Plant} {registry : RegistryId} {past : List Call}
  (small : registry < plant.registries.length) (mirrors : Mirrors (plant.registry registry) past)

include small mirrors

theorem answer_mirrors (call : Call) :
    registry < (plant.answer registry call).2.registries.length ∧
      Mirrors ((plant.answer registry call).2.registry registry) (past ++ [call]) ∧
      ∀ id, (plant.answer registry call).1 = some id ↔ Stands past call.path id := by
  have set : ∀ directory (next : Plant), next.registries = plant.registries.set registry directory →
      registry < next.registries.length ∧ next.registry registry = directory := by
    intro directory next made
    rw [Plant.registry, made, List.length_set]
    exact ⟨small, Directory.get_set _ _ _ small⟩
  cases call with
  | register path id =>
      obtain ⟨inside, directory⟩ := set _ (plant.register registry path id).2 rfl
      refine ⟨inside, ?_, mirrors.resolved path⟩
      rw [answer, directory]
      exact Registry.mirrors_register mirrors path id
  | remove path =>
      obtain ⟨inside, directory⟩ := set _ (plant.unregister registry path).2 rfl
      refine ⟨inside, ?_, mirrors.resolved path⟩
      rw [answer, directory]
      exact Registry.mirrors_remove mirrors path

theorem answers_mirror (calls : List Call) :
    Mirrors ((plant.answers registry calls).2.registry registry) (past ++ calls) ∧
      Recounts past calls (plant.answers registry calls).1 := by
  induction calls generalizing plant past with
  | nil =>
      rw [List.append_nil]
      exact ⟨mirrors, rfl, by simp⟩
  | cons call rest ih =>
      obtain ⟨inside, next, truth⟩ := answer_mirrors small mirrors call
      obtain ⟨last, count, others⟩ := ih inside next
      rw [List.append_assoc] at last
      refine ⟨last, congrArg Nat.succ count, fun i later reply listed given => ?_⟩
      cases i with
      | zero =>
          obtain rfl := Option.some.inj listed
          have first : (plant.answer registry call).1 = reply := Option.some.inj given
          rw [← first, List.take_zero, List.append_nil]
          exact truth
      | succ i =>
          have own := others i later reply listed given
          rwa [List.append_assoc] at own

end

theorem fresh_mirrors (plant : Plant) (calls : List Call) :
    let (registry, fresh) := plant.addRegistry
    let (answers, last) := fresh.answers registry calls
    Mirrors (last.registry registry) calls ∧ Recounts [] calls answers := by
  have small : plant.registries.length < plant.addRegistry.2.registries.length := by simp [addRegistry]
  have empty : plant.addRegistry.2.registry plant.registries.length = [] := by
    simp [Plant.registry, addRegistry]
  exact answers_mirror small (empty ▸ Registry.mirrors_empty) calls

theorem registry_maps (plant : Plant) (calls : List Call) :
    let (registry, fresh) := plant.addRegistry
    let (answers, last) := fresh.answers registry calls
    Maps (last.registry registry) calls ∧ Recounts [] calls answers :=
  ⟨Registry.mirrors_maps _ _ (fresh_mirrors plant calls).1, (fresh_mirrors plant calls).2⟩

end Plant

end Interlock
