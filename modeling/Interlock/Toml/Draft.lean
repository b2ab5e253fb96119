import Interlock.Toml.Tree

/-!
Tables while their document is being read. How a table came to be decides whether it may still be
named by a header or extended by a dotted key.
-/

set_option autoImplicit false

namespace Interlock.Toml

inductive Origin where
  -- named by a header
  | named
  -- passed on the way to a longer header
  | passed
  -- passed on the way to the end of a dotted key
  | dotted
deriving DecidableEq, Repr

inductive Draft where
  | value (tree : Tree)
  | table (origin : Origin) (entries : List (String × Draft))
  -- a list of tables of which only the last one is open
  | tables (closed : List (List (String × Draft))) (last : List (String × Draft))

abbrev Drafts := List (String × Draft)

mutual

def Draft.toTree : Draft → Tree
  | .value tree => tree
  | .table _ entries => .table (entriesOf entries)
  | .tables closed last => .array (tablesOf closed ++ [.table (entriesOf last)])

def entriesOf : List (String × Draft) → Table
  | [] => []
  | (key, draft) :: rest => (key, draft.toTree) :: entriesOf rest

def tablesOf : List (List (String × Draft)) → List Tree
  | [] => []
  | entries :: rest => .table (entriesOf entries) :: tablesOf rest

end

def revise (key : String) (change : Option Draft → Option Draft) : Drafts → Option Drafts
  | [] => (change none).map fun draft => [(key, draft)]
  | (other, draft) :: rest =>
      if other = key then (change (some draft)).map fun draft => (other, draft) :: rest
      else (revise key change rest).map fun rest => (other, draft) :: rest

-- Changes the table at a path, passing the open tables of lists and making what is absent.
def descend (change : Drafts → Option Drafts) : List String → Drafts → Option Drafts
  | [], drafts => change drafts
  | key :: rest, drafts =>
      revise key
        (fun
          | none => (descend change rest []).map (.table .passed)
          | some (.table origin inner) => (descend change rest inner).map (.table origin)
          | some (.tables closed last) => (descend change rest last).map (.tables closed)
          | some (.value _) => none)
        drafts

-- Enters a value under a dotted key. Only tables without a header of their own may be passed, and
-- the last one must stem from dotted keys.
def assign (tree : Tree) : List String → Drafts → Option Drafts
  | [], _ => none
  | [key], drafts =>
      revise key (fun | none => some (.value tree) | some _ => none) drafts
  | key :: rest, drafts =>
      revise key
        (fun
          | none => (assign tree rest []).map (.table .dotted)
          | some (.table origin inner) =>
              if origin = .named ∨ (rest.length = 1 ∧ origin ≠ .dotted) then none
              else (assign tree rest inner).map (.table origin)
          | some (.tables closed last) =>
              if rest.length = 1 then none else (assign tree rest last).map (.tables closed)
          | some (.value _) => none)
        drafts

def openTable (path : List String) (drafts : Drafts) : Option Drafts :=
  match path.getLast? with
  | none => none
  | some key =>
      descend
        (revise key fun
          | none => some (.table .named [])
          | some (.table .passed inner) => some (.table .named inner)
          | some _ => none)
        path.dropLast drafts

def openNext (path : List String) (drafts : Drafts) : Option Drafts :=
  match path.getLast? with
  | none => none
  | some key =>
      descend
        (revise key fun
          | none => some (.tables [] [])
          | some (.tables closed last) => some (.tables (closed ++ [last]) [])
          | some _ => none)
        path.dropLast drafts

end Interlock.Toml
