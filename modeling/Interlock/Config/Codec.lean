import Interlock.Toml.Tree

/-!
Records as TOML data. A shape lists the fields of a record once; reading and writing both follow it.
-/

set_option autoImplicit false

namespace Interlock.Config

open Interlock.Toml (Tree Table)

inductive Refusal where
  | unreadable
  | wrongKind
  | outOfRange
  | tooShort
  | missing
deriving DecidableEq, Repr

-- How data of one type are read and written. What is written as nothing leaves out its key.
structure Codec (α : Type) where
  read : Tree → Except Refusal α
  written : α → Option Tree

namespace Codec

def text : Codec String where
  read
    | .text content => .ok content
    | _ => .error .wrongKind
  written content := some (.text content)

def flag : Codec Bool where
  read
    | .bool b => .ok b
    | _ => .error .wrongKind
  written b := some (.bool b)

def count : Codec Nat where
  read
    | .integer n => if n < 0 then .error .outOfRange else .ok n.toNat
    | _ => .error .wrongKind
  written n := some (.integer n)

def optional {α : Type} (codec : Codec α) : Codec (Option α) where
  read tree := (codec.read tree).map some
  written
    | some a => codec.written a
    | none => none

def readAll {α : Type} (codec : Codec α) : List Tree → Except Refusal (List α)
  | [] => .ok []
  | tree :: rest =>
      match codec.read tree with
      | .error refusal => .error refusal
      | .ok a => (readAll codec rest).map (a :: ·)

def list {α : Type} (codec : Codec α) : Codec (List α) where
  read
    | .array items => codec.readAll items
    | _ => .error .wrongKind
  written items := some (.array (items.filterMap codec.written))

end Codec

structure Field (σ : Type) where
  key : String
  read : Tree → σ → Except Refusal σ
  written : σ → Option Tree

def Codec.field {α σ : Type} (codec : Codec α) (key : String) (get : σ → α) (set : α → σ → σ) :
    Field σ where
  key := key
  read tree record := (codec.read tree).map fun a => set a record
  written record := codec.written (get record)

-- The fields of a record in the order of positions and of writing. The first `required` of them
-- have to be given, the others start with the values of `start`.
structure Shape (σ : Type) where
  start : σ
  required : Nat
  fields : List (Field σ)

namespace Shape

variable {σ : Type}

def insertField (field : Field σ) : List (Field σ) → List (Field σ)
  | [] => [field]
  | other :: rest =>
      if field.key ≤ other.key then field :: other :: rest else other :: insertField field rest

-- Entries of a table are read in the order of their keys, which decides between two faults.
def sorted : List (Field σ) → List (Field σ)
  | [] => []
  | field :: rest => insertField field (sorted rest)

def readFields (entries : Table) : List (Field σ) → σ → Except Refusal σ
  | [], record => .ok record
  | field :: rest, record =>
      match entries.lookup field.key with
      | none => readFields entries rest record
      | some tree =>
          match field.read tree record with
          | .error refusal => .error refusal
          | .ok record => readFields entries rest record

def readTable (shape : Shape σ) (entries : Table) : Except Refusal σ :=
  match readFields entries (sorted shape.fields) shape.start with
  | .error refusal => .error refusal
  | .ok record =>
      if (shape.fields.take shape.required).all fun field => (entries.lookup field.key).isSome then
        .ok record
      else .error .missing

def readPositions : List (Field σ) → List Tree → σ → Except Refusal σ
  | field :: fields, tree :: items, record =>
      match field.read tree record with
      | .error refusal => .error refusal
      | .ok record => readPositions fields items record
  | _, _, record => .ok record

-- A record may be given as an array of its fields; what stands behind the last one is not read.
def readArray (shape : Shape σ) (items : List Tree) : Except Refusal σ :=
  match readPositions shape.fields items shape.start with
  | .error refusal => .error refusal
  | .ok record => if items.length < shape.required then .error .tooShort else .ok record

def table (shape : Shape σ) (record : σ) : Table :=
  shape.fields.filterMap fun field => (field.written record).map fun tree => (field.key, tree)

-- A date counts as a table without any of the keys.
def codec (shape : Shape σ) : Codec σ where
  read
    | .table entries => shape.readTable entries
    | .date _ => shape.readTable []
    | .array items => shape.readArray items
    | _ => .error .wrongKind
  written record := some (.table (shape.table record))

end Shape

end Interlock.Config
