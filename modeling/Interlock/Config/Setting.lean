import Interlock.Text.Blank
import Interlock.Toml.Lexeme
import Interlock.Toml.Tree

/-!
The text of an environment variable as data: truth values, numbers, quoted texts, arrays and tables.
A text of no such form stands for itself, blanks at its ends included.
-/

set_option autoImplicit false

namespace Interlock.Config.Setting

open Interlock.Toml (Tree Table)

def isSpace (c : Char) : Bool :=
  c == ' ' || c == '\t' || c == '\n' || c == '\r' || c.toNat == 12

def skipSpaces (cs : List Char) : List Char := cs.dropWhile isSpace

def isSeparator (c : Char) : Bool :=
  c == ',' || c == '[' || c == ']' || c == '\x7b' || c == '\x7d'

def isKeyChar (c : Char) : Bool := c.isAlphanum || c == '_' || c == '-'

-- The longest beginning that takes at most so many bytes.
def takeBytes : Nat → List Char → List Char
  | _, [] => []
  | budget, c :: rest => if c.utf8Size ≤ budget then c :: takeBytes (budget - c.utf8Size) rest else []

-- What stands in front of the first escape keeps only as many bytes as it has characters.
def cutBeforeEscape (written content : List Char) : List Char :=
  let plain := written.takeWhile fun c => c != '\\' && c != '"'
  match written.drop plain.length with
  | '\\' :: _ => takeBytes plain.length plain ++ content.drop plain.length
  | _ => content

def readText (cs : List Char) : Option (String × List Char) :=
  (Toml.readQuoted (cs.length + 1) cs).map fun (content, rest) =>
    (String.ofList (cutBeforeEscape cs content), rest)

-- A whole number of 64 bits, with or without a sign bit.
def readInteger (cs : List Char) : Option Int :=
  let (negative, ds) := Number.splitSign cs
  if ds.isEmpty || !ds.all Number.isDigit then none
  else
    let n := Number.ofDigits ds
    if negative then (if n ≤ Nat.pow 2 63 then some (-(n : Int)) else none)
    else if n < Nat.pow 2 64 then some n
    else none

def ofWord (word : List Char) : Tree :=
  let float := if word.contains '.' then Number.read word else none
  match float with
  | some x => .float x
  | none =>
      match readInteger word with
      | some n => .integer n
      | none => .text (String.ofList word)

def readKey (cs : List Char) : Option (String × List Char) :=
  match cs with
  | '"' :: rest => readText rest
  | cs =>
      let key := cs.takeWhile isKeyChar
      if key.isEmpty then none else some (String.ofList key, cs.dropWhile isKeyChar)

def enter (key : String) (tree : Tree) (entries : Table) : Table :=
  (entries.filter fun entry => entry.1 != key) ++ [(key, tree)]

mutual

def readTree : Nat → List Char → Option (Tree × List Char)
  | 0, _ => none
  | fuel + 1, cs =>
      let read : Option (Tree × List Char) :=
        match skipSpaces cs with
        | 't' :: 'r' :: 'u' :: 'e' :: rest => some (.bool true, rest)
        | 'f' :: 'a' :: 'l' :: 's' :: 'e' :: rest => some (.bool false, rest)
        | '\x7b' :: rest =>
            (readEntries fuel [] rest).map fun (entries, rest) => (.table entries, rest)
        | '[' :: rest => (readItems fuel rest).map fun (items, rest) => (.array items, rest)
        | '"' :: rest => (readText rest).map fun (content, rest) => (.text content, rest)
        | '\'' :: c :: '\'' :: rest => some (.text (String.ofList [c]), rest)
        | '\'' :: _ => none
        | cs =>
            let (word, rest) := cs.span fun c => !isSeparator c
            some (ofWord (Text.trim word), rest)
      read.map fun (tree, rest) => (tree, skipSpaces rest)

def readItems : Nat → List Char → Option (List Tree × List Char)
  | 0, _ => none
  | fuel + 1, cs =>
      match cs with
      | ']' :: rest => some ([], rest)
      | cs =>
          match readTree fuel cs with
          | some (item, ']' :: rest) => some ([item], rest)
          | some (item, ',' :: rest) =>
              (readItems fuel rest).map fun (items, rest) => (item :: items, rest)
          | _ => none

def readEntries : Nat → Table → List Char → Option (Table × List Char)
  | 0, _, _ => none
  | fuel + 1, entries, cs =>
      match cs with
      | '\x7d' :: rest => some (entries, rest)
      | cs =>
          match readKey (skipSpaces cs) with
          | none => none
          | some (key, rest) =>
              match skipSpaces rest with
              | '=' :: rest =>
                  match readTree fuel rest with
                  | some (tree, '\x7d' :: rest) => some (enter key tree entries, rest)
                  | some (tree, ',' :: rest) => readEntries fuel (enter key tree entries) rest
                  | _ => none
              | _ => none

end

def read (text : String) : Tree :=
  let cs := text.toList
  match readTree (2 * cs.length + 2) cs with
  | some (tree, []) => tree
  | _ => .text text

end Interlock.Config.Setting
