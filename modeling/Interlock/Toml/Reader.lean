import Interlock.Toml.Draft
import Interlock.Toml.Scalar

/-!
A reader of TOML documents.
-/

set_option autoImplicit false

namespace Interlock.Toml

def readScalar (cs : List Char) : Option (Tree × List Char) :=
  match cs with
  | 't' :: 'r' :: 'u' :: 'e' :: rest => some (.bool true, rest)
  | 'f' :: 'a' :: 'l' :: 's' :: 'e' :: rest => some (.bool false, rest)
  | cs =>
      match readDate cs with
      | some found => some found
      | none => readNumber cs

mutual

-- Every step down spends fuel; `depth` is what is left of the depth limit.
def readTree : Nat → Nat → List Char → Option (Tree × List Char)
  | 0, _, _ => none
  | fuel + 1, depth, cs =>
      match cs with
      | [] => none
      | c :: rest =>
          if c = '"' ∨ c = '\'' then (readText cs).map fun (content, rest) => (.text content, rest)
          else if c = '[' then
            if depth ≤ 1 then none
            else (readItems fuel (depth - 1) rest).map fun (items, rest) => (.array items, rest)
          else if c = '\x7b' then
            if depth ≤ 1 then none
            else
              match skipSpaces rest with
              | '\x7d' :: rest => some (.table [], rest)
              | rest =>
                  (readEntries fuel (depth - 1) [] rest).map fun (drafts, rest) =>
                    (.table (entriesOf drafts), rest)
          else readScalar cs

def readItems : Nat → Nat → List Char → Option (List Tree × List Char)
  | 0, _, _ => none
  | fuel + 1, depth, cs =>
      match skipGaps (cs.length + 1) cs with
      | ']' :: rest => some ([], rest)
      | rest =>
          match readTree fuel depth rest with
          | none => none
          | some (item, rest) =>
              match skipGaps (rest.length + 1) rest with
              | ']' :: rest => some ([item], rest)
              | ',' :: rest =>
                  (readItems fuel depth rest).map fun (items, rest) => (item :: items, rest)
              | _ => none

def readEntries : Nat → Nat → Drafts → List Char → Option (Drafts × List Char)
  | 0, _, _, _ => none
  | fuel + 1, depth, drafts, cs =>
      match readKey cs with
      | some (path, '=' :: rest) =>
          match readTree fuel depth (skipSpaces rest) with
          | none => none
          | some (tree, rest) =>
              match assign tree path drafts with
              | none => none
              | some drafts =>
                  match skipSpaces rest with
                  | '\x7d' :: rest => some (drafts, rest)
                  | ',' :: rest => readEntries fuel depth drafts rest
                  | _ => none
      | _ => none

end

-- What has been read of a document: all its tables, and the path of the open one.
structure Page where
  drafts : Drafts
  path : List String

def Page.blank : Page := ⟨[], []⟩

def readHeader (page : Page) (cs : List Char) : Option (Page × List Char) :=
  match cs with
  | '[' :: rest =>
      match readKey rest with
      | some (path, ']' :: ']' :: rest) =>
          (openNext path page.drafts).map fun drafts => (⟨drafts, path⟩, rest)
      | _ => none
  | cs =>
      match readKey cs with
      | some (path, ']' :: rest) =>
          (openTable path page.drafts).map fun drafts => (⟨drafts, path⟩, rest)
      | _ => none

def readEntry (page : Page) (cs : List Char) : Option (Page × List Char) :=
  match readKey cs with
  | some (key, '=' :: rest) =>
      let rest := skipSpaces rest
      match readTree (2 * rest.length + 2) depthLimit rest with
      | some (tree, rest) =>
          (descend (assign tree key) page.path page.drafts).map fun drafts =>
            ({ page with drafts := drafts }, rest)
      | none => none
  | _ => none

def readLines : Nat → Page → List Char → Option Page
  | 0, _, _ => none
  | fuel + 1, page, cs =>
      match skipSpaces cs with
      | [] => some page
      | c :: rest =>
          let line :=
            if c = '#' ∨ c = '\n' ∨ c = '\r' then some (page, c :: rest)
            else if c = '[' then readHeader page rest
            else readEntry page (c :: rest)
          match line with
          | none => none
          | some (page, rest) =>
              match endLine? rest with
              | none => none
              | some rest => readLines fuel page rest

-- A mark of the byte order does not belong to the text.
def skipByteMark (cs : List Char) : List Char :=
  match cs with
  | c :: rest => if c.toNat = 0xfeff then rest else cs
  | [] => []

def read (document : String) : Option Table :=
  let cs := skipByteMark document.toList
  (readLines (cs.length + 1) .blank cs).map fun page => entriesOf page.drafts

end Interlock.Toml
