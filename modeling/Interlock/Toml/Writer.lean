import Interlock.Toml.Lexeme
import Interlock.Toml.Tree

/-!
The written form of a TOML document. In every table the plain entries stand first, in order; tables
and lists of tables follow, each under a header behind an empty line.
-/

set_option autoImplicit false

namespace Interlock.Toml

structure Traits where
  -- control characters other than tabs and ends of lines
  control : Bool
  backslash : Bool
  newline : Bool
  -- the longest runs of quotes
  apostrophes : Nat
  quotes : Nat
deriving DecidableEq, Repr

def isControl (c : Char) : Bool := !isPlain c && c != '\n'

-- The longest run of a character; `current` is the length of the run in progress.
def longestRun (mark : Char) : Nat → List Char → Nat
  | current, [] => current
  | current, c :: rest =>
      if c = mark then longestRun mark (current + 1) rest
      else max current (longestRun mark 0 rest)

def Traits.of (cs : List Char) : Traits :=
  { control := cs.any isControl, backslash := cs.contains '\\', newline := cs.contains '\n',
    apostrophes := longestRun '\'' 0 cs, quotes := longestRun '"' 0 cs }

inductive Quoting where
  | quoted
  | literal
  | longQuoted
  | longLiteral
deriving DecidableEq, Repr

-- The first way of quoting that needs no escapes; without one, escapes.
def Traits.quoting (traits : Traits) : Quoting :=
  if !traits.control && !traits.backslash && traits.quotes = 0 && !traits.newline then .quoted
  else if !traits.control && traits.apostrophes = 0 && !traits.newline then .literal
  else if !traits.control && !traits.backslash && traits.quotes ≤ 2 then .longQuoted
  else if !traits.control && traits.apostrophes ≤ 2 then .longLiteral
  else if traits.newline then .longQuoted
  else .quoted

def hexDigit (n : Nat) : Char := if n < 10 then Char.ofNat (48 + n) else Char.ofNat (55 + n)

def escape (c : Char) : List Char :=
  if c = '"' ∨ c = '\\' then ['\\', c]
  else if c = '\t' then ['\\', 't']
  else if c = '\n' then ['\\', 'n']
  else if c = '\r' then ['\\', 'r']
  else if c.toNat = 8 then ['\\', 'b']
  else if c.toNat = 12 then ['\\', 'f']
  else if isPlain c then [c]
  else ['\\', 'u', '0', '0', hexDigit (c.toNat / 16), hexDigit (c.toNat % 16)]

-- Escapes for a text over several lines: lines end as they are and up to two quotes stand in a
-- row; `run` counts those before.
def escapeLong : Nat → List Char → List Char
  | _, [] => []
  | run, c :: rest =>
      if c = '"' then
        if run = 2 then '\\' :: '"' :: escapeLong 0 rest else '"' :: escapeLong (run + 1) rest
      else if c = '\n' then '\n' :: escapeLong 0 rest
      else escape c ++ escapeLong 0 rest

def quote (content : String) : List Char :=
  let cs := content.toList
  let traits := Traits.of cs
  let start := if traits.newline then ['\n'] else []
  match traits.quoting with
  | .quoted => '"' :: cs.flatMap escape ++ ['"']
  | .literal => '\'' :: cs ++ ['\'']
  | .longQuoted => ['"', '"', '"'] ++ start ++ escapeLong 0 cs ++ ['"', '"', '"']
  | .longLiteral => ['\'', '\'', '\''] ++ start ++ cs ++ ['\'', '\'', '\'']

-- A key of plain characters stands bare.
def keyText (key : String) : List Char :=
  let cs := key.toList
  if !cs.isEmpty && cs.all isBare then cs else '"' :: cs.flatMap escape ++ ['"']

def integerText (n : Int) : List Char :=
  if n < 0 then '-' :: Number.digits n.natAbs else Number.digits n.natAbs

def floatText (x : Float) : List Char :=
  match Number.exact x with
  | .undefined => "nan".toList
  | .infinite _ => (Number.toPlainText x).toList
  | .finite _ _ =>
      let cs := (Number.toPlainText x).toList
      if cs.contains '.' then cs else cs ++ ['.', '0']

def joinWith (separator : List Char) : List (List Char) → List Char
  | [] => []
  | [part] => part
  | part :: rest => part ++ separator ++ joinWith separator rest

mutual

def valueText : Tree → List Char
  | .text content => quote content
  | .integer n => integerText n
  | .float x => floatText x
  | .bool b => if b then "true".toList else "false".toList
  | .date written => written.toList
  | .array [] => ['[', ']']
  | .array [item] => '[' :: valueText item ++ [']']
  | .array items => '[' :: itemsText items ++ ['\n', ']']
  | .table entries => ['\x7b', ' '] ++ joinWith [',', ' '] (entryTexts entries) ++ [' ', '\x7d']

def itemsText : List Tree → List Char
  | [] => []
  | item :: rest => "\n    ".toList ++ valueText item ++ [','] ++ itemsText rest

def entryTexts : Table → List (List Char)
  | [] => []
  | (key, tree) :: rest => (keyText key ++ [' ', '=', ' '] ++ valueText tree) :: entryTexts rest

end

def isTable : Tree → Bool
  | .table _ => true
  | _ => false

-- Whether an entry stands under a header of its own.
def hasHeader : Tree → Bool
  | .table _ => true
  | .array items => !items.isEmpty && items.all isTable
  | _ => false

def plainLines (entries : Table) : List Char :=
  ((entryTexts (entries.filter fun entry => !hasHeader entry.2)).map (· ++ ['\n'])).flatten

def pathText (path : List String) : List Char := joinWith ['.'] (path.map keyText)

mutual

def sections (path : List String) : Table → List Char
  | [] => []
  | (key, .table inner) :: rest =>
      (if inner.isEmpty || inner.any (fun entry => !hasHeader entry.2) then
          ['\n', '['] ++ pathText (path ++ [key]) ++ [']', '\n'] ++ plainLines inner
        else []) ++
        sections (path ++ [key]) inner ++ sections path rest
  | (key, .array items) :: rest =>
      (if hasHeader (.array items) then itemSections (path ++ [key]) items else []) ++
        sections path rest
  | _ :: rest => sections path rest

def itemSections (path : List String) : List Tree → List Char
  | [] => []
  | .table inner :: rest =>
      ['\n', '[', '['] ++ pathText path ++ [']', ']', '\n'] ++ plainLines inner ++
        sections path inner ++ itemSections path rest
  | _ :: rest => itemSections path rest

end

-- A document that begins with a header has no empty line in front.
def write (root : Table) : String :=
  let text := plainLines root ++ sections [] root
  String.ofList (match text with | '\n' :: rest => rest | text => text)

end Interlock.Toml
