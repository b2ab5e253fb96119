import Interlock.Number.Radix

/-!
Blanks, comments, quoted texts and keys of a TOML document. Every reader takes the rest of the text
and gives what it read and what follows.
-/

set_option autoImplicit false

namespace Interlock.Toml

def isSpace (c : Char) : Bool := c == ' ' || c == '\t'

def skipSpaces (cs : List Char) : List Char := cs.dropWhile isSpace

def isPlain (c : Char) : Bool := c == '\t' || (' ' ≤ c && c.toNat != 127)

def newline? : List Char → Option (List Char)
  | '\n' :: rest => some rest
  | '\r' :: '\n' :: rest => some rest
  | _ => none

def skipComment : List Char → List Char
  | '#' :: rest => rest.dropWhile isPlain
  | cs => cs

def endLine? (cs : List Char) : Option (List Char) :=
  match skipComment (skipSpaces cs) with
  | [] => some []
  | rest => newline? rest

-- Blanks, ends of lines and comments between the items of an array.
def skipGaps : Nat → List Char → List Char
  | 0, cs => cs
  | fuel + 1, cs =>
      let rest := skipSpaces cs
      match rest with
      | '#' :: _ =>
          match newline? (skipComment rest) with
          | some next => skipGaps fuel next
          | none => rest
      | _ =>
          match newline? rest with
          | some next => skipGaps fuel next
          | none => rest

def skipBreaks : List Char → List Char
  | [] => []
  | c :: rest =>
      if isSpace c || c = '\n' then skipBreaks rest
      else
        match c, rest with
        | '\r', '\n' :: rest' => skipBreaks rest'
        | _, _ => c :: rest

def escaped (c : Char) : Option Char :=
  if c = '"' ∨ c = '\\' then some c
  else if c = 'b' then some (Char.ofNat 8)
  else if c = 'f' then some (Char.ofNat 12)
  else if c = 'n' then some '\n'
  else if c = 'r' then some '\r'
  else if c = 't' then some '\t'
  else none

def readEscape : List Char → Option (Char × List Char)
  | [] => none
  | c :: rest =>
      if c = 'u' then Number.takeChar 4 rest
      else if c = 'U' then Number.takeChar 8 rest
      else (escaped c).map fun d => (d, rest)

def readQuoted : Nat → List Char → Option (List Char × List Char)
  | 0, _ => none
  | _, [] => none
  | fuel + 1, c :: rest =>
      if c = '"' then some ([], rest)
      else if c = '\\' then
        match readEscape rest with
        | some (d, rest) => (readQuoted fuel rest).map fun (cs, rest) => (d :: cs, rest)
        | none => none
      else if isPlain c then (readQuoted fuel rest).map fun (cs, rest) => (c :: cs, rest)
      else none

def readLiteral : List Char → Option (List Char × List Char)
  | [] => none
  | c :: rest =>
      if c = '\'' then some ([], rest)
      else if isPlain c then (readLiteral rest).map fun (cs, rest) => (c :: cs, rest)
      else none

-- Up to two more quotes may stand before the three that close a text over several lines.
def closing? (quote : Char) (cs : List Char) : Option (List Char × List Char) :=
  let run := cs.takeWhile (· == quote)
  if run.length < 3 then none
  else
    let extra := min 2 (run.length - 3)
    some (List.replicate extra quote, cs.drop (extra + 3))

def endsLine (cs : List Char) : Bool := (newline? (skipSpaces cs)).isSome

-- A text over several lines, up to its closing quotes.
def readLongQuoted : Nat → List Char → Option (List Char × List Char)
  | 0, _ => none
  | _, [] => none
  | fuel + 1, c :: rest =>
      match closing? '"' (c :: rest) with
      | some ended => some ended
      | none =>
          match newline? (c :: rest) with
          | some next => (readLongQuoted fuel next).map fun (cs, rest) => ('\n' :: cs, rest)
          | none =>
              if c = '\\' then
                if endsLine rest then readLongQuoted fuel (skipBreaks rest)
                else
                  match readEscape rest with
                  | some (d, rest) => (readLongQuoted fuel rest).map fun (cs, rest) => (d :: cs, rest)
                  | none => none
              else if isPlain c then
                (readLongQuoted fuel rest).map fun (cs, rest) => (c :: cs, rest)
              else none

def readLongLiteral : Nat → List Char → Option (List Char × List Char)
  | 0, _ => none
  | _, [] => none
  | fuel + 1, c :: rest =>
      match closing? '\'' (c :: rest) with
      | some ended => some ended
      | none =>
          match newline? (c :: rest) with
          | some next => (readLongLiteral fuel next).map fun (cs, rest) => ('\n' :: cs, rest)
          | none =>
              if isPlain c then (readLongLiteral fuel rest).map fun (cs, rest) => (c :: cs, rest)
              else none

-- A line that ends right behind the opening quotes does not count.
def skipNewline (cs : List Char) : List Char := (newline? cs).getD cs

def readText (cs : List Char) : Option (String × List Char) :=
  let read :=
    match cs with
    | '"' :: '"' :: '"' :: rest => readLongQuoted (rest.length + 1) (skipNewline rest)
    | '\'' :: '\'' :: '\'' :: rest => readLongLiteral (rest.length + 1) (skipNewline rest)
    | '"' :: rest => readQuoted (rest.length + 1) rest
    | '\'' :: rest => readLiteral rest
    | _ => none
  read.map fun (content, rest) => (String.ofList content, rest)

def isBare (c : Char) : Bool := c.isAlphanum || c == '_' || c == '-'

def readPart (cs : List Char) : Option (String × List Char) :=
  let read :=
    match cs with
    | '"' :: rest => readQuoted (rest.length + 1) rest
    | '\'' :: rest => readLiteral rest
    | cs =>
        let bare := cs.takeWhile isBare
        if bare.isEmpty then none else some (bare, cs.dropWhile isBare)
  read.map fun (part, rest) => (String.ofList part, rest)

def depthLimit : Nat := 80

-- A key of parts between points, with the blanks around it; shorter than the depth limit.
def readParts : Nat → List Char → Option (List String × List Char)
  | 0, _ => none
  | budget + 1, cs =>
      match readPart (skipSpaces cs) with
      | some (part, rest) =>
          match skipSpaces rest with
          | '.' :: rest => (readParts budget rest).map fun (parts, rest) => (part :: parts, rest)
          | rest => some ([part], rest)
      | none => none

def readKey (cs : List Char) : Option (List String × List Char) := readParts (depthLimit - 1) cs

end Interlock.Toml
