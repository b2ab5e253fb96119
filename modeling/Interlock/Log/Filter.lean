import Interlock.Log.Record
import Interlock.Text.Blank
import Interlock.Text.Letter
import Interlock.Text.Split

/-!
Filters of the log: rules that admit records down to a level. Of the rules that concern a record the
most specific one decides; a record that no rule concerns is hidden.

A setting lists rules between commas: a level, a target, `target=level`, or the latter two with
brackets `[span{field}]` behind the target. A rule with a span or with the content of a field
concerns no record, for the program opens no spans.
-/

set_option autoImplicit false

namespace Interlock.Log

structure Rule where
  -- the beginning of the targets that the rule is for
  target : Option String
  -- a detail that a record must have
  field : Option String
  -- absent if the rule hides what it concerns
  least : Option Level
deriving DecidableEq, Repr

namespace Rule

def ofLevel (level : Level) : Rule := ⟨none, none, some level⟩

def concerns (rule : Rule) (record : Record) : Bool :=
  (rule.target.all fun target => target.toList.isPrefixOf record.target.toList) &&
    (rule.field.all fun field =>
      field == Record.messageName || record.details.any fun detail => detail.1 == field)

-- A rule without a target is shorter than any other.
def length (rule : Rule) : Nat :=
  match rule.target with
  | some target => target.utf8ByteSize + 1
  | none => 0

-- Longer targets come first, then rules with a field; of two fields the later name.
def precedes (a b : Rule) : Bool :=
  if a.length ≠ b.length then b.length < a.length
  else
    match a.field, b.field with
    | some _, none => true
    | some field, some other => other < field
    | none, _ => false

def admits (rule : Rule) (level : Level) : Bool :=
  rule.least.any fun least => least.rank ≤ level.rank

def readNumber? (cs : List Char) : Option Nat :=
  let ds :=
    match cs with
    | '+' :: rest => rest
    | cs => cs
  if ds.isEmpty || !ds.all Number.isDigit then none else some (Number.ofDigits ds)

-- Zero is for no record, one for the gravest only, and so on.
def limitOfNumber? : Nat → Option (Option Level)
  | 0 => some none
  | n + 1 => (Level.all.reverse[n]?).map some

def limitOfName? (name : String) : Option (Option Level) :=
  if name = "off" then some none
  else (Level.all.find? fun level => level.name == name).map some

-- A level by number, or by name in either case of ASCII letters.
def readLimit? (cs : List Char) : Option (Option Level) :=
  match (readNumber? cs).bind limitOfNumber? with
  | some limit => some limit
  | none => limitOfName? (String.ofList (Number.lowerAscii cs))

-- The level behind an equals sign; if it is left out, the rule shows everything.
def readLimitOrAll? (cs : List Char) : Option (Option Level) :=
  if cs.isEmpty then some (some .trace) else readLimit? cs

def slice (cs : List Char) (first last : Nat) : List Char := (cs.drop first).take (last - first)

-- What follows the brackets, at a place of the text.
def readLevelPart (written : List Char) (place : Nat) (make : Option Level → Option Rule) :
    List Char → Option (Option Rule)
  | [] => some (make (some .trace))
  | '=' :: _ => (readLimitOrAll? (written.drop (place + 1))).map make
  | _ => none

-- A rule of a field; not one of its content or of a span.
def ofField (target : Option String) (span field : List Char) (least : Option Level) : Option Rule :=
  if span.isEmpty && !field.contains '=' then some ⟨target, some (String.ofList field), least⟩
  else none

-- A span, a field in braces, or both, behind the opening bracket at a place of the text.
def readBrackets (written : List Char) (place : Nat) (target : Option String) (cs : List Char) :
    Option (Option Rule) :=
  let span := cs.takeWhile fun c => c != ']' && c != '\x7b'
  match cs.drop span.length with
  | ']' :: rest => readLevelPart written (place + span.length + 1) (fun _ => none) rest
  | '\x7b' :: rest =>
      let field := rest.takeWhile (· != '\x7d')
      let first := place + span.length + 1
      match rest.drop field.length with
      | '\x7d' :: ']' :: rest =>
          if field.isEmpty then none
          else
            readLevelPart written (first + field.length + 2)
              (ofField target span (slice written first (first + field.length))) rest
      | _ => none
  | _ => none

def startsTarget (c : Char) : Bool :=
  c == '-' || c == ':' || c == '_' || Text.isLetter c || Text.isNumeral c

def read (written : List Char) : Option (Option Rule) :=
  match Text.trim written with
  | [] => none
  | '[' :: rest => readBrackets written 1 none rest
  | c :: rest =>
      if startsTarget c then
        let word := (c :: rest).takeWhile fun c => c != '=' && c != '['
        let target := String.ofList (slice written 0 word.length)
        match (c :: rest).drop word.length with
        | '=' :: _ =>
            (readLimitOrAll? (written.drop (word.length + 1))).map fun least =>
              some ⟨some target, none, least⟩
        | _ :: rest => readBrackets written (word.length + 1) (some target) rest
        | [] =>
            match readLimit? written with
            | some least => some (some ⟨none, none, least⟩)
            | none => some (some ⟨some (String.ofList written), none, some .trace⟩)
      else none

end Rule

-- The rules that count, in no particular order.
abbrev Filter := List Rule

namespace Filter

-- The later of two rules for the same target and field counts.
def add (filter : Filter) (rule : Rule) : Filter :=
  (filter.filter fun other => other.target != rule.target || other.field != rule.field) ++ [rule]

def decisive? (filter : Filter) (record : Record) : Option Rule :=
  (filter.filter fun rule => rule.concerns record).foldl
    (fun best rule =>
      match best with
      | some found => if rule.precedes found then some rule else some found
      | none => some rule)
    none

def shows (filter : Filter) (record : Record) : Bool :=
  (filter.decisive? record).any fun rule => rule.admits record.level

def readRules : List (List Char) → Option (List Rule)
  | [] => some []
  | written :: rest =>
      match Rule.read written, readRules rest with
      | some (some rule), some rules => some (rule :: rules)
      | some none, some rules => some rules
      | _, _ => none

-- A setting without rules leaves the errors.
def read (setting : String) : Option Filter :=
  let written := (Text.splitAll ',' setting.toList).filter fun rule => !rule.isEmpty
  if written.isEmpty then some [.ofLevel .error]
  else (readRules written).map fun rules => rules.foldl add []

-- What a setting asks for; without one that is understood, all records down to the usual level.
def ofSetting (setting : Option String) (usual : Level) : Filter :=
  (setting.bind read).getD [.ofLevel usual]

end Filter

end Interlock.Log
