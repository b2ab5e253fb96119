import Interlock.Invocation.Execution
import Interlock.Proofs.Json.Roundtrip
import Interlock.Proofs.Value.Conversion
import Interlock.Value.Interchange

/-!
Values that come back from their JSON text. The kinds other than numbers come back as they are, with instants to
the nanosecond. Of a number its literal comes back, which tells it from all others, but the reader of literals
rounds more than once; only where nothing is lost before the last rounding it finds the very number. An infinite
number has no JSON text.
-/

set_option autoImplicit false

namespace Interlock.Value

open Interlock.Calendar (Instant)
open Interlock.Json (Document Literal)
open Interlock.Number (isDigit)

inductive Denoted : Value → Prop where
  | number (x : Float) (defined : Number.exact x ≠ .undefined) : Denoted (.number x)
  | bool (b : Bool) : Denoted (.bool b)
  | timestamp (instant : Instant) (civil : instant.Civil) : Denoted (.timestamp instant)
  | text (content : String) : Denoted (.text content)

theorem low_unnamed (negative : Bool) (c : Char) (rest : List Char) (low : c.toNat < 65) :
    Number.readNamed negative (c :: rest) = none := by
  have apart : ∀ d : Char, 65 ≤ d.toNat → c ≠ d := by
    rintro d large rfl
    omega
  have noInfinity := apart 'i' (by decide)
  have noNan := apart 'n' (by decide)
  simp [Number.readNamed, Number.lowerAscii, lower_low c low, noInfinity, noNan]

theorem read_defined (literal : List Char) (x : Float) (read : readNumber literal = some x) :
    Number.exact x ≠ .undefined := by
  unfold readNumber at read
  split at read
  · contradiction
  · next c rest body =>
    split at read
    · next opens =>
      have low : c.toNat < 65 := by
        rcases Bool.or_eq_true _ _ ▸ opens with digit | point
        · exact digit_low c digit
        · rw [eq_of_beq point]
          decide
      unfold Number.read at read
      dsimp only at read
      rw [body] at read
      split at read
      · cases read
        exact Number.to_float_defined _ _
      · rw [low_unnamed _ c rest low] at read
        contradiction
    · contradiction

theorem infer_denoted (literal : String) : (infer literal).Denoted := by
  unfold infer
  dsimp only
  split
  · exact .bool _
  · split
    · next read => exact .number _ (read_defined _ _ read)
    · split
      · next read => exact .timestamp _ (Calendar.read_instant_civil _ _ read)
      · exact .text _

def Infinite : Value → Prop
  | number x => ∃ negative, Number.exact x = .infinite negative
  | _ => False

-- The literal that is read where a number was written. Rounded once, it is the number.
structure Tells (numeral : Literal) (x : Float) : Prop where
  read : Document.read (Json.numberText x) = some (.number numeral)
  nearest : Number.ofRatio numeral.negative numeral.decimal.numerator numeral.decimal.denominator = x

theorem kind_named (kind : Kind) : Kind.ofName? kind.name = some kind := by
  cases kind <;> rfl

theorem read_json (value : Value) :
    ofJsonText? value.toJson.render = ofContent? value.kind value.content.document := by
  rw [ofJsonText?, Json.read_render, Option.bind_some, toJson, Json.Tree.document]
  change ((some value.kind.name).bind Kind.ofName?).bind _ = _
  rw [Option.bind_some, kind_named, Option.bind_some]

theorem finite_read_back (x : Float) (negative : Bool) (quanta : Nat)
    (classified : Number.exact x = .finite negative quanta) :
    ∃ numeral found, Tells numeral x ∧ ofJsonText? (number x).toJson.render = some (number found) ∧
      (numeral.Certain → found = x) := by
  have document : Json.ofNumber x = .number (Literal.ofQuanta negative quanta) := by rw [Json.ofNumber, classified]
  obtain ⟨magnitude, finite, rfl, same⟩ := Number.magnitude_of_exact x negative quanta classified
  obtain ⟨found, reads⟩ := Json.of_quanta_found negative magnitude finite
  refine ⟨_, found, ⟨(Json.read_render (.number x)).trans (congrArg some document), ?_⟩, ?_, fun certain => ?_⟩
  · rw [Number.ofRatio, Json.of_quanta_rounds negative magnitude finite, Literal.ofQuanta,
      Json.of_decimal_negative, same]
  · rw [read_json, kind, content, Json.Tree.document, document]
    exact congrArg (Option.map number) reads
  · rw [Json.of_quanta_exact negative magnitude finite certain, same] at reads
    exact (Option.some.inj reads).symm

section

variable (value : Value) (denoted : value.Denoted)

include denoted

theorem number_read_back (bounded : ¬ value.Infinite) (x : Float) (same : value = number x) :
    ∃ numeral found, Tells numeral x ∧ ofJsonText? value.toJson.render = some (number found) ∧
      (numeral.Certain → found = x) := by
  subst same
  cases denoted with
  | number x defined =>
      cases classified : Number.exact x with
      | finite negative quanta => exact finite_read_back x negative quanta classified
      | infinite negative => exact absurd ⟨negative, classified⟩ bounded
      | undefined => exact absurd classified defined

theorem other_read_back (other : value.kind ≠ .number) : ofJsonText? value.toJson.render = some value := by
  rw [read_json]
  cases denoted with
  | number x => exact absurd rfl other
  | bool b => rfl
  | text content => rfl
  | timestamp instant civil => exact congrArg (Option.map timestamp) (Calendar.interchange_reads instant civil)

end

theorem number_told (x y : Float) (defined : Number.exact x ≠ .undefined) (known : Number.exact y ≠ .undefined)
    (same : Json.ofNumber x = Json.ofNumber y) : x = y ∨ (number x).Infinite ∧ (number y).Infinite := by
  rw [Json.ofNumber, Json.ofNumber] at same
  cases first : Number.exact x with
  | undefined => exact absurd first defined
  | infinite negative =>
      cases second : Number.exact y with
      | undefined => exact absurd second known
      | infinite sign => exact .inr ⟨⟨negative, first⟩, ⟨sign, second⟩⟩
      | finite sign quanta =>
          rw [first, second] at same
          contradiction
  | finite negative quanta =>
      cases second : Number.exact y with
      | undefined => exact absurd second known
      | infinite sign =>
          rw [first, second] at same
          contradiction
      | finite sign others =>
          rw [first, second] at same
          obtain ⟨magnitude, finite, rfl, value⟩ := Number.magnitude_of_exact x negative quanta first
          obtain ⟨other, limited, rfl, back⟩ := Number.magnitude_of_exact y sign others second
          refine .inl ?_
          rw [← value, ← back]
          exact Json.of_quanta_distinct negative magnitude finite sign other limited (Document.number.inj same)

theorem told_apart (value other : Value) (denoted : value.Denoted) (another : other.Denoted)
    (same : value.toJson.document = other.toJson.document) : value = other ∨ value.Infinite ∧ other.Infinite := by
  obtain ⟨first, second⟩ := List.cons.inj (Document.object.inj same)
  have names : value.kind.name = other.kind.name := Option.some.inj (Document.text.inj (Prod.mk.inj first).2)
  have kinds : value.kind = other.kind :=
    Option.some.inj ((kind_named _).symm.trans ((congrArg Kind.ofName? names).trans (kind_named _)))
  have contents : value.content.document = other.content.document :=
    (Prod.mk.inj (List.cons.inj second).1).2
  cases denoted with
  | number x defined =>
      cases another with
      | number y known => exact (number_told x y defined known contents).imp_left (congrArg number)
      | bool | timestamp | text => cases kinds
  | bool a =>
      cases another with
      | bool b => exact .inl (congrArg bool (Document.bool.inj contents))
      | number | timestamp | text => cases kinds
  | timestamp instant civil =>
      cases another with
      | timestamp moment timely =>
          have texts : instant.interchange = moment.interchange := Option.some.inj (Document.text.inj contents)
          have read := Calendar.interchange_reads instant civil
          rw [texts, Calendar.interchange_reads moment timely] at read
          exact .inl (congrArg timestamp (Option.some.inj read).symm)
      | number | bool | text => cases kinds
  | text content =>
      cases another with
      | text words => exact .inl (congrArg text (Option.some.inj (Document.text.inj contents)))
      | number | bool | timestamp => cases kinds

open Interlock.Invocation (lineOf?)
open Interlock.Schedule (Progress SequenceId)

theorem event_told (path place : String) (value other : Value) (denoted : value.Denoted) (another : other.Denoted)
    (same : (Progress.actionApplied path value).toJson.render = (Progress.actionApplied place other).toJson.render) :
    value = other ∨ value.Infinite ∧ other.Infinite := by
  have documents : (Progress.actionApplied path value).toJson.document =
      (Progress.actionApplied place other).toJson.document := by
    have read := Json.read_render (Progress.actionApplied path value).toJson
    rw [same, Json.read_render] at read
    exact (Option.some.inj read).symm
  obtain ⟨_, details⟩ := List.cons.inj (Document.object.inj documents)
  obtain ⟨_, values⟩ := List.cons.inj details
  exact told_apart value other denoted another (Prod.mk.inj (List.cons.inj values).1).2

theorem json_tells_values (literal : String) (bounded : ¬ (infer literal).Infinite) :
    ((infer literal).kind ≠ .number → ofJsonText? (infer literal).toJson.render = some (infer literal)) ∧
      (∀ x, infer literal = number x → ∃ numeral found, Tells numeral x ∧
        ofJsonText? (infer literal).toJson.render = some (number found) ∧ (numeral.Certain → found = x)) ∧
      ∀ other, infer other ≠ infer literal →
        (infer other).toJson.render ≠ (infer literal).toJson.render ∧
        ∀ filter id station path place,
          lineOf? filter true (.announced station (.actionApplied place (infer other))) ≠
            lineOf? filter true (.announced id (.actionApplied path (infer literal))) := by
  have denoted := infer_denoted literal
  refine ⟨other_read_back _ denoted, number_read_back _ denoted bounded, fun other apart => ?_⟩
  have distinct : ¬ (infer other = infer literal ∨ (infer other).Infinite ∧ (infer literal).Infinite) :=
    fun told => told.elim apart fun both => bounded both.2
  constructor
  · intro same
    have read := Json.read_render (infer other).toJson
    rw [same, Json.read_render] at read
    exact distinct (told_apart _ _ (infer_denoted other) denoted (Option.some.inj read).symm)
  · intro filter id station path place same
    have lines := Invocation.Line.text.inj (Option.some.inj same)
    exact distinct (event_told place path _ _ (infer_denoted other) denoted lines)

theorem half_comes_back : infer "2.5" = number 2.5 ∧
    ofJsonText? (infer "2.5").toJson.render = some (number 2.5) ∧
    (infer "2.50000000000000044").toJson.render ≠ (infer "2.5").toJson.render := by
  have value : infer "2.5" = number 2.5 := by decide +kernel
  have finite : ∀ negative, Number.exact 2.5 ≠ .infinite negative := by decide +kernel
  have bounded : ¬ (infer "2.5").Infinite := by
    rw [value]
    exact fun ⟨negative, infinite⟩ => finite negative infinite
  obtain ⟨_, numbers, apart⟩ := json_tells_values "2.5" bounded
  obtain ⟨numeral, found, tells, read, exact⟩ := numbers 2.5 value
  have classified : Number.exact 2.5 = .finite false (5 * 2 ^ 1073) := by decide +kernel
  have spelled : Literal.ofQuanta false (5 * 2 ^ 1073) = ⟨false, ['2'], ['5'], none⟩ := by decide +kernel
  have written : Document.read (Json.numberText 2.5) = some (.number ⟨false, ['2'], ['5'], none⟩) := by
    rw [← spelled]
    refine (Json.read_render (.number 2.5)).trans (congrArg some ?_)
    rw [Json.Tree.document, Json.ofNumber, classified]
  obtain rfl : numeral = ⟨false, ['2'], ['5'], none⟩ :=
    Document.number.inj (Option.some.inj (tells.read.symm.trans written))
  obtain rfl := exact ⟨⟨25, 0, by decide, rfl⟩, by decide⟩
  exact ⟨value, read, (apart "2.50000000000000044" (by decide +kernel)).1⟩

-- The digits of the greatest odd significand are rounded with the zero that stands behind their point, and the
-- infinite numbers have one text between them, which holds no number.
theorem json_loses_values :
    infer "9007199254740991" = number 9007199254740991 ∧
      ofJsonText? (infer "9007199254740991").toJson.render = some (number 9007199254740990) ∧
      number 9007199254740990 ≠ number 9007199254740991 ∧
      infer "1e999" ≠ infer "-1e999" ∧ (infer "1e999").toJson.render = (infer "-1e999").toJson.render ∧
      ofJsonText? (infer "1e999").toJson.render = none := by
  decide +kernel

end Interlock.Value
