import ChatCommands.Json.Basic
import ChatCommands.Number.Shortest

/-!
What can be wrong with a value that is checked against a schema.

A check reports every issue it finds, each with its place in the value, and it succeeds only if
there is none.  Checks combine so that issues come in the order of the parts.
-/

namespace ChatCommands.Schema

/-- One step from a value to a part of it. -/
inductive Step
  | name (t : Text)
  | index (n : Nat)
  deriving DecidableEq, Repr

/-- The kinds of issues. -/
inductive Kind
  | missing
  | unknownField
  | stringType
  | stringUnicode
  | stringTooShort (least : Nat)
  | stringTooLong (most : Nat)
  | intType
  | intParsing
  | intFromFraction
  | intSize
  | finiteNumber
  | floatType
  | floatParsing
  | boolType
  | boolParsing
  | setType
  | dictType
  | listType
  | recordType (record : String)
  | oneOf (names : List String)
  | atLeast (bound : Binary64)
  | atMost (bound : Binary64)
  | above (bound : Binary64)
  | rule (message : Text)
  | frozen
  deriving DecidableEq, Repr

/-- An issue and the way to it from the whole value. -/
structure Issue where
  path : List Step
  kind : Kind
  deriving DecidableEq, Repr

/-- Names in single quotes, the last two joined by "or". -/
def alternatives : List String → Text
  | [] => []
  | [a] => quote a
  | [a, b] => quote a ++ text " or " ++ quote b
  | a :: rest => quote a ++ text ", " ++ alternatives rest
where
  /-- A name in single quotes. -/
  quote (s : String) : Text := text "'" ++ text s ++ text "'"

/-- The short name of a kind. -/
def Kind.code : Kind → String
  | .missing => "missing"
  | .unknownField => "extra_forbidden"
  | .stringType => "string_type"
  | .stringUnicode => "string_unicode"
  | .stringTooShort _ => "string_too_short"
  | .stringTooLong _ => "string_too_long"
  | .intType => "int_type"
  | .intParsing => "int_parsing"
  | .intFromFraction => "int_from_float"
  | .intSize => "int_parsing_size"
  | .finiteNumber => "finite_number"
  | .floatType => "float_type"
  | .floatParsing => "float_parsing"
  | .boolType => "bool_type"
  | .boolParsing => "bool_parsing"
  | .setType => "frozen_set_type"
  | .dictType => "dict_type"
  | .listType => "list_type"
  | .recordType _ => "model_type"
  | .oneOf _ => "enum"
  | .atLeast _ => "greater_than_equal"
  | .atMost _ => "less_than_equal"
  | .above _ => "greater_than"
  | .rule _ => "value_error"
  | .frozen => "frozen_instance"

/-- "n character" or "n characters". -/
def characters (n : Nat) : Text :=
  Text.ofNat n ++ text (if n = 1 then " character" else " characters")

/-- The wording of a kind. -/
def Kind.message : Kind → Text
  | .missing => text "Field required"
  | .unknownField => text "Extra inputs are not permitted"
  | .stringType => text "Input should be a valid string"
  | .stringUnicode =>
    text "Input should be a valid string, unable to parse raw data as a unicode string"
  | .stringTooShort n => text "String should have at least " ++ characters n
  | .stringTooLong n => text "String should have at most " ++ characters n
  | .intType => text "Input should be a valid integer"
  | .intParsing => text "Input should be a valid integer, unable to parse string as an integer"
  | .intFromFraction =>
    text "Input should be a valid integer, got a number with a fractional part"
  | .intSize => text "Unable to parse input string as an integer, exceeded maximum size"
  | .finiteNumber => text "Input should be a finite number"
  | .floatType => text "Input should be a valid number"
  | .floatParsing => text "Input should be a valid number, unable to parse string as a number"
  | .boolType => text "Input should be a valid boolean"
  | .boolParsing => text "Input should be a valid boolean, unable to interpret input"
  | .setType => text "Input should be a valid frozenset"
  | .dictType => text "Input should be a valid dictionary"
  | .listType => text "Input should be a valid list"
  | .recordType record => text "Input should be a valid dictionary or instance of " ++ text record
  | .oneOf names => text "Input should be " ++ alternatives names
  | .atLeast b => text "Input should be greater than or equal to " ++ b.renderBrief
  | .atMost b => text "Input should be less than or equal to " ++ b.renderBrief
  | .above b => text "Input should be greater than " ++ b.renderBrief
  | .rule message => text "Value error, " ++ message
  | .frozen => text "Instance is frozen"

/-- The outcome of a check: the value it accepts, or the issues it found. -/
inductive Checked (α : Type) where
  | ok (a : α)
  | issues (found : List Issue)

namespace Checked

variable {α β : Type}

/-- Applies a function to the accepted value. -/
def map (f : α → β) : Checked α → Checked β
  | ok a => ok (f a)
  | issues is => issues is

/-- Both checks are made, and the issues of both are reported. -/
def seq (f : Checked (α → β)) (x : Checked α) : Checked β :=
  match f, x with
  | ok f, ok a => ok (f a)
  | ok _, issues is => issues is
  | issues is, ok _ => issues is
  | issues is, issues js => issues (is ++ js)

instance : Applicative Checked where
  pure := ok
  map := map
  seq f x := seq f (x ())

/-- A single issue at the value itself. -/
def fail (k : Kind) : Checked α := issues [⟨[], k⟩]

/-- The issues as seen from a value that has the checked one at `step`. -/
def under (step : Step) : Checked α → Checked α
  | ok a => ok a
  | issues is => issues (is.map fun i => { i with path := step :: i.path })

/-- A further check of the accepted value. -/
def andThen (x : Checked α) (f : α → Checked β) : Checked β :=
  match x with
  | ok a => f a
  | issues is => issues is

/-- Every item is checked; the results keep their order. -/
def all : List (Checked α) → Checked (List α)
  | [] => ok []
  | c :: rest => seq (map List.cons c) (all rest)

/-- The accepted value, if any. -/
def value? : Checked α → Option α
  | ok a => some a
  | issues _ => none

/-- The issues found. -/
def found : Checked α → List Issue
  | ok _ => []
  | issues is => is

end Checked

end ChatCommands.Schema
