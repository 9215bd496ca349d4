import SchemaTypings.Number.Binary
import SchemaTypings.Toml.Datetime

/-!
# TOML values

The values of a TOML document, with the places of keys and values, and the
statements that a document is written as.
-/

namespace SchemaTypings.Toml

/-- A stretch of a text, by the characters left from its start and from its end. -/
structure Span where
  start : Nat
  stop : Nat
deriving DecidableEq, Repr

structure Key where
  name : String
  span : Span
deriving DecidableEq, Repr

inductive FloatValue where
  | finite (value : Decimal)
  | infinite (negative : Bool)
  | notANumber
deriving DecidableEq, Repr

/-- How a table came about: by a header, as a step on the way of a longer header,
as a step of a dotted key, or in braces. -/
inductive Origin where
  | header
  | implied
  | dotted
  | inline
deriving DecidableEq, Repr

/-- A value. The tables of one array of tables are listed in order; a value in
brackets is an array. Where a number is written that has no value, the document is
none the worse for it as long as nobody looks at that number. -/
inductive Value where
  | string (text : String)
  | integer (value : Int)
  | float (value : FloatValue)
  | boolean (value : Bool)
  | datetime (value : Datetime)
  | unreadable
  | array (items : List (Span × Value))
  | tables (items : List (List (Key × Span × Value)))
  | table (origin : Origin) (entries : List (Key × Span × Value))

/-- The keys of a table with their values. -/
abbrev Entries := List (Key × Span × Value)

/-- A line of a document that says something. The keys that lead to `key` are its
`parents`. -/
inductive Statement where
  | header (parents : List Key) (key : Key) (span : Span)
  | arrayHeader (parents : List Key) (key : Key) (span : Span)
  | assignment (parents : List Key) (key : Key) (span : Span) (value : Value)

end SchemaTypings.Toml
