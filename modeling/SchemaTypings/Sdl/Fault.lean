import SchemaTypings.Sdl.Document
import SchemaTypings.Text.Source

/-!
# What is wrong with a schema text

`Fault` lists the reasons for which a text is refused, each with the places that
show it. `LoadError` is a refusal together with the text, ready to be reported:
its message, its code, a hint, and labelled spans of bytes.

A place found by the grammar counts lines by line feeds alone. A place that
belongs to a token was counted with carriage returns that go back to column one,
so behind a carriage return without line feed its span begins too early.
-/

namespace SchemaTypings.Sdl

open Text

/-- Declarations that have no counterpart among the definitions. -/
inductive Unsupported where
  | typeExtension
  | union
  | inputObject
deriving DecidableEq, Repr

def Unsupported.label : Unsupported → String
  | typeExtension => "type extension"
  | union => "union"
  | inputObject => "input object"

inductive Fault where
  /-- The text does not follow the grammar; `left` characters remain from the
  furthest place where a rule failed. -/
  | offGrammar (left : Nat)
  /-- A number is too large for floating point. -/
  | infiniteNumber (left : Nat)
  /-- A schema block gives a second root to an operation. -/
  | repeatedRoot (operation : Located Operation)
  /-- A schema block gives no root to queries. -/
  | missingQuery (left : Nat)
  /-- A declaration of a kind that has no definition. -/
  | unsupported (kind : Unsupported) (name : Located String)
  /-- A name is declared twice. -/
  | duplicateType (first second : Located String)
  /-- A type declares two fields of one name. -/
  | duplicateField (typeName : String) (field : Located String)
deriving DecidableEq, Repr

def defaultSourceName : String := "schema.graphql"

inductive LoadError where
  /-- The file at `path` is missing or holds no text. -/
  | unreadable (path : String)
  /-- The text was refused. -/
  | refused (source : Source) (fault : Fault)
deriving DecidableEq, Repr

/-! ### Spans -/

/-- The reported offset of a place that the grammar found. -/
def grammarOffset (text : List Char) (left : Nat) : Nat :=
  byteOffset text (Position.after (textBefore text left))

/-- The reported offset of a token. -/
def tokenOffset (text : List Char) (left : Nat) : Nat :=
  byteOffset text (Position.afterReturns (textBefore text left))

def nameLabel (text : List Char) (remark : String) (name : Located String) : Label :=
  ⟨remark, tokenOffset text name.left, name.value.utf8ByteSize⟩

/-- The remarks on a text that show a fault. -/
def Fault.labels (text : List Char) : Fault → List Label
  | offGrammar left => [⟨"parse error here", grammarOffset text left, 0⟩]
  | infiniteNumber left => [⟨"parse error here", tokenOffset text left, 0⟩]
  | repeatedRoot operation => [⟨"parse error here", tokenOffset text operation.left, 0⟩]
  | missingQuery left => [⟨"parse error here", tokenOffset text left, 0⟩]
  | unsupported kind name => [nameLabel text ("unsupported " ++ kind.label) name]
  | duplicateType first second =>
    [nameLabel text "first defined here" first, nameLabel text "defined again here" second]
  | duplicateField _ field => [nameLabel text "duplicate field" field]

/-! ### Messages -/

/-- What went wrong while reading the text; the other faults were found later. -/
def Fault.cause? : Fault → Option String
  | offGrammar _ => some "syntax error"
  | infiniteNumber _ => some "syntax error"
  | repeatedRoot operation =>
    some ("multiple " ++ operation.value.keyword ++ " roots in schema definition")
  | missingQuery _ => some "schema definition is missing query root"
  | _ => none

def Fault.message : Fault → String
  | unsupported kind name => kind.label ++ " '" ++ name.value ++ "' cannot be translated to TypeScript"
  | duplicateType _ second => "type '" ++ second.value ++ "' is defined more than once"
  | duplicateField typeName field =>
    "field '" ++ field.value ++ "' is defined more than once on '" ++ typeName ++ "'"
  | _ => "failed to parse GraphQL schema"

def Fault.code : Fault → String
  | unsupported _ _ => "gqlts::unsupported_definition"
  | duplicateType _ _ => "gqlts::duplicate_type"
  | duplicateField _ _ => "gqlts::duplicate_field"
  | _ => "gqlts::parse_error"

def Fault.help? : Fault → Option String
  | unsupported _ _ => some "only scalars, enums, object types and interfaces are supported"
  | _ => none

namespace LoadError

def message : LoadError → String
  | unreadable path => "failed to read '" ++ path ++ "'"
  | refused _ fault => fault.message

def code : LoadError → String
  | unreadable _ => "gqlts::io"
  | refused _ fault => fault.code

def help? : LoadError → Option String
  | unreadable _ => none
  | refused _ fault => fault.help?

def labels : LoadError → List Label
  | unreadable _ => []
  | refused source fault => fault.labels source.text.toList

end LoadError

end SchemaTypings.Sdl
