import SchemaTypings.Schema
import SchemaTypings.Sdl.Fault

/-!
# Rules and what they see

A rule renders one element of a schema to text, or fails. Besides the element it
sees a context: the schema, the name of the module being generated, the record
whose fields are being rendered, and the effective rules, so that one rule can
ask for what another makes of an element.
-/

namespace SchemaTypings

/-- Reasons for which generation fails. A failure leaves no text behind. -/
inductive GenerateError where
  /-- A field type with more wrappers than a declaration can express. -/
  | unsupportedShape (parent field : String) (type : TypeRef)
  /-- A field refers to a type that the schema does not define. -/
  | unknownType (parent field name : String)
  /-- A rule failed on its own account. -/
  | rule (message : String)
  /-- Rules asked for each other in a longer chain than the generator follows. -/
  | endlessRules
  /-- The schema could not be loaded. -/
  | schema (error : Sdl.LoadError)
deriving DecidableEq, Repr

def GenerateError.message : GenerateError → String
  | unsupportedShape parent field type =>
    "unsupported schema type shape '" ++ type.spelling ++ "' on field '" ++ parent ++ "." ++ field
      ++ "'"
  | unknownType parent field name =>
    "unknown type '" ++ name ++ "' referenced by field '" ++ parent ++ "." ++ field ++ "'"
  | rule message => message
  | endlessRules => "generation rules ask for each other without end"
  | schema error => error.message

abbrev Answer := Except GenerateError String

/-- An element of a schema, by the rule that renders it. A scalar is rendered in
two ways: where it is used, and where it is declared. -/
inductive Element where
  | scalar (scalar : Scalar)
  | scalarDef (scalar : Scalar)
  | enumeration (enumeration : Enumeration)
  | field (field : Field)
  | object (record : Record)
  | interface (record : Record)

def Definition.element : Definition → Element
  | scalar s => .scalarDef s
  | enumeration e => .enumeration e
  | object r => .object r
  | interface r => .interface r

/-- What a rule sees besides its element. -/
structure Context where
  moduleName : String
  schema : Schema
  /-- The record whose fields are being rendered. -/
  parent : Option String
  /-- What the effective rules make of an element below a parent. -/
  effective : Option String → Element → Answer

namespace Context

/-- The same context for the fields of a record. -/
def within (context : Context) (parent : String) : Context :=
  { context with parent := some parent }

/-- What the effective rules make of an element here. -/
def render (context : Context) (element : Element) : Answer :=
  context.effective context.parent element

/-- The parent as errors name it: empty where there is none. -/
def parentName (context : Context) : String :=
  context.parent.getD ""

end Context

abbrev Rule (α : Type) := α → Context → Answer

end SchemaTypings
