import SchemaTypings.Number.ScaledWord
import SchemaTypings.Text.Reader
import SchemaTypings.TypeRef

/-!
# Schema documents

What a text in the GraphQL schema definition language says, as far as it
matters: the types it declares, with the places of their names; the roots of its
schema blocks; and the numbers that occur in directives and default values,
which have to be finite, whatever their sign. Descriptions, arguments, directives and defaults
themselves are not kept.
-/

namespace SchemaTypings.Sdl

open Text

/-- A number written in a directive or a default value, without its sign. -/
abbrev Number := Located ScaledWord

/-- The operations a schema block can give a root to. -/
inductive Operation where
  | query
  | mutation
  | subscription
deriving DecidableEq, Repr

def Operation.keyword : Operation → String
  | query => "query"
  | mutation => "mutation"
  | subscription => "subscription"

structure FieldDecl where
  name : Located String
  type : TypeRef
deriving DecidableEq, Repr

inductive Body where
  | scalar
  | enumeration (values : List String)
  | object (fields : List FieldDecl) (interfaces : List String)
  | interface (fields : List FieldDecl) (interfaces : List String)
  | union
  | inputObject
deriving DecidableEq, Repr

/-- A type declaration, or an extension of a type that is declared elsewhere. -/
structure TypeDecl where
  name : Located String
  isExtension : Bool
  body : Body
deriving DecidableEq, Repr

/-- A schema block, or an extension of one: the roots it names, after the numbers
in its directives. -/
structure SchemaBlock where
  left : Nat
  isExtension : Bool
  numbers : List Number
  roots : List (Located Operation)
deriving DecidableEq, Repr

/-- One of the parts a document consists of. -/
inductive Item where
  | schema (block : SchemaBlock)
  | type (declaration : TypeDecl) (numbers : List Number)
  | directive (numbers : List Number)
deriving DecidableEq, Repr

/-- The parts of a text, in order. -/
abbrev Document := List Item

def Document.types (document : Document) : List TypeDecl :=
  document.filterMap fun
    | .type declaration _ => some declaration
    | _ => none

end SchemaTypings.Sdl
