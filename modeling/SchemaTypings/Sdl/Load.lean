import SchemaTypings.Schema
import SchemaTypings.Sdl.Fault
import SchemaTypings.Sdl.Grammar

/-!
# Loading a schema

A text becomes a schema in two steps. `parse` reads it as a document and checks
the numbers and schema blocks. `define` turns the type declarations, in order,
into definitions and refuses the first declaration that is an extension, that
repeats a name, that has no counterpart among the definitions, or that declares
two fields of one name. Standard scalars that the document does not declare come
first.
-/

namespace SchemaTypings.Sdl

open Text

/-! ### Documents -/

def checkNumbers (numbers : List Number) : Except Fault Unit :=
  match numbers.find? fun number => number.value.overflows with
  | some number => .error (.infiniteNumber number.left)
  | none => .ok ()

/-- Refuses a second root of an operation; `seen` are the operations that have one. -/
def checkRoots (seen : List Operation) : List (Located Operation) → Except Fault Unit
  | [] => .ok ()
  | root :: rest =>
    if seen.contains root.value then .error (.repeatedRoot root)
    else checkRoots (root.value :: seen) rest

/-- Refuses a schema block with a fault in its numbers or its roots. A block that
is no extension has to name a root for queries. -/
def SchemaBlock.check (block : SchemaBlock) : Except Fault Unit := do
  checkNumbers block.numbers
  checkRoots [] block.roots
  if block.isExtension || block.roots.any fun root => root.value == .query then .ok ()
  else .error (.missingQuery block.left)

def Item.check : Item → Except Fault Unit
  | schema block => block.check
  | type _ numbers => checkNumbers numbers
  | directive numbers => checkNumbers numbers

def parse (text : List Char) : Except Fault Document :=
  match document text with
  | ⟨stuck, none⟩ => .error (.offGrammar (stuck.getD text.length))
  | ⟨_, some (items, _)⟩ => do
    items.forM Item.check
    return items

/-! ### Definitions -/

/-- The fields of a type, no two of one name. -/
def defineFields (typeName : String) (declared : List FieldDecl) :
    Except Fault (NamedList Field) :=
  declared.foldlM
    (fun fields field =>
      if fields.contains field.name.value then .error (.duplicateField typeName field.name)
      else .ok (fields.insert ⟨field.name.value, field.type⟩))
    .empty

/-- The definition that a declaration stands for. -/
def TypeDecl.define (declaration : TypeDecl) : Except Fault Definition :=
  let name := declaration.name.value
  match declaration.body with
  | .scalar => .ok (.scalar ⟨name⟩)
  | .enumeration values => .ok (.enumeration ⟨name, values⟩)
  | .object fields interfaces => do
    return .object ⟨name, ← defineFields name fields, interfaces⟩
  | .interface fields interfaces => do
    return .interface ⟨name, ← defineFields name fields, interfaces⟩
  | .union => .error (.unsupported .union declaration.name)
  | .inputObject => .error (.unsupported .inputObject declaration.name)

/-- Adds the definitions of declarations to a schema, in order; `seen` are the
names declared before. -/
def defineFrom : (seen : List (Located String)) → Schema → List TypeDecl → Except Fault Schema
  | _, schema, [] => .ok schema
  | seen, schema, declaration :: rest =>
    if declaration.isExtension then .error (.unsupported .typeExtension declaration.name)
    else
      match seen.find? fun earlier => earlier.value == declaration.name.value with
      | some first => .error (.duplicateType first declaration.name)
      | none => do
        let definition ← declaration.define
        defineFrom (declaration.name :: seen) (schema.insert definition) rest

/-- The standard scalars that no declaration names. -/
def missingScalars (declarations : List TypeDecl) : List StandardScalar :=
  StandardScalar.all.filter fun scalar =>
    !declarations.any fun declaration => declaration.name.value == scalar.name

/-- The schema that declarations define, behind the standard scalars they leave out. -/
def define (declarations : List TypeDecl) : Except Fault Schema :=
  let given : Schema :=
    .ofList ((missingScalars declarations).map fun scalar => .scalar (.ofStandard scalar))
  defineFrom [] given declarations

/-! ### Sources -/

def schemaOf (text : List Char) : Except Fault Schema := do
  let document ← parse text
  define document.types

def load (source : Source) : Except LoadError Schema :=
  (schemaOf source.text.toList).mapError (.refused source)

end SchemaTypings.Sdl
