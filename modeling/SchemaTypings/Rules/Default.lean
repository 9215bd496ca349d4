import SchemaTypings.Declaration
import SchemaTypings.Rules.Context

/-!
# Default rules

What is made of an element unless a rule says otherwise. The defaults are there
to be called, so that a rule can fall back on the one it replaces.
-/

namespace SchemaTypings

/-! ### Types of fields -/

/-- A field's type as text, and whether the field may be missing. -/
structure FieldType where
  text : String
  isOptional : Bool
deriving DecidableEq, Repr

/-- The text for the type a field refers to. A scalar is rendered by its rule;
every other definition is referred to by name. A standard scalar need not be in
the schema. -/
def baseText (field : Field) (name : String) (context : Context) : Answer :=
  match context.schema.find? name with
  | some (.scalar scalar) => context.render (.scalar scalar)
  | some definition => .ok definition.name
  | none =>
    match StandardScalar.ofName? name with
    | some standard => context.render (.scalar (.ofStandard standard))
    | none => .error (.unknownType context.parentName field.name name)

def resolve (field : Field) (context : Context) : Except GenerateError FieldType :=
  match field.type.unwrap? with
  | none => .error (.unsupportedShape context.parentName field.name field.type)
  | some ⟨name, isNonNull, isList⟩ => do
    let base ← baseText field name context
    return ⟨if isList then arrayOf base else base, !isNonNull⟩

namespace Default

/-! ### Scalars and enumerations -/

/-- A standard scalar is used as its primitive type, another one by its name. -/
def scalar : Rule Scalar := fun scalar _ =>
  match scalar.standard? with
  | some standard => .ok standard.primitive
  | none => .ok scalar.name

/-- A scalar is declared as an alias of `string`; standard scalars need no
declaration. -/
def scalarDef : Rule Scalar := fun scalar _ =>
  if scalar.isStandard then .ok "" else .ok (Declaration.typeAlias scalar.name "string").render

def enumeration : Rule Enumeration := fun enumeration _ =>
  .ok (Declaration.enumeration enumeration.name enumeration.values false).render

/-! ### Records -/

/-- A field is a property, optional unless its type is non-null. -/
def field : Rule Field := fun field context => do
  let type ← resolve field context
  return Member.line ⟨field.name, type.text, type.isOptional, false⟩

/-- A record is an exported interface of what its fields are rendered to; a field
rendered to nothing is left out. -/
def record : Rule Record := fun record context => do
  let context := context.within record.name
  let members ← record.fields.toList.mapM fun field => context.render (.field field)
  let members := members.filter fun member => !member.isEmpty
  return (Declaration.interface record.name record.interfaces members true).render

end Default

end SchemaTypings
