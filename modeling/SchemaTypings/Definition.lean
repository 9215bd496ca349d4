import SchemaTypings.NamedList
import SchemaTypings.TypeRef

/-!
# Definitions

A schema consists of named definitions: scalars, enumerations, and records,
which are object types or interface types. The five standard scalars exist in
every schema, whether it declares them or not.
-/

namespace SchemaTypings

/-! ### Scalars -/

/-- The scalars every GraphQL schema provides. -/
inductive StandardScalar where
  | string
  | int
  | float
  | boolean
  | id
deriving DecidableEq, Repr

namespace StandardScalar

/-- All standard scalars, in the order in which a loaded schema lists them. -/
def all : List StandardScalar := [string, int, float, boolean, id]

def name : StandardScalar → String
  | string => "String"
  | int => "Int"
  | float => "Float"
  | boolean => "Boolean"
  | id => "ID"

/-- The standard scalar of a name; names are compared exactly. -/
def ofName? (name : String) : Option StandardScalar :=
  all.find? fun scalar => scalar.name == name

theorem ofName?_eq_some_iff {name : String} {scalar : StandardScalar} :
    ofName? name = some scalar ↔ scalar.name = name := by
  constructor
  · intro found
    simpa using List.find?_some found
  · rintro rfl
    cases scalar <;> rfl

end StandardScalar

structure Scalar where
  name : String
deriving DecidableEq, Repr

namespace Scalar

/-- The standard scalar that this type is, by its name. -/
def standard? (scalar : Scalar) : Option StandardScalar :=
  StandardScalar.ofName? scalar.name

def isStandard (scalar : Scalar) : Bool :=
  scalar.standard?.isSome

def ofStandard (scalar : StandardScalar) : Scalar := ⟨scalar.name⟩

end Scalar

/-! ### Enumerations and records -/

/-- An enumeration with its values in order. -/
structure Enumeration where
  name : String
  values : List String
deriving DecidableEq, Repr

structure Field where
  name : String
  type : TypeRef
deriving DecidableEq, Repr

instance : Named Field := ⟨Field.name⟩

/-- An object or interface type: its fields, and the interfaces it implements,
both in order. -/
structure Record where
  name : String
  fields : NamedList Field
  interfaces : List String

namespace Record

def ofName (name : String) : Record := ⟨name, .empty, []⟩

/-- Adds a field; a field of the same name is replaced where it stands. -/
def withField (record : Record) (name : String) (type : TypeRef) : Record :=
  { record with fields := record.fields.insert ⟨name, type⟩ }

def implementing (record : Record) (interface : String) : Record :=
  { record with interfaces := record.interfaces ++ [interface] }

/-- The same record up to the order of its fields. -/
def same (a b : Record) : Bool :=
  a.name == b.name && a.fields.sameMembers (· == ·) b.fields && a.interfaces == b.interfaces

end Record

/-! ### Definitions -/

inductive Kind where
  | scalar
  | enumeration
  | object
  | interface
deriving DecidableEq, Repr

/-- The word for a kind in reports and logs. -/
def Kind.label : Kind → String
  | scalar => "scalar"
  | enumeration => "enum"
  | object => "object"
  | interface => "interface"

inductive Definition where
  | scalar (scalar : Scalar)
  | enumeration (enumeration : Enumeration)
  | object (record : Record)
  | interface (record : Record)

namespace Definition

def name : Definition → String
  | scalar s => s.name
  | enumeration e => e.name
  | object r => r.name
  | interface r => r.name

def kind : Definition → Kind
  | scalar _ => .scalar
  | enumeration _ => .enumeration
  | object _ => .object
  | interface _ => .interface

/-- The fields of an object or interface; other definitions have none. -/
def fields : Definition → List Field
  | object r => r.fields.toList
  | interface r => r.fields.toList
  | _ => []

/-- The same definition up to the order of fields. -/
def same : Definition → Definition → Bool
  | scalar a, scalar b => a == b
  | enumeration a, enumeration b => a == b
  | object a, object b => a.same b
  | interface a, interface b => a.same b
  | _, _ => false

end Definition

instance : Named Definition := ⟨Definition.name⟩

end SchemaTypings
