import SchemaTypings.Rules.Default

/-!
# Effective rules

A caller may override the rule of any kind of element; the other kinds keep their
default. Wherever an element is rendered, by the generator or by a rule that asks
for it, the effective rule of its kind renders it.
-/

namespace SchemaTypings

/-! ### Overrides -/

/-- Rules that replace defaults. Rules that ask for others do so in chains; `spare` is
how many links a chain of them may have beyond those that the defaults need. Chains
that end do so after some number of links, and any greater one will do as well. -/
structure Overrides where
  scalar : Option (Rule Scalar) := none
  scalarDef : Option (Rule Scalar) := none
  enumeration : Option (Rule Enumeration) := none
  field : Option (Rule Field) := none
  interface : Option (Rule Record) := none
  object : Option (Rule Record) := none
  spare : Nat := 64

namespace Overrides

def none : Overrides := {}

/-- The same rules with other links to spare. -/
def sparing (overrides : Overrides) (spare : Nat) : Overrides :=
  { overrides with spare := spare }

def keys (overrides : Overrides) : List String :=
  [ ("scalar", overrides.scalar.isSome),
    ("scalar_def", overrides.scalarDef.isSome),
    ("enum_type", overrides.enumeration.isSome),
    ("field", overrides.field.isSome),
    ("interface", overrides.interface.isSome),
    ("object", overrides.object.isSome) ].filterMap fun (key, isSet) =>
      if isSet then some key else Option.none

/-- The overrides in short: the keys, each in quotes. -/
def summary (overrides : Overrides) : String :=
  "Generators \x7b overridden: ["
    ++ String.intercalate ", " (overrides.keys.map fun key => "\"" ++ key ++ "\"") ++ "] \x7d"

end Overrides

/-! ### Effective rules -/

/-- A rule for every kind of element, and the links to spare in a chain of rules. -/
structure Rules where
  scalar : Rule Scalar
  scalarDef : Rule Scalar
  enumeration : Rule Enumeration
  field : Rule Field
  interface : Rule Record
  object : Rule Record
  spare : Nat

namespace Rules

def default : Rules where
  scalar := Default.scalar
  scalarDef := Default.scalarDef
  enumeration := Default.enumeration
  field := Default.field
  interface := Default.record
  object := Default.record
  spare := 64

/-- The default rules with some of them replaced. -/
def overriding (overrides : Overrides) : Rules where
  scalar := overrides.scalar.getD default.scalar
  scalarDef := overrides.scalarDef.getD default.scalarDef
  enumeration := overrides.enumeration.getD default.enumeration
  field := overrides.field.getD default.field
  interface := overrides.interface.getD default.interface
  object := overrides.object.getD default.object
  spare := overrides.spare

/-- Renders an element by the rule of its kind. The rule of a record sees the
record itself as parent. -/
def apply (rules : Rules) (element : Element) (context : Context) : Answer :=
  match element with
  | .scalar s => rules.scalar s context
  | .scalarDef s => rules.scalarDef s context
  | .enumeration e => rules.enumeration e context
  | .field f => rules.field f context
  | .object r => rules.object r (context.within r.name)
  | .interface r => rules.interface r (context.within r.name)

/-- What the rules make of an element, where a rule may ask for another element up
to `depth` times in a chain. -/
def answer (rules : Rules) (moduleName : String) (schema : Schema) :
    (depth : Nat) → Option String → Element → Answer
  | 0, _, _ => .error .endlessRules
  | depth + 1, parent, element =>
    rules.apply element ⟨moduleName, schema, parent, rules.answer moduleName schema depth⟩

/-- The context in which a module is generated. The default rules ask for each other
in chains of three links: a record, its fields, and their scalars. -/
def context (rules : Rules) (moduleName : String) (schema : Schema) : Context :=
  ⟨moduleName, schema, Option.none, rules.answer moduleName schema (rules.spare + 3)⟩

end Rules

end SchemaTypings
