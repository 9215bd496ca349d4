import SchemaTypings.Definition

/-!
# Schemas

A schema lists definitions in declaration order, at most one of each name. Names
that begin with two underscores are reserved for introspection.
-/

namespace SchemaTypings

/-- The mark of a name that belongs to introspection. -/
def reservedMark : List Char := ['_', '_']

def isReserved (name : String) : Bool :=
  reservedMark.isPrefixOf name.toList

/-- Definitions in declaration order, at most one of each name. -/
abbrev Schema := NamedList Definition

namespace Schema

def visible (schema : Schema) : List Definition :=
  schema.toList.filter fun definition => !isReserved definition.name

/-- The same definitions, whatever the order of definitions and of fields. -/
def same (a b : Schema) : Bool :=
  a.sameMembers Definition.same b

end Schema

end SchemaTypings
