/-!
# Type references

A field refers to a type by name, wrapped any number of times as a list or as
non-null. `TypeRef.spelling` writes a reference the way GraphQL does, and
`TypeRef.unwrap?` takes apart the references a declaration can express: at most
one list, with at most one non-null mark outside it and one on its items.
-/

namespace SchemaTypings

/-- A named type, possibly wrapped as a list or as non-null. -/
inductive TypeRef where
  | named (name : String)
  | list (item : TypeRef)
  | nonNull (inner : TypeRef)
deriving DecidableEq, Repr, Inhabited

namespace TypeRef

/-- The name at the end of the wrappers. -/
def baseName : TypeRef → String
  | named name => name
  | list item => item.baseName
  | nonNull inner => inner.baseName

/-- The outermost wrapper is the non-null mark. -/
def isNonNull : TypeRef → Bool
  | nonNull _ => true
  | _ => false

/-- GraphQL spelling: a list in brackets, a non-null mark as a trailing `!`. -/
def spelling : TypeRef → String
  | named name => name
  | list item => "[" ++ item.spelling ++ "]"
  | nonNull inner => inner.spelling ++ "!"

def listDepth : TypeRef → Nat
  | named _ => 0
  | list item => item.listDepth + 1
  | nonNull inner => inner.listDepth

/-- A reference without its wrappers, and what the wrappers said. -/
structure Unwrapped where
  name : String
  isNonNull : Bool
  isList : Bool
deriving DecidableEq, Repr

/-- The name of a list item: a named type, or a non-null named type. A
declaration has no way to say that an item is non-null, so the mark is dropped. -/
def itemName? : TypeRef → Option String
  | named name => some name
  | nonNull (named name) => some name
  | _ => none

/-- The name below an outer non-null mark, and whether a list stands between. -/
def nullable? : TypeRef → Option (String × Bool)
  | named name => some (name, false)
  | list item => item.itemName?.map fun name => (name, true)
  | nonNull _ => none

/-- Takes apart a reference of the form `n`, `n!`, `[n]`, `[n]!`, `[n!]` or
`[n!]!`; every other form has none. -/
def unwrap? : TypeRef → Option Unwrapped
  | nonNull inner => inner.nullable?.map fun (name, isList) => ⟨name, true, isList⟩
  | ty => ty.nullable?.map fun (name, isList) => ⟨name, false, isList⟩

end TypeRef

end SchemaTypings
